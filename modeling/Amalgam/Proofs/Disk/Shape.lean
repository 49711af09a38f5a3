import Mathlib
import Amalgam.Discovery
import Amalgam.Disk.Edit
import Amalgam.Proofs.Steps

/-!
# What a search sees of a disk

A search follows paths, lists directories and asks for the kind of what it finds. It never looks into
a file. So two disks that differ in nothing but the bytes of their files give it the same, links and
faults included.

Main results:

* `locate_congr`, `walk_congr`: a path leads to the same place, and a walk passes the same paths.
* `resolvePaths_of_sameShape`, `gather_of_sameShape`: a configuration means the same paths, and the
  same sources are found.
-/

namespace Amalgam

/-- A node without the bytes of a file. -/
def Node.blank : Node → Node
  | .file _ => .file []
  | .dir => .dir
  | .link target => .link target

namespace Disk

/-- Whether two disks differ in nothing but the bytes of their files. -/
structure SameShape (d e : Disk) : Prop where
  cwd : e.cwd = d.cwd
  node : ∀ l, e.node? l = d.node? l ∨
    ∃ bytes other, d.node? l = some (.file bytes) ∧ e.node? l = some (.file other)

variable {d e : Disk}

/-- A file whose name is no text lies beside the nodes. -/
theorem sameShape_stray (d : Disk) (location : Location) (name : RawName) :
    SameShape d (d.stray location name) :=
  ⟨cwd_stray d location name, fun l => .inl (node?_stray d location name l)⟩

/-! ## Following -/

theorem follow_congr (h : SameShape d e) (want : Purpose)
    (onLink : Location → Path → List String → Except Fault Location) (here : Location)
    (names : List String) : e.follow want onLink here names = d.follow want onLink here names := by
  induction names generalizing here with
  | nil => rfl
  | cons name rest ih =>
    rw [follow, follow]
    rcases h.node here with hhere | ⟨_, _, hd, he⟩
    · rw [hhere]
      rcases h.node (here ++ [name]) with hnext | ⟨_, _, hd, he⟩
      · simp only [hnext, ih]
      · simp only [hd, he, ih]
    · simp only [hd, he]

theorem followLinks_congr (h : SameShape d e) (want : Purpose) (links : Nat) (here : Location)
    (names : List String) :
    e.followLinks want links here names = d.followLinks want links here names := by
  induction links generalizing here names with
  | zero => exact follow_congr h want _ here names
  | succ links ih =>
    rw [followLinks, followLinks, follow_congr h]
    simp only [ih]

theorem followPath_congr (h : SameShape d e) (want : Purpose) (p : Path) :
    e.followPath want p = d.followPath want p := by
  simp only [followPath, followLinks_congr h, h.cwd]

theorem locate_congr (h : SameShape d e) (p : Path) : e.locate p = d.locate p := by
  simp only [locate, resolve, followPath_congr h]

/-! ## Asking and listing -/

theorem isDir_congr (h : SameShape d e) (p : Path) : e.isDir p = d.isDir p := by
  simp only [isDir, stat?, locate_congr h]
  cases d.locate p with
  | error fault => rfl
  | ok l =>
    rcases h.node l with hnode | ⟨_, _, hd, he⟩
    · simp only [hnode]
    · simp only [hd, he]

theorem isFile_congr (h : SameShape d e) (p : Path) : e.isFile p = d.isFile p := by
  simp only [isFile, stat?, locate_congr h]
  cases d.locate p with
  | error fault => rfl
  | ok l =>
    rcases h.node l with hnode | ⟨_, _, hd, he⟩
    · simp only [hnode]
    · simp only [hd, he]


theorem nodes_congr (h : SameShape d e) :
    (e.nodes.map fun _ => Node.blank) = d.nodes.map fun _ => Node.blank := by
  refine Std.ExtTreeMap.ext_getElem? fun l => ?_
  rw [Std.ExtTreeMap.getElem?_map, Std.ExtTreeMap.getElem?_map]
  by_cases hl : l = []
  · -- the root is no entry of the map
    have hroot (d : Disk) : d.nodes[l]? = none :=
      Std.ExtTreeMap.getElem?_eq_none fun hm => (d.above l hm).1 hl
    rw [hroot, hroot]
  · rw [← node?_of_ne_nil e hl, ← node?_of_ne_nil d hl]
    rcases h.node l with hnode | ⟨_, _, hd, he⟩
    · rw [hnode]
    · rw [hd, he]
      rfl

theorem below_congr (h : SameShape d e) (l : Location) :
    (e.below l).map (fun entry => (entry.1, entry.2.blank)) =
      (d.below l).map fun entry => (entry.1, entry.2.blank) := by
  have hlist := congrArg Std.ExtTreeMap.toList (nodes_congr h)
  rw [Std.ExtTreeMap.toList_map, Std.ExtTreeMap.toList_map] at hlist
  have hfilter := congrArg (List.filter fun entry => l.isPrefixOf entry.1 && entry.1 ≠ l) hlist
  rwa [List.filter_map, List.filter_map] at hfilter

/-- A stop of a walk without the bytes of a file. -/
def Visit.blank (visit : Visit) : Visit := ⟨visit.path, visit.node.blank⟩

theorem visits_congr (h : SameShape d e) (root : Path) :
    (e.visits root).map Visit.blank = (d.visits root).map Visit.blank := by
  rw [visits, visits, locate_congr h]
  cases d.locate root with
  | error fault => rfl
  | ok l =>
    have hbelow := congrArg (List.map fun entry : Location × Node =>
      (⟨root.join ⟨Path.joinNames (entry.1.drop l.length)⟩, entry.2⟩ : Visit)) (below_congr h l)
    simp only [List.map_cons, List.map_map] at hbelow ⊢
    exact congrArg _ hbelow

/-- A walk is a matter of paths and kinds. -/
theorem walk_eq_blank (d : Disk) (root : Path) :
    d.walk root =
      match ((d.visits root).map Visit.blank).findSome?
        fun visit => (d.listingFault? visit).map (visit.path, ·) with
      | some fault => .error fault
      | none => .ok (((d.visits root).map Visit.blank).map Visit.path) := by
  have hfault (visit : Visit) : d.listingFault? visit.blank = d.listingFault? visit := by
    obtain ⟨path, _ | _ | _⟩ := visit <;> rfl
  rw [walk, List.findSome?_map, List.map_map]
  simp only [Function.comp_def, hfault]
  rfl

theorem walk_congr (h : SameShape d e) (root : Path) : e.walk root = d.walk root := by
  have hfault (visit : Visit) : e.listingFault? visit = d.listingFault? visit := by
    rw [listingFault?, listingFault?, locate_congr h]
  rw [walk_eq_blank, walk_eq_blank, visits_congr h]
  simp only [hfault]

end Disk

/-! ## Searching -/

open Disk

variable {d e : Disk}

theorem Discovery.find_of_sameShape (h : SameShape d e) (roots : List Path) (rejects : Rejects)
    (ending : String) : find e roots rejects ending = find d roots rejects ending := by
  have hwalk (root : Path) : walkRoot e root = walkRoot d root := by
    rw [walkRoot, walkRoot, isDir_congr h, walk_congr h]
  have haccepts (p : Path) : accepts e rejects ending p = accepts d rejects ending p := by
    rw [Bool.eq_iff_iff, accepts_eq_true_iff, accepts_eq_true_iff, isFile_congr h]
  rw [find_eq, find_eq, mapM_congr fun root _ => hwalk root, funext haccepts]

/-- A configuration is resolved to the same paths. -/
theorem Config.resolvePaths_of_sameShape (h : SameShape d e) (c : Config) (base : Path) :
    c.resolvePaths e base = c.resolvePaths d base := by
  have hpath (p : Path) : absolutize e base p = absolutize d base p := by
    rw [absolutize, absolutize, canonical?, canonical?, followPath_congr h]
  simp only [resolvePaths, funext hpath]

/-- A search finds the same sources. -/
theorem Config.gather_of_sameShape (h : SameShape d e) (c : Config) : c.gather e = c.gather d := by
  rw [gather, gather, Discovery.find_of_sameShape h, Discovery.find_of_sameShape h]

end Amalgam
