import Mathlib
import Amalgam.Proofs.Discovery.Covered
import Amalgam.Proofs.Disk.Shape

/-!
# What a search lists

A path below a root goes on from it by one entry of a directory after another. On the way stand
directories and no links, though the root may be a link and so may the last entry. A search lists the
paths of this kind that lead to a file with the right name, unless they are rejected or lie directly
in a rejected directory. It lists each of them once, in the order of the bytes. A file whose name is no
text is passed over.

Main results:

* `descends_iff`: entry by entry, a path below a root goes the names below its location.
* `exists_walkRoot_iff_readable`: which roots can be walked.
* `find_withDir`: what is left when one more directory is rejected.
* `find_stray`: a file whose name is no text changes nothing.
* `find_lists_wanted`: what a search lists, and what it lists with one more directory rejected.
-/

namespace Amalgam

/-! ## Paths in a directory -/

namespace Path

variable {p q : Path}

/-- Whether a path lies directly in a directory. -/
def liesIn (p dir : Path) : Bool := p.parent?.any fun parent => decide (Same parent dir)

theorem liesIn_congr (h : Same p q) (dir : Path) : p.liesIn dir = q.liesIn dir := by
  rw [liesIn, liesIn, parent?, parent?, same_iff.1 h]

/-- A path goes one step on from the directory in which it lies. -/
theorem components_of_liesIn {dir : Path} (h : p.liesIn dir = true) :
    dir.components = p.components.dropLast := by
  obtain ⟨parent, hparent, hsame⟩ := (Option.any_eq_true _ _).1 h
  obtain ⟨-, rfl⟩ := parent?_eq_some hparent
  rw [← same_iff.1 (of_decide_eq_true hsame)]
  exact components_ofComponents (List.dropLast_prefix p.components)

end Path

open Amalgam.Path

/-! ## Entry by entry -/

namespace Disk

variable {d : Disk} {root p : Path} {start l : Location}

/-- A path that goes on from a root at a location by one entry of a directory after another, with the
location of its last entry. Every entry before the last is a directory, so it is no link. -/
inductive Descends (d : Disk) (root : Path) (start : Location) : Location → Path → Prop where
  | entry {name : String} (listed : (d.node? (start ++ [name])).isSome) :
      Descends d root start (start ++ [name]) (root.join ⟨name⟩)
  | next {l : Location} {p : Path} {name : String} (above : Descends d root start l p)
      (dir : d.node? l = some .dir) (listed : (d.node? (l ++ [name])).isSome) :
      Descends d root start (l ++ [name]) (p.join ⟨name⟩)

theorem joinNames_singleton (name : String) : joinNames [name] = name :=
  String.intercalate_singleton

/-- Entry by entry, a path goes the names below the location of its root. -/
theorem descends_iff :
    Descends d root start l p ↔ ∃ more, more ≠ [] ∧ l = start ++ more ∧ (d.node? l).isSome ∧
      p = root.join ⟨joinNames more⟩ := by
  constructor
  · intro h
    induction h with
    | @entry name listed => exact ⟨[name], by simp, rfl, listed, by rw [joinNames_singleton]⟩
    | @next l p name above dir listed ih =>
      obtain ⟨more, hne, rfl, -, rfl⟩ := ih
      obtain ⟨node, hnode⟩ := Option.isSome_iff_exists.1 listed
      have hall := isSegment_of_node? hnode
      refine ⟨more ++ [name], by simp, List.append_assoc start more [name], listed, ?_⟩
      rw [join_joinNames_concat (fun n hn => hall n (by simp [hn])) hne (hall name (by simp))]
  · rintro ⟨more, hne, rfl, hsome, rfl⟩
    induction more using List.reverseRecOn with
    | nil => exact absurd rfl hne
    | append_singleton front last ih =>
      obtain ⟨node, hnode⟩ := Option.isSome_iff_exists.1 hsome
      by_cases hfront : front = []
      · subst hfront
        rw [List.nil_append, joinNames_singleton]
        exact .entry hsome
      · have hall := isSegment_of_node? hnode
        rw [← List.append_assoc] at hsome hnode ⊢
        have hdir : d.node? (start ++ front) = some .dir := dir_of_append hnode (by simp)
        rw [join_joinNames_concat (fun n hn => hall n (by simp [hn])) hfront (hall last (by simp))]
        exact .next (ih hfront (by simp [hdir])) hdir hsome

end Disk

/-- The rejects with one more directory. -/
def Rejects.withDir (rejects : Rejects) (dir : Path) : Rejects :=
  { rejects with dirs := dir :: rejects.dirs }

namespace Discovery

open Amalgam.Disk

variable {d : Disk} {root : Path} {roots : List Path} {rejects : Rejects} {ending : String}

/-! ## Walks -/

/-- Whether every directory below a root can be listed through its path. -/
def Readable (d : Disk) (root : Path) : Prop :=
  ∀ start l p, d.locate root = .ok start → Descends d root start l p → d.node? l = some .dir →
    ∃ location, d.locate p = .ok location

/-- A root can be walked when it is a directory and every directory below it can be listed. -/
theorem exists_walkRoot_iff_readable :
    (∃ paths, walkRoot d root = .ok paths) ↔ d.isDir root = true ∧ Readable d root := by
  simp only [walkRoot_eq_ok_iff, walk_eq_ok_iff, exists_and_left, exists_eq, and_true]
  refine and_congr_right fun hdir => ?_
  obtain ⟨location, hlocate, -⟩ := isDir_eq_true_iff.1 hdir
  simp only [listingFault?_eq_none_iff, mem_visits_iff hlocate]
  constructor
  · rintro h start l p hstart hdescends hnode
    obtain rfl : location = start := Except.ok.inj (hlocate.symm.trans hstart)
    obtain ⟨more, hne, rfl, -, rfl⟩ := descends_iff.1 hdescends
    exact h ⟨_, .dir⟩ (.inr ⟨more, hne, hnode, rfl⟩) rfl
  · rintro h ⟨p, node⟩ (hroot | ⟨more, hne, hnode, rfl⟩) rfl
    · obtain rfl : p = root := congrArg Visit.path hroot
      exact ⟨location, hlocate⟩
    · exact h location _ _ hlocate (descends_iff.2 ⟨more, hne, rfl, by simp [hnode], rfl⟩) hnode

/-! ## Wanted paths -/

/-- What a search is to list: a path that goes on from a root by entries of directories and leads to
a file, whose name ends as asked, and which is neither rejected nor directly in a rejected
directory. -/
structure Wanted (d : Disk) (roots : List Path) (rejects : Rejects) (ending : String) (p : Path) :
    Prop where
  descends : ∃ root ∈ roots, ∃ start l, d.locate root = .ok start ∧ Descends d root start l p
  file : ∃ l bytes, d.locate p = .ok l ∧ d.node? l = some (.file bytes)
  named : ∃ name, p.fileName? = some name ∧ ending.toList <:+ name.toList
  outside : ∀ dir ∈ rejects.dirs, p.liesIn dir = false
  kept : ∀ file ∈ rejects.files, ¬ Same p file

theorem inRejectedDir_eq_false_iff {p : Path} :
    inRejectedDir rejects p = false ↔ ∀ dir ∈ rejects.dirs, p.liesIn dir = false := by
  simp only [inRejectedDir, liesIn, isIn]
  cases p.parent? <;> simp

theorem below_iff_exists_descends {p : Path} :
    Below d roots p ↔
      ∃ root ∈ roots, ∃ start l, d.locate root = .ok start ∧ Descends d root start l p := by
  simp only [Below, descends_iff]
  refine exists_congr fun root => and_congr_right fun _ => exists_congr fun start => ?_
  constructor
  · rintro ⟨more, hlocate, hne, hsome, hp⟩
    exact ⟨_, hlocate, more, hne, rfl, hsome, hp⟩
  · rintro ⟨_, hlocate, more, hne, rfl, hsome, hp⟩
    exact ⟨more, hlocate, hne, hsome, hp⟩

theorem wanted_iff {p : Path} :
    Wanted d roots rejects ending p ↔ Below d roots p ∧ accepts d rejects ending p = true := by
  have hnamed : endsAs ending p = true ↔
      ∃ name, p.fileName? = some name ∧ ending.toList <:+ name.toList := by
    simp [endsAs, Option.any_eq_true]
  have hkept : p.isIn rejects.files = false ↔ ∀ file ∈ rejects.files, ¬ Same p file := by
    simp [isIn]
  rw [below_iff_exists_descends, accepts_eq_true_iff, isFile_eq_true_iff,
    inRejectedDir_eq_false_iff, hnamed, hkept]
  constructor
  · exact fun h => ⟨h.descends, h.file, h.named, h.outside, h.kept⟩
  · rintro ⟨hdescends, hfile, hnamed, houtside, hkept⟩
    exact ⟨hdescends, hfile, hnamed, houtside, hkept⟩

/-! ## One more rejected directory -/

/-- Rejecting one more directory leaves out what lies directly in it. -/
theorem accepts_withDir (dir p : Path) :
    accepts d (rejects.withDir dir) ending p =
      (accepts d rejects ending p && !p.liesIn dir) := by
  rw [Bool.eq_iff_iff, Bool.and_eq_true, accepts_eq_true_iff, accepts_eq_true_iff,
    inRejectedDir_eq_false_iff, inRejectedDir_eq_false_iff]
  simp only [Rejects.withDir, List.forall_mem_cons, Bool.not_eq_true']
  tauto

theorem find_withDir {found : List Path} (h : find d roots rejects ending = .ok found)
    (dir : Path) :
    find d roots (rejects.withDir dir) ending = .ok (found.filter fun p => !p.liesIn dir) :=
  find_of_keep h (fun _ _ hsame => by rw [liesIn_congr hsame]) (accepts_withDir dir)

/-! ## Searches -/

/-- A file whose name is no text changes nothing, however its name ends. -/
theorem find_stray (d : Disk) (roots : List Path) (rejects : Rejects) (ending : String)
    (location : Location) (name : RawName) :
    find (d.stray location name) roots rejects ending = find d roots rejects ending :=
  find_of_sameShape (sameShape_stray d location name) roots rejects ending

/-- A search succeeds exactly when every root is a directory and every directory below the roots can
be listed; a root that is no directory is reported. A file whose name is no text is passed over. What a
search gives is in strict order of the bytes, with no path in two spellings; it holds wanted paths
only, and some spelling of every wanted path. With one more directory rejected the files directly in
it are left out, and nothing else: what lies below its subdirectories stays. -/
theorem find_lists_wanted (d : Disk) (roots : List Path) (rejects : Rejects) (ending : String) :
    ((∃ found, find d roots rejects ending = .ok found) ↔
        ∀ root ∈ roots, d.isDir root = true ∧ Readable d root) ∧
      (∀ before root after, roots = before ++ root :: after →
        (∀ r ∈ before, d.isDir r = true ∧ Readable d r) → d.isDir root = false →
          find d roots rejects ending = .error (.noSourceDir root)) ∧
      (∀ location name,
        find (d.stray location name) roots rejects ending = find d roots rejects ending) ∧
      ∀ found, find d roots rejects ending = .ok found →
        found.Pairwise (fun p q => p.Before q ∧ ¬ Same p q) ∧
          (∀ p ∈ found, Wanted d roots rejects ending p) ∧
          (∀ p, Wanted d roots rejects ending p → ∃ q ∈ found, Same p q) ∧
          ∀ dir, ∃ left, find d roots (rejects.withDir dir) ending = .ok left ∧
            left = found.filter (fun p => !p.liesIn dir) ∧
            ∀ p ∈ found, ∀ more, p.components = dir.components ++ more → 1 < more.length →
              p ∈ left := by
  refine ⟨?_, fun before root after hroots hbefore hroot => ?_, find_stray d roots rejects ending,
    fun found h => ⟨?_, ?_, ?_, ?_⟩⟩
  · simp only [exists_find_iff, exists_walkRoot_iff_readable]
  · have hfails : walkRoot d root = .error (.noSourceDir root) := by
      rw [walkRoot, hroot, if_neg (by decide)]
    have hwalks := mapM_eq_error
      (fun r hr => exists_walkRoot_iff_readable.2 (hbefore r hr)) hfails after
    rw [find_eq, hroots, hwalks]
    rfl
  · exact (pairwise_of_find h).and (pairwise_not_same_of_find h)
  · exact fun p hp => wanted_iff.2 (of_mem_find h hp)
  · intro p hp
    obtain ⟨hbelow, haccepts⟩ := wanted_iff.1 hp
    exact exists_same_of_find h hbelow haccepts
  · intro dir
    refine ⟨_, find_withDir h dir, rfl, fun p hp more hmore hlength => ?_⟩
    refine List.mem_filter.2 ⟨hp, ?_⟩
    rw [Bool.not_eq_true', Bool.eq_false_iff]
    -- what lies directly in the directory is one step longer than it, and this path is two
    intro hlies
    have hsteps := congrArg List.length (components_of_liesIn hlies)
    rw [List.length_dropLast, hmore, List.length_append] at hsteps
    omega

/-- A disk with a file in a directory, and a link to it in the directory inside that one. -/
def vendorDisk : Disk :=
  ((((Disk.empty.put ["src"] .dir).put ["src", "vendor"] .dir).put ["src", "vendor", "skip.c"]
    (.file [])).put ["src", "vendor", "inner"] .dir).put ["src", "vendor", "inner", "keep.c"]
      (.link "../skip.c")

/-- Rejecting the outer directory leaves in what the inner one holds. The root is listed in two
spellings. -/
theorem find_lists_wanted_inner :
    let rejects : Rejects := ⟨["/src/vendor/"], []⟩
    find vendorDisk ["/src", "/src/"] rejects ".c" = .ok ["/src/vendor/inner/keep.c"] ∧
      Wanted vendorDisk ["/src", "/src/"] rejects ".c" "/src/vendor/inner/keep.c" ∧
      ¬ Wanted vendorDisk ["/src", "/src/"] rejects ".c" "/src/vendor/skip.c" := by
  intro rejects
  have h : find vendorDisk ["/src", "/src/"] rejects ".c" = .ok ["/src/vendor/inner/keep.c"] := by
    decide +kernel
  obtain ⟨-, hwanted, hlisted, -⟩ := (find_lists_wanted _ _ _ _).2.2.2 _ h
  refine ⟨h, hwanted _ List.mem_cons_self, fun hskip => ?_⟩
  obtain ⟨q, hq, hsame⟩ := hlisted _ hskip
  obtain rfl := List.mem_singleton.1 hq
  exact absurd hsame (by decide +kernel)

/-- A disk with a header in a directory inside the source root. -/
def innerDisk : Disk :=
  ((Disk.empty.put ["src"] .dir).put ["src", "sub"] .dir).put ["src", "sub", "a.h"] (.file [])

/-- A file whose name is no text is not listed, though the bytes of its name end as asked; and what lies
below a subdirectory of a rejected directory does not stay where the subdirectory is rejected too. -/
theorem find_passes_over :
    (∃ name : RawName, name.bytes = [0x63, 0x61, 0x66, 0xE9, 0x2E, 0x68] ∧
      Text.Utf8.encode ".h".toList <:+ name.bytes ∧
      name ∈ ((Disk.empty.put ["src"] .dir).stray ["src"] name).strays ["src"] ∧
      find ((Disk.empty.put ["src"] .dir).stray ["src"] name) ["/src"] ⟨[], []⟩ ".h" = .ok []) ∧
    innerDisk.isFile "/src/sub/a.h" = true ∧
      find innerDisk ["/src"] ⟨["/src"], []⟩ ".h" = .ok ["/src/sub/a.h"] ∧
      find innerDisk ["/src"] ⟨["/src", "/src/sub"], []⟩ ".h" = .ok [] := by
  refine ⟨⟨⟨[0x63, 0x61, 0x66, 0xE9, 0x2E, 0x68], by decide, by decide, by decide, by decide⟩, rfl,
    ⟨[0x63, 0x61, 0x66, 0xE9], by decide⟩, ?_, ?_⟩, by decide +kernel, by decide +kernel,
    by decide +kernel⟩
  · have hdir : (Disk.empty.put ["src"] .dir).node? ["src"] = some .dir := by decide +kernel
    simp [Disk.stray, hdir]
  · rw [find_stray]
    decide +kernel

end Discovery

end Amalgam
