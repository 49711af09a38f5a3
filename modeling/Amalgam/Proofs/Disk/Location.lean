import Mathlib
import Amalgam.Proofs.Disk.Way
import Amalgam.Proofs.Path.Joining

/-!
# Spelled-out paths on a disk

A path that spells out the location of a node leads there, whatever it is followed for, since all
that it passes is a directory. On a disk without links it leads nowhere else, so what lies at the end
of a spelled-out path is what lies at its location, as long as the path is not too long.

Main results:

* `resolve_ofLocation`: a path that spells out the location of a node leads there.
* `isDir_ofLocation_iff`, `isFile_ofLocation_iff`: on a disk without links such a path shows what lies
  at its location.
* `write_ofLocation_self`: writing what a file holds already changes nothing.
* `canonical?_eq_some`: the path free of links spells out the location of a node.
-/

namespace Amalgam.Disk

open Amalgam.Path

/-- Whether the path that spells out a location is short enough to be followed. -/
def Fits (l : Location) : Prop := (ofLocation l).spelling.utf8ByteSize ≤ pathLimit

variable {d : Disk} {l m : Location} {node : Node}

/-! ## Locations of nodes -/

theorem isSegment_of_node? (h : d.node? l = some node) : ∀ name ∈ l, IsSegment name := by
  intro name hname
  obtain ⟨hne, hdot, hup, hslash, -⟩ := isFileName_of_node? h hname
  exact ⟨⟨hne, hdot, hup⟩, hslash⟩

/-- Every location on the way to a node is that of a directory. -/
theorem dir_of_append (h : d.node? (l ++ m) = some node) (hm : m ≠ []) :
    d.node? l = some .dir := by
  induction m using List.reverseRecOn generalizing node with
  | nil => exact absurd rfl hm
  | append_singleton front last ih =>
    have habove := above_of_node? h
    rw [← List.append_assoc, List.dropLast_concat] at habove
    by_cases hfront : front = []
    · simpa [hfront] using habove
    · exact ih habove hfront

theorem fits_of_begins (hl : l <+: m) (hm : ∀ name ∈ m, IsSegment name) (h : Fits m) : Fits l :=
  (size_ofLocation_le hl hm).trans h

theorem isSearchable_ofLocation (h : d.node? l = some node) (hfits : Fits l) :
    IsSearchable (ofLocation l) := by
  refine ⟨fun hzero => ?_, hfits, by simp [ofLocation]⟩
  rw [ofLocation, String.toList_append, List.mem_append] at hzero
  rcases hzero with hzero | hzero
  · exact absurd (List.mem_singleton.1 hzero) (by decide)
  · rcases mem_joinNames hzero with hslash | ⟨name, hname, hc⟩
    · exact absurd hslash (by decide)
    · exact (isFileName_of_node? h hname).2.2.2.2.1 hc

/-! ## What a path shows -/

section Shown

variable {p : Path}

theorem stat?_eq_some_iff : d.stat? p = some node ↔ ∃ l, d.locate p = .ok l ∧ d.node? l = some node := by
  rw [stat?]
  cases d.locate p <;> simp

theorem isDir_eq_true_iff : d.isDir p = true ↔ ∃ l, d.locate p = .ok l ∧ d.node? l = some .dir := by
  rw [← stat?_eq_some_iff, isDir]
  split <;> simp_all

theorem isFile_eq_true_iff :
    d.isFile p = true ↔ ∃ l bytes, d.locate p = .ok l ∧ d.node? l = some (.file bytes) := by
  rw [exists_comm]
  simp only [← stat?_eq_some_iff]
  rw [isFile]
  split <;> simp_all

theorem read_eq_ok_iff {bytes : List UInt8} :
    d.read p = .ok bytes ↔ ∃ l, d.locate p = .ok l ∧ d.node? l = some (.file bytes) := by
  rw [read]
  cases d.locate p with
  | error fault => simp
  | ok l =>
    simp only [Except.ok.injEq, exists_eq_left']
    split <;> simp_all

theorem followPath_of_resolve {want : Purpose} (h : d.resolve want p = .ok l) :
    d.followPath want p = .ok l := by
  rw [resolve] at h
  split at h
  · cases h
  · split at h
    · cases h
    · exact h

end Shown

/-! ## Following a spelled-out path -/

section Follow

variable {want : Purpose} (hwant : want ≠ .directory) (hlink : ∀ target, node ≠ .link target)

include hwant hlink

/-- The names on the way to a node are followed to it, one directory after another. -/
theorem follow_names {here rest : Location} (h : d.node? (here ++ rest) = some node)
    (hfits : Fits (here ++ rest))
    (onLink : Location → Path → List String → Except Fault Location) :
    d.follow want onLink here rest = .ok (here ++ rest) := by
  induction rest generalizing here with
  | nil => rw [follow, List.append_nil]
  | cons name rest ih =>
    have hassoc : here ++ name :: rest = here ++ [name] ++ rest := by simp
    have hnames : ∀ n ∈ name :: rest, IsFileName n := fun n hn =>
      isFileName_of_node? h (List.mem_append_right here hn)
    obtain ⟨hempty, hdot, hup, -, -, hsize⟩ := hnames name List.mem_cons_self
    have hend : ¬ (want = .file ∧ rest = [""]) := by
      rintro ⟨-, rfl⟩
      exact (hnames "" (by simp)).1 rfl
    have hplace : Fits (here ++ [name]) :=
      fits_of_begins ⟨rest, hassoc.symm⟩ (isSegment_of_node? h) hfits
    -- the next node is the last one of the way or a directory, so it is no link
    obtain ⟨next, hnext, hnolink⟩ :
        ∃ next, d.node? (here ++ [name]) = some next ∧ ∀ target, next ≠ .link target := by
      by_cases hrest : rest = []
      · exact ⟨node, by rw [← h, hrest], hlink⟩
      · exact ⟨.dir, dir_of_append (hassoc ▸ h) hrest, by simp⟩
    have hgo := ih (hassoc ▸ h) (hassoc ▸ hfits)
    rw [follow, dir_of_append h (List.cons_ne_nil name rest)]
    simp only [hempty, hdot, hup, or_self, if_false, hend, Nat.not_lt.2 hsize,
      Nat.not_lt.2 hplace, and_false, hwant, false_and, hnext]
    cases next with
    | link target => exact absurd rfl (hnolink target)
    | file _ | dir => rw [hgo, hassoc]

/-- A path that spells out the location of a node leads there. -/
theorem resolve_ofLocation (h : d.node? l = some node) (hfits : Fits l) :
    d.resolve want (ofLocation l) = .ok l := by
  have hroot : d.node? ([] ++ l) = some node := h
  refine resolve_eq_ok_iff.2 ⟨isSearchable_ofLocation h hfits, ?_⟩
  rw [base, isAbsolute_ofLocation, if_pos rfl, route_ofLocation (isSegment_of_node? h)]
  exact followLinks_of_follow (follow_names hwant hlink hroot hfits)

end Follow

section File

variable {bytes : List UInt8} (h : d.node? l = some (.file bytes)) (hfits : Fits l)

include h hfits

/-- A file is read through the path that spells out its location. -/
theorem read_ofLocation : d.read (ofLocation l) = .ok bytes := by
  have hlocate : d.locate (ofLocation l) = .ok l :=
    resolve_ofLocation (by decide) (by simp) h hfits
  simp [read, hlocate, h]

/-- Writing what a file holds already changes nothing, if there is room for it. -/
theorem write_ofLocation_self (hroom : d.HasRoom l bytes.length) :
    d.write (ofLocation l) bytes = ⟨d, none⟩ := by
  have hresolve : d.resolve .file (ofLocation l) = .ok l :=
    resolve_ofLocation (by decide) (by simp) h hfits
  have hfree : d.Free l :=
    ⟨fun hnil => by simp [hnil] at h, above_of_node? h, by simp [h], fun _ => isFileName_of_node? h⟩
  have hput : d.put l (.file bytes) = d := by
    refine Disk.ext (keeps_put d l _) fun m => ?_
    rw [node?_put _ hfree]
    split
    · next heq => rw [heq, h]
    · rfl
  have hopen : d.openFile (ofLocation l) = .ok l := openFile_eq_ok_iff.2 ⟨hresolve, hfree⟩
  simp only [write, hopen, take_of_hasRoom hroom, hput]

end File

theorem landing_ofLocation (hl : ∀ name ∈ l, IsSegment name) : d.landing (ofLocation l) = l := by
  rw [landing, base, isAbsolute_ofLocation, if_pos rfl, components_ofLocation hl, List.foldl_cons]
  exact foldl_walk_names hl []

/-- A spelled-out path passes what lies on the way to its location. -/
theorem prefix_of_passes (hl : ∀ name ∈ l, IsSegment name) (h : d.Passes (ofLocation l) m) :
    m <+: l := by
  obtain ⟨steps, hsteps, rfl⟩ := h
  rw [components_ofLocation hl] at hsteps
  rw [base, isAbsolute_ofLocation, if_pos rfl]
  rcases List.prefix_cons_iff.1 hsteps with rfl | ⟨more, rfl, hmore⟩
  · exact List.nil_prefix
  · obtain ⟨names, hnames, rfl⟩ := List.prefix_map_iff.1 hmore
    rw [List.foldl_cons]
    exact (foldl_walk_names (fun n hn => hl n (hnames.mem hn)) []).symm ▸ hnames

/-- Names below a path lead to what lies below the place where the path leads. -/
theorem landing_joinNames {names : List String} (h : ∀ name ∈ names, IsSegment name)
    (hne : names ≠ []) (p : Path) : d.landing (p.join ⟨joinNames names⟩) = d.landing p ++ names := by
  obtain ⟨-, habsolute, hcomponents⟩ := steps_joinNames h hne p
  rw [landing, base, habsolute, hcomponents, List.foldl_append, foldl_walk_names h, ← base, ← landing]

section Unlinked

variable (hd : d.Unlinked) (hl : ∀ name ∈ l, IsSegment name)

include hd hl

/-- On a disk without links a spelled-out path shows what lies at its location. -/
theorem locate_ofLocation_eq_ok_iff :
    d.locate (ofLocation l) = .ok m ↔ m = l ∧ Fits l ∧ (d.node? l).isSome := by
  constructor
  · intro h
    obtain ⟨node, hnode⟩ := locate_eq_ok h
    obtain rfl : l = m := by rw [← landing_ofLocation hl, (resolve_eq_ok hd h).1]
    exact ⟨rfl, (resolve_eq_ok_iff.1 h).1.2.1, by simp [hnode]⟩
  · rintro ⟨rfl, hfits, hsome⟩
    obtain ⟨node, hnode⟩ := Option.isSome_iff_exists.1 hsome
    exact resolve_ofLocation (by decide) (fun t ht => hd _ t (ht ▸ hnode)) hnode hfits

theorem isDir_ofLocation_iff :
    d.isDir (ofLocation l) = true ↔ Fits l ∧ d.node? l = some .dir := by
  simp only [isDir_eq_true_iff, locate_ofLocation_eq_ok_iff hd hl]
  constructor
  · rintro ⟨_, ⟨rfl, hfits, -⟩, hnode⟩
    exact ⟨hfits, hnode⟩
  · rintro ⟨hfits, hnode⟩
    exact ⟨l, ⟨rfl, hfits, by simp [hnode]⟩, hnode⟩

theorem isFile_ofLocation_iff :
    d.isFile (ofLocation l) = true ↔ Fits l ∧ ∃ bytes, d.node? l = some (.file bytes) := by
  simp only [isFile_eq_true_iff, locate_ofLocation_eq_ok_iff hd hl]
  constructor
  · rintro ⟨_, bytes, ⟨rfl, hfits, -⟩, hnode⟩
    exact ⟨hfits, bytes, hnode⟩
  · rintro ⟨hfits, bytes, hnode⟩
    exact ⟨l, bytes, ⟨rfl, hfits, by simp [hnode]⟩, hnode⟩

end Unlinked

/-! ## Paths free of links -/

section Canonical

variable {here : Location} {names : List String}

theorem follow_existing_of_canonical
    {onLink onLink' : Location → Path → List String → Except Fault Location}
    (hgo : ∀ h t r, onLink h t r = .ok l → onLink' h t r = .ok l)
    (h : d.follow .canonical onLink here names = .ok l) :
    d.follow .existing onLink' here names = .ok l := by
  induction names generalizing here with
  | nil => simpa [follow] using h
  | cons name rest ih =>
    obtain ⟨hdir, hstep⟩ := follow_cons h
    apply follow_of_step hdir
    cases hstep with
    | stay skip go => exact .stay skip (ih go)
    | up above go => exact .up above (ih go)
    | node plain size found real go => exact .node plain size found real (ih go)
    | link plain size found go => exact .link plain size found (hgo _ _ _ go)
    | last plain size ends wanted => simp at wanted

theorem followLinks_existing_of_canonical {links : Nat}
    (h : d.followLinks .canonical links here names = .ok l) :
    d.followLinks .existing links here names = .ok l := by
  induction links generalizing here names with
  | zero => exact follow_existing_of_canonical (by simp) h
  | succ links ih => exact follow_existing_of_canonical (fun _ _ _ hl => ih hl) h

theorem followPath_existing_of_canonical {p : Path} (h : d.followPath .canonical p = .ok l) :
    d.followPath .existing p = .ok l := by
  rw [followPath] at h ⊢
  split at h
  · cases h
  · next hzero =>
    split at h
    · cases h
    · next hempty =>
      rw [if_neg hzero, if_neg hempty]
      exact followLinks_existing_of_canonical h

/-- The path free of links spells out the location of a node, the one to which the path leads. -/
theorem canonical?_eq_some {p q : Path} (h : d.canonical? p = some q) :
    ∃ l, q = ofLocation l ∧ d.followPath .existing p = .ok l ∧ ∃ node, d.node? l = some node := by
  rw [canonical?] at h
  split at h
  · next l hl =>
    have hfollow := followPath_existing_of_canonical hl
    exact ⟨l, (Option.some.inj h).symm, hfollow, followPath_eq_ok hfollow⟩
  · cases h

end Canonical

end Amalgam.Disk
