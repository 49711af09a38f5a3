import Amalgam.Disk.Resolve

/-!
# Walking a directory

A walk visits a directory and all that lies below it, each directory before what it holds and the
entries of one directory in the order of their names. Links below the root are visited and not
followed. Each directory is listed through its path, so a path that has grown too long ends the walk.
Files whose names are no text are passed as well; they have no path here.

Main results:

* `mem_below_iff`: a walk passes every node below its root.
* `walk_eq_ok_iff`: a walk succeeds exactly when every directory on it can be listed.
-/

namespace Amalgam.Disk

/-- The nodes strictly below a location, each directory before what it holds, names in order. -/
def below (d : Disk) (location : Location) : List (Location × Node) :=
  d.nodes.toList.filter fun entry => location.isPrefixOf entry.1 && entry.1 ≠ location

theorem mem_below_iff {d : Disk} {location l : Location} {node : Node} :
    (l, node) ∈ d.below location ↔ location <+: l ∧ l ≠ location ∧ d.node? l = some node := by
  have key : (l, node) ∈ d.nodes.toList ↔ l ≠ [] ∧ d.node? l = some node := by
    rw [Std.ExtTreeMap.mem_toList_iff_getElem?_eq_some]
    constructor
    · intro h
      have hl : l ≠ [] := (d.above l (Std.ExtTreeMap.mem_iff_isSome_getElem?.2 (by simp [h]))).1
      exact ⟨hl, by rw [node?_of_ne_nil d hl, h]⟩
    · rintro ⟨hl, h⟩
      rwa [node?_of_ne_nil d hl] at h
  simp only [below, List.mem_filter, key, Bool.and_eq_true, List.isPrefixOf_iff_prefix, ne_eq,
    decide_not, Bool.not_eq_true', decide_eq_false_iff_not]
  constructor
  · rintro ⟨⟨_, h⟩, hp, hne⟩
    exact ⟨hp, hne, h⟩
  · rintro ⟨hp, hne, h⟩
    refine ⟨⟨?_, h⟩, hp, hne⟩
    rintro rfl
    exact hne (List.prefix_nil.1 hp).symm

/-- One stop of a walk. -/
structure Visit where
  path : Path
  node : Node

/-- The stops of a walk from a directory, as if every directory could be listed. -/
def visits (d : Disk) (root : Path) : List Visit :=
  match d.locate root with
  | .error _ => []
  | .ok location =>
    ⟨root, .dir⟩ :: (d.below location).map fun entry =>
      ⟨root.join ⟨Path.joinNames (entry.1.drop location.length)⟩, entry.2⟩

/-- Why a stop that is a directory cannot be listed through its path. -/
def listingFault? (d : Disk) (visit : Visit) : Option Fault :=
  match visit.node, d.locate visit.path with
  | .dir, .error fault => some fault
  | _, _ => none

/-- The stops of a walk before the first directory that cannot be listed. -/
def reached (d : Disk) (root : Path) : List Path :=
  ((d.visits root).takeWhile fun visit => (d.listingFault? visit).isNone).map Visit.path

/-- The paths of a walk, or the first directory on it that cannot be listed. -/
def walk (d : Disk) (root : Path) : Except (Path × Fault) (List Path) :=
  match (d.visits root).findSome? fun visit => (d.listingFault? visit).map (visit.path, ·) with
  | some fault => .error fault
  | none => .ok ((d.visits root).map Visit.path)

/-- A file whose name is no text, in the directory at a location. -/
structure Stray where
  dir : Location
  name : RawName

/-- The files that a walk from a directory passes whose names are no text. -/
def strayFiles (d : Disk) (root : Path) : List Stray :=
  match d.locate root with
  | .error _ => []
  | .ok location =>
    (location :: (d.below location).map Prod.fst).flatMap fun dir => (d.strays dir).map (Stray.mk dir)

/-- A walk succeeds exactly when every directory on it can be listed, and then passes every stop. -/
theorem walk_eq_ok_iff {d : Disk} {root : Path} {paths : List Path} :
    d.walk root = .ok paths ↔
      (∀ visit ∈ d.visits root, d.listingFault? visit = none) ∧
        paths = (d.visits root).map Visit.path := by
  rw [walk]
  split
  · next fault h =>
    obtain ⟨visit, hm, hv⟩ := List.exists_of_findSome?_eq_some h
    constructor
    · intro h; cases h
    · intro h; simp [h.1 visit hm] at hv
  · next h =>
    have hall : ∀ visit ∈ d.visits root, d.listingFault? visit = none := by
      simpa [List.findSome?_eq_none_iff] using h
    rw [Except.ok.injEq]
    exact ⟨fun h => ⟨hall, h.symm⟩, fun h => h.2.symm⟩

end Amalgam.Disk
