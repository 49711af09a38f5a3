import Amalgam.Text.Pieces

/-!
# Paths

A path is kept as it is spelled, and compared by its components: repeated and trailing slashes and
single dots are spelling, except that a leading dot of a relative path counts, and double dots always
count.

Main results:

* `same_iff`: two paths are the same exactly when their components agree.
* `join_of_isAbsolute`: an absolute path is not moved by what stands before it.
-/

namespace Amalgam

/-- A path as it is spelled. Its spelling is a text, so a name whose bytes are no text is no part of
any path; what a disk holds under such a name stands apart (`Disk.strays`). -/
structure Path where
  spelling : String
deriving DecidableEq, Inhabited

instance : Coe String Path := ⟨Path.mk⟩

namespace Path

/-- One step of a path. -/
inductive Component where
  | root
  | here
  | up
  | name (name : String)
deriving DecidableEq

/-- Whether the path starts at the root. -/
def isAbsolute (p : Path) : Bool := p.spelling.toList.head? = some '/'

/-- The names between the slashes, without the empty ones. -/
def names (p : Path) : List String :=
  ((Text.pieces '/' p.spelling.toList).filter (· ≠ [])).map String.ofList

/-- The names to go through, with an empty one at the end when the path ends in a slash. -/
def route (p : Path) : List String :=
  if p.names ≠ [] ∧ p.spelling.toList.getLast? = some '/' then p.names ++ [""] else p.names

/-- The step that one name between slashes stands for; a dot stands for none. -/
def step? (name : String) : Option Component :=
  if name = "." then none else if name = ".." then some .up else some (.name name)

/-- What the path starts with: the root, a leading dot, or nothing. -/
def start (p : Path) : List Component :=
  if p.isAbsolute then [.root] else if p.names.head? = some "." then [.here] else []

/-- The steps of the path. -/
def components (p : Path) : List Component := p.start ++ p.names.filterMap step?

/-- Two paths are the same when their components agree. -/
def Same (p q : Path) : Prop := p.components = q.components

instance (p q : Path) : Decidable (Same p q) := inferInstanceAs (Decidable (_ = _))

theorem same_iff {p q : Path} : Same p q ↔ p.components = q.components := Iff.rfl

theorem Same.refl (p : Path) : Same p p := rfl

theorem Same.symm {p q : Path} (h : Same p q) : Same q p := Eq.symm h

theorem Same.trans {p q r : Path} (h : Same p q) (h' : Same q r) : Same p r := Eq.trans h h'

/-- Whether the list holds the path under some spelling. -/
def isIn (p : Path) (paths : List Path) : Bool := paths.any fun q => decide (Same p q)

/-! ## Building and taking apart -/

/-- The path `q` seen from `p`; an absolute `q` stays where it is. -/
def join (p q : Path) : Path :=
  if q.isAbsolute then q
  else if p.spelling = "" ∨ p.spelling.toList.getLast? = some '/' then ⟨p.spelling ++ q.spelling⟩
  else ⟨p.spelling ++ "/" ++ q.spelling⟩

theorem join_of_isAbsolute {p q : Path} (h : q.isAbsolute = true) : p.join q = q := by
  simp [join, h]

/-- The names joined by slashes. -/
def joinNames (names : List String) : String := "/".intercalate names

/-- The absolute path of a location below the root. -/
def ofLocation (location : List String) : Path := ⟨"/" ++ joinNames location⟩

/-- How a component is written between slashes. -/
def Component.text : Component → String
  | .root => ""
  | .here => "."
  | .up => ".."
  | .name text => text

/-- A path with the given steps. -/
def ofComponents (steps : List Component) : Path :=
  match steps with
  | [.root] => ⟨"/"⟩
  | steps => ⟨joinNames (steps.map Component.text)⟩

/-- The path without its last step; the root and the empty path have none to lose. -/
def parent? (p : Path) : Option Path :=
  match p.components.getLast? with
  | none | some .root => none
  | some _ => some (ofComponents p.components.dropLast)

/-- The name at the end of the path, if it ends in one. -/
def fileName? (p : Path) : Option String :=
  match p.components.getLast? with
  | some (.name name) => some name
  | _ => none

/-- The path itself, then its parent, and so on, `count` times at most. -/
def ancestorsUpTo : Nat → Path → List Path
  | 0, p => [p]
  | count + 1, p =>
    p :: match p.parent? with
      | none => []
      | some q => ancestorsUpTo count q

/-- The path itself, then its parent, and so on up to the root or the empty path. -/
def ancestors (p : Path) : List Path := ancestorsUpTo p.components.length p

/-- Paths in the order of the bytes of their spelling (`sort_by_path_string`). -/
def sortBySpelling (paths : List Path) : List Path :=
  paths.mergeSort fun p q => decide (p.spelling ≤ q.spelling)

/-- The paths without those that are the same as an earlier one. -/
def distinct : List Path → List Path
  | [] => []
  | p :: rest => p :: (distinct rest).filter fun q => ¬ Same q p

end Path

end Amalgam
