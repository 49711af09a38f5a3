import Amalgam.Disk.Basic
import Amalgam.Disk.Fault
import Amalgam.Path.Basic

/-!
# Following a path

A path is followed name by name. Every name but the last must lead to a directory; a link is replaced
by the names of its target; an empty name at the end asks for a directory. What the last name may
find depends on what it is wanted for.

Main results:

* `follow_cons_name`: one plain name in a directory that holds a file or a directory there.
* `locate_eq_ok`: what a path is found to lead to is on the disk.
-/

namespace Amalgam.Disk

/-- What the last name of a path is wanted for. -/
inductive Purpose where
  /-- To find what is there. -/
  | existing
  /-- To spell out where the path leads; every place on the way must fit in a path. -/
  | canonical
  /-- To write a file, which may be there already. -/
  | file
  /-- To make a directory, which may not be there yet. -/
  | directory
deriving DecidableEq

/-- How many links are followed on the way of one path. -/
def linkLimit : Nat := 40

/-- How many bytes a path may have. -/
def pathLimit : Nat := 4095

/-- Follows names from a location; `onLink` goes on from where a link was found, with its target
and the names still to follow. -/
def follow (d : Disk) (want : Purpose)
    (onLink : Location → Path → List String → Except Fault Location) :
    Location → List String → Except Fault Location
  | here, [] => .ok here
  | here, name :: rest =>
    match d.node? here with
    | none => .error .notFound
    | some .dir =>
      if name = "" ∨ name = "." then d.follow want onLink here rest
      else if name = ".." then d.follow want onLink here.dropLast rest
      else if want = .file ∧ rest = [""] then .error .isDirectory
      else if nameLimit < name.utf8ByteSize then .error .nameTooLong
      else if want = .canonical ∧
          pathLimit < (Path.ofLocation (here ++ [name])).spelling.utf8ByteSize then
        .error .nameTooLong
      else if want = .directory ∧ (rest = [] ∨ rest = [""]) then .ok (here ++ [name])
      else
        match d.node? (here ++ [name]) with
        | none => if want = .file ∧ rest = [] then .ok (here ++ [name]) else .error .notFound
        | some (.link target) => onLink here ⟨target⟩ rest
        | some _ => d.follow want onLink (here ++ [name]) rest
    | some _ => .error .notDirectory

/-- Follows names through at most so many links. -/
def followLinks (d : Disk) (want : Purpose) : Nat → Location → List String → Except Fault Location
  | 0 => d.follow want fun _ _ _ => .error .tooManyLinks
  | links + 1 => d.follow want fun here target rest =>
      d.followLinks want links (if target.isAbsolute then [] else here) (target.route ++ rest)

/-- Follows a path of any length. -/
def followPath (d : Disk) (want : Purpose) (path : Path) : Except Fault Location :=
  if '\x00' ∈ path.spelling.toList then .error .nulInPath
  else if path.spelling = "" then .error .notFound
  else d.followLinks want linkLimit (if path.isAbsolute then [] else d.cwd) path.route

/-- Follows a path, unless it is too long. -/
def resolve (d : Disk) (want : Purpose) (path : Path) : Except Fault Location :=
  if '\x00' ∈ path.spelling.toList then .error .nulInPath
  else if pathLimit < path.spelling.utf8ByteSize then .error .nameTooLong
  else d.followPath want path

/-- The location that a path leads to. -/
def locate (d : Disk) (path : Path) : Except Fault Location := d.resolve .existing path

/-- What a path leads to. -/
def stat? (d : Disk) (path : Path) : Option Node :=
  match d.locate path with
  | .ok location => d.node? location
  | .error _ => none

/-- Whether a path leads to a directory. -/
def isDir (d : Disk) (path : Path) : Bool :=
  match d.stat? path with
  | some .dir => true
  | _ => false

/-- Whether a path leads to a file. -/
def isFile (d : Disk) (path : Path) : Bool :=
  match d.stat? path with
  | some (.file _) => true
  | _ => false

/-- The path free of links and dots that leads to the same place, if the path leads anywhere and
every place on the way fits in a path. -/
def canonical? (d : Disk) (path : Path) : Option Path :=
  match d.followPath .canonical path with
  | .ok location => some (Path.ofLocation location)
  | .error _ => none

/-! ## What following finds -/

/-- One plain name leads on when a file or a directory lies there. -/
theorem follow_cons_name {d : Disk} {onLink : Location → Path → List String → Except Fault Location}
    {here : Location} {name : String} {rest : List String} {node : Node}
    (hdir : d.node? here = some .dir) (hname : name ≠ "" ∧ name ≠ "." ∧ name ≠ "..")
    (hsize : name.utf8ByteSize ≤ nameLimit) (hnode : d.node? (here ++ [name]) = some node)
    (hlink : ∀ target, node ≠ .link target) :
    d.follow .existing onLink here (name :: rest) =
      d.follow .existing onLink (here ++ [name]) rest := by
  rw [follow, hdir]
  simp only [hname, or_self, if_false, hnode, Nat.not_lt.2 hsize, reduceCtorEq, false_and]

private theorem node?_follow {d : Disk}
    {onLink : Location → Path → List String → Except Fault Location} {here location : Location}
    {names : List String}
    (hlink : ∀ h t r l, onLink h t r = .ok l → d.node? h = some .dir → ∃ node, d.node? l = some node)
    (hhere : ∃ node, d.node? here = some node)
    (h : d.follow .existing onLink here names = .ok location) :
    ∃ node, d.node? location = some node := by
  induction names generalizing here with
  | nil =>
    obtain rfl : here = location := by simpa [follow] using h
    exact hhere
  | cons name rest ih =>
    rw [follow] at h
    split at h
    · cases h
    · next hdir =>
      split at h
      · exact ih hhere h
      · split at h
        · exact ih ⟨_, above_of_node? hdir⟩ h
        · simp only [reduceCtorEq, false_and, if_false] at h
          split at h
          · cases h
          · split at h
            · cases h
            · exact hlink _ _ _ _ h hdir
            · next node _ hnode => exact ih ⟨_, hnode⟩ h
    · cases h

private theorem node?_followLinks {d : Disk} {links : Nat} {here location : Location}
    {names : List String} (hhere : ∃ node, d.node? here = some node)
    (h : d.followLinks .existing links here names = .ok location) :
    ∃ node, d.node? location = some node := by
  induction links generalizing here names location with
  | zero => exact node?_follow (by intro _ _ _ _ h; cases h) hhere h
  | succ links ih =>
    refine node?_follow (fun here target rest l hl hd => ?_) hhere h
    refine ih ?_ hl
    split
    · exact ⟨_, node?_nil d⟩
    · exact ⟨_, hd⟩

/-- What a path is followed to is on the disk. -/
theorem followPath_eq_ok {d : Disk} {path : Path} {location : Location}
    (h : d.followPath .existing path = .ok location) : ∃ node, d.node? location = some node := by
  rw [followPath] at h
  split at h
  · cases h
  · split at h
    · cases h
    · refine node?_followLinks ?_ h
      split
      · exact ⟨_, node?_nil d⟩
      · exact ⟨_, d.node?_cwd⟩

/-- What a path is found to lead to is on the disk. -/
theorem locate_eq_ok {d : Disk} {path : Path} {location : Location}
    (h : d.locate path = .ok location) :
    ∃ node, d.node? location = some node := by
  rw [locate, resolve] at h
  split at h
  · cases h
  · split at h
    · cases h
    · exact followPath_eq_ok h

end Amalgam.Disk
