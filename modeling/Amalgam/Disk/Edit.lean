import Amalgam.Disk.Resolve

/-!
# Reading and changing a disk

Each operation takes a path and gives what it reads, the changed disk, or a fault. A file that is
written is opened first, which empties it, and takes bytes up to the limit of its location; so a fault
on the way leaves a first part of them. The fault of another operation changes nothing.

Main results:

* `writing_write`: what writing comes to: a file that could not be opened, a part, or the whole.
* `node?_of_makeDir_eq_ok`: making a directory puts it at one location and changes nothing else.
-/

namespace Amalgam.Disk

/-- The bytes of the file that a path leads to. -/
def read (d : Disk) (path : Path) : Except Fault (List UInt8) :=
  match d.locate path with
  | .error fault => .error fault
  | .ok location =>
    match d.node? location with
    | some (.file bytes) => .ok bytes
    | some .dir => .error .isDirectory
    | _ => .error .notFound

/-- A disk after an operation that may have stopped halfway, and the fault that stopped it. -/
structure Halfway where
  disk : Disk
  fault? : Option Fault

/-- Where the file lies that is opened, or made, to be written under a path. -/
def openFile (d : Disk) (path : Path) : Except Fault Location :=
  match d.resolve .file path with
  | .error fault => .error fault
  | .ok location =>
    if d.node? location = some .dir then .error .isDirectory
    else if d.Free location then .ok location
    else .error .notFound

theorem openFile_eq_ok_iff {d : Disk} {path : Path} {location : Location} :
    d.openFile path = .ok location ↔ d.resolve .file path = .ok location ∧ d.Free location := by
  rw [openFile]
  cases d.resolve .file path with
  | error fault => simp
  | ok l =>
    by_cases hdir : d.node? l = some .dir
    · simp only [hdir, if_true, reduceCtorEq, Except.ok.injEq, false_iff, not_and]
      rintro rfl hfree
      exact hfree.not_dir hdir
    · by_cases hfree : d.Free l
      · simp only [hdir, hfree, if_false, if_true, Except.ok.injEq, iff_self_and]
        rintro rfl
        exact hfree
      · simp only [hdir, hfree, if_false, reduceCtorEq, Except.ok.injEq, false_iff, not_and]
        rintro rfl
        exact hfree

/-- The bytes that a file at a location takes of those that are written to it, and the fault that
stops the writing of the others. -/
def take (d : Disk) (location : Location) (bytes : List UInt8) : List UInt8 × Option Fault :=
  match d.limits location with
  | none => (bytes, none)
  | some limit =>
    if bytes.length ≤ limit.room then (bytes, none) else (bytes.take limit.room, some limit.fault)

/-- Writes bytes to a path, as all that the file there holds. -/
def write (d : Disk) (path : Path) (bytes : List UInt8) : Halfway :=
  match d.openFile path with
  | .error fault => ⟨d, some fault⟩
  | .ok location =>
    let taken := d.take location bytes
    ⟨d.put location (.file taken.1), taken.2⟩

/-- Whether there is room for so many bytes at a location. -/
def HasRoom (d : Disk) (location : Location) (count : Nat) : Prop :=
  ∀ limit ∈ d.limits location, count ≤ limit.room

theorem Keeps.hasRoom_iff {d e : Disk} (h : e.Keeps d) {location : Location} {count : Nat} :
    e.HasRoom location count ↔ d.HasRoom location count := by
  rw [HasRoom, HasRoom, h.limits]

theorem take_of_hasRoom {d : Disk} {location : Location} {bytes : List UInt8}
    (h : d.HasRoom location bytes.length) : d.take location bytes = (bytes, none) := by
  rw [take]
  split
  · rfl
  · next limit hlimit => rw [if_pos (h limit hlimit)]

/-- A file takes all bytes, or as many as there is room for. -/
theorem take_cases (d : Disk) (location : Location) (bytes : List UInt8) :
    d.HasRoom location bytes.length ∨
      ∃ held fault, d.take location bytes = (held, some fault) ∧ held <+: bytes ∧ held ≠ bytes ∧
        d.HasRoom location held.length := by
  cases hlimit : d.limits location with
  | none => exact .inl (by simp [HasRoom, hlimit])
  | some limit =>
    by_cases hroom : bytes.length ≤ limit.room
    · exact .inl (by simpa [HasRoom, hlimit] using hroom)
    · have htake : d.take location bytes = (bytes.take limit.room, some limit.fault) := by
        simp only [take, hlimit, hroom, if_false]
      have hlength : (bytes.take limit.room).length ≤ limit.room := List.length_take_le _ _
      have hkept : d.HasRoom location (bytes.take limit.room).length := by
        intro other hother
        obtain rfl : limit = other := Option.some.inj (hlimit.symm.trans hother)
        exact hlength
      exact .inr ⟨_, _, htake, List.take_prefix _ _, fun heq => hroom (heq ▸ hlength), hkept⟩

/-- Whether a disk is an earlier one with a file put where a path leads, for which there was room. -/
def Stored (before : Disk) (path : Path) (bytes : List UInt8) (after : Disk) : Prop :=
  ∃ location, before.openFile path = .ok location ∧ before.HasRoom location bytes.length ∧
    after = before.put location (.file bytes)

theorem stored_iff {d e : Disk} {path : Path} {bytes : List UInt8} :
    d.Stored path bytes e ↔ ∃ location, d.resolve .file path = .ok location ∧ d.Free location ∧
      d.HasRoom location bytes.length ∧ e = d.put location (.file bytes) := by
  simp only [Stored, openFile_eq_ok_iff, and_assoc]

/-- What writing bytes to a path comes to. -/
inductive Writing (d : Disk) (path : Path) (bytes : List UInt8) : Halfway → Prop
  /-- The file could not be opened. -/
  | closed {fault} : d.openFile path = .error fault → Writing d path bytes ⟨d, some fault⟩
  /-- The file holds a first part of the bytes only. -/
  | broken {held after fault} : held <+: bytes → held ≠ bytes → d.Stored path held after →
      Writing d path bytes ⟨after, some fault⟩
  | done {after} : d.Stored path bytes after → Writing d path bytes ⟨after, none⟩

theorem writing_write (d : Disk) (path : Path) (bytes : List UInt8) :
    d.Writing path bytes (d.write path bytes) := by
  rw [write]
  cases hopen : d.openFile path with
  | error fault => exact .closed hopen
  | ok location =>
    rcases d.take_cases location bytes with hroom | ⟨held, fault, htake, hpart, hless, hroom⟩
    · simp only [take_of_hasRoom hroom]
      exact .done ⟨location, hopen, hroom, rfl⟩
    · simp only [htake]
      exact .broken hpart hless ⟨location, hopen, hroom, rfl⟩

/-- Writing without a fault puts all bytes where the path leads. -/
theorem stored_of_write {d e : Disk} {path : Path} {bytes : List UInt8}
    (h : d.write path bytes = ⟨e, none⟩) : d.Stored path bytes e := by
  have writing := d.writing_write path bytes
  rw [h] at writing
  cases writing with
  | done stored => exact stored

/-- The disk with a new node at a path where there is nothing yet. -/
def make (d : Disk) (path : Path) (node : Node) : Except Fault Disk :=
  match d.resolve .directory path with
  | .error fault => .error fault
  | .ok location =>
    if (d.node? location).isSome then .error .alreadyExists
    else if d.Free location then .ok (d.put location node)
    else .error .notFound

/-- Making puts a node at one empty location and changes nothing else. -/
theorem node?_of_make_eq_ok {d e : Disk} {path : Path} {node : Node} (h : d.make path node = .ok e) :
    ∃ location, d.resolve .directory path = .ok location ∧ d.node? location = none ∧
      ∀ l, e.node? l = if l = location then some node else d.node? l := by
  rw [make] at h
  split at h
  · cases h
  · next location hl =>
    split at h
    · cases h
    · next hnone =>
      split at h
      · next hfree =>
        cases h
        exact ⟨location, hl, by simpa using hnone, node?_put _ hfree⟩
      · cases h

/-- The disk with a new directory. -/
def makeDir (d : Disk) (path : Path) : Except Fault Disk := d.make path .dir

/-- Making a directory puts it at one location and changes nothing else. -/
theorem node?_of_makeDir_eq_ok {d e : Disk} {path : Path} (h : d.makeDir path = .ok e) :
    ∃ location, d.resolve .directory path = .ok location ∧ d.node? location = none ∧
      ∀ l, e.node? l = if l = location then some .dir else d.node? l :=
  node?_of_make_eq_ok h

/-- The disk with a new symbolic link. -/
def makeLink (d : Disk) (path : Path) (target : String) : Except Fault Disk :=
  d.make path (.link target)

/-- The disk with a new directory; a fault counts as none where a directory is there already. -/
def ensureDir (d : Disk) (path : Path) : Halfway :=
  match d.makeDir path with
  | .ok made => ⟨made, none⟩
  | .error fault => ⟨d, if d.isDir path then none else some fault⟩

/-- The disk with the first of the paths as a directory, given the paths above it in turn: these are
made first where the path cannot be made for want of them. -/
def makeChain (d : Disk) : List Path → Halfway
  | [] => ⟨d, some .notFound⟩
  | path :: above =>
    if path.spelling = "" then ⟨d, none⟩
    else
      match d.makeDir path with
      | .error .notFound =>
        let base := d.makeChain above
        if base.fault?.isSome then base else base.disk.ensureDir path
      | _ => d.ensureDir path

/-- The disk with a directory at a path and all the directories above it. -/
def makeDirs (d : Disk) (path : Path) : Halfway := d.makeChain path.ancestors

/-- The disk without what lies at a path and below it; a link itself goes, not what it leads to. -/
def remove (d : Disk) (path : Path) : Except Fault Disk :=
  match d.resolve .directory path with
  | .error fault => .error fault
  | .ok location => if (d.node? location).isSome then .ok (d.erase location) else .error .notFound

/-- The disk with its current directory moved to the one that a path leads to. -/
def enter (d : Disk) (path : Path) : Except Fault Disk :=
  match d.locate path with
  | .error fault => .error fault
  | .ok location =>
    match d.moveTo? location with
    | some moved => .ok moved
    | none => .error .notDirectory

end Amalgam.Disk
