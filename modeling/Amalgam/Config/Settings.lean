import Amalgam.Config.Basic
import Amalgam.Disk.Edit
import Amalgam.Text.Utf8
import Amalgam.Toml.Table

/-!
# Settings files

A settings file is a flat table with a fixed set of keys. It may leave any of them out; a key it does
not know, or a value of the wrong form, makes the whole file unreadable. The paths in it are seen
from the directory that holds the file.

How a text is decoded into a table is left to a library, so the decoder is a parameter here;
`Toml.table?` describes the one that the program uses.

Main results:

* `find?_of_disabled`: no file is used when files are disabled.
* `find?_eq_ok_some_iff`, `find?_eq_ok_none_iff`: which file is used, and when none is.
* `load_of_parse`: what loading gives for a file that holds settings.
-/

namespace Amalgam

/-- What a settings file gives; `none` for a key that it leaves out. With `config` this is `Config` as
it is decoded, where the defaults of the missing keys are filled in. -/
structure Settings where
  src : Option (List Path) := none
  rejectDir : Option (List Path) := none
  rejectFile : Option (List Path) := none
  dest : Option Path := none
  target : Option String := none
deriving DecidableEq

namespace Settings

/-- A decoder of texts into tables; none for a text that it does not accept. -/
abbrev Decoder := List Char → Option Toml.Table

/-- The settings with one more entry of a table. -/
def add? (s : Settings) : String × Toml.Value → Option Settings
  | ("src", .list paths) => some { s with src := some (paths.map Path.mk) }
  | ("reject_dir", .list paths) => some { s with rejectDir := some (paths.map Path.mk) }
  | ("reject_file", .list paths) => some { s with rejectFile := some (paths.map Path.mk) }
  | ("dest", .text path) => some { s with dest := some ⟨path⟩ }
  | ("target", .text name) => some { s with target := some name }
  | _ => none

/-- The settings that a text gives. -/
def parse? (decode : Decoder) (text : String) : Option Settings := do
  let table ← decode text.toList
  table.foldlM add? {}

/-- The configuration with these settings and defaults for all others. -/
def config (s : Settings) : Config :=
  let default : Config := {}
  { src := s.src.getD default.src
    rejectDir := s.rejectDir.getD default.rejectDir
    rejectFile := s.rejectFile.getD default.rejectFile
    dest := s.dest.getD default.dest
    target := s.target.getD default.target }

/-- Reads the text of a file. -/
def readText (d : Disk) (path : Path) : Except Failure String :=
  match d.read path with
  | .error fault => .error (.read path fault)
  | .ok bytes =>
    match Text.Utf8.decode? bytes with
    | some text => .ok (String.ofList text)
    | none => .error (.read path .notText)

/-- Reads the settings in a file. -/
def read (decode : Decoder) (d : Disk) (path : Path) : Except Failure Settings := do
  let text ← readText d path
  match parse? decode text with
  | some settings => .ok settings
  | none => .error (.settings path)

/-! ## Loading a configuration -/

/-- A configuration as it is seen from the directory that holds a file. -/
def seenFrom (d : Disk) (path : Path) (c : Config) : Config :=
  match path.parent? with
  | some base => c.resolvePaths d base
  | none => c

/-- The configuration that a settings file gives: `load_from_path`. -/
def load (decode : Decoder) (d : Disk) (path : Path) : Except Failure Config :=
  (read decode d path).map fun settings => seenFrom d path settings.config

/-- What loading gives for a file that holds settings. -/
theorem load_of_parse {decode : Decoder} {d : Disk} {path : Path} {settings : Settings}
    (h : read decode d path = .ok settings) :
    load decode d path = .ok (seenFrom d path settings.config) := by
  rw [load, h]; rfl

/-- The name of the settings file that is used when none is asked for. -/
def defaultName : Path := ⟨"cconcat.toml"⟩

/-- The settings file to use, if any: none when files are disabled; the one that is asked for, which
must be there; else the default one, if it is there. It is `resolve_config_path`. -/
def find? (d : Disk) (base : Path) (asked : Option Path) (disabled : Bool) :
    Except Failure (Option Path) :=
  if disabled then .ok none
  else
    match asked with
    | some path =>
      let path := base.join path
      if d.isFile path then .ok (some path) else .error (.config (.missingFile path))
    | none =>
      let path := base.join defaultName
      .ok (if d.isFile path then some path else none)

/-- No file is used when files are disabled. -/
theorem find?_of_disabled (d : Disk) (base : Path) (asked : Option Path) :
    find? d base asked true = .ok none := rfl

/-- The file that is used is the one under the path that is asked for, or else the default one. -/
theorem find?_eq_ok_some_iff {d : Disk} {base path : Path} {asked : Option Path} {disabled : Bool} :
    find? d base asked disabled = .ok (some path) ↔
      disabled = false ∧ path = base.join (asked.getD defaultName) ∧ d.isFile path = true := by
  unfold find?
  cases disabled with
  | true => simp
  | false =>
    -- with or without a name it is one path that is looked up
    have used (p : Path) : p = path ∧ d.isFile p = true ↔ path = p ∧ d.isFile path = true :=
      ⟨fun h => ⟨h.1.symm, h.1 ▸ h.2⟩, fun h => ⟨h.1.symm, h.1 ▸ h.2⟩⟩
    cases asked with
    | none =>
      by_cases h : d.isFile (base.join defaultName) = true <;>
        simp [h, ← used (base.join defaultName)]
    | some file => by_cases h : d.isFile (base.join file) = true <;> simp [h, ← used (base.join file)]

/-- Which requests use no file. -/
theorem find?_eq_ok_none_iff {d : Disk} {base : Path} {asked : Option Path} {disabled : Bool} :
    find? d base asked disabled = .ok none ↔
      disabled = true ∨ asked = none ∧ d.isFile (base.join defaultName) = false := by
  unfold find?
  cases disabled with
  | true => simp
  | false =>
    cases asked with
    | none => simp
    | some file => by_cases h : d.isFile (base.join file) = true <;> simp [h]

end Settings

end Amalgam
