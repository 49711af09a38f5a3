import Amalgam.Disk.Fault
import Amalgam.Mark
import Amalgam.Path.Basic

/-!
# Failures

Everything that can stop a run, as its cause, and the wording of each.
-/

namespace Amalgam

/-- What is wrong with a configuration. -/
inductive ConfigFault where
  | noSource
  | emptyTarget
  | separatorInTarget (target : String)
  | missingFile (path : Path)
deriving DecidableEq

/-- The wording of a configuration fault. -/
def ConfigFault.message : ConfigFault → String
  | .noSource => "at least one source directory is required (--src)"
  | .emptyTarget => "target name must not be empty"
  | .separatorInTarget target => "target name '" ++ target ++ "' must not contain a path separator"
  | .missingFile path => "Specified config file not found at path: " ++ path.spelling

/-- What stopped a run (`AppError`). -/
inductive Failure where
  | config (fault : ConfigFault)
  /-- The settings file is no table of known settings. Of what the decoder says is wrong with it only
  the first words are kept. -/
  | settings (path : Path)
  | read (path : Path) (fault : Fault)
  | write (path : Path) (fault : Fault)
  | makeDir (path : Path) (fault : Fault)
  /-- A source root is no directory. -/
  | noSourceDir (path : Path)
  /-- A directory below a source root cannot be listed. -/
  | walk (path : Path) (fault : Fault)
  /-- Two headers claim one place. -/
  | duplicate (mark : Mark) (first second : Path)
  /-- A mark has digits that are no number of a mark. -/
  | invalidNumber (path : Path) (digits : String)
deriving DecidableEq

namespace Failure

/-- The wording for a fault of the disk at a path. -/
def atPath (what : String) (path : Path) (fault : Fault) : String :=
  what ++ ": Path '" ++ path.spelling ++ "', Error: " ++ fault.message

/-- The wording of a failure. -/
def message : Failure → String
  | .config fault => "Configuration Error: " ++ fault.message
  | .settings path =>
    "TOML Parsing Error: Error parsing config file '" ++ path.spelling ++
      "': TOML parse error. Check TOML syntax and structure."
  | .read path fault => atPath "File Read Error" path fault
  | .write path fault => atPath "File Write Error" path fault
  | .makeDir path fault => atPath "Directory Creation Error" path fault
  | .noSourceDir path =>
    "WalkDir Error: source directory '" ++ path.spelling ++
      "' does not exist or is not a directory"
  | .walk path fault =>
    "WalkDir Error: IO error for operation on " ++ path.spelling ++ ": " ++ fault.message
  | .duplicate mark first second =>
    "Duplicate " ++ mark.series.word ++ " " ++ toString mark.number ++ ": declared by both '" ++
      first.spelling ++ "' and '" ++ second.spelling ++ "'"
  | .invalidNumber path digits =>
    "Invalid rank '" ++ digits ++ "' in '" ++ path.spelling ++
      "': ranks must be positive integers"

/-- The fault of the disk behind a failure, where a failure is about one. -/
def cause? : Failure → Option Fault
  | .read _ fault | .write _ fault | .makeDir _ fault => some fault
  | _ => none

/-- The wording of a failure, followed by that of the fault behind it. -/
def chain (failure : Failure) : List String :=
  failure.message :: (failure.cause?.map Fault.message).toList

end Failure

end Amalgam
