/-!
# Faults

What a disk answers when it cannot do what it was asked for, with the number and the wording that
users know.
-/

namespace Amalgam

/-- Why an operation on a disk failed. -/
inductive Fault where
  | notFound
  | alreadyExists
  | notDirectory
  | isDirectory
  | nameTooLong
  | tooManyLinks
  /-- The device has no room for more bytes. -/
  | noSpace
  /-- A file may not have more bytes. -/
  | fileTooLarge
  /-- The device could not be written. -/
  | inputOutput
  /-- The path holds a character that no path may hold. -/
  | nulInPath
  /-- The bytes read are no UTF-8 text. -/
  | notText
deriving DecidableEq

namespace Fault

/-- The words for a fault that the system itself reports, and its number there. -/
def system? : Fault → Option (String × Nat)
  | .notFound => some ("No such file or directory", 2)
  | .alreadyExists => some ("File exists", 17)
  | .notDirectory => some ("Not a directory", 20)
  | .isDirectory => some ("Is a directory", 21)
  | .nameTooLong => some ("File name too long", 36)
  | .tooManyLinks => some ("Too many levels of symbolic links", 40)
  | .noSpace => some ("No space left on device", 28)
  | .fileTooLarge => some ("File too large", 27)
  | .inputOutput => some ("Input/output error", 5)
  | .nulInPath | .notText => none

/-- The wording of a fault. -/
def message (fault : Fault) : String :=
  match fault.system? with
  | some (words, number) => words ++ " (os error " ++ toString number ++ ")"
  | none =>
    match fault with
    | .nulInPath => "file name contained an unexpected NUL byte"
    | _ => "stream did not contain valid UTF-8"

end Fault

end Amalgam
