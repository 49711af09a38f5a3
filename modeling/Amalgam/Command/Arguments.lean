import Amalgam.Command.Flag
import Amalgam.Command.Paint
import Amalgam.Path.Basic

/-!
# Reading arguments

Arguments are read from left to right. A flag that takes a value waits for it until the next flag is
read or the arguments end; only then is the value judged. The first thing wrong ends the reading, and
so does a flag that asks for help or the version. Two flags that exclude each other are found last.

`Options` and `Request` are the program's own. `Arguments.parse` and the wording of usage errors describe
the library that reads arguments; the program takes it as a parameter, with `Libraries`.
-/

namespace Amalgam.Command

/-- What the command line asks for: which sources, which destination, which settings file. With
`Options` this is `Cli`. -/
structure Request where
  src : List Path := []
  rejectDir : List Path := []
  rejectFile : List Path := []
  dest : Option Path := none
  target : Option String := none
  config : Option Path := none
  noConfig : Bool := false
deriving DecidableEq

/-- A command line: what is asked for, and how much is told about it. -/
structure Options where
  request : Request := {}
  verbose : Nat := 0
  quiet : Bool := false
deriving DecidableEq

/-- What is wrong with a command line. -/
inductive UsageError where
  /-- An argument that is no flag, or a flag that there is not. -/
  | unexpected (argument : String)
  | missingValue (flag : Flag)
  | repeated (flag : Flag)
  | excludes (first second : Flag)
  /-- A value for a flag that takes none. -/
  | surplusValue (flag : Flag) (value : String)
deriving DecidableEq

/-- The wording of a usage error, painted. -/
def UsageError.message (e : UsageError) : String :=
  let wrong := Style.yellow.paint
  Style.usage.paint "error:" ++ " " ++
    match e with
    | .unexpected argument => "unexpected argument '" ++ wrong argument ++ "' found"
    | .missingValue flag => "a value is required for '" ++ wrong flag.shown ++ "' but none was supplied"
    | .repeated flag => "the argument '" ++ wrong flag.shown ++ "' cannot be used multiple times"
    | .excludes first second =>
      "the argument '" ++ wrong first.shown ++ "' cannot be used with '" ++ wrong second.shown ++ "'"
    | .surplusValue flag value =>
      "unexpected value '" ++ wrong value ++ "' for '" ++
        Style.literal.paint flag.shown ++ "' found; no more were expected"

/-- Why the reading of arguments ended early. -/
inductive Stop where
  | usage (error : UsageError)
  | help (long : Bool)
  | version
deriving DecidableEq

namespace Arguments

/-- What has been read so far: the options, the flags in the order in which they were taken, and a
flag that waits for its value or whose value has not been judged yet. -/
structure State where
  options : Options := {}
  taken : List Flag := []
  waiting : Option (Flag × Option String) := none
deriving DecidableEq

/-- The largest count of a flag that counts. -/
def maxCount : Nat := 255

/-- Whether a flag may be given more than once. -/
def mayRepeat : Flag → Bool
  | .src | .rejectDir | .rejectFile | .verbose => true
  | _ => false

/-- Whether a flag accepts an empty value. -/
def acceptsEmpty : Flag → Bool
  | .target => true
  | _ => false

/-- The options with one flag and its value taken in. -/
def record (o : Options) (value : String) : Flag → Options
  | .verbose => { o with verbose := min (o.verbose + 1) maxCount }
  | .quiet => { o with quiet := true }
  | .help | .version => o
  | .src => { o with request := { o.request with src := o.request.src ++ [⟨value⟩] } }
  | .rejectDir => { o with request := { o.request with rejectDir := o.request.rejectDir ++ [⟨value⟩] } }
  | .rejectFile =>
    { o with request := { o.request with rejectFile := o.request.rejectFile ++ [⟨value⟩] } }
  | .dest => { o with request := { o.request with dest := some ⟨value⟩ } }
  | .target => { o with request := { o.request with target := some value } }
  | .config => { o with request := { o.request with config := some ⟨value⟩ } }
  | .noConfig => { o with request := { o.request with noConfig := true } }

/-- Takes in a flag with its value, which must be there if the flag takes one. -/
def take (s : State) (flag : Flag) (value : Option String) : Except Stop State :=
  if flag.value?.isSome && value.isNone then .error (.usage (.missingValue flag))
  else if flag ∈ s.taken ∧ mayRepeat flag = false then .error (.usage (.repeated flag))
  else if value = some "" ∧ acceptsEmpty flag = false then .error (.usage (.missingValue flag))
  else .ok { s with
    options := record s.options (value.getD "") flag
    taken := s.taken ++ [flag] }

/-- Judges the flag that waits, if one does. -/
def settle (s : State) : Except Stop State :=
  match s.waiting with
  | none => .ok s
  | some (flag, value) => take { s with waiting := none } flag value

/-- Takes in a flag that takes no value; `long` says that it was written with its long name. -/
def takeBare (s : State) (long : Bool) (flag : Flag) : Except Stop State := do
  let s ← settle s
  match flag with
  | .help => .error (.help long)
  | .version => .error .version
  | flag => take s flag none

/-- Reads the text after two dashes. -/
def readLong (s : State) (text : List Char) : Except Stop State :=
  let name := String.ofList (text.takeWhile (· ≠ '='))
  let value :=
    match text.dropWhile (· ≠ '=') with
    | [] => none
    | _ :: rest => some (String.ofList rest)
  match Flag.ofLong? name with
  | none => .error (.usage (.unexpected ("--" ++ name)))
  | some flag =>
    match flag.value?, value with
    | none, none => takeBare s true flag
    | none, some value => .error (.usage (.surplusValue flag value))
    | some _, some value => do take (← settle s) flag (some value)
    | some _, none => do return { (← settle s) with waiting := some (flag, none) }

/-- Reads the letters after one dash. -/
def readShort (s : State) : List Char → Except Stop State
  | [] => .ok s
  | letter :: rest =>
    match Flag.ofShort? letter with
    | none => .error (.usage (.unexpected (String.ofList ['-', letter])))
    | some flag => do readShort (← takeBare s false flag) rest

/-- Reads an argument that is written as no flag: the value that a flag waits for, or too much. -/
def readPlain (s : State) (argument : String) : Except Stop State :=
  match s.waiting with
  | some (flag, none) => .ok { s with waiting := some (flag, some argument) }
  | _ => .error (.usage (.unexpected argument))

/-- Reads one argument. -/
def readOne (s : State) (argument : String) : Except Stop State :=
  match argument.toList with
  | '-' :: '-' :: text => readLong s text
  | '-' :: letter :: text => readShort s (letter :: text)
  | _ => readPlain s argument

/-- Reads arguments; after two dashes alone none is a flag or a value. -/
def readAll (s : State) : List String → Except Stop State
  | [] => .ok s
  | argument :: rest =>
    if argument = "--" then
      match rest with
      | [] => .ok s
      | surplus :: _ => .error (.usage (.unexpected surplus))
    else do readAll (← readOne s argument) rest

/-- The flag that excludes the given one. -/
def opposite? : Flag → Option Flag
  | .config => some .noConfig
  | .noConfig => some .config
  | _ => none

/-- The first flag that was taken along with one that it excludes. -/
def clash? (taken : List Flag) : Option UsageError :=
  taken.findSome? fun flag =>
    ((opposite? flag).filter (· ∈ taken)).map fun other => .excludes flag other

/-- The options that the arguments give. -/
def parse (arguments : List String) : Except Stop Options := do
  let s ← settle (← readAll {} arguments)
  match clash? s.taken with
  | some error => .error (.usage error)
  | none => return s.options

end Arguments

end Amalgam.Command
