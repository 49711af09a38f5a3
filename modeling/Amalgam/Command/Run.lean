import Amalgam.Command.Help
import Amalgam.Command.Libraries
import Amalgam.Journal.Build
import Amalgam.Journal.Config

/-!
# Running a command line

A command line is read, the configuration it means is worked out, and the run is performed. What is
performed depends on the request alone; the verbosity only decides what is told about it.

Main results:

* `performed_eq`: the request alone decides what is performed.
-/

namespace Amalgam.Command

/-! ## The effective configuration -/

/-- A list of the command line, if it is not empty, and otherwise that of the configuration. -/
def orElse (given configured : List Path) : List Path := if given = [] then configured else given

/-- The configuration with all that a request gives put in its place
(`merge_config_with_cli_overrides`). -/
def Request.overrides (r : Request) (c : Config) : Config where
  src := orElse r.src c.src
  rejectDir := orElse r.rejectDir c.rejectDir
  rejectFile := orElse r.rejectFile c.rejectFile
  dest := r.dest.getD c.dest
  target := r.target.getD c.target

/-- What stopped a command, and what it was about. -/
structure Stopped where
  context? : Option String
  failure : Failure
deriving DecidableEq

/-- The wording of what stopped a command: what it was about, the failure, the fault behind it. -/
def Stopped.message (s : Stopped) : String :=
  ": ".intercalate (s.context?.toList ++ s.failure.chain)

/-- A result whose failure says what it was about. -/
def within {α : Type} (context : String) (result : Except Failure α) : Except Stopped α :=
  result.mapError fun failure => ⟨some context, failure⟩

/-- The path of the current directory. -/
def currentDir (d : Disk) : Path := Path.ofLocation d.cwd

/-- The settings file that a request uses, if any, seen from a directory. -/
def Request.settingsFile (r : Request) (d : Disk) (cwd : Path) : Except Stopped (Option Path) :=
  within "Failed to resolve configuration path" (Settings.find? d cwd r.config r.noConfig)

/-- The configuration that a request starts from, seen from a directory. -/
def Request.base (r : Request) (decode : Settings.Decoder) (d : Disk) (cwd : Path) :
    Except Stopped Config := do
  match ← r.settingsFile d cwd with
  | some path =>
    within ("Failed to load config from " ++ path.spelling) (Settings.load decode d path)
  | none => return {}

/-- The configuration that a request means, seen from a directory (`load_config`). -/
def Request.effective (r : Request) (decode : Settings.Decoder) (d : Disk) (cwd : Path) :
    Except Stopped Config :=
  (r.base decode d cwd).map fun c => (r.overrides c).resolvePaths d cwd

/-- The configuration that a request means in the current directory, if it can be run. -/
def Request.valid (r : Request) (decode : Settings.Decoder) (d : Disk) : Except Stopped Config := do
  let c ← r.effective decode d (currentDir d)
  c.validate.mapError fun failure => ⟨none, failure⟩
  return c

/-! ## Performing -/

/-- What a command leaves behind. -/
structure Performed where
  disk : Disk
  result : Except Stopped Report

/-- Performs what a request asks for (`run_app`, without what it tells). -/
def Request.perform (r : Request) (decode : Settings.Decoder) (d : Disk) : Performed :=
  match r.valid decode d with
  | .error stopped => ⟨d, .error stopped⟩
  | .ok c =>
    let effect := c.run d
    ⟨effect.disk, within "Concatenation failed" effect.result⟩

/-! ## Telling -/

/-- The least important level that is shown (`setup_logging`). -/
def Options.least (o : Options) : Option Level :=
  if o.quiet then none
  else some (match o.verbose with
    | 0 => .warn
    | 1 => .info
    | 2 => .debug
    | _ => .trace)

/-- How a flag's path is shown. -/
def shownPath? : Option Path → String
  | none => "None"
  | some p => "Some(" ++ shownPath p ++ ")"

/-- How a flag's text is shown. -/
def shownText? : Option String → String
  | none => "None"
  | some s => "Some(" ++ Text.quoted s ++ ")"

/-- How a truth value is shown. -/
def shownBool (b : Bool) : String := if b then "true" else "false"

/-- A command line as it is shown. -/
def Options.shown (o : Options) : String :=
  let r := o.request
  shownRecord "Cli" [
    ("src", shownPaths r.src), ("reject_dir", shownPaths r.rejectDir),
    ("reject_file", shownPaths r.rejectFile), ("dest", shownPath? r.dest),
    ("target", shownText? r.target),
    ("config_file", shownRecord "ConfigFileOpts" [
      ("config", shownPath? r.config), ("no_config", shownBool r.noConfig)]),
    ("verbose", toString o.verbose), ("quiet", shownBool o.quiet)]

/-- What is told when a command starts. -/
def ofStart (o : Options) : Journal :=
  [Part.program.tell .trace "Logger initialized with level: Trace",
   Part.program.tell .debug ("CLI args parsed: " ++ o.shown)]

/-- What is told once a configuration is there to start from. -/
def ofOverrides (r : Request) (c : Config) : Journal :=
  [Part.program.tell .trace "Applying CLI overrides to config...",
   Part.program.tell .trace ("Config after CLI overrides: " ++ (r.overrides c).shown)]

/-- What is told about a configuration that is run. -/
def ofConfiguration (c : Config) : Journal :=
  [Part.program.tell .debug ("Effective configuration: " ++ c.shown),
   Part.command.tell .info ("Concatenating " ++ toString c.src.length ++ " source root(s) into " ++
    c.dest.spelling)] ++
  c.src.map fun root => Part.command.tell .debug ("Source root: " ++ root.spelling)

/-- What is told while a request is performed. -/
def ofRequest (r : Request) (decode : Settings.Decoder) (d : Disk) : Journal :=
  Journal.ofFindSettings d (currentDir d) r.config r.noConfig ++
    (match r.settingsFile d (currentDir d) with
      | .ok (some path) => Journal.ofLoadSettings path
      | _ => []) ++
    (match r.base decode d (currentDir d) with
      | .ok c => ofOverrides r c
      | .error _ => []) ++
    (match r.valid decode d with
      | .ok c => ofConfiguration c ++ Journal.ofRun d c
      | .error _ => [])

/-- What is told when a request was performed. -/
def ofEnd (result : Except Stopped Report) : Journal :=
  match result with
  | .ok _ =>
    [Part.program.tell .info "Application finished successfully.",
     Part.program.tell .debug "Exiting with code 0"]
  | .error _ => [Part.program.tell .debug "Exiting with code 1"]

/-! ## Printing -/

/-- The records of the events that are shown. -/
def journalText (lib : Libraries) (coloured : Bool) (least : Option Level) (journal : Journal) :
    String :=
  String.join ((journal.shown least).map (lib.record coloured))

/-- The line of a warning (`print_warning`). -/
def warningLine (coloured : Bool) (m : MisplacedMark) : String :=
  Style.yellow.cover coloured "WARNING:" ++ " " ++ m.message ++ "\n"

/-- The line of what stopped a command (`print_error`). -/
def errorLine (coloured : Bool) (s : Stopped) : String :=
  Style.failure.cover coloured "ERROR:" ++ " " ++ s.message ++ "\n"

/-- The lines about a run that succeeded (`print_summary`). -/
def reportText (coloured : Bool) (r : Report) : String :=
  let n := r.summary.counts
  Style.green.cover coloured "✅" ++ " Merged " ++ Style.cyan.cover coloured (toString n.total) ++
    " file(s) (" ++ toString n.exposed ++ " exposed, " ++ toString n.ranked ++ " ranked, " ++
    toString n.unranked ++ " unranked headers; " ++ toString n.implementations ++
    " implementation files)\n" ++
  "   " ++ Style.green.cover coloured "header:" ++ " " ++
    Style.blue.cover coloured r.outputs.header.spelling ++ "\n" ++
  "   " ++ Style.green.cover coloured "source:" ++ " " ++
    Style.blue.cover coloured r.outputs.source.spelling ++ "\n"

/-- What a command line comes to. -/
structure Outcome where
  disk : Disk
  exit : Nat
  stdout : String
  stderr : String

/-- What is printed about the result of a command: on the output stream, and on the error stream
between the records of events. -/
def resultText (coloured quiet : Bool) : Except Stopped Report → String × String
  | .error stopped => ("", errorLine coloured stopped)
  | .ok report =>
    if quiet then ("", "")
    else (reportText coloured report,
      String.join (report.summary.warnings.map (warningLine coloured)))

/-- The exit code of a command that was performed. -/
def exitCode : Except Stopped Report → Nat
  | .ok _ => 0
  | .error _ => 1

/-- Performs the request of a command line that was read. -/
def execute (lib : Libraries) (d : Disk) (coloured : Bool) (o : Options) : Outcome :=
  let performed := o.request.perform lib.decode d
  let printed := resultText coloured o.quiet performed.result
  { disk := performed.disk
    exit := exitCode performed.result
    stdout := printed.1
    stderr :=
      journalText lib coloured o.least (ofStart o ++ ofRequest o.request lib.decode d) ++ printed.2 ++
        journalText lib coloured o.least (ofEnd performed.result) }

/-- What a command line comes to that is not performed. -/
def answerStop (d : Disk) (coloured : Bool) : Stop → Outcome
  | .help long => ⟨d, 0, written coloured (Help.text long), ""⟩
  | .version => ⟨d, 0, Help.version, ""⟩
  | .usage error => ⟨d, 2, "", written coloured (error.message ++ "\n")⟩

/-- Reads a command line and performs it (`main`). -/
def run (lib : Libraries) (d : Disk) (coloured : Bool) (arguments : List String) : Outcome :=
  match lib.arguments arguments with
  | .ok options => execute lib d coloured options
  | .error stop => answerStop d coloured stop

/-- The request alone decides what is performed. -/
theorem performed_eq {lib : Libraries} {d : Disk} {coloured : Bool} {o o' : Options}
    (h : o.request = o'.request) :
    (execute lib d coloured o).disk = (execute lib d coloured o').disk ∧
      (execute lib d coloured o).exit = (execute lib d coloured o').exit := by
  simp [execute, h]

end Amalgam.Command
