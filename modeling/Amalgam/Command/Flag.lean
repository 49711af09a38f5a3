/-!
# Flags

The flags of the command line: how each is written, what value it takes, and what its help says. The
reader of arguments, the help text and the usage errors all read this one description.
-/

namespace Amalgam.Command

/-- The flags of the command line. -/
inductive Flag where
  | verbose
  | quiet
  | help
  | version
  | src
  | rejectDir
  | rejectFile
  | dest
  | target
  | config
  | noConfig
deriving DecidableEq

namespace Flag

/-- All flags, in the order of the help text. -/
def all : List Flag :=
  [verbose, quiet, help, version, src, rejectDir, rejectFile, dest, target, config, noConfig]

/-- The name of a flag after two dashes. -/
def long : Flag → String
  | verbose => "verbose"
  | quiet => "quiet"
  | help => "help"
  | version => "version"
  | src => "src"
  | rejectDir => "reject-dir"
  | rejectFile => "reject-file"
  | dest => "dest"
  | target => "target"
  | config => "config"
  | noConfig => "no-config"

/-- The letter of a flag after one dash. -/
def short? : Flag → Option Char
  | verbose => some 'v'
  | quiet => some 'q'
  | help => some 'h'
  | version => some 'V'
  | _ => none

/-- What the value of a flag is called, if it takes one. -/
def value? : Flag → Option String
  | src | rejectDir | dest => some "DIR"
  | rejectFile => some "FILE"
  | target => some "NAME"
  | config => some "CONFIG_FILE"
  | _ => none

/-- What stands after the name of a flag in help and errors. -/
def suffix (flag : Flag) : String :=
  match flag.value? with
  | some value => " <" ++ value ++ ">"
  | none => if flag = verbose then "..." else ""

/-- A flag as errors show it. -/
def shown (flag : Flag) : String := "--" ++ flag.long ++ flag.suffix

/-- The flag with the given long name. -/
def ofLong? (name : String) : Option Flag := all.find? fun flag => flag.long = name

/-- The flag with the given letter. -/
def ofShort? (letter : Char) : Option Flag := all.find? fun flag => flag.short? = some letter

/-- The heading under which the help text lists a flag. -/
def heading : Flag → String
  | verbose | quiet | help | version => "Options"
  | src | rejectDir | rejectFile => "Sources"
  | dest | target => "Output"
  | config | noConfig => "Configuration"

/-- What the help text says about a flag; the long text points to the short one and back. -/
def description (long : Bool) : Flag → String
  | verbose => "Increase message verbosity (-v, -vv)."
  | quiet => "Silence the summary, warnings and log output."
  | help => if long then "Print help (see a summary with '-h')" else "Print help (see more with '--help')"
  | version => "Print version"
  | src => "Source root to scan recursively (repeatable, at least one required)."
  | rejectDir =>
    "Skip files directly inside this directory; its subdirectories are still scanned (repeatable)."
  | rejectFile => "Skip this file (repeatable)."
  | dest => "Directory the generated files are written to (default: current dir)."
  | target => "Basename of the generated files (default: concat)."
  | config => "Read settings from this TOML file (default: ./cconcat.toml if present)."
  | noConfig => "Do not load any TOML config file."

end Flag

end Amalgam.Command
