import Amalgam.Config.Settings
import Amalgam.Journal.Event
import Amalgam.Text.Quoted

/-!
# The journal of configuring

What is told while the settings file is chosen and loaded, and the text that shows a configuration.
-/

namespace Amalgam

/-- How a path is shown. -/
def shownPath (p : Path) : String := Text.quoted p.spelling

/-- How a list of paths is shown. -/
def shownPaths (paths : List Path) : String := "[" ++ ", ".intercalate (paths.map shownPath) ++ "]"

/-- A record with its fields as it is shown. -/
def shownRecord (name : String) (fields : List (String × String)) : String :=
  name ++ " \x7b " ++ ", ".intercalate (fields.map fun field => field.1 ++ ": " ++ field.2) ++ " \x7d"

/-- A configuration as it is shown. -/
def Config.shown (c : Config) : String :=
  shownRecord "Config" [
    ("src", shownPaths c.src), ("reject_dir", shownPaths c.rejectDir),
    ("reject_file", shownPaths c.rejectFile), ("dest", shownPath c.dest),
    ("target", Text.quoted c.target)]

namespace Journal

/-- What is told when a settings file is chosen. -/
def ofFindSettings (d : Disk) (base : Path) (asked : Option Path) (disabled : Bool) : Journal :=
  if disabled then [Part.config.tell .debug "Config file loading disabled via CLI flag."]
  else
    match asked with
    | some path =>
      let path := base.join path
      if d.isFile path then
        [Part.config.tell .debug ("Using specified config file path: " ++ path.spelling)]
      else []
    | none =>
      let path := base.join Settings.defaultName
      if d.isFile path then
        [Part.config.tell .debug ("Using default config file path: " ++ path.spelling)]
      else
        [Part.config.tell .debug
          ("No config file specified and default not found at: " ++ path.spelling)]

/-- What is told when a settings file is loaded. -/
def ofLoadSettings (path : Path) : Journal :=
  [Part.config.tell .info ("Loading configuration from: " ++ path.spelling)]

end Journal

end Amalgam
