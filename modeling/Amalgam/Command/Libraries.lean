import Amalgam.Command.Arguments
import Amalgam.Config.Settings
import Amalgam.Journal.Event

/-!
# Libraries

What the program leaves to libraries: reading arguments, decoding a settings file, and writing a
record of the journal. A command line is run over any such libraries, and what is proved of it says
what it needs of them. `Libraries.standard` describes the ones that the program is built with: a
reader of arguments that knows the flags, a decoder of flat tables, and a logger without timestamps
whose records pass through a filter that strips control sequences where there are no colours.
-/

namespace Amalgam.Command

/-- What the program leaves to libraries. -/
structure Libraries where
  /-- Reads the arguments of a command line. -/
  arguments : List String → Except Stop Options
  /-- Decodes the text of a settings file. -/
  decode : Settings.Decoder
  /-- The text that is written for an event, with colours or without. -/
  record : Bool → Event → String

/-- How the level of an event is painted. -/
def levelStyle : Level → Style
  | .warn => .yellow
  | .info => .green
  | .debug => .blue
  | .trace => .cyan

/-- What an event says; a text of several lines is indented after the first. -/
def indented (text : String) : String :=
  "\n    ".intercalate ((Text.pieces '\n' text.toList).map String.ofList)

/-- What stands in front of what an event says, painted. -/
def eventHead (event : Event) : String :=
  Style.subtle.paint "[" ++ (levelStyle event.level).paint event.level.column ++ " " ++
    event.part.name ++ Style.subtle.paint "]" ++ " "

/-- The record of an event, painted. -/
def eventLine (event : Event) : String := eventHead event ++ indented event.text ++ "\n"

/-- The libraries that the program is built with. -/
def Libraries.standard : Libraries where
  arguments := Arguments.parse
  decode := Toml.table?
  record coloured event := written coloured (eventLine event)

end Amalgam.Command
