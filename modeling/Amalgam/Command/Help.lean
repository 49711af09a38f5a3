import Amalgam.Command.Flag
import Amalgam.Command.Paint

/-!
# Help

The two help texts. Both list the flags under their headings: the short one in two columns, the long
one with each description on a line of its own.
-/

namespace Amalgam.Command.Help

open Amalgam.Text.Sequence

/-- What the program is for, in one sentence or at length. -/
def about (long : Bool) : String :=
  if long then
    "cconcat collects every .h and .c file under the given source roots and merges \n" ++
    "them into <target>.h and <target>.c. A first-line `// RANK=<n>` orders internal \n" ++
    "headers, `// EXPOSE <n>` moves a header into the public <target>.h, and include \n" ++
    "lines are deduplicated across all files."
  else "Concatenate a tree of C headers and sources into one header and one source file."

/-- Two calls that show how the program is used. -/
def examples : String :=
  "EXAMPLES:\n" ++
  "  cconcat --src lib --dest build --target mylib\n" ++
  "  cconcat --src src --src vendor --reject-dir src/tests -v\n"

/-- The names of a flag, painted. -/
def names (flag : Flag) : String :=
  let letter :=
    match flag.short? with
    | some c => Style.literal.paint (String.ofList ['-', c]) ++ ", "
    | none => "    "
  letter ++ Style.literal.paint ("--" ++ flag.long) ++ flag.suffix

/-- How many characters of the names of a flag are shown. -/
def width (flag : Flag) : Nat := (strip (names flag)).length

/-- The line of a flag in the short text. -/
def shortEntry (column : Nat) (flag : Flag) : String :=
  "  " ++ names flag ++ String.ofList (List.replicate (column + 2 - width flag) ' ') ++
    flag.description false ++ "\n"

/-- The lines of a flag in the long text. -/
def longEntry (flag : Flag) : String :=
  "  " ++ names flag ++ "\n          " ++ flag.description true ++ "\n"

/-- The headings in their order. -/
def headings : List String := ["Options", "Sources", "Output", "Configuration"]

/-- The lines under one heading. -/
def block (long : Bool) (heading : String) : String :=
  let flags := Flag.all.filter fun flag => flag.heading = heading
  let column := (flags.map width).foldl max 0
  let entries :=
    if long then "\n".intercalate (flags.map longEntry)
    else String.join (flags.map (shortEntry column))
  Style.heading.paint (heading ++ ":") ++ "\n" ++ entries

/-- The help text, painted. -/
def text (long : Bool) : String :=
  about long ++ "\n\nUsage: " ++ Style.literal.paint "cconcat" ++ " [OPTIONS]\n\n" ++
    "\n".intercalate (headings.map (block long)) ++ "\n" ++ examples

/-- What is printed for the version. -/
def version : String := "cconcat-cli 0.1.0\n"

end Amalgam.Command.Help
