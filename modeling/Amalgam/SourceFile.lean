import Amalgam.Failure
import Amalgam.Include.Line
import Amalgam.Text.Pieces

/-!
# Source files

A source file is taken apart into the mark on its first line, the directives of its include lines,
and a body: all other lines, between a banner and a footer that name the file.

Main results:

* `parse_of_markOf`: what becomes of the lines of a text that can be taken apart.
* `length_content_add`: every line is in the body or an include line.
-/

namespace Amalgam

open Amalgam.Include

/-- Whether a file is a header or an implementation (`SourceKind`). -/
inductive Kind where
  | header
  | implementation
deriving DecidableEq

/-- How the names of files of a kind end (`suffix`). -/
def Kind.ending : Kind → String
  | .header => ".h"
  | .implementation => ".c"

/-- A file taken apart (`ParsedFile`). -/
structure SourceFile where
  path : Path
  kind : Kind
  rank : Option Nat
  exposeRank : Option Nat
  /-- The lines to be merged. -/
  body : List String
  /-- What the include lines ask for, in the order of the file. -/
  includes : List Directive
deriving DecidableEq

namespace SourceFile

/-- The comment above the lines of a file (`banner`). -/
def banner (path : Path) : List String :=
  ["/*", " * ===== BEGIN " ++ path.spelling ++ " =====", " */"]

/-- The comment below the lines of a file (`footer`). -/
def footer (path : Path) : String := "/* ===== END " ++ path.spelling ++ " ===== */"

/-- The lines of a text. -/
def linesOf (text : String) : List String := (Text.lines text.toList).map String.ofList

/-- The lines that are no include lines. -/
def content (lines : List String) : List String := lines.filter fun line => (parseLine? line).isNone

/-- What the include lines ask for. -/
def requests (lines : List String) : List Directive :=
  (lines.filterMap parseLine?).flatMap directives

/-- Every line is kept or is an include line. -/
theorem length_content_add (lines : List String) :
    (content lines).length + (lines.filterMap parseLine?).length = lines.length := by
  induction lines with
  | nil => rfl
  | cons line rest ih =>
    simp only [content, List.filter_cons, List.filterMap_cons, List.length_cons] at ih ⊢
    cases parseLine? line <;> simp <;> omega

/-- The mark on the first of the lines. -/
def markOf (path : Path) (lines : List String) : Except Failure (Option Mark) :=
  (Mark.parse (lines.head?.getD "")).mapError (.invalidNumber path)

/-- The lines after the mark, if there is one. -/
def afterMark (mark : Option Mark) (lines : List String) : List String :=
  if mark.isSome then lines.tail else lines

/-- The number of a mark of the given series. -/
def numberIn (series : Series) (mark : Option Mark) : Option Nat :=
  (mark.filter fun m => m.series = series).map Mark.number

/-- Takes the text of a file apart (`parse` of a `ParsedFile`). -/
def parse (path : Path) (kind : Kind) (text : String) : Except Failure SourceFile := do
  let lines := linesOf text
  let mark ← markOf path lines
  let lines := afterMark mark lines
  return {
    path, kind
    rank := numberIn .rank mark
    exposeRank := numberIn .expose mark
    body := banner path ++ content lines ++ [footer path]
    includes := requests lines }

/-- What a text gives whose first line has a readable mark or none. -/
theorem parse_of_markOf {path : Path} {kind : Kind} {text : String} {mark : Option Mark}
    (h : markOf path (linesOf text) = .ok mark) :
    parse path kind text = .ok {
      path, kind
      rank := numberIn .rank mark
      exposeRank := numberIn .expose mark
      body := banner path ++ content (afterMark mark (linesOf text)) ++ [footer path]
      includes := requests (afterMark mark (linesOf text)) } := by
  simp [parse, h, bind, Except.bind, pure, Except.pure]

end SourceFile

end Amalgam
