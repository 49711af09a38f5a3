import Amalgam.Include.Target
import Amalgam.Text.Scan

/-!
# Include lines

A line is an include line when it reads, blanks apart: optionally two or more slashes, `#`,
`include`, a target between its delimiters, and a rest without a line feed. The rest may carry a
comment that starts with `PRECEDED BY:` and gives a statement that has to stand before the include.

Main results:

* `delimited_eq_some_iff`: the name between delimiters is the text up to the first closing one.
-/

namespace Amalgam.Include

open Amalgam.Text

/-- The text after two or more slashes, if it starts with so many. -/
def slashes? (s : List Char) : Option (List Char) :=
  (after? ['/', '/'] s).map fun rest => rest.dropWhile (· = '/')

/-- The text after a comment sign and blanks, or the text itself if there is no such sign. -/
def skipComment (s : List Char) : List Char :=
  match slashes? s with
  | some rest => skipBlanks rest
  | none => s

/-- Cuts around the first `close`, which must come after at least one other character. -/
def delimited? (close : Char) (s : List Char) : Option (List Char × List Char) :=
  (cutAt? close s).filter fun cut => cut.1 ≠ []

/-- The name between delimiters is the text up to the first closing one. -/
theorem delimited_eq_some_iff {close : Char} {s name rest : List Char} :
    delimited? close s = some (name, rest) ↔
      s = name ++ close :: rest ∧ name ≠ [] ∧ close ∉ name := by
  simp only [delimited?, Option.filter_eq_some_iff, cutAt?_eq_some_iff, decide_eq_true_eq]
  exact ⟨fun h => ⟨h.1.1, h.2, h.1.2⟩, fun h => ⟨⟨h.1, h.2.2⟩, h.2.1⟩⟩

/-- What is found on an include line: the delimiter, the text between the delimiters, and the rest. -/
structure Found where
  delimiter : Delimiter
  name : List Char
  rest : List Char

/-- What is found where a target between its delimiters has to start. -/
def enclosed? : List Char → Option Found
  | '<' :: s => (delimited? '>' s).map fun cut => ⟨.angle, cut.1, cut.2⟩
  | '"' :: s => (delimited? '"' s).map fun cut => ⟨.quote, cut.1, cut.2⟩
  | _ => none

/-- What is found when a line is an include line. -/
def recognise (line : List Char) : Option Found := do
  let s ← after? ['#'] (skipComment (skipBlanks line))
  let s ← after? "include".toList (skipBlanks s)
  let found ← enclosed? (skipBlanks s)
  if '\n' ∈ found.rest then none else some found

/-- The target of an include line: its name without the blanks around it. -/
def Found.target (found : Found) : Target :=
  ⟨found.delimiter, String.ofList (trim found.name)⟩

/-- A statement without the blanks, then the backticks, then the blanks around it. -/
def bareStatement (s : List Char) : List Char := trim (trimBy (· = '`') (trim s))

/-- The statement that the rest of an include line asks for, if it is not empty. -/
def annotation? (rest : List Char) : Option (List Char) := do
  let s ← slashes? (skipBlanks rest)
  let s ← after? "PRECEDED BY:".toList (skipBlanks s)
  let statement := bareStatement s
  if statement = [] then none else some statement

/-- The target of an include line, and the statement that has to stand before it
(`parse_include_line`). -/
def parseLine? (line : String) : Option (Target × Option String) :=
  (recognise line.toList).map fun found =>
    (found.target, (annotation? found.rest).map String.ofList)

/-- What an include line asks for: the statement before it, if any, and the line itself. -/
def directives : Target × Option String → List Directive
  | (target, none) => [.plain target]
  | (target, some statement) => [.precede statement target, .plain target]

end Amalgam.Include
