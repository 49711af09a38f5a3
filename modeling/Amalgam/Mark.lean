import Amalgam.Text.Digit
import Amalgam.Text.Scan

/-!
# Marks

The first line of a file may hold a mark that places the file: `RANK = n` orders it among the
internal headers, `EXPOSE n` moves it to the public header. The mark stands after one or more comment
signs, with blanks around, and its number is positive and fits 32 bits.

Main results:

* `number?_eq_some_iff`: which digits give a number.
* `parse_of_shape?_eq_none`: a line without a mark's shape holds none and is no error.
-/

namespace Amalgam

/-- The two orders that headers can be placed in (`RankKind`). -/
inductive Series where
  | rank
  | expose
deriving DecidableEq

/-- The word for a series in marks and messages. -/
def Series.word : Series → String
  | .rank => "RANK"
  | .expose => "EXPOSE"

/-- A place in a series. -/
structure Mark where
  series : Series
  number : Nat
deriving DecidableEq

namespace Mark

open Amalgam.Text

/-- The text after all leading comment signs, each two slashes and blanks after them; `seen` says
that there was one before. -/
def afterSigns : Bool → List Char → Option (List Char)
  | _, '/' :: '/' :: rest => afterSigns true rest
  | true, c :: rest => if isBlank c then afterSigns true rest else some (c :: rest)
  | _, _ => none

/-- What stands between the word of a series and the digits: an equals sign for a rank, at least one
blank for an expose. -/
def digitsOf? : Series → List Char → Option (List Char)
  | .rank, s =>
    match skipBlanks s with
    | '=' :: rest => some (skipBlanks rest)
    | _ => none
  | .expose, c :: rest => if isBlank c then some (skipBlanks rest) else none
  | .expose, [] => none

/-- The digits of a mark of one series, if the text has the shape of one. -/
def digits? (series : Series) (s : List Char) : Option (List Char) := do
  let s ← after? series.word.toList s
  let digits ← digitsOf? series s
  if digits ≠ [] ∧ digits.all isDecimalDigit then some digits else none

/-- The series and the digits of a line that has the shape of a mark. -/
def shape? (line : List Char) : Option (Series × List Char) := do
  let s ← afterSigns false (trim line)
  match digits? .rank s with
  | some digits => some (.rank, digits)
  | none => (digits? .expose s).map fun digits => (.expose, digits)

/-- The largest number of a mark. -/
def maxNumber : Nat := 4294967295

/-- The number that digits give: positive, and no larger than the largest (`positive`). -/
def number? (digits : List Char) : Option Nat :=
  (value? digits).filter fun n => 0 < n ∧ n ≤ maxNumber

theorem number?_eq_some_iff {digits : List Char} {n : Nat} :
    number? digits = some n ↔
      (digits ≠ [] ∧ (∀ c ∈ digits, c.isDigit = true) ∧ valueOf digits = n) ∧
        0 < n ∧ n ≤ maxNumber := by
  simp only [number?, Option.filter_eq_some_iff, value?_eq_some_iff, decide_eq_true_eq]

/-- The mark on a line, if there is one; the error gives digits that are no number of a mark
(`parse_first_line`). -/
def parse (line : String) : Except String (Option Mark) :=
  match shape? line.toList with
  | none => .ok none
  | some (series, digits) =>
    match number? digits with
    | some n => .ok (some ⟨series, n⟩)
    | none => .error (String.ofList digits)

/-- A line without a mark's shape holds none and is no error. -/
theorem parse_of_shape?_eq_none {line : String} (h : shape? line.toList = none) :
    parse line = .ok none := by
  simp [parse, h]

end Mark

end Amalgam
