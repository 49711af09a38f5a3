import Amalgam.Text.Sequence

/-!
# Colours

Text painted for a terminal: the codes of a style before it, and the code that ends all styles after
it. Messages about the command line and events are painted first and lose every control sequence
where there are no colours. Reports are painted only where there are colours, and a text in them that
ends all styles itself gets its style again.

Main results:

* `cover_eq`: what a text that holds no sequence looks like in a style.
-/

namespace Amalgam.Command

open Amalgam.Text.Sequence

/-- The code that ends all styles. -/
def endOfStyle : String := "\x1b[0m"

/-- How a kind of text is painted: the codes before it. -/
structure Style where
  codes : String

namespace Style

/-- A style of one code. -/
def ofCode (code : String) : Style := ⟨"\x1b[" ++ code ++ "m"⟩

/-- The style of the word that opens a failure. -/
def failure : Style := ofCode "1;31"

/-- The style of the word that opens a warning, and of what is wrong in an argument. -/
def yellow : Style := ofCode "33"

/-- The style of good news. -/
def green : Style := ofCode "32"

/-- The style of a count. -/
def cyan : Style := ofCode "36"

/-- The style of a path. -/
def blue : Style := ofCode "34"

/-- The style of brackets in a journal. -/
def subtle : Style := ofCode "90"

/-- The style of what can be typed as it stands. -/
def literal : Style := ofCode "1"

/-- The style of a heading. -/
def heading : Style := ⟨"\x1b[1m\x1b[4m"⟩

/-- The style of the word that opens a usage error. -/
def usage : Style := ⟨"\x1b[1m\x1b[31m"⟩

/-- The text in a style. -/
def paint (style : Style) (text : String) : String := style.codes ++ text ++ endOfStyle

/-- The text with the style taken up again after each end of all styles. -/
def takeUp (style : Style) : List Char → List Char
  | '\x1b' :: '[' :: '0' :: 'm' :: rest =>
    endOfStyle.toList ++ style.codes.toList ++ style.takeUp rest
  | c :: rest => c :: style.takeUp rest
  | [] => []

/-- The text all in a style, if there are colours. -/
def cover (style : Style) (coloured : Bool) (text : String) : String :=
  if coloured then style.paint (String.ofList (style.takeUp text.toList)) else text

theorem takeUp_of_no_escape {style : Style} {text : List Char} (h : '\x1b' ∉ text) :
    style.takeUp text = text := by
  induction text with
  | nil => rfl
  | cons c rest ih =>
    rw [List.mem_cons, not_or] at h
    rw [takeUp, ih h.2]
    rintro _ rfl
    exact absurd rfl h.1

/-- A text that holds no sequence stands between the codes of its style and the end of all styles
where there are colours, and alone where there are none. -/
theorem cover_eq {style : Style} {text : String} (h : '\x1b' ∉ text.toList) (coloured : Bool) :
    style.cover coloured text =
      if coloured then style.codes ++ text ++ endOfStyle else text := by
  rw [cover, takeUp_of_no_escape h, String.ofList_toList, paint]

end Style

/-- Painted text as it is written: as it stands where there are colours, and without what a terminal
does not show where there are none. -/
def written (coloured : Bool) (painted : String) : String :=
  if coloured then painted else strip painted

end Amalgam.Command
