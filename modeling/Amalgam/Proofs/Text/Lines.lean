import Mathlib
import Amalgam.Text.Pieces

/-!
# Taking a text apart into lines

A line feed ends each line but perhaps the last, and one carriage return right before the line feed
goes with it. So the first line of a text can be read off its front, and the other lines are those of
what follows.

Main results:

* `lines_append_feed`: the lines of a text that starts with an ended line.
* `lined_iff`: the lines of a text are those that it can be taken apart into.
-/

namespace Amalgam.Text

/-- Whether a text is made of the given lines. -/
inductive Lined : List Char → List (List Char) → Prop
  | nil : Lined [] []
  /-- The last line may go without a line feed, and keeps its carriage return then. -/
  | last {line : List Char} (hne : line ≠ []) (hline : '\n' ∉ line) : Lined line [line]
  | feed {line rest : List Char} {lines : List (List Char)} (hline : '\n' ∉ line)
      (hreturn : line.getLast? ≠ some '\r') (hrest : Lined rest lines) :
      Lined (line ++ '\n' :: rest) (line :: lines)
  | returnFeed {line rest : List Char} {lines : List (List Char)} (hline : '\n' ∉ line)
      (hrest : Lined rest lines) : Lined (line ++ '\r' :: '\n' :: rest) (line :: lines)

theorem dropReturn_append (line : List Char) : dropReturn (line ++ ['\r']) = line := by
  rw [dropReturn, List.getLast?_concat, if_pos rfl, List.dropLast_concat]

theorem dropReturn_of_ne {line : List Char} (h : line.getLast? ≠ some '\r') :
    dropReturn line = line := if_neg h

/-- A line is left as it is, or one carriage return is taken off it. -/
theorem dropReturn_cases (line : List Char) :
    (line.getLast? ≠ some '\r' ∧ dropReturn line = line) ∨ line = dropReturn line ++ ['\r'] := by
  by_cases h : line.getLast? = some '\r'
  · obtain ⟨front, rfl⟩ := List.getLast?_eq_some_iff.1 h
    exact .inr (by rw [dropReturn_append])
  · exact .inl ⟨h, dropReturn_of_ne h⟩

/-- A text without a line feed is its only line. -/
theorem lines_of_not_mem {line : List Char} (hne : line ≠ []) (h : '\n' ∉ line) :
    lines line = [line] := by
  simp [lines, pieces_of_not_mem h, hne]

/-- The lines of a text that starts with an ended line. -/
theorem lines_append_feed {line : List Char} (h : '\n' ∉ line) (rest : List Char) :
    lines (line ++ '\n' :: rest) = dropReturn line :: lines rest := by
  have hne := pieces_ne_nil '\n' rest
  simp only [lines]
  rw [pieces_append_cons, pieces_of_not_mem h, List.singleton_append,
    List.dropLast_cons_of_ne_nil hne, List.getLast?_cons_of_ne_nil hne, List.map_cons,
    List.cons_append]

theorem lines_eq_of_lined {text : List Char} {cut : List (List Char)} (h : Lined text cut) :
    lines text = cut := by
  induction h with
  | nil => rfl
  | last hne hline => exact lines_of_not_mem hne hline
  | feed hline hreturn _ ih => rw [lines_append_feed hline, dropReturn_of_ne hreturn, ih]
  | @returnFeed line rest _ hline _ ih =>
    have hnot : '\n' ∉ line ++ ['\r'] := by simpa using hline
    rw [List.append_cons, lines_append_feed hnot, dropReturn_append, ih]

/-- By induction on the length, as what follows the first line feed is a shorter text. -/
theorem lined_lines (text : List Char) : Lined text (lines text) := by
  by_cases hfeed : '\n' ∈ text
  · obtain ⟨line, rest, htext, hline⟩ := List.eq_append_cons_of_mem hfeed
    have hlength : rest.length < text.length := by simp [htext, Nat.lt_add_left]
    have hrest := lined_lines rest
    rw [htext, lines_append_feed hline]
    rcases dropReturn_cases line with ⟨hreturn, heq⟩ | heq
    · rw [heq]
      exact hrest.feed hline hreturn
    · have := hrest.returnFeed (not_mem_dropReturn hline)
      rwa [List.append_cons, ← heq] at this
  · by_cases hne : text = []
    · subst hne
      exact .nil
    · rw [lines_of_not_mem hne hfeed]
      exact .last hne hfeed
termination_by text.length

/-- The lines of a text are those that it can be taken apart into. -/
theorem lined_iff {text : List Char} {cut : List (List Char)} :
    Lined text cut ↔ lines text = cut :=
  ⟨lines_eq_of_lined, fun h => h ▸ lined_lines text⟩

/-- A carriage return that no line feed follows stays. -/
example : lines "a\r\r\n\nb\r".toList = ["a\r".toList, [], "b\r".toList] := by decide

end Amalgam.Text
