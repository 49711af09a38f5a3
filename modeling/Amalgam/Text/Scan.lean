import Amalgam.Text.Blank

/-!
# Reading from the front of a text

Small readers that take something off the front of a text and give the rest.

Main results:

* `after?_eq_some_iff`: a word is taken off exactly where the text starts with it.
* `cutAt?_eq_some_iff`: a text is cut around the first occurrence of a character.
-/

namespace Amalgam.Text

/-- The text after `word`, if it starts with `word`. -/
def after? (word s : List Char) : Option (List Char) :=
  if word.isPrefixOf s then some (s.drop word.length) else none

theorem after?_eq_some_iff {word s rest : List Char} :
    after? word s = some rest ↔ s = word ++ rest := by
  rw [after?]
  constructor
  · intro h
    split at h
    · next hp =>
      cases h
      exact (List.prefix_iff_eq_append.1 (List.isPrefixOf_iff_prefix.1 hp)).symm
    · cases h
  · rintro rfl
    simp

/-- The text after the blanks it starts with. -/
def skipBlanks (s : List Char) : List Char := s.dropWhile isBlank

/-- Cuts around the first `close`. -/
def cutAt? (close : Char) : List Char → Option (List Char × List Char)
  | [] => none
  | c :: rest =>
    if c = close then some ([], rest) else (cutAt? close rest).map fun cut => (c :: cut.1, cut.2)

theorem cutAt?_eq_some_iff {close : Char} {s before rest : List Char} :
    cutAt? close s = some (before, rest) ↔ s = before ++ close :: rest ∧ close ∉ before := by
  induction s generalizing before with
  | nil => simp [cutAt?]
  | cons c tail ih =>
    rw [cutAt?]
    split
    · next hc =>
      subst hc
      cases before with
      | nil => simp
      | cons b more => simp +contextual [eq_comm]
    · next hc =>
      cases before with
      | nil => simp [hc]
      | cons b more =>
        simp only [Option.map_eq_some_iff, Prod.mk.injEq, List.cons.injEq, List.cons_append,
          List.mem_cons, not_or]
        constructor
        · rintro ⟨⟨more', rest'⟩, h, ⟨rfl, rfl⟩, rfl⟩
          exact ⟨⟨rfl, (ih.1 h).1⟩, Ne.symm hc, (ih.1 h).2⟩
        · rintro ⟨⟨rfl, h⟩, _, hnot⟩
          exact ⟨(more, rest), ih.2 ⟨h, hnot⟩, ⟨rfl, rfl⟩, rfl⟩

end Amalgam.Text
