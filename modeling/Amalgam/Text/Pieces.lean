import Amalgam.Text.Blank

/-!
# Cutting a list at a separator

`pieces` cuts at every occurrence of a separator and forgets nothing but the separators. `lines`
cuts a text at its line feeds, takes a carriage return that stood before a line feed off the line,
and counts no line after a final line feed.

Main results:

* `intercalate_pieces`: the pieces, joined by the separator, are the list again.
* `not_mem_of_mem_pieces`: no piece holds the separator.
* `pieces_append_cons`: cutting around one separator cuts the two sides on their own.
* `pieces_intercalate`: runs without the separator, joined by it, are cut apart again.
* `not_mem_lines`: no line holds a line feed.
-/

namespace Amalgam.Text

variable {α : Type} [DecidableEq α]

/-- The maximal runs between separators, in order; there is one more of them than separators. -/
def pieces (sep : α) : List α → List (List α)
  | [] => [[]]
  | a :: rest =>
    if a = sep then [] :: pieces sep rest
    else
      match pieces sep rest with
      | [] => [[a]]
      | first :: others => (a :: first) :: others

theorem pieces_ne_nil (sep : α) (s : List α) : pieces sep s ≠ [] := by
  cases s with
  | nil => simp [pieces]
  | cons a rest => rw [pieces]; split <;> (try split) <;> simp

theorem not_mem_of_mem_pieces {sep : α} {s p : List α} (h : p ∈ pieces sep s) : sep ∉ p := by
  induction s generalizing p with
  | nil => simp_all [pieces]
  | cons a rest ih =>
    rw [pieces] at h
    split at h
    · rcases List.mem_cons.1 h with rfl | h
      · simp
      · exact ih h
    · split at h
      · next ha _ _ =>
        obtain rfl := List.mem_singleton.1 h
        simpa using Ne.symm ha
      · next ha _ first others heq =>
        rcases List.mem_cons.1 h with rfl | h
        · have := ih (heq ▸ List.mem_cons_self)
          simpa [this] using Ne.symm ha
        · exact ih (heq ▸ List.mem_cons_of_mem _ h)

theorem mem_of_mem_pieces {sep a : α} {s p : List α} (hp : p ∈ pieces sep s) (ha : a ∈ p) :
    a ∈ s := by
  induction s generalizing p with
  | nil => simp_all [pieces]
  | cons b rest ih =>
    rw [pieces] at hp
    split at hp
    · rcases List.mem_cons.1 hp with rfl | hp
      · cases ha
      · exact List.mem_cons_of_mem b (ih hp ha)
    · obtain ⟨first, others, heq⟩ := List.exists_cons_of_ne_nil (pieces_ne_nil sep rest)
      rw [heq] at ih hp
      rcases List.mem_cons.1 hp with rfl | hp
      · exact (List.mem_cons.1 ha).elim (fun h => h ▸ List.mem_cons_self)
          fun h => List.mem_cons_of_mem b (ih List.mem_cons_self h)
      · exact List.mem_cons_of_mem b (ih (List.mem_cons_of_mem first hp) ha)

/-- Joining the pieces by the separator gives the list again. -/
theorem intercalate_pieces (sep : α) (s : List α) : [sep].intercalate (pieces sep s) = s := by
  induction s with
  | nil => simp [pieces]
  | cons a rest ih =>
    rw [pieces]
    split
    · next h =>
      subst h
      obtain ⟨first, others, heq⟩ := List.exists_cons_of_ne_nil (pieces_ne_nil a rest)
      rw [heq] at ih ⊢
      simpa [List.intercalate, List.intersperse] using ih
    · split
      · next h => exact absurd h (pieces_ne_nil sep rest)
      · next first others heq =>
        rw [heq] at ih
        cases others with
        | nil => simpa [List.intercalate] using ih
        | cons b bs => simpa [List.intercalate] using ih

/-- A list without the separator is its only piece. -/
theorem pieces_of_not_mem {sep : α} {s : List α} (h : sep ∉ s) : pieces sep s = [s] := by
  induction s with
  | nil => rfl
  | cons a rest ih =>
    simp only [List.mem_cons, not_or] at h
    rw [pieces, if_neg (Ne.symm h.1), ih h.2]

/-- Around one separator the two sides are cut on their own. -/
theorem pieces_append_cons (sep : α) (s t : List α) :
    pieces sep (s ++ sep :: t) = pieces sep s ++ pieces sep t := by
  induction s with
  | nil => simp [pieces]
  | cons a rest ih =>
    simp only [List.cons_append, pieces]
    rw [ih]
    obtain ⟨first, others, heq⟩ := List.exists_cons_of_ne_nil (pieces_ne_nil sep rest)
    split <;> simp [heq]

/-- What stands in front of the first separator belongs to the first piece. -/
theorem pieces_append_of_not_mem {sep : α} {s t first : List α} {others : List (List α)}
    (hs : sep ∉ s) (ht : pieces sep t = first :: others) :
    pieces sep (s ++ t) = (s ++ first) :: others := by
  induction s with
  | nil => exact ht
  | cons a rest ih =>
    rw [List.mem_cons, not_or] at hs
    rw [List.cons_append, pieces, if_neg (Ne.symm hs.1), ih hs.2, List.cons_append]

/-- Runs without the separator, joined by it, are cut apart again. -/
theorem pieces_intercalate {sep : α} {runs : List (List α)} (hne : runs ≠ [])
    (h : ∀ run ∈ runs, sep ∉ run) : pieces sep ([sep].intercalate runs) = runs := by
  induction runs with
  | nil => exact absurd rfl hne
  | cons run rest ih =>
    have hrun := pieces_of_not_mem (h run List.mem_cons_self)
    cases rest with
    | nil => simpa using hrun
    | cons next others =>
      have hrest := ih (List.cons_ne_nil _ _) fun r hr => h r (List.mem_cons_of_mem run hr)
      rw [List.intercalate_cons_cons, List.append_assoc, List.singleton_append,
        pieces_append_cons, hrun, hrest, List.singleton_append]

/-! ## Lines -/

/-- The line without one carriage return at its end. -/
def dropReturn (line : List Char) : List Char :=
  if line.getLast? = some '\r' then line.dropLast else line

/-- The lines of a text: each piece that a line feed ended, without one carriage return at its end,
and then what follows the last line feed, unless that is empty. -/
def lines (text : List Char) : List (List Char) :=
  let cut := pieces '\n' text
  cut.dropLast.map dropReturn ++ cut.getLast?.toList.filter (· ≠ [])

theorem not_mem_dropReturn {c : Char} {line : List Char} (h : c ∉ line) : c ∉ dropReturn line := by
  rw [dropReturn]
  split
  · exact fun hc => h ((List.dropLast_prefix _).mem hc)
  · exact h

/-- No line holds a line feed. -/
theorem not_mem_lines {text line : List Char} (h : line ∈ lines text) : '\n' ∉ line := by
  rw [lines, List.mem_append] at h
  rcases h with h | h
  · obtain ⟨p, hp, rfl⟩ := List.mem_map.1 h
    exact not_mem_dropReturn (not_mem_of_mem_pieces ((List.dropLast_prefix _).mem hp))
  · have := (List.mem_filter.1 h).1
    exact not_mem_of_mem_pieces (List.mem_of_getLast? (by simpa using this))

end Amalgam.Text
