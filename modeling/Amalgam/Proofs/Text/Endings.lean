import Mathlib
import Amalgam.Proofs.Text.Decoding
import Amalgam.Proofs.Text.Lines

/-!
# Two ways to end a line

A line may be ended by a line feed alone or by a carriage return and a line feed. A text without
carriage returns keeps its lines when returns are put in front of some of its line feeds, or of all of
them, and also when the last line is ended that was not. The bytes of a text can be respelled instead
of the text, even where they are no text.

Main results:

* `lines_of_respelled`: the lines of a respelled text.
* `lines_append_newline`: the lines of a text whose last line is ended.
* `Utf8.decodeLossy_of_respelled`: the text of respelled bytes.
-/

namespace Amalgam.Text

/-- Whether a list is another one with `ret` put in front of some occurrences of `feed`. -/
inductive Respelled {α : Type} (ret feed : α) : List α → List α → Prop
  | nil : Respelled ret feed [] []
  | keep (a : α) {s t : List α} (h : Respelled ret feed s t) :
      Respelled ret feed (a :: s) (a :: t)
  | put {s t : List α} (h : Respelled ret feed s t) :
      Respelled ret feed (feed :: s) (ret :: feed :: t)

/-- A list with `ret` put in front of every occurrence of `feed`. -/
def respell {α : Type} [DecidableEq α] (ret feed : α) (s : List α) : List α :=
  s.flatMap fun a => if a = feed then [ret, feed] else [a]

namespace Respelled

variable {α β : Type} {ret feed : α} {s t : List α}

theorem refl (s : List α) : Respelled ret feed s s := by
  induction s with
  | nil => exact .nil
  | cons a rest ih => exact ih.keep a

theorem append_left (h : Respelled ret feed s t) (front : List α) :
    Respelled ret feed (front ++ s) (front ++ t) := by
  induction front with
  | nil => exact h
  | cons a rest ih => exact ih.keep a

theorem map (f : α → β) (h : Respelled ret feed s t) :
    Respelled (f ret) (f feed) (s.map f) (t.map f) := by
  induction h with
  | nil => exact .nil
  | keep a _ ih => exact ih.keep (f a)
  | put _ ih => exact ih.put

/-- Where there is no place for a return nothing changes. -/
theorem eq_of_not_mem (h : Respelled ret feed s t) (hfeed : feed ∉ s) : t = s := by
  induction h with
  | nil => rfl
  | keep a _ ih => rw [ih (fun hmem => hfeed (List.mem_cons_of_mem a hmem))]
  | put => exact absurd List.mem_cons_self hfeed

/-- At the first place for a return one is put or not. -/
theorem of_append {line rest : List α} (hline : feed ∉ line)
    (h : Respelled ret feed (line ++ feed :: rest) t) :
    ∃ more, Respelled ret feed rest more ∧
      (t = line ++ feed :: more ∨ t = line ++ ret :: feed :: more) := by
  induction line generalizing t with
  | nil =>
    cases h with
    | keep _ h => exact ⟨_, h, .inl rfl⟩
    | put h => exact ⟨_, h, .inr rfl⟩
  | cons a line ih =>
    rw [List.mem_cons, not_or] at hline
    cases h with
    | keep _ h =>
      obtain ⟨more, hmore, heq⟩ := ih hline.2 h
      exact ⟨more, hmore, heq.imp (congrArg (a :: ·)) (congrArg (a :: ·))⟩
    | put => exact absurd rfl hline.1

end Respelled

theorem respelled_respell {α : Type} [DecidableEq α] (ret feed : α) (s : List α) :
    Respelled ret feed s (respell ret feed s) := by
  induction s with
  | nil => exact .nil
  | cons a rest ih =>
    rw [respell, List.flatMap_cons, ← respell]
    split
    · next ha =>
      subst ha
      exact ih.put
    · exact ih.keep a

/-! ## Lines -/

variable {text other : List Char} {cut : List (List Char)}

theorem Lined.of_respelled (h : Lined text cut) (hreturn : '\r' ∉ text)
    (hother : Respelled '\r' '\n' text other) : Lined other cut := by
  induction h generalizing other with
  | nil =>
    cases hother
    exact .nil
  | last hne hline =>
    rw [hother.eq_of_not_mem hline]
    exact .last hne hline
  | feed hline hlast _ ih =>
    obtain ⟨more, hmore, rfl | rfl⟩ := hother.of_append hline
    · exact .feed hline hlast (ih (by simp_all) hmore)
    · exact .returnFeed hline (ih (by simp_all) hmore)
  | returnFeed => simp at hreturn

/-- A text without carriage returns keeps its lines when it is respelled. -/
theorem lines_of_respelled (hreturn : '\r' ∉ text) (hother : Respelled '\r' '\n' text other) :
    lines other = lines text :=
  lined_iff.1 ((lined_lines text).of_respelled hreturn hother)

/-- Whether a text has a last line that nothing has started to end. -/
structure Unended (text : List Char) : Prop where
  ne_nil : text ≠ []
  no_feed : text.getLast? ≠ some '\n'
  no_return : text.getLast? ≠ some '\r'

theorem Unended.rest {line rest : List Char} (h : Unended (line ++ '\n' :: rest)) :
    Unended rest := by
  have hrest : rest ≠ [] := by
    rintro rfl
    exact h.no_feed List.getLast?_concat
  have hlast : (line ++ '\n' :: rest).getLast? = rest.getLast? := by
    rw [List.append_cons, List.getLast?_append_of_ne_nil _ hrest]
  exact ⟨hrest, hlast ▸ h.no_feed, hlast ▸ h.no_return⟩

theorem Lined.append_newline (h : Lined text cut) (hlast : Unended text) :
    Lined (text ++ ['\n']) cut := by
  induction h with
  | nil => exact absurd rfl hlast.ne_nil
  | last _ hline => exact .feed hline hlast.no_return .nil
  | feed hline hreturn _ ih =>
    rw [List.append_assoc, List.cons_append]
    exact (ih hlast.rest).feed hline hreturn
  | returnFeed hline _ ih =>
    rw [List.append_cons] at hlast
    rw [List.append_assoc, List.cons_append, List.cons_append]
    exact (ih hlast.rest).returnFeed hline

/-- A text keeps its lines when its last line is ended that was not. -/
theorem lines_append_newline (h : Unended text) : lines (text ++ ['\n']) = lines text :=
  lined_iff.1 ((lined_lines text).append_newline h)

/-! ## Bytes -/

namespace Utf8

theorem scan_of_respelled {bytes other : List UInt8} (h : Respelled 13 10 bytes other)
    (state : Option Pending) :
    Respelled (some '\r') (some '\n') (scan state bytes) (scan state other) := by
  induction h generalizing state with
  | nil => exact .refl _
  | keep b _ ih => exact (ih _).append_left _
  | @put s t _ ih =>
    have hscan {b : UInt8} (hb : b < 0x80) (state : Option Pending) (rest : List UInt8) :
        scan state (b :: rest) = finish state ++ some (Char.ofNat b.toNat) :: scan none rest :=
      scan_append_ascii hb state [] rest
    rw [hscan (b := 10) (by decide), hscan (b := 13) (by decide), hscan (b := 10) (by decide)]
    exact (ih none).put.append_left _

/-- The text of respelled bytes is respelled. -/
theorem decodeLossy_of_respelled {bytes other : List UInt8} (h : Respelled 13 10 bytes other) :
    Respelled '\r' '\n' (decodeLossy bytes) (decodeLossy other) :=
  (scan_of_respelled h none).map fun c => c.getD replacement

theorem return_not_mem_decodeLossy {bytes : List UInt8} (h : 13 ∉ bytes) :
    '\r' ∉ decodeLossy bytes :=
  fun hmem => h (mem_of_mem_decodeLossy (by decide) hmem)

end Utf8

end Amalgam.Text
