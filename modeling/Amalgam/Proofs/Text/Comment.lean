import Mathlib
import Amalgam.Text.Pieces
import Amalgam.Text.Scan

/-!
# Block comments

A block comment opens with a slash and a star and goes on up to the first star that a slash follows,
whatever else it holds. So a text is exactly one comment when its only closing mark stands at its
end. A frame is what a comment has around a text that is put into it; only that text can close the
comment early.

Main results:

* `behind?_eq_some_iff`: the reader goes on behind the first closing mark.
* `isComment_iff_rest?`: a text is one comment when nothing of it is left behind its comment.
* `unclosed_intercalate_iff`: names joined by slashes close a comment when one that a slash follows
  ends in a star.
* `Frame.rest?_text`: what is left of a frame behind its comment.
-/

namespace Amalgam.Text.Comment

/-- The mark that opens a comment. -/
def opening : List Char := ['/', '*']

/-- The mark that closes a comment. -/
def closing : List Char := ['*', '/']

/-- Whether a text is exactly one comment: it opens one and closes it, and does not close it before
its end. -/
def IsComment (text : List Char) : Prop :=
  ∃ inside, text = opening ++ inside ++ closing ∧ ¬ closing <:+: inside

/-- What stands behind the first closing mark. -/
def behind? : List Char → Option (List Char)
  | [] => none
  | c :: rest => if c = '*' ∧ rest.head? = some '/' then some rest.tail else behind? rest

/-- What stands behind the comment that a text opens with. -/
def rest? (text : List Char) : Option (List Char) := (after? opening text).bind behind?

/-! ## Texts that close no comment -/

/-- Whether a text leaves a comment open: no star of it is followed by a slash. -/
def Unclosed (text : List Char) : Prop := text.IsChain fun a b => ¬(a = '*' ∧ b = '/')

instance (text : List Char) : Decidable (Unclosed text) :=
  inferInstanceAs (Decidable (text.IsChain _))

theorem unclosed_iff {text : List Char} : Unclosed text ↔ ¬ closing <:+: text := by
  rw [Unclosed, List.isChain_iff_forall_rel_of_append_cons_cons]
  constructor
  · rintro h ⟨before, after, htext⟩
    have hmark : text = before ++ '*' :: '/' :: after := by simp [← htext, closing]
    exact h hmark ⟨rfl, rfl⟩
  · rintro h a b before after rfl ⟨rfl, rfl⟩
    exact h ⟨before, after, by simp [closing]⟩

theorem unclosed_cons_iff {c : Char} {text : List Char} :
    Unclosed (c :: text) ↔ ¬(c = '*' ∧ text.head? = some '/') ∧ Unclosed text := by
  rw [Unclosed, List.isChain_cons, ← Unclosed]
  refine and_congr_left fun _ => ⟨fun h ⟨hc, hhead⟩ => h '/' hhead ⟨hc, rfl⟩, ?_⟩
  rintro h y hy ⟨rfl, rfl⟩
  exact h ⟨rfl, hy⟩

theorem unclosed_of_not_mem {text : List Char} (h : '/' ∉ text) : Unclosed text :=
  unclosed_iff.2 fun hclosing => h (hclosing.mem (by simp [closing]))

/-- Where the first of two texts ends in no star or the second starts with no slash, they close
nothing together that neither closes alone. -/
theorem unclosed_append {s t : List Char} (hs : Unclosed s) (ht : Unclosed t)
    (h : s.getLast? ≠ some '*' ∨ t.head? ≠ some '/') : Unclosed (s ++ t) := by
  refine List.isChain_append.2 ⟨hs, ht, ?_⟩
  rintro a ha b hb ⟨rfl, rfl⟩
  exact h.elim (· ha) (· hb)

/-- A text before a slash may not end in a star. -/
theorem unclosed_append_slash_iff {s t : List Char} (hs : '/' ∉ s) :
    Unclosed (s ++ '/' :: t) ↔ s.getLast? ≠ some '*' ∧ Unclosed t := by
  rw [Unclosed, List.isChain_append, List.isChain_cons]
  constructor
  · rintro ⟨-, ⟨-, ht⟩, hjoin⟩
    exact ⟨fun hlast => hjoin '*' hlast '/' rfl ⟨rfl, rfl⟩, ht⟩
  · rintro ⟨hlast, ht⟩
    refine ⟨unclosed_of_not_mem hs, ⟨by simp, ht⟩, ?_⟩
    rintro a ha b - ⟨rfl, -⟩
    exact hlast ha

/-- Names joined by slashes close no comment when none of those that a slash follows ends in a
star. -/
theorem unclosed_intercalate_iff {runs : List (List Char)} (h : ∀ run ∈ runs, '/' ∉ run) :
    Unclosed (['/'].intercalate runs) ↔ ∀ run ∈ runs.dropLast, run.getLast? ≠ some '*' := by
  induction runs with
  | nil => simp [Unclosed]
  | cons run rest ih =>
    have hrun := h run List.mem_cons_self
    cases rest with
    | nil => simpa using unclosed_of_not_mem hrun
    | cons next others =>
      rw [List.intercalate_cons_cons, List.append_assoc, List.singleton_append,
        unclosed_append_slash_iff hrun, ih fun r hr => h r (List.mem_cons_of_mem run hr),
        List.dropLast_cons_cons, List.forall_mem_cons]

/-! ## Reading to the end of a comment -/

theorem behind?_of_unclosed {text : List Char} (h : Unclosed text) : behind? text = none := by
  induction text with
  | nil => rfl
  | cons c rest ih =>
    obtain ⟨hc, hrest⟩ := unclosed_cons_iff.1 h
    rw [behind?, if_neg hc, ih hrest]

theorem behind?_append_closing {inside : List Char} (h : Unclosed inside) (rest : List Char) :
    behind? (inside ++ closing ++ rest) = some rest := by
  induction inside with
  | nil => simp [behind?, closing]
  | cons c inside ih =>
    obtain ⟨hc, hinside⟩ := unclosed_cons_iff.1 h
    -- The mark itself starts with a star, so it makes no mark with what stands before it.
    have hnext : ¬(c = '*' ∧ (inside ++ closing ++ rest).head? = some '/') := by
      rintro ⟨rfl, hhead⟩
      cases inside with
      | nil => simp [closing] at hhead
      | cons d inside => exact hc ⟨rfl, by simpa using hhead⟩
    rw [List.cons_append, List.cons_append, behind?, if_neg hnext, ih hinside]

/-- A text that closes a comment has a first closing mark. -/
theorem unclosed_or_exists (text : List Char) :
    Unclosed text ∨ ∃ inside rest, text = inside ++ closing ++ rest ∧ Unclosed inside := by
  induction text with
  | nil => exact .inl (by simp [Unclosed])
  | cons c text ih =>
    by_cases hc : c = '*' ∧ text.head? = some '/'
    · obtain ⟨rfl, hhead⟩ := hc
      obtain ⟨rest, rfl⟩ := List.head?_eq_some_iff.1 hhead
      exact .inr ⟨[], rest, rfl, by simp [Unclosed]⟩
    · rcases ih with hopen | ⟨inside, rest, rfl, hinside⟩
      · exact .inl (unclosed_cons_iff.2 ⟨hc, hopen⟩)
      · refine .inr ⟨c :: inside, rest, rfl, unclosed_cons_iff.2 ⟨?_, hinside⟩⟩
        rintro ⟨rfl, hhead⟩
        exact hc ⟨rfl, by simp [List.head?_append, hhead]⟩

/-- The reader goes on behind the first closing mark. -/
theorem behind?_eq_some_iff {text rest : List Char} :
    behind? text = some rest ↔ ∃ inside, text = inside ++ closing ++ rest ∧ Unclosed inside := by
  constructor
  · intro h
    rcases unclosed_or_exists text with hopen | ⟨inside, found, rfl, hinside⟩
    · cases (behind?_of_unclosed hopen).symm.trans h
    · obtain rfl := Option.some.inj ((behind?_append_closing hinside found).symm.trans h)
      exact ⟨inside, rfl, hinside⟩
  · rintro ⟨inside, rfl, hinside⟩
    exact behind?_append_closing hinside rest

theorem behind?_eq_none_iff {text : List Char} : behind? text = none ↔ Unclosed text := by
  refine ⟨fun h => ?_, behind?_of_unclosed⟩
  rcases unclosed_or_exists text with hopen | ⟨inside, rest, rfl, hinside⟩
  · exact hopen
  · cases (behind?_append_closing hinside rest).symm.trans h

theorem rest?_opening (text : List Char) : rest? (opening ++ text) = behind? text := by
  rw [rest?, after?_eq_some_iff.2 rfl, Option.bind_some]

/-- A text is one comment when nothing of it is left behind its comment. -/
theorem isComment_iff_rest? {text : List Char} : IsComment text ↔ rest? text = some [] := by
  simp only [rest?, Option.bind_eq_some_iff, after?_eq_some_iff, behind?_eq_some_iff,
    List.append_nil, unclosed_iff]
  constructor
  · rintro ⟨inside, rfl, hinside⟩
    exact ⟨inside ++ closing, List.append_assoc _ _ _, inside, rfl, hinside⟩
  · rintro ⟨_, rfl, inside, rfl, hinside⟩
    exact ⟨inside, (List.append_assoc _ _ _).symm, hinside⟩

instance (text : List Char) : Decidable (IsComment text) :=
  decidable_of_iff _ isComment_iff_rest?.symm

/-! ## Frames -/

/-- What a comment has around the text that is put into it: two texts that have no part in closing
it, whatever stands between them. -/
structure Frame where
  front : List Char
  back : List Char
  front_unclosed : Unclosed front
  back_unclosed : Unclosed back
  getLast?_front : front.getLast? ≠ some '*'
  head?_back : back.head? ≠ some '/'

namespace Frame

/-- The frame around a text. -/
def text (frame : Frame) (middle : List Char) : List Char :=
  opening ++ (frame.front ++ middle ++ (frame.back ++ closing))

/-- What is left behind the comment of a frame: nothing, unless the text in it closes one. -/
theorem rest?_text (frame : Frame) (middle more : List Char) :
    rest? (frame.text middle ++ more) =
      some ((behind? middle).elim [] (· ++ (frame.back ++ closing)) ++ more) := by
  rw [text, List.append_assoc, rest?_opening, behind?_eq_some_iff]
  cases hmiddle : behind? middle with
  | none =>
    have hopen := unclosed_append frame.front_unclosed (behind?_eq_none_iff.1 hmiddle)
      (.inl frame.getLast?_front)
    exact ⟨frame.front ++ middle ++ frame.back, by simp,
      unclosed_append hopen frame.back_unclosed (.inr frame.head?_back)⟩
  | some found =>
    obtain ⟨inside, rfl, hinside⟩ := behind?_eq_some_iff.1 hmiddle
    exact ⟨frame.front ++ inside, by simp,
      unclosed_append frame.front_unclosed hinside (.inl frame.getLast?_front)⟩

/-- A frame is one comment when the text in it closes none. -/
theorem isComment_text_iff (frame : Frame) {middle : List Char} :
    IsComment (frame.text middle) ↔ Unclosed middle := by
  have hrest := frame.rest?_text middle []
  rw [List.append_nil, List.append_nil] at hrest
  rw [isComment_iff_rest?, hrest, ← behind?_eq_none_iff]
  cases behind? middle <;> simp [closing]

end Frame

end Amalgam.Text.Comment
