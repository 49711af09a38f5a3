import Mathlib
import Amalgam.Mark
import Amalgam.Proofs.Text.Trim

/-!
# How a mark is written

A mark can be written in many ways: blanks may stand around it and after each of its comment signs,
and its number may start with zeros. The form of a mark says what stands where; the reader finds a
mark exactly on the lines of that form, and goes by the value of the digits, not by how they look.

Main results:

* `shape?_eq_some_iff`: the reader finds the series and the digits of a line of the form.
* `parse_eq_ok_some_iff`: it gives a mark when the digits write a positive number of 32 bits.
* `parse_eq_error_iff`: it refuses the digits of a mark when they do not.
* `parse_of_mem`: one character that no mark is made of is enough for a line to hold none.
-/

namespace Amalgam.Mark

open Amalgam.Text

/-! ## The form -/

/-- Blanks and comment signs in any order. -/
inductive Filler : List Char → Prop
  | nil : Filler []
  | blank {c : Char} {s : List Char} : isBlank c = true → Filler s → Filler (c :: s)
  | sign {s : List Char} : Filler s → Filler ('/' :: '/' :: s)

/-- What stands between the word of a series and the digits. -/
def Gap : Series → List Char → Prop
  | .rank, gap => ∃ before after, gap = before ++ '=' :: after ∧ Blanks before ∧ Blanks after
  | .expose, gap => gap ≠ [] ∧ Blanks gap

/-- One or more decimal digits, of any script. -/
def Digits (digits : List Char) : Prop := digits ≠ [] ∧ ∀ c ∈ digits, isDecimalDigit c = true

/-- A mark of a series without the blanks around it: a comment sign, blanks and more signs, the word
of the series, and the digits. -/
def Core (series : Series) (digits core : List Char) : Prop :=
  ∃ filler gap, core = '/' :: '/' :: filler ++ (series.word.toList ++ (gap ++ digits)) ∧
    Filler filler ∧ Gap series gap ∧ Digits digits

/-- A line that holds a mark of a series with the given digits and nothing else. -/
def Form (series : Series) (digits line : List Char) : Prop :=
  ∃ before core after, line = before ++ core ++ after ∧ Blanks before ∧ Core series digits core ∧
    Blanks after

/-! ## Reading the form -/

/-- A text that starts with neither a blank nor a slash. -/
def Solid (s : List Char) : Prop := ∃ c rest, s = c :: rest ∧ isBlank c = false ∧ c ≠ '/'

theorem solid_word (series : Series) (s : List Char) : Solid (series.word.toList ++ s) := by
  cases series
  · exact ⟨'R', _, rfl, by decide, by decide⟩
  · exact ⟨'E', _, rfl, by decide, by decide⟩

theorem afterSigns_of_filler {filler rest : List Char} (h : Filler filler) (hrest : Solid rest) :
    afterSigns true (filler ++ rest) = some rest := by
  induction h with
  | nil =>
    obtain ⟨c, tail, rfl, hb, hc⟩ := hrest
    simp [afterSigns, hb, hc]
  | @blank c s hc hs ih =>
    have hslash : c ≠ '/' := by
      rintro rfl
      revert hc
      decide
    rw [List.cons_append, afterSigns]
    · rw [if_pos hc, ih]
    · simp [hslash]
  | sign _ ih => exact ih

/-- By induction on the text: what is taken off before `rest` are blanks and signs. -/
theorem exists_filler_of_afterSigns {seen : Bool} {s rest : List Char}
    (h : afterSigns seen s = some rest) : ∃ filler, s = filler ++ rest ∧ Filler filler := by
  fun_induction afterSigns seen s with
  | case1 _ tail ih =>
    obtain ⟨filler, rfl, hfiller⟩ := ih h
    exact ⟨'/' :: '/' :: filler, rfl, hfiller.sign⟩
  | case2 c tail _ hc ih =>
    obtain ⟨filler, rfl, hfiller⟩ := ih h
    exact ⟨c :: filler, rfl, hfiller.blank hc⟩
  | case3 c tail =>
    cases h
    exact ⟨[], rfl, .nil⟩
  | case4 => cases h

/-- Comment signs are read to the end when something else follows. -/
theorem afterSigns_eq_some_iff {s rest : List Char} (hrest : Solid rest) :
    afterSigns false s = some rest ↔ ∃ filler, s = '/' :: '/' :: filler ++ rest ∧ Filler filler := by
  constructor
  · intro h
    rw [afterSigns.eq_def] at h
    split at h
    · obtain ⟨filler, rfl, hfiller⟩ := exists_filler_of_afterSigns h
      exact ⟨filler, rfl, hfiller⟩
    · next hseen => cases hseen
    · cases h
  · rintro ⟨filler, rfl, hfiller⟩
    exact afterSigns_of_filler hfiller hrest

theorem Digits.head_not_blank {digits : List Char} (h : Digits digits) :
    ∀ c, digits.head? = some c → isBlank c = false := by
  intro c hc
  have hd : isDecimalDigit c = true := h.2 c (List.mem_of_head? hc)
  by_contra hb
  rw [isDecimalDigit_eq_false_of_isBlank (by simpa using hb)] at hd
  cases hd

theorem Digits.last_not_blank {digits : List Char} (h : Digits digits) :
    ∀ c, digits.getLast? = some c → isBlank c = false := by
  intro c hc
  have hd : isDecimalDigit c = true := h.2 c (List.mem_of_getLast? hc)
  by_contra hb
  rw [isDecimalDigit_eq_false_of_isBlank (by simpa using hb)] at hd
  cases hd

/-- Between the word and the digits a gap is read, and all of it. -/
theorem digitsOf?_eq_some_iff {series : Series} {s digits : List Char} (h : Digits digits) :
    digitsOf? series s = some digits ↔ ∃ gap, s = gap ++ digits ∧ Gap series gap := by
  have hskip (t : List Char) : skipBlanks t = digits ↔ ∃ before, t = before ++ digits ∧ Blanks before :=
    skipBlanks_eq_iff h.head_not_blank
  cases series with
  | rank =>
    constructor
    · intro hr
      rw [digitsOf?] at hr
      split at hr
      · next rest heq =>
        obtain ⟨before, rfl, hb⟩ := (skipBlanks_eq_iff (by simp; decide)).1 heq
        obtain ⟨after, rfl, ha⟩ := (hskip rest).1 (Option.some.inj hr)
        exact ⟨before ++ '=' :: after, by simp, before, after, rfl, hb, ha⟩
      · cases hr
    · rintro ⟨gap, rfl, before, after, rfl, hb, ha⟩
      have heq : skipBlanks (before ++ '=' :: after ++ digits) = '=' :: (after ++ digits) :=
        (skipBlanks_eq_iff (by simp; decide)).2 ⟨before, by simp, hb⟩
      rw [digitsOf?, heq]
      exact congrArg some ((hskip _).2 ⟨after, rfl, ha⟩)
  | expose =>
    constructor
    · intro hr
      rw [digitsOf?.eq_def] at hr
      cases s with
      | nil => cases hr
      | cons c rest =>
        simp only at hr
        split at hr
        · next hc =>
          obtain ⟨blanks, rfl, hb⟩ := (hskip rest).1 (Option.some.inj hr)
          exact ⟨c :: blanks, rfl, by simp, List.forall_mem_cons.2 ⟨hc, hb⟩⟩
        · cases hr
    · rintro ⟨gap, rfl, hne, hb⟩
      obtain ⟨c, blanks, rfl⟩ := List.exists_cons_of_ne_nil hne
      obtain ⟨hc, hb⟩ := List.forall_mem_cons.1 hb
      rw [List.cons_append, digitsOf?, if_pos hc]
      exact congrArg some ((hskip _).2 ⟨blanks, rfl, hb⟩)

theorem digits?_eq_some_iff {series : Series} {s digits : List Char} :
    digits? series s = some digits ↔
      ∃ gap, s = series.word.toList ++ (gap ++ digits) ∧ Gap series gap ∧ Digits digits := by
  simp only [digits?, Option.bind_eq_bind, Option.bind_eq_some_iff, after?_eq_some_iff,
    Option.ite_none_right_eq_some, Option.some.injEq, List.all_eq_true]
  constructor
  · rintro ⟨t, rfl, found, hfound, hdigits, rfl⟩
    obtain ⟨gap, rfl, hgap⟩ := (digitsOf?_eq_some_iff hdigits).1 hfound
    exact ⟨gap, rfl, hgap, hdigits⟩
  · rintro ⟨gap, rfl, hgap, hdigits⟩
    exact ⟨gap ++ digits, rfl, digits, (digitsOf?_eq_some_iff hdigits).2 ⟨gap, rfl, hgap⟩, hdigits,
      rfl⟩

/-- No text has the digits of a mark of both series. -/
theorem digits?_rank_eq_none {s digits : List Char} (h : digits? .expose s = some digits) :
    digits? .rank s = none := by
  obtain ⟨gap, rfl, -⟩ := digits?_eq_some_iff.1 h
  rw [Option.eq_none_iff_forall_ne_some]
  intro other hother
  obtain ⟨_, heq, -⟩ := digits?_eq_some_iff.1 hother
  simp [Series.word] at heq

theorem core_iff {series : Series} {digits core : List Char} :
    Core series digits core ↔
      ∃ rest, afterSigns false core = some rest ∧ digits? series rest = some digits := by
  constructor
  · rintro ⟨filler, gap, rfl, hfiller, hgap, hdigits⟩
    exact ⟨_, (afterSigns_eq_some_iff (solid_word series _)).2 ⟨filler, rfl, hfiller⟩,
      digits?_eq_some_iff.2 ⟨gap, rfl, hgap, hdigits⟩⟩
  · rintro ⟨rest, hsigns, hrest⟩
    obtain ⟨gap, rfl, hgap, hdigits⟩ := digits?_eq_some_iff.1 hrest
    obtain ⟨filler, rfl, hfiller⟩ := (afterSigns_eq_some_iff (solid_word series _)).1 hsigns
    exact ⟨filler, gap, rfl, hfiller, hgap, hdigits⟩

/-- A core starts with a sign and ends with a digit. -/
theorem Core.ends {series : Series} {digits core : List Char} (h : Core series digits core) :
    core ≠ [] ∧ (∀ c, core.head? = some c → isBlank c = false) ∧
      ∀ c, core.getLast? = some c → isBlank c = false := by
  obtain ⟨filler, gap, rfl, -, -, hdigits⟩ := h
  refine ⟨by simp, ?_, ?_⟩
  · intro c hc
    cases hc
    decide
  · intro c hc
    rw [← List.append_assoc, ← List.append_assoc,
      List.getLast?_append_of_ne_nil _ hdigits.1] at hc
    exact hdigits.last_not_blank c hc

/-- The blanks around a mark are what trimming takes off. -/
theorem form_iff {series : Series} {digits line : List Char} :
    Form series digits line ↔ Core series digits (trim line) := by
  constructor
  · rintro ⟨before, core, after, rfl, hb, hcore, ha⟩
    obtain ⟨hne, hhead, hlast⟩ := hcore.ends
    have htrim : trim (before ++ core ++ after) = core :=
      (trimBy_eq_iff hne hhead hlast).2 ⟨before, after, rfl, hb, ha⟩
    rw [htrim]
    exact hcore
  · intro hcore
    obtain ⟨hne, hhead, hlast⟩ := hcore.ends
    obtain ⟨before, after, hline, hb, ha⟩ := (trimBy_eq_iff hne hhead hlast).1 rfl
    exact ⟨before, trim line, after, hline, hb, hcore, ha⟩

/-- The reader finds the series and the digits of a line of the form of a mark. -/
theorem shape?_eq_some_iff {series : Series} {digits line : List Char} :
    shape? line = some (series, digits) ↔ Form series digits line := by
  rw [form_iff, core_iff, shape?, Option.bind_eq_bind, Option.bind_eq_some_iff]
  refine exists_congr fun rest => and_congr_right fun _ => ?_
  cases hr : digits? .rank rest with
  | some found =>
    cases series with
    | rank => simp [hr]
    | expose =>
      have hne : digits? .expose rest ≠ some digits := by
        intro he
        rw [digits?_rank_eq_none he] at hr
        cases hr
      simp [hne]
  | none => cases series <;> simp [hr]

/-! ## Numbers -/

/-- Digits that write a number that a mark can have: ASCII digits, of a positive value of 32 bits. -/
def Number (digits : List Char) (n : Nat) : Prop :=
  (∀ c ∈ digits, c.isDigit = true) ∧ valueOf digits = n ∧ 0 < n ∧ n ≤ maxNumber

/-- A line that is a mark, with its number written in some way. -/
def On (mark : Mark) (line : String) : Prop :=
  ∃ digits, Form mark.series digits line.toList ∧ Number digits mark.number

/-- A line of the form of a mark whose digits write no number that a mark can have. -/
def Unreadable (digits : List Char) (line : String) : Prop :=
  (∃ series, Form series digits line.toList) ∧ ∀ n, ¬ Number digits n

theorem number?_eq_some_iff_number {series : Series} {digits line : List Char}
    (h : Form series digits line) {n : Nat} : number? digits = some n ↔ Number digits n := by
  obtain ⟨_, _, _, -, -, ⟨_, _, -, -, -, hdigits⟩, -⟩ := h
  rw [number?_eq_some_iff]
  constructor
  · rintro ⟨⟨-, hall, hvalue⟩, hpos, hmax⟩
    exact ⟨hall, hvalue, hpos, hmax⟩
  · rintro ⟨hall, hvalue, hpos, hmax⟩
    exact ⟨⟨hdigits.1, hall, hvalue⟩, hpos, hmax⟩

/-- A mark is read where one stands. -/
theorem parse_eq_ok_some_iff {line : String} {mark : Mark} :
    parse line = .ok (some mark) ↔ mark.On line := by
  constructor
  · intro h
    rw [parse] at h
    split at h
    · cases h
    · next series digits hshape =>
      have hform := shape?_eq_some_iff.1 hshape
      split at h
      · next n hn =>
        cases h
        exact ⟨digits, hform, (number?_eq_some_iff_number hform).1 hn⟩
      · cases h
  · rintro ⟨digits, hform, hnumber⟩
    rw [parse, shape?_eq_some_iff.2 hform]
    simp only [(number?_eq_some_iff_number hform).2 hnumber]

/-- Digits are refused where a mark stands whose number they do not write. -/
theorem parse_eq_error_iff {line text : String} :
    parse line = .error text ↔ ∃ digits, text = String.ofList digits ∧ Unreadable digits line := by
  constructor
  · intro h
    rw [parse] at h
    split at h
    · cases h
    · next series digits hshape =>
      have hform := shape?_eq_some_iff.1 hshape
      split at h
      · cases h
      · next hn =>
        cases h
        refine ⟨digits, rfl, ⟨series, hform⟩, fun n hnumber => ?_⟩
        rw [(number?_eq_some_iff_number hform).2 hnumber] at hn
        cases hn
  · rintro ⟨digits, rfl, ⟨series, hform⟩, hnone⟩
    have hn : number? digits = none :=
      Option.eq_none_iff_forall_ne_some.2 fun n hn =>
        hnone n ((number?_eq_some_iff_number hform).1 hn)
    rw [parse, shape?_eq_some_iff.2 hform]
    simp only [hn]

/-! ## What a mark is made of -/

/-- Whether a character can stand on the line of a mark. -/
def isMarkChar (c : Char) : Bool :=
  isBlank c || isDecimalDigit c || c = '/' || c = '=' ||
    [Series.rank, .expose].any fun series => series.word.toList.contains c

theorem isMarkChar_of_isBlank {c : Char} (h : isBlank c = true) : isMarkChar c = true := by
  simp [isMarkChar, h]

theorem Filler.isMarkChar {filler : List Char} (h : Filler filler) :
    ∀ c ∈ filler, isMarkChar c = true := by
  induction h with
  | nil => exact List.forall_mem_nil _
  | blank hc _ ih => exact List.forall_mem_cons.2 ⟨isMarkChar_of_isBlank hc, ih⟩
  | sign _ ih => exact List.forall_mem_cons.2 ⟨by decide, List.forall_mem_cons.2 ⟨by decide, ih⟩⟩

theorem Gap.isMarkChar {series : Series} {gap : List Char} (h : Gap series gap) :
    ∀ c ∈ gap, isMarkChar c = true := by
  cases series with
  | rank =>
    obtain ⟨before, after, rfl, hb, ha⟩ := h
    rw [List.forall_mem_append, List.forall_mem_cons]
    exact ⟨fun c hc => isMarkChar_of_isBlank (hb c hc), by decide,
      fun c hc => isMarkChar_of_isBlank (ha c hc)⟩
  | expose => exact fun c hc => isMarkChar_of_isBlank (h.2 c hc)

theorem Form.isMarkChar {series : Series} {digits line : List Char} (h : Form series digits line) :
    ∀ c ∈ line, isMarkChar c = true := by
  obtain ⟨before, core, after, rfl, hb, ⟨filler, gap, rfl, hfiller, hgap, hdigits⟩, ha⟩ := h
  have hword : ∀ c ∈ series.word.toList, Mark.isMarkChar c = true := by
    intro c hc
    cases series <;> simp [Mark.isMarkChar, hc]
  simp only [List.forall_mem_append, List.forall_mem_cons]
  refine ⟨⟨fun c hc => isMarkChar_of_isBlank (hb c hc), ⟨by decide, by decide, hfiller.isMarkChar⟩,
    hword, hgap.isMarkChar, fun c hc => ?_⟩, fun c hc => isMarkChar_of_isBlank (ha c hc)⟩
  simp [Mark.isMarkChar, hdigits.2 c hc]

/-- A line with a character that no mark is made of holds none and is no error. -/
theorem parse_of_mem {line : String} {c : Char} (hc : c ∈ line.toList) (h : isMarkChar c = false) :
    parse line = .ok none := by
  refine parse_of_shape?_eq_none (Option.eq_none_iff_forall_ne_some.2 ?_)
  rintro ⟨series, digits⟩ hshape
  rw [(shape?_eq_some_iff.1 hshape).isMarkChar c hc] at h
  cases h

end Amalgam.Mark
