import Mathlib
import Amalgam.Proofs.Mark.Form

/-!
# What a first line is read as

Without the blanks around it, a line that holds a mark is one or more comment signs, each with
blanks after it, the word of a series, what has to stand between word and digits, and the digits.
The line is then read as the mark of the number that the digits write, or its digits are refused if
they write none from 1 to 4294967295. Every other line is read as holding no mark.

Main results:

* `shape_iff_core`: signs with blanks after each of them are blanks and signs in any order after one.
* `number_iff_writes`: the number of a mark is the value of its digits in base ten.
* `parse_reads_shapes`: which lines are read as marks, which are refused, and which are neither.
-/

namespace Amalgam.Mark

open Amalgam.Text

/-! ## Shapes -/

/-- One or more comment signs, each with blanks after it. -/
def Signs (s : List Char) : Prop :=
  ∃ groups : List (List Char), groups ≠ [] ∧ (∀ blanks ∈ groups, Blanks blanks) ∧
    s = groups.flatMap fun blanks => '/' :: '/' :: blanks

/-- A text that is a mark of a series with the given digits, and nothing else. -/
def Shape : Series → List Char → List Char → Prop
  | .rank, digits, text =>
    ∃ signs before after,
      text = signs ++ ("RANK".toList ++ (before ++ '=' :: (after ++ digits))) ∧
        Signs signs ∧ Blanks before ∧ Blanks after ∧ Digits digits
  | .expose, digits, text =>
    ∃ signs gap, text = signs ++ ("EXPOSE".toList ++ (gap ++ digits)) ∧
      Signs signs ∧ (gap ≠ [] ∧ Blanks gap) ∧ Digits digits

theorem Filler.append {s t : List Char} (hs : Filler s) (ht : Filler t) : Filler (s ++ t) := by
  induction hs with
  | nil => exact ht
  | blank hc _ ih => exact ih.blank hc
  | sign _ ih => exact ih.sign

theorem filler_of_blanks {s : List Char} (h : Blanks s) : Filler s := by
  induction s with
  | nil => exact .nil
  | cons c rest ih =>
    obtain ⟨hc, hrest⟩ := List.forall_mem_cons.1 h
    exact (ih hrest).blank hc

theorem filler_of_groups {groups : List (List Char)} (h : ∀ blanks ∈ groups, Blanks blanks) :
    Filler (groups.flatMap fun blanks => '/' :: '/' :: blanks) := by
  induction groups with
  | nil => exact .nil
  | cons blanks rest ih =>
    obtain ⟨hblanks, hrest⟩ := List.forall_mem_cons.1 h
    rw [List.flatMap_cons]
    exact ((filler_of_blanks hblanks).append (ih hrest)).sign

/-- By induction on the filler: blanks in front of it go to the first group, and each sign opens a
new one. -/
theorem Filler.exists_groups {filler : List Char} (h : Filler filler) :
    ∃ (blanks : List Char) (groups : List (List Char)), Blanks blanks ∧
      (∀ group ∈ groups, Blanks group) ∧
        filler = blanks ++ groups.flatMap fun blanks => '/' :: '/' :: blanks := by
  induction h with
  | nil => exact ⟨[], [], List.forall_mem_nil _, List.forall_mem_nil _, rfl⟩
  | @blank c _ hc _ ih =>
    obtain ⟨blanks, groups, hblanks, hgroups, rfl⟩ := ih
    exact ⟨c :: blanks, groups, List.forall_mem_cons.2 ⟨hc, hblanks⟩, hgroups, rfl⟩
  | sign _ ih =>
    obtain ⟨blanks, groups, hblanks, hgroups, rfl⟩ := ih
    exact ⟨[], blanks :: groups, List.forall_mem_nil _, List.forall_mem_cons.2 ⟨hblanks, hgroups⟩, rfl⟩

theorem signs_iff {s : List Char} :
    Signs s ↔ ∃ filler, s = '/' :: '/' :: filler ∧ Filler filler := by
  constructor
  · rintro ⟨groups, hne, hgroups, rfl⟩
    obtain ⟨blanks, rest, rfl⟩ := List.exists_cons_of_ne_nil hne
    obtain ⟨hblanks, hrest⟩ := List.forall_mem_cons.1 hgroups
    exact ⟨_, List.flatMap_cons, (filler_of_blanks hblanks).append (filler_of_groups hrest)⟩
  · rintro ⟨filler, rfl, hfiller⟩
    obtain ⟨blanks, groups, hblanks, hgroups, rfl⟩ := hfiller.exists_groups
    exact ⟨blanks :: groups, List.cons_ne_nil _ _, List.forall_mem_cons.2 ⟨hblanks, hgroups⟩, rfl⟩

/-- A text has the shape of a mark exactly when it is the core of one. -/
theorem shape_iff_core {series : Series} {digits text : List Char} :
    Shape series digits text ↔ Core series digits text := by
  cases series with
  | rank =>
    constructor
    · rintro ⟨signs, before, after, rfl, hsigns, hbefore, hafter, hdigits⟩
      obtain ⟨filler, rfl, hfiller⟩ := signs_iff.1 hsigns
      exact ⟨filler, before ++ '=' :: after, by simp [Series.word], hfiller,
        ⟨before, after, rfl, hbefore, hafter⟩, hdigits⟩
    · rintro ⟨filler, gap, rfl, hfiller, ⟨before, after, rfl, hbefore, hafter⟩, hdigits⟩
      exact ⟨'/' :: '/' :: filler, before, after, by simp [Series.word],
        signs_iff.2 ⟨filler, rfl, hfiller⟩, hbefore, hafter, hdigits⟩
  | expose =>
    constructor
    · rintro ⟨signs, gap, rfl, hsigns, hgap, hdigits⟩
      obtain ⟨filler, rfl, hfiller⟩ := signs_iff.1 hsigns
      exact ⟨filler, gap, rfl, hfiller, hgap, hdigits⟩
    · rintro ⟨filler, gap, rfl, hfiller, hgap, hdigits⟩
      exact ⟨'/' :: '/' :: filler, gap, rfl, signs_iff.2 ⟨filler, rfl, hfiller⟩, hgap, hdigits⟩

theorem shape?_trim_iff {series : Series} {digits line : List Char} :
    shape? line = some (series, digits) ↔ Shape series digits (trim line) := by
  rw [shape?_eq_some_iff, form_iff, shape_iff_core]

/-! ## Numbers -/

/-- ASCII digits that write a number in base ten. -/
def Writes (digits : List Char) (n : Nat) : Prop :=
  (∀ c ∈ digits, c.isDigit = true) ∧
    Nat.ofDigits 10 (digits.reverse.map fun c => c.toNat - '0'.toNat) = n

theorem valueOf_eq_ofDigits (digits : List Char) :
    valueOf digits = Nat.ofDigits 10 (digits.reverse.map fun c => c.toNat - '0'.toNat) := by
  induction digits using List.reverseRecOn with
  | nil => rfl
  | append_singleton rest c ih =>
    rw [valueOf] at ih ⊢
    rw [List.foldl_append, List.foldl_cons, List.foldl_nil, ih, List.reverse_append,
      List.reverse_singleton, List.singleton_append, List.map_cons, Nat.ofDigits_cons, Nat.add_comm]
    rfl

/-- The number of a mark is what its digits write, if that is from 1 to 4294967295. -/
theorem number_iff_writes {digits : List Char} {n : Nat} :
    Number digits n ↔ Writes digits n ∧ 1 ≤ n ∧ n ≤ 4294967295 := by
  rw [Number, Writes, valueOf_eq_ofDigits, and_assoc]
  rfl

/-- Zeros in front of the digits do not change what they write. -/
theorem writes_zeros_iff {zeros : Nat} {digits : List Char} {n : Nat} :
    Writes (List.replicate zeros '0' ++ digits) n ↔ Writes digits n := by
  have hdigits : (∀ c ∈ List.replicate zeros '0' ++ digits, c.isDigit = true) ↔
      ∀ c ∈ digits, c.isDigit = true := by
    rw [List.forall_mem_append]
    refine and_iff_right fun c hc => ?_
    rw [List.eq_of_mem_replicate hc]
    decide
  rw [Writes, Writes, hdigits, List.reverse_append, List.map_append, List.reverse_replicate,
    List.map_replicate, Nat.sub_self, Nat.ofDigits_append_replicate_zero]

/-! ## Readings -/

theorem parse_eq_ok_none_iff {line : String} :
    parse line = .ok none ↔ shape? line.toList = none := by
  refine ⟨fun h => ?_, parse_of_shape?_eq_none⟩
  rw [parse] at h
  split at h
  · next hnone => exact hnone
  · split at h <;> cases h

/-- A line that, without the blanks at both ends, has the shape of a mark is read as that mark when
its digits write a number from 1 to 4294967295, zeros in front of it or not, and is refused with just
these digits when they do not. All other lines are read as holding no mark. No line has the shape of
two marks. -/
theorem parse_reads_shapes (line : String) :
    ∃ core, Stripped isBlank line.toList core ∧
      (∀ series n, parse line = .ok (some ⟨series, n⟩) ↔
        ∃ digits, Shape series digits core ∧ Writes digits n ∧ 1 ≤ n ∧ n ≤ 4294967295) ∧
      (∀ text, parse line = .error text ↔
        ∃ series digits, Shape series digits core ∧ text = String.ofList digits ∧
          ∀ n, ¬ (Writes digits n ∧ 1 ≤ n ∧ n ≤ 4294967295)) ∧
      (parse line = .ok none ↔ ∀ series digits, ¬ Shape series digits core) ∧
      (∀ series digits other more, Shape series digits core → Shape other more core →
        series = other ∧ digits = more) ∧
      ∀ zeros digits n, Writes (List.replicate zeros '0' ++ digits) n ↔ Writes digits n := by
  refine ⟨trim line.toList, stripped_iff.2 rfl, fun series n => ?_, fun text => ?_, ?_, ?_,
    fun _ _ _ => writes_zeros_iff⟩
  · rw [parse_eq_ok_some_iff, On]
    simp only [form_iff, shape_iff_core, number_iff_writes]
  · rw [parse_eq_error_iff]
    simp only [Unreadable, form_iff, ← shape_iff_core, number_iff_writes]
    constructor
    · rintro ⟨digits, htext, ⟨series, hshape⟩, hnone⟩
      exact ⟨series, digits, hshape, htext, hnone⟩
    · rintro ⟨series, digits, hshape, htext, hnone⟩
      exact ⟨digits, htext, ⟨series, hshape⟩, hnone⟩
  · rw [parse_eq_ok_none_iff, Option.eq_none_iff_forall_ne_some, Prod.forall]
    simp only [ne_eq, shape?_trim_iff]
  · intro series digits other more hshape hother
    rw [← shape?_trim_iff] at hshape hother
    exact Prod.mk.inj (Option.some.inj (hshape.symm.trans hother))

theorem parse_reads_shapes_padded :
    Stripped isBlank "\u3000// //RANK = 007\t".toList "// //RANK = 007".toList ∧
      parse "\u3000// //RANK = 007\t" = .ok (some ⟨.rank, 7⟩) := by
  obtain ⟨core, hcore, hread, -⟩ := parse_reads_shapes "\u3000// //RANK = 007\t"
  have htext : core = "// //RANK = 007".toList := by
    rw [← stripped_iff.1 hcore]
    decide +kernel
  subst htext
  have hblank : Blanks [' '] := by decide
  have hsigns : Signs "// //".toList :=
    ⟨[[' '], []], by decide, List.forall_mem_cons.2 ⟨hblank, by simp [Blanks]⟩, by decide +kernel⟩
  have hdigits : Digits "007".toList := ⟨by decide, by simp; decide⟩
  have hshape : Shape .rank "007".toList "// //RANK = 007".toList :=
    ⟨"// //".toList, [' '], [' '], by decide +kernel, hsigns, hblank, hblank, hdigits⟩
  have hwrites : Writes "007".toList 7 := ⟨by simp, by decide +kernel⟩
  exact ⟨hcore, (hread .rank 7).2 ⟨"007".toList, hshape, hwrites, by decide, by decide⟩⟩

end Amalgam.Mark
