import Mathlib
import Amalgam.Text.Scan

/-!
# Blanks around a text

Skipping and trimming are said by what stands where: a text that is skipped to or trimmed to another
is that other text with blanks before it, or before and after it.

Main results:

* `skipBlanks_eq_iff`: what is left when leading blanks are skipped.
* `append_inj_of_runs`: where a run ends is fixed by the text.
* `trimBy_eq_iff`: what is left when both ends are trimmed.
* `trimBy_trimBy`: what has been trimmed is not changed by trimming it again.
* `stripped_iff`: trimming takes off the runs at both ends and nothing else.
-/

namespace Amalgam.Text

/-- A text of blanks only. -/
def Blanks (s : List Char) : Prop := ∀ c ∈ s, isBlank c = true

instance (s : List Char) : Decidable (Blanks s) :=
  decidable_of_iff (s.all isBlank = true) List.all_eq_true

/-! ## Skipping -/

theorem skipBlanks_append {before : List Char} (h : Blanks before) (s : List Char) :
    skipBlanks (before ++ s) = skipBlanks s :=
  List.dropWhile_append_of_pos h

theorem skipBlanks_of_head {s : List Char} (h : ∀ c, s.head? = some c → isBlank c = false) :
    skipBlanks s = s := by
  cases s with
  | nil => rfl
  | cons c rest => exact List.dropWhile_cons_of_neg (by simp [h c rfl])

/-- What is left after the leading blanks does not start with a blank. -/
theorem skipBlanks_eq_iff {s rest : List Char}
    (h : ∀ c, rest.head? = some c → isBlank c = false) :
    skipBlanks s = rest ↔ ∃ before, s = before ++ rest ∧ Blanks before := by
  constructor
  · rintro rfl
    exact ⟨s.takeWhile isBlank, List.takeWhile_append_dropWhile.symm,
      fun c hc => List.mem_takeWhile_imp hc⟩
  · rintro ⟨before, rfl, hb⟩
    rw [skipBlanks_append hb, skipBlanks_of_head h]

/-! ## Runs -/

variable {α : Type} {p : α → Bool}

theorem takeWhile_append_of_head {run rest : List α} (hrun : ∀ a ∈ run, p a = true)
    (hrest : ∀ a, rest.head? = some a → p a = false) : (run ++ rest).takeWhile p = run := by
  have hstop : rest.takeWhile p = [] := by
    cases rest with
    | nil => rfl
    | cons a tail => exact List.takeWhile_cons_of_neg (by simp [hrest a rfl])
  rw [List.takeWhile_append_of_pos hrun, hstop, List.append_nil]

/-- A run of a class and what follows it, which is not of the class, are fixed by the whole. -/
theorem append_inj_of_runs {run other rest more : List α} (h : run ++ rest = other ++ more)
    (hrun : ∀ a ∈ run, p a = true) (hrest : ∀ a, rest.head? = some a → p a = false)
    (hother : ∀ a ∈ other, p a = true) (hmore : ∀ a, more.head? = some a → p a = false) :
    run = other ∧ rest = more := by
  have hruns : run = other := by
    rw [← takeWhile_append_of_head hrun hrest, h, takeWhile_append_of_head hother hmore]
  subst hruns
  exact ⟨rfl, List.append_cancel_left h⟩

/-! ## Trimming -/

theorem dropEnd_eq_rdropWhile (p : α → Bool) (s : List α) : dropEnd p s = s.rdropWhile p := by
  induction s with
  | nil => rfl
  | cons a rest ih =>
    rw [dropEnd, ih]
    simp only [List.rdropWhile, List.reverse_cons, List.dropWhile_append, List.isEmpty_iff]
    split
    · next h =>
      rw [List.reverse_eq_nil_iff] at h
      rw [if_pos h]
      by_cases ha : p a = true <;> simp [ha]
    · next h =>
      rw [if_neg (by simpa using h)]
      simp

theorem exists_append_dropEnd (p : α → Bool) (s : List α) :
    ∃ after, s = dropEnd p s ++ after ∧ ∀ a ∈ after, p a = true := by
  refine ⟨s.rtakeWhile p, ?_, fun a ha => List.mem_rtakeWhile_imp ha⟩
  rw [dropEnd_eq_rdropWhile, List.rdropWhile_append_rtakeWhile]

theorem dropEnd_append {core after : List α} (hcore : ∀ a, core.getLast? = some a → p a = false)
    (hafter : ∀ a ∈ after, p a = true) : dropEnd p (core ++ after) = core := by
  rw [dropEnd_eq_rdropWhile, List.rdropWhile, List.reverse_append,
    List.dropWhile_append_of_pos fun a ha => hafter a (List.mem_reverse.1 ha)]
  obtain rfl | ⟨init, last, rfl⟩ := core.eq_nil_or_concat'
  · rfl
  · have hl : ¬ p last = true := by simp [hcore last (by simp)]
    rw [List.reverse_append, List.reverse_singleton, List.singleton_append,
      List.dropWhile_cons_of_neg hl, List.reverse_cons, List.reverse_reverse]

/-- What trimming leaves stands between two runs of the class. -/
theorem exists_append_trimBy (p : α → Bool) (s : List α) :
    ∃ before after, s = before ++ trimBy p s ++ after ∧ (∀ a ∈ before, p a = true) ∧
      ∀ a ∈ after, p a = true := by
  obtain ⟨after, hs, ha⟩ := exists_append_dropEnd p (s.dropWhile p)
  refine ⟨s.takeWhile p, after, ?_, fun a h => List.mem_takeWhile_imp h, ha⟩
  rw [trimBy, List.append_assoc, ← hs, List.takeWhile_append_dropWhile]

/-- A list that starts and ends outside the class is what trimming leaves exactly when it stands
between two runs of the class. -/
theorem trimBy_eq_iff {s core : List α} (hne : core ≠ [])
    (hhead : ∀ a, core.head? = some a → p a = false)
    (hlast : ∀ a, core.getLast? = some a → p a = false) :
    trimBy p s = core ↔
      ∃ before after, s = before ++ core ++ after ∧ (∀ a ∈ before, p a = true) ∧
        ∀ a ∈ after, p a = true := by
  constructor
  · rintro rfl
    exact exists_append_trimBy p s
  · rintro ⟨before, after, rfl, hb, ha⟩
    obtain ⟨c, rest, rfl⟩ := List.exists_cons_of_ne_nil hne
    have hc : ¬ p c = true := by simp [hhead c rfl]
    rw [trimBy, List.append_assoc, List.dropWhile_append_of_pos hb, List.cons_append,
      List.dropWhile_cons_of_neg hc, ← List.cons_append, dropEnd_append hlast ha]

theorem trimBy_isInfix (p : α → Bool) (s : List α) : trimBy p s <:+: s :=
  (dropEnd_isPrefixOf p _).isInfix.trans (List.dropWhile_suffix p).isInfix

theorem head?_trimBy {s : List α} {a : α} (h : (trimBy p s).head? = some a) : p a = false := by
  obtain ⟨after, hafter⟩ := dropEnd_isPrefixOf p (s.dropWhile p)
  have hfirst : (s.dropWhile p).head? = some a := by
    rw [← hafter, List.head?_append, ← trimBy, h, Option.some_or]
  have hstop := List.head?_dropWhile_not p s
  rw [hfirst] at hstop
  simpa using hstop

theorem getLast?_trimBy {s : List α} {a : α} (h : (trimBy p s).getLast? = some a) :
    p a = false := by
  rw [trimBy, dropEnd_eq_rdropWhile] at h
  have hne : (s.dropWhile p).rdropWhile p ≠ [] := by
    rintro hnil
    simp [hnil] at h
  rw [List.getLast?_eq_some_getLast hne] at h
  have hstop := List.rdropWhile_last_not p (s.dropWhile p) hne
  rw [Option.some.inj h] at hstop
  simpa using hstop

/-- What has been trimmed is not changed by trimming it again. -/
theorem trimBy_trimBy (p : α → Bool) (s : List α) : trimBy p (trimBy p s) = trimBy p s := by
  by_cases hne : trimBy p s = []
  · rw [hne]
    rfl
  · exact (trimBy_eq_iff hne (fun _ => head?_trimBy) fun _ => getLast?_trimBy).2
      ⟨[], [], by simp, by simp, by simp⟩

/-- Whether a list neither starts nor ends in a class. -/
structure Clear (p : α → Bool) (s : List α) : Prop where
  head : ∀ a, s.head? = some a → p a = false
  last : ∀ a, s.getLast? = some a → p a = false

instance (p : α → Bool) (s : List α) : Decidable (Clear p s) :=
  decidable_of_iff ((∀ a ∈ s.head?, p a = false) ∧ ∀ a ∈ s.getLast?, p a = false)
    ⟨fun h => ⟨h.1, h.2⟩, fun h => ⟨h.1, h.2⟩⟩

theorem clear_trimBy (p : α → Bool) (s : List α) : Clear p (trimBy p s) :=
  ⟨fun _ => head?_trimBy, fun _ => getLast?_trimBy⟩

/-- A list around another one starts and ends outside a class when its parts do. -/
theorem Clear.append {front s back : List α} (hs : Clear p s) (hne : s ≠ [])
    (hfront : ∀ a, front.head? = some a → p a = false)
    (hback : ∀ a, back.getLast? = some a → p a = false) : Clear p (front ++ s ++ back) := by
  constructor
  · intro a ha
    rw [List.append_assoc] at ha
    cases front with
    | nil => exact hs.head a (by rwa [List.nil_append, List.head?_append_of_ne_nil _ hne] at ha)
    | cons b rest => exact hfront a ha
  · intro a ha
    obtain rfl | ⟨init, b, rfl⟩ := back.eq_nil_or_concat'
    · exact hs.last a (by rwa [List.append_nil, List.getLast?_append_of_ne_nil _ hne] at ha)
    · exact hback a (by simpa using ha)

/-- Whether a list is left of another one when the runs of a class at both ends are taken off. -/
structure Stripped (p : α → Bool) (s core : List α) : Prop extends Clear p core where
  runs : ∃ before after, s = before ++ core ++ after ∧ (∀ a ∈ before, p a = true) ∧
    ∀ a ∈ after, p a = true

theorem Stripped.isInfix {s core : List α} (h : Stripped p s core) : core <:+: s := by
  obtain ⟨before, after, rfl, -, -⟩ := h.runs
  exact ⟨before, after, rfl⟩

/-- Trimming takes off both runs and nothing else. -/
theorem stripped_iff {s core : List α} : Stripped p s core ↔ trimBy p s = core := by
  constructor
  · intro h
    by_cases hne : core = []
    · -- nothing is left of two runs
      obtain ⟨before, after, rfl, hb, ha⟩ := h.runs
      subst hne
      have hall : ∀ a ∈ before ++ [] ++ after, p a = true := by
        simpa [or_imp, forall_and] using ⟨hb, ha⟩
      rw [trimBy, List.dropWhile_eq_nil_iff.2 hall]
      rfl
    · exact (trimBy_eq_iff hne h.head h.last).2 h.runs
  · rintro rfl
    exact ⟨clear_trimBy p s, exists_append_trimBy p s⟩

end Amalgam.Text
