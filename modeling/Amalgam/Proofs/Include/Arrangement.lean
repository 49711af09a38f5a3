import Mathlib
import Amalgam.Proofs.Include.Block
import Amalgam.Proofs.Text.ByteOrder

/-!
# What stands where in an include block

A block is written target by target, in the order of the lines of the targets. Above the line of a
target stand the statements that are asked for before it and before no target with an earlier line,
in their own order. So every mentioned target and every statement has one place, and a statement
stands above all lines that asked for it, with only other statements down to the first of them.

Main results:

* `block_eq_flatMap`: remembering what was written leaves a statement to the first line that asked.
* `exists_arrangement`: so the lines of a block are those of an arrangement of the set.
* `Arrangement.count_target`, `Arrangement.exists_place`: the places of targets and of statements.
* `render_arranged`: all of this for the block of any set.
-/

namespace Amalgam.Include

open Amalgam.Text

/-- What a line of an include block stands for. -/
inductive Entry where
  | statement (text : String)
  | target (t : Target)
deriving DecidableEq

namespace Entry

/-- The line of an entry. -/
def line : Entry → String
  | statement text => text
  | target t => t.line

/-- The target that an entry is the line of. -/
def target? : Entry → Option Target
  | statement _ => none
  | target t => some t

end Entry

namespace IncludeSet

variable {s : IncludeSet}

/-- A set names a target when one of its directives is about it. -/
def Names (s : IncludeSet) (t : Target) : Prop := ∃ d ∈ s, d.target = t

/-- A statement is asked for before a target, and before none with an earlier line. -/
def FirstAsks (s : IncludeSet) (statement : String) (t : Target) : Prop :=
  .precede statement t ∈ s ∧ ∀ u, .precede statement u ∈ s → ¬ Before u.line t.line

/-- The targets of a set in the order of their lines, and for each of them the statements above its
line, in their order. -/
structure Arrangement (s : IncludeSet) where
  targets : List Target
  above : Target → List String
  mem_targets : ∀ t, t ∈ targets ↔ s.Names t
  targets_ascending : targets.Pairwise fun t u => Before t.line u.line
  mem_above : ∀ t statement, statement ∈ above t ↔ s.FirstAsks statement t
  above_ascending : ∀ t, (above t).Pairwise Before

/-! ## Order -/

theorem pairwise_targetLines (s : IncludeSet) : s.targetLines.Pairwise (· < ·) :=
  Std.ExtTreeSet.ordered_toList.imp compare_lt_iff_lt.1

/-- Directives that differ in their statements alone are in the order of the statements. -/
theorem statement_lt_of_compare {t : Target} {first second : String}
    (h : compare (Directive.precede first t) (Directive.precede second t) = .lt) :
    first < second := by
  have hcompare : compare (Directive.precede first t) (Directive.precede second t) =
      compare first second := by
    show Ordering.eq.then ((compare first second).then
      ((compare (Directive.plain t).enclosure (Directive.plain t).enclosure).then
        (compare t.name t.name))) = _
    rw [Std.ReflOrd.compare_self, Std.ReflOrd.compare_self]
    simp
  rw [hcompare] at h
  exact compare_lt_iff_lt.1 h

theorem pairwise_statements (s : IncludeSet) (line : String) :
    (s.statements line).Pairwise (· < ·) := by
  rw [statements, List.pairwise_filterMap]
  refine Std.ExtTreeSet.ordered_toList.imp ?_
  intro d e hlt first hfirst second hsecond
  obtain ⟨t, ht, rfl⟩ := statementBefore?_eq_some_iff.1 hfirst
  obtain ⟨u, hu, rfl⟩ := statementBefore?_eq_some_iff.1 hsecond
  obtain rfl := Target.line_injective (ht.trans hu.symm)
  exact statement_lt_of_compare hlt

theorem precede_mem_iff {statement : String} {t : Target} :
    statement ∈ s.statements t.line ↔ .precede statement t ∈ s := by
  rw [mem_statements]
  constructor
  · rintro ⟨u, hu, hd⟩
    exact Target.line_injective hu ▸ hd
  · exact fun hd => ⟨t, rfl, hd⟩

/-! ## Writing without memory -/

/-- The statements before a line that no earlier line of the block asks for. -/
def firstAsked (s : IncludeSet) (line : String) : List String :=
  (s.statements line).filter fun statement =>
    ∀ earlier ∈ s.targetLines, statement ∈ s.statements earlier → ¬ earlier < line

theorem mem_firstAsked {statement : String} {t : Target} :
    statement ∈ s.firstAsked t.line ↔ s.FirstAsks statement t := by
  rw [firstAsked, List.mem_filter, precede_mem_iff, decide_eq_true_eq, FirstAsks]
  refine and_congr_right fun _ => ?_
  constructor
  · intro h u hu hlt
    exact h u.line (mem_targetLines.2 ⟨_, hu, rfl⟩) (precede_mem_iff.2 hu) (before_iff.1 hlt)
  · intro h earlier _ hst hlt
    obtain ⟨u, rfl, hu⟩ := mem_statements.1 hst
    exact h u hu (before_iff.2 hlt)

/-- By induction on the lines still to write. What was written before them is what the lines before
them ask for, so a statement that is not yet written is asked for by no earlier line. -/
theorem block_eq_flatMap {earlier lines written : List String}
    (hlines : s.targetLines = earlier ++ lines)
    (hwritten : ∀ statement, statement ∈ written ↔ ∃ l ∈ earlier, statement ∈ s.statements l) :
    s.block written lines = lines.flatMap fun line => s.firstAsked line ++ [line] := by
  induction lines generalizing earlier written with
  | nil => rfl
  | cons line rest ih =>
    have hordered := pairwise_targetLines s
    rw [hlines, List.pairwise_append, List.pairwise_cons] at hordered
    obtain ⟨-, ⟨hrest, -⟩, hearlier⟩ := hordered
    have hfresh : (s.statements line).filter (· ∉ written) = s.firstAsked line := by
      refine List.filter_congr fun statement _ => ?_
      rw [decide_eq_decide, hwritten, hlines]
      constructor
      · intro hnone l hl hst hlt
        rcases List.mem_append.1 hl with hl | hl
        · exact hnone ⟨l, hl, hst⟩
        · rcases List.mem_cons.1 hl with rfl | hl
          · exact String.lt_irrefl _ hlt
          · exact String.lt_asymm hlt (hrest l hl)
      · rintro hfirst ⟨l, hl, hst⟩
        exact hfirst l (List.mem_append_left _ hl) hst (hearlier l hl line List.mem_cons_self)
    have hnext : ∀ statement, statement ∈ written ++ s.firstAsked line ↔
        ∃ l ∈ earlier ++ [line], statement ∈ s.statements l := by
      intro statement
      rw [← hfresh, List.mem_append, List.mem_filter, decide_eq_true_eq, hwritten]
      simp only [List.mem_append, List.mem_singleton, or_and_right, exists_or, exists_eq_left]
      by_cases hold : ∃ l ∈ earlier, statement ∈ s.statements l <;> simp [hold]
    have htail := ih (hlines.trans (List.append_cons earlier line rest)) hnext
    rw [block, hfresh, htail, List.flatMap_cons, List.append_assoc]
    rfl

/-! ## Arrangements -/

namespace Arrangement

/-- The entries for targets, each below the statements above its line. -/
def entriesOf (above : Target → List String) (targets : List Target) : List Entry :=
  targets.flatMap fun t => (above t).map .statement ++ [.target t]

/-- The entries of the block of a set, in order. -/
def entries (a : Arrangement s) : List Entry := entriesOf a.above a.targets

variable {above : Target → List String} {targets more : List Target}

theorem entriesOf_append :
    entriesOf above (targets ++ more) = entriesOf above targets ++ entriesOf above more :=
  List.flatMap_append

theorem entriesOf_cons (t : Target) :
    entriesOf above (t :: targets) =
      (above t).map .statement ++ .target t :: entriesOf above targets := by
  rw [entriesOf, List.flatMap_cons, List.append_assoc]
  rfl

/-- Where no statement stands above a target, the entries are those of the targets alone. -/
theorem entriesOf_eq_map (h : ∀ t, above t = []) :
    entriesOf above targets = targets.map .target := by
  induction targets with
  | nil => rfl
  | cons t rest ih =>
    rw [entriesOf_cons, h, ih]
    rfl

theorem target_mem_entriesOf {t : Target} : .target t ∈ entriesOf above targets ↔ t ∈ targets := by
  simp [entriesOf]

theorem statement_mem_entriesOf {statement : String} :
    .statement statement ∈ entriesOf above targets ↔ ∃ t ∈ targets, statement ∈ above t := by
  simp [entriesOf]

theorem filterMap_target?_entriesOf :
    (entriesOf above targets).filterMap Entry.target? = targets := by
  induction targets with
  | nil => rfl
  | cons t rest ih =>
    have hnone : ((above t).map Entry.statement).filterMap Entry.target? = [] := by
      simp [Entry.target?]
    rw [entriesOf_cons, List.filterMap_append, hnone, List.nil_append, List.filterMap_cons, ih]
    rfl

theorem count_target_entriesOf (t : Target) :
    (entriesOf above targets).count (.target t) = targets.count t := by
  induction targets with
  | nil => rfl
  | cons u rest ih =>
    have hnone : ((above u).map Entry.statement).count (.target t) = 0 :=
      List.count_eq_zero.2 (by simp)
    rw [entriesOf_cons, List.count_append, hnone, List.count_cons, List.count_cons, ih]
    simp

variable {a : Arrangement s} {statement : String} {t : Target}

theorem nodup_targets (a : Arrangement s) : a.targets.Nodup := by
  refine a.targets_ascending.imp ?_
  rintro t _ h rfl
  exact String.lt_irrefl _ (before_iff.1 h)

theorem nodup_above (a : Arrangement s) (t : Target) : (a.above t).Nodup := by
  refine (a.above_ascending t).imp ?_
  rintro statement _ h rfl
  exact String.lt_irrefl _ (before_iff.1 h)

/-- Every target that a set names has one place. -/
theorem count_target (a : Arrangement s) (h : s.Names t) : a.entries.count (.target t) = 1 := by
  rw [entries, count_target_entriesOf]
  exact List.count_eq_one_of_mem a.nodup_targets ((a.mem_targets t).2 h)

theorem mem_targets_of_precede (a : Arrangement s) (h : .precede statement t ∈ s) :
    t ∈ a.targets :=
  (a.mem_targets t).2 ⟨_, h, rfl⟩

/-- A statement that is asked for is asked for first by one of the targets. -/
theorem exists_first (a : Arrangement s) (h : s.AsksFor statement) :
    ∃ earlier t later, a.targets = earlier ++ t :: later ∧ .precede statement t ∈ s ∧
      ∀ u ∈ earlier, .precede statement u ∉ s := by
  obtain ⟨u, hu⟩ := h
  have hsome : (a.targets.find? fun t => decide (.precede statement t ∈ s)).isSome :=
    List.find?_isSome.2 ⟨u, a.mem_targets_of_precede hu, decide_eq_true hu⟩
  obtain ⟨t, ht⟩ := Option.isSome_iff_exists.1 hsome
  obtain ⟨hmem, earlier, later, htargets, hearlier⟩ := List.find?_eq_some_iff_append.1 ht
  refine ⟨earlier, t, later, htargets, of_decide_eq_true hmem, fun v hv => ?_⟩
  exact of_decide_eq_false (Bool.eq_false_of_not_eq_true' (hearlier v hv))

/-- A statement stands above the target that asks for it first, and above no other. -/
theorem mem_above_iff (a : Arrangement s) {earlier later : List Target}
    (htargets : a.targets = earlier ++ t :: later) (ht : .precede statement t ∈ s)
    (hearlier : ∀ u ∈ earlier, .precede statement u ∉ s) (u : Target) :
    statement ∈ a.above u ↔ u = t := by
  have hordered := a.targets_ascending
  rw [htargets, List.pairwise_append, List.pairwise_cons] at hordered
  have hlater : ∀ u, .precede statement u ∈ s → u = t ∨ Before t.line u.line := by
    intro u hu
    have hmem := a.mem_targets_of_precede hu
    rw [htargets, List.mem_append, List.mem_cons] at hmem
    rcases hmem with hmem | rfl | hmem
    · exact absurd hu (hearlier u hmem)
    · exact .inl rfl
    · exact .inr (hordered.2.1.1 u hmem)
  rw [a.mem_above, FirstAsks]
  constructor
  · rintro ⟨hu, hfirst⟩
    exact (hlater u hu).resolve_right (hfirst t ht)
  · rintro rfl
    refine ⟨ht, fun v hv hbefore => ?_⟩
    rcases hlater v hv with rfl | hafter
    · exact String.lt_irrefl _ (before_iff.1 hbefore)
    · exact String.lt_asymm (before_iff.1 hbefore) (before_iff.1 hafter)

/-- Every statement that is asked for has one place. Below it stand only other statements, down to
the line of a target that asks for it, and all others that do stand further below. -/
theorem exists_place (a : Arrangement s) (h : s.AsksFor statement) :
    ∃ before between t after,
      a.entries = before ++ .statement statement :: (between ++ .target t :: after) ∧
        .statement statement ∉ before ++ between ++ after ∧ .precede statement t ∈ s ∧
        (∀ e ∈ between, ∃ other, e = .statement other) ∧
        ∀ u, .precede statement u ∈ s → u = t ∨ .target u ∈ after := by
  obtain ⟨earlier, t, later, htargets, ht, hearlier⟩ := a.exists_first h
  have habove := a.mem_above_iff htargets ht hearlier
  have hnodup := a.nodup_targets
  rw [htargets, List.nodup_append, List.nodup_cons] at hnodup
  obtain ⟨above, below, hsplit⟩ := List.append_of_mem ((habove t).2 rfl)
  have hnodup' := a.nodup_above t
  rw [hsplit, List.nodup_append, List.nodup_cons] at hnodup'
  refine ⟨entriesOf a.above earlier ++ above.map .statement, below.map .statement, t,
    entriesOf a.above later, ?_, ?_, ht, ?_, ?_⟩
  · rw [entries, htargets, entriesOf_append, entriesOf_cons, hsplit]
    simp
  · have hother : ∀ ts : List Target, t ∉ ts → .statement statement ∉ entriesOf a.above ts := by
      intro ts hts hmem
      obtain ⟨u, hu, hst⟩ := statement_mem_entriesOf.1 hmem
      exact hts ((habove u).1 hst ▸ hu)
    have hbefore := hother earlier fun hmem => hnodup.2.2 t hmem t List.mem_cons_self rfl
    have hafter := hother later hnodup.2.1.1
    have hbetween : statement ∉ above ++ below := by
      rw [List.mem_append, not_or]
      exact ⟨fun hmem => hnodup'.2.2 _ hmem _ List.mem_cons_self rfl, hnodup'.2.1.1⟩
    simp only [List.mem_append, not_or] at hbetween ⊢
    simp [hbefore, hafter, hbetween]
  · intro e he
    obtain ⟨other, -, rfl⟩ := List.mem_map.1 he
    exact ⟨other, rfl⟩
  · intro u hu
    have hmem := a.mem_targets_of_precede hu
    rw [htargets, List.mem_append, List.mem_cons] at hmem
    rcases hmem with hmem | rfl | hmem
    · exact absurd hu (hearlier u hmem)
    · exact .inl rfl
    · exact .inr (target_mem_entriesOf.2 hmem)

end Arrangement

/-! ## The block of a set -/

/-- The lines of a block are those of an arrangement of the set. -/
theorem exists_arrangement (s : IncludeSet) :
    ∃ a : Arrangement s, s.render = a.entries.map Entry.line := by
  have hlines : s.targetLines ∈ Set.range (List.map Target.line) := by
    rw [Set.range_list_map]
    intro line hline
    obtain ⟨d, -, hd⟩ := mem_targetLines.1 hline
    exact ⟨d.target, hd⟩
  obtain ⟨targets, htargets⟩ := hlines
  have hordered := pairwise_targetLines s
  rw [← htargets, List.pairwise_map] at hordered
  have hnames (t : Target) : t ∈ targets ↔ s.Names t := by
    rw [← List.mem_map_of_injective Target.line_injective, htargets, mem_targetLines, Names]
    simp only [Target.line_injective.eq_iff]
  have habove (t : Target) : (s.firstAsked t.line).Pairwise Before := by
    rw [firstAsked]
    exact ((pairwise_statements s t.line).filter _).imp before_iff.2
  have hblock := @block_eq_flatMap s [] s.targetLines [] rfl (by simp)
  refine ⟨⟨targets, fun t => s.firstAsked t.line, hnames, hordered.imp before_iff.2,
    fun _ _ => mem_firstAsked, habove⟩, ?_⟩
  rw [render, hblock, ← htargets, Arrangement.entries, Arrangement.entriesOf, List.flatMap_map,
    List.map_flatMap]
  simp [Entry.line, Function.comp_def]

/-- The block of a set is written target by target, in the order of the bytes of their lines: the
statements that the target asks for and no earlier one does, in the order of their bytes, and then
its line. So every target has one place, with the lines in strict order; every statement has one,
above all lines that asked for it, and down to the first of them stand only other statements. -/
theorem render_arranged (s : IncludeSet) :
    ∃ a : Arrangement s, s.render = a.entries.map Entry.line ∧
      (∀ t, s.Names t → a.entries.count (.target t) = 1) ∧
      (a.entries.filterMap Entry.target?).Pairwise (fun t u => Before t.line u.line) ∧
      ∀ statement, s.AsksFor statement → ∃ before between t after,
        a.entries = before ++ .statement statement :: (between ++ .target t :: after) ∧
          .statement statement ∉ before ++ between ++ after ∧ .precede statement t ∈ s ∧
          (∀ e ∈ between, ∃ other, e = .statement other) ∧
          ∀ u, .precede statement u ∈ s → u = t ∨ .target u ∈ after := by
  obtain ⟨a, hrender⟩ := exists_arrangement s
  refine ⟨a, hrender, fun t => a.count_target, ?_, fun statement => a.exists_place⟩
  rw [Arrangement.entries, Arrangement.filterMap_target?_entriesOf]
  exact a.targets_ascending

/-- The statement that both targets ask for stands above the line that is first in the block, though
the other target was asked for first. -/
example :
    let local' : Target := ⟨.quote, "a.h"⟩
    let system : Target := ⟨.angle, "b"⟩
    (addAll ∅ [.precede "T" local', .precede "S" local', .precede "S" system]).render =
      ["S", "#include <b>", "T", "// #include \"a.h\""] := by
  decide +kernel

end IncludeSet

end Amalgam.Include
