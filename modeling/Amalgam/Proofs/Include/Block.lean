import Mathlib
import Amalgam.Include.Set

/-!
# The lines of an include block

An include set mentions targets, each by its directives, and asks for statements. Its block is
written by two mechanisms that do not know of each other: every mentioned target gives its line
once, and every statement is written once, above the first line that asked for it.

Main results:

* `count_render`: a line is written once as the line of a target and once as a statement.
* `mem_render_iff`: so these are the lines of the block.
* `nodup_render_iff`: and no line is written twice exactly when no statement has the text of the
  line of a mentioned target.
-/

namespace Amalgam.Include.IncludeSet

variable {s : IncludeSet} {written lines : List String} {line : String}

/-- A set mentions a line when it is the line of the target of a directive. -/
def Mentions (s : IncludeSet) (line : String) : Prop := ∃ d ∈ s, d.target.line = line

/-- A set asks for a statement when a directive wants it before some target. -/
def AsksFor (s : IncludeSet) (statement : String) : Prop := ∃ t, .precede statement t ∈ s

theorem nodup_toList {α : Type} [Ord α] [Std.TransOrd α] (s : Std.ExtTreeSet α) :
    s.toList.Nodup := by
  refine s.distinct_toList.imp ?_
  rintro a _ hne rfl
  exact hne Std.ReflCmp.compare_self

/-! ## Statements before one line -/

theorem statementBefore?_eq_some_iff {d : Directive} {statement : String} :
    statementBefore? line d = some statement ↔ ∃ t, t.line = line ∧ d = .precede statement t := by
  cases d with
  | plain t => simp [statementBefore?]
  | precede st t => simp [statementBefore?, and_comm]

theorem mem_statements {statement : String} :
    statement ∈ s.statements line ↔ ∃ t, t.line = line ∧ .precede statement t ∈ s := by
  rw [statements, List.mem_filterMap]
  simp only [statementBefore?_eq_some_iff, Std.ExtTreeSet.mem_toList]
  constructor
  · rintro ⟨d, hd, t, ht, rfl⟩
    exact ⟨t, ht, hd⟩
  · rintro ⟨t, ht, hd⟩
    exact ⟨_, hd, t, ht, rfl⟩

/-- Different targets have different lines, so a statement stands only once before a line. -/
theorem nodup_statements : (s.statements line).Nodup := by
  refine List.Nodup.filterMap ?_ (nodup_toList s)
  intro d e statement hd he
  obtain ⟨t, ht, rfl⟩ := statementBefore?_eq_some_iff.1 hd
  obtain ⟨u, hu, rfl⟩ := statementBefore?_eq_some_iff.1 he
  rw [Target.line_injective (ht.trans hu.symm)]

theorem exists_mem_statements_iff {statement : String} :
    (∃ line ∈ s.targetLines, statement ∈ s.statements line) ↔ s.AsksFor statement := by
  constructor
  · rintro ⟨line, -, hst⟩
    obtain ⟨t, -, ht⟩ := mem_statements.1 hst
    exact ⟨t, ht⟩
  · rintro ⟨t, ht⟩
    exact ⟨t.line, mem_targetLines.2 ⟨_, ht, rfl⟩, mem_statements.2 ⟨t, rfl, ht⟩⟩

/-! ## Counting lines -/

theorem count_fresh {statement : String} :
    ((s.statements line).filter (· ∉ written)).count statement =
      if statement ∈ s.statements line ∧ statement ∉ written then 1 else 0 := by
  rw [(nodup_statements.filter _).count]
  simp

/-- By induction on the lines still to write: what was written before is not asked for again. -/
theorem count_block (s : IncludeSet) (written lines : List String) (line : String) :
    (s.block written lines).count line = lines.count line +
      if line ∉ written ∧ ∃ l ∈ lines, line ∈ s.statements l then 1 else 0 := by
  induction lines generalizing written with
  | nil => simp [block]
  | cons first rest ih =>
    rw [block, List.count_append, List.count_cons, List.count_cons, ih, count_fresh]
    by_cases hw : line ∈ written
    · simp [hw]
    · by_cases hs : line ∈ s.statements first
      · simp [hw, hs]
        omega
      · simp [hw, hs]
        omega

open Classical in
/-- A line is written once for a target whose line it is, and once more if it is asked for as a
statement. -/
theorem count_render (s : IncludeSet) (line : String) :
    s.render.count line = (if s.Mentions line then 1 else 0) + if s.AsksFor line then 1 else 0 := by
  have hnodup : s.targetLines.Nodup := nodup_toList _
  have hasked : (line ∉ ([] : List String) ∧ ∃ l ∈ s.targetLines, line ∈ s.statements l) ↔
      s.AsksFor line := by
    rw [exists_mem_statements_iff]
    simp
  rw [render, count_block, hnodup.count]
  congr 1
  · exact if_congr mem_targetLines rfl rfl
  · exact if_congr hasked rfl rfl

theorem mem_render_iff : line ∈ s.render ↔ s.Mentions line ∨ s.AsksFor line := by
  rw [← List.count_pos_iff, count_render]
  split_ifs <;> simp_all

/-- No line of the block is written twice exactly when no statement has the text of the line of a
mentioned target. -/
theorem nodup_render_iff : s.render.Nodup ↔ ∀ line, s.Mentions line → ¬ s.AsksFor line := by
  rw [List.nodup_iff_count_le_one]
  refine forall_congr' fun line => ?_
  rw [count_render]
  split_ifs <;> simp_all

end Amalgam.Include.IncludeSet
