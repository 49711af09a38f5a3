import Mathlib
import Amalgam.Include.NamedSets
import Amalgam.Proofs.Classification.Groups

/-!
# Sets and their histories

What an include set holds depends only on which directives have reached it: by being added to it, or
by a set being merged into it which they had reached before. The order of the steps, repetitions and the
sets that a directive came through leave no trace. So it does not matter either how the same directives
are spread over the files that are not exposed.

Main results:

* `mem_run_iff`: a set holds the directives that reach it.
* `run_eq_run_iff`: two sets are equal exactly when the same directives reach them.
* `internalIncludes_eq_iff`: the internal directives depend on what the files ask for in all.
* `sets_of_histories`: the laws of include sets over all histories.
-/

namespace Amalgam

namespace Include

namespace NamedSets

variable {history history' earlier : List Step} {name name' other : String} {d : Directive}

/-- How a directive comes into a set in the course of a history. -/
inductive Reaches (d : Directive) : List Step → String → Prop
  | insert (earlier : List Step) (name : String) : Reaches d (earlier ++ [.insert name d]) name
  | extend {directives : List Directive} (earlier : List Step) (name : String)
      (h : d ∈ directives) : Reaches d (earlier ++ [.extend name directives]) name
  /-- It had reached a set that is merged into this one. -/
  | merge {earlier : List Step} {other : String} (name : String) (h : Reaches d earlier other) :
      Reaches d (earlier ++ [.merge name other]) name
  /-- Nothing is ever taken out of a set. -/
  | stays {earlier : List Step} {name : String} (s : Step) (h : Reaches d earlier name) :
      Reaches d (earlier ++ [s]) name

theorem not_reaches_nil : ¬ Reaches d [] name := by
  generalize hnil : ([] : List Step) = history
  rintro (_ | _ | _ | _) <;> simp at hnil

/-- By the last step of a history. -/
theorem reaches_concat_iff {sets : NamedSets} {s : Step}
    (hsets : ∀ other, d ∈ sets other ↔ Reaches d earlier other) :
    Reaches d (earlier ++ [s]) name ↔ Reaches d earlier name ∨ name = s.name ∧ s.Brings sets d := by
  constructor
  · generalize heq : earlier ++ [s] = history
    rintro (_ | ⟨_, _, h⟩ | ⟨_, h⟩ | ⟨_, h⟩) <;> obtain ⟨rfl, ⟨⟩⟩ := List.append_inj' heq rfl
    · exact .inr ⟨rfl, rfl⟩
    · exact .inr ⟨rfl, h⟩
    · exact .inr ⟨rfl, (hsets _).2 h⟩
    · exact .inl h
  · rintro (h | ⟨rfl, h⟩)
    · exact h.stays s
    · cases s with
      | insert name e => exact h ▸ .insert earlier name
      | extend name directives => exact .extend earlier name h
      | merge name other => exact .merge name ((hsets other).1 h)

/-- A set holds the directives that reach it. By induction on the steps, the last one last: what it
brings has reached its set then. -/
theorem mem_run_iff : d ∈ run history name ↔ Reaches d history name := by
  induction history using List.reverseRecOn generalizing name with
  | nil => exact iff_of_false Std.ExtTreeSet.not_mem_empty not_reaches_nil
  | append_singleton earlier s ih => rw [run_concat, mem_step_iff, reaches_concat_iff fun _ => ih, ih]

/-- Two sets are equal exactly when the same directives reach them, whatever their histories. -/
theorem run_eq_run_iff :
    run history name = run history' name' ↔
      ∀ d, Reaches d history name ↔ Reaches d history' name' := by
  simp only [← mem_run_iff]
  exact ⟨fun h d => by rw [h], Std.ExtTreeSet.ext_mem⟩

/-- Merging a set into another one, or into itself, leaves it as it was. -/
theorem run_merge_argument :
    run (history ++ [.merge name other]) other = run history other := by
  refine Std.ExtTreeSet.ext_mem fun d => ?_
  rw [run_concat, mem_step_iff]
  exact or_iff_left_of_imp fun h => h.2

end NamedSets

end Include

/-! ## Files that are not exposed -/

namespace Classification

variable {c c' : Classification} {files files' : List SourceFile}

/-- The internal directives depend on what the files that are not exposed ask for in all, and on nothing
else. -/
theorem internalIncludes_eq_iff (h : c.Sorts files) (h' : c'.Sorts files') :
    c.internalIncludes = c'.internalIncludes ↔
      ∀ d, (∃ f ∈ internalFiles files, d ∈ f.includes) ↔
        ∃ f ∈ internalFiles files', d ∈ f.includes := by
  simp only [← h.mem_internalIncludes, ← h'.mem_internalIncludes]
  exact ⟨fun heq d => by rw [heq], Std.ExtTreeSet.ext_mem⟩

end Classification

open Include NamedSets

/-- After any history a set holds, in strictly ascending order, the directives that have reached it. An
insertion answers whether the directive had not reached the set yet. Two sets are equal exactly when the
same directives have reached them, and are rendered alike then. Merging a set into another one leaves it
as it was. So two classifications whose files ask for the same directives, those of the exposed headers
apart, have the same internal include block, however the directives are spread over the files. -/
theorem sets_of_histories :
    (∀ (history : List Step) (name : String),
      (run history name).toList.Pairwise (fun d e => compare d e = .lt) ∧
        ∀ d, d ∈ (run history name).toList ↔ Reaches d history name) ∧
    (∀ (history : List Step) (name : String) (d : Directive),
      ∃ isNew, ((run history).step (.insert name d)).2 = some isNew ∧
        (isNew = true ↔ ¬ Reaches d history name)) ∧
    (∀ (history history' : List Step) (name name' : String),
      (run history name = run history' name' ↔
        ∀ d, Reaches d history name ↔ Reaches d history' name') ∧
      ((∀ d, Reaches d history name ↔ Reaches d history' name') →
        (run history name).render = (run history' name').render)) ∧
    (∀ (history : List Step) (name other : String),
      run (history ++ [.merge name other]) other = run history other) ∧
    ∀ (headers implementations headers' implementations' : List SourceFile) (c c' : Classification),
      Classification.ofFiles headers implementations = .ok c →
      Classification.ofFiles headers' implementations' = .ok c' →
      (∀ d, (∃ f ∈ internalFiles (headers ++ implementations), d ∈ f.includes) ↔
        ∃ f ∈ internalFiles (headers' ++ implementations'), d ∈ f.includes) →
        c.internalIncludes.render = c'.internalIncludes.render := by
  refine ⟨fun history name => ⟨Std.ExtTreeSet.ordered_toList, fun d => ?_⟩,
    fun history name d => ⟨_, rfl, ?_⟩, fun history history' name name' => ⟨run_eq_run_iff, ?_⟩,
    fun _ _ _ => run_merge_argument, ?_⟩
  · rw [Std.ExtTreeSet.mem_toList, mem_run_iff]
  · rw [IncludeSet.insertNew_fst, mem_run_iff]
  · intro h
    rw [run_eq_run_iff.2 h]
  · intro headers implementations headers' implementations' c c' hc hc' h
    rw [(Classification.internalIncludes_eq_iff (Classification.sorts_ofFiles hc)
      (Classification.sorts_ofFiles hc')).2 h]

/-- Two directives that reach one set one after the other, and another set through a third one and more
than once; and the same two of one ranked header, and of a header without a mark and an implementation. -/
theorem sets_of_histories_merged :
    let p : Directive := .plain ⟨.angle, "a.h"⟩
    let q : Directive := .precede "S" ⟨.quote, "b.h"⟩
    let history : List Step := [.insert "a" p, .insert "a" q]
    let history' : List Step := [.insert "c" q, .merge "b" "c", .extend "b" [p, q, p], .merge "b" "b"]
    (∀ d, Reaches d history "a" ↔ Reaches d history' "b") ∧
      (run history "a").render = (run history' "b").render ∧
      ∃ c c', Classification.ofFiles [⟨"/r.h", .header, some 1, none, [], [p, q]⟩] [] = .ok c ∧
        Classification.ofFiles [⟨"/u.h", .header, none, none, [], [q]⟩]
          [⟨"/i.c", .implementation, none, none, [], [p, p]⟩] = .ok c' ∧
        c.internalIncludes.render = c'.internalIncludes.render := by
  intro p q history history'
  have hreaches : ∀ d, Reaches d history "a" ↔ Reaches d history' "b" := by
    intro d
    rw [← mem_run_iff, ← mem_run_iff]
    simp only [history, history', run, NamedSets.empty, step, put, List.foldl_cons, List.foldl_nil,
      IncludeSet.mem_insertNew_snd, IncludeSet.mem_addAll, IncludeSet.mem_merge, List.mem_cons,
      List.not_mem_nil, Std.ExtTreeSet.not_mem_empty, String.reduceEq, reduceIte]
    tauto
  have hc : Classification.ofFiles [⟨"/r.h", .header, some 1, none, [], [p, q]⟩] [] = .ok _ := rfl
  have hc' : Classification.ofFiles [⟨"/u.h", .header, none, none, [], [q]⟩]
      [⟨"/i.c", .implementation, none, none, [], [p, p]⟩] = .ok _ := rfl
  obtain ⟨-, -, hequal, -, hinternal⟩ := sets_of_histories
  refine ⟨hreaches, (hequal history history' "a" "b").2 hreaches, _, _, hc, hc',
    hinternal _ _ _ _ _ _ hc hc' fun d => ?_⟩
  simp [internalFiles, SourceFile.group, SourceFile.mark?, or_comm]

end Amalgam
