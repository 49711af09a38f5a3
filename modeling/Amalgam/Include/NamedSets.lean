import Amalgam.Include.Set

/-!
# Include sets with names

Several include sets are kept side by side. A step adds one directive to a set, or several, or all
that another set holds.

Main results:

* `mem_step_iff`: what a step brings into which set.
-/

namespace Amalgam.Include

/-- Include sets by their names; a name that was never used stands for the empty set. -/
abbrev NamedSets := String → IncludeSet

namespace NamedSets

/-- One step on include sets. -/
inductive Step where
  | insert (name : String) (d : Directive)
  | extend (name : String) (directives : List Directive)
  /-- Adds all that the set `other` holds. -/
  | merge (name other : String)

/-- The name of the set that a step changes. -/
def Step.name : Step → String
  | insert name _ => name
  | extend name _ => name
  | merge name _ => name

/-- No set holds anything. -/
def empty : NamedSets := fun _ => ∅

/-- The sets with one of them replaced. -/
def put (sets : NamedSets) (name : String) (s : IncludeSet) : NamedSets :=
  fun other => if other = name then s else sets other

/-- The sets after a step, and what the step answers: an insertion says whether the directive was not
in the set yet. -/
def step (sets : NamedSets) : Step → NamedSets × Option Bool
  | .insert name d =>
    let found := (sets name).insertNew d
    (sets.put name found.2, some found.1)
  | .extend name directives => (sets.put name ((sets name).addAll directives), none)
  | .merge name other => (sets.put name ((sets name).merge (sets other)), none)

/-- The sets after the steps of a history, the first of them first. -/
def run (history : List Step) : NamedSets :=
  history.foldl (fun sets s => (sets.step s).1) empty

theorem run_concat (history : List Step) (s : Step) :
    run (history ++ [s]) = ((run history).step s).1 := by
  rw [run, List.foldl_append]
  rfl

/-! ## One step -/

/-- Whether a step adds a directive to its set. -/
def Step.Brings (sets : NamedSets) (d : Directive) : Step → Prop
  | insert _ e => e = d
  | extend _ directives => d ∈ directives
  | merge _ other => d ∈ sets other

/-- A step leaves every set but its own as it is. -/
theorem step_of_ne {sets : NamedSets} {s : Step} {name : String} (h : name ≠ s.name) :
    (sets.step s).1 name = sets name := by
  cases s <;> exact if_neg h

/-- What a step brings comes to what its set held before. -/
theorem mem_step_iff {sets : NamedSets} {s : Step} {name : String} {d : Directive} :
    d ∈ (sets.step s).1 name ↔ d ∈ sets name ∨ name = s.name ∧ s.Brings sets d := by
  by_cases h : name = s.name
  · subst h
    cases s with
    | insert name e => simp [step, put, Step.name, Step.Brings, IncludeSet.mem_insertNew_snd, eq_comm]
    | extend name directives => simp [step, put, Step.name, Step.Brings, IncludeSet.mem_addAll]
    | merge name other => simp [step, put, Step.name, Step.Brings, IncludeSet.mem_merge]
  · rw [step_of_ne h]
    simp [h]

end NamedSets

end Amalgam.Include
