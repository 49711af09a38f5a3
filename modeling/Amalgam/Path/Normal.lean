import Amalgam.Path.Basic

/-!
# Lexical normal form of a path

A path is normalised by its spelling alone: single dots go, and a double dot takes the name before
it away, if there is one.

Main results:

* `normalNames_append`: the names of a longer path are found by going on from those of its start.
* `name_mem_of_mem_normalNames`: the names that are left are names of the path.
-/

namespace Amalgam.Path

/-- One step on a stack of names: up takes the last name away, if there is one. -/
def walk (stack : List String) : Component → List String
  | .root | .here => stack
  | .up => stack.dropLast
  | .name name => stack ++ [name]

/-- The names left after all steps. -/
def normalNames (steps : List Component) : List String := steps.foldl walk []

theorem normalNames_append (steps more : List Component) :
    normalNames (steps ++ more) = more.foldl walk (normalNames steps) :=
  List.foldl_append

/-- The path with all its dots worked out by spelling alone (`normalize_lexically`). -/
def normalize (p : Path) : Path :=
  let names := normalNames p.components
  if p.isAbsolute then ofLocation names else ⟨joinNames names⟩

/-- A name that is a real name and no dot or double dot. -/
def IsPlain (name : String) : Prop := name ≠ "" ∧ name ≠ "." ∧ name ≠ ".."

private theorem mem_foldl_walk {steps : List Component} {stack : List String} {name : String}
    (h : name ∈ steps.foldl walk stack) : name ∈ stack ∨ Component.name name ∈ steps := by
  induction steps generalizing stack with
  | nil => exact .inl h
  | cons step rest ih =>
    rcases ih h with h | h
    · cases step with
      | root => exact .inl h
      | here => exact .inl h
      | up => exact .inl ((List.dropLast_prefix _).mem h)
      | name other =>
        rcases List.mem_append.1 h with h | h
        · exact .inl h
        · exact .inr (by simp [List.mem_singleton.1 h])
    · exact .inr (List.mem_cons_of_mem _ h)

theorem name_mem_of_mem_normalNames {steps : List Component} {name : String}
    (h : name ∈ normalNames steps) : Component.name name ∈ steps :=
  (mem_foldl_walk h).resolve_left (by simp)

end Amalgam.Path
