import Amalgam.Include.Target
import Std.Data.ExtTreeSet

/-!
# Include sets

The directives of a group of files, each kept once. An include set is rendered as a block of lines:
the line of every target that is mentioned, in the order of the lines, and above each line the
statements asked for before it that were not written yet.

Main results:

* `insertNew_fst`, `mem_insertNew_snd`: what adding one directive answers and leaves.
* `mem_addAll`: what is in a set after adding a list of directives.
-/

namespace Amalgam.Include

/-- A finite set of directives. -/
abbrev IncludeSet := Std.ExtTreeSet Directive

namespace IncludeSet

/-- The set with a directive added, and whether that was not in it yet (`insert`). -/
def insertNew (s : IncludeSet) (d : Directive) : Bool × IncludeSet :=
  let found := s.containsThenInsert d
  (!found.1, found.2)

theorem insertNew_fst {s : IncludeSet} {d : Directive} : (s.insertNew d).1 = true ↔ d ∉ s := by
  rw [insertNew, Std.ExtTreeSet.containsThenInsert_fst, Bool.not_eq_true',
    ← Bool.not_eq_true, ← Std.ExtTreeSet.mem_iff_contains]

theorem mem_insertNew_snd {s : IncludeSet} {d e : Directive} :
    e ∈ (s.insertNew d).2 ↔ e ∈ s ∨ e = d := by
  rw [insertNew, Std.ExtTreeSet.containsThenInsert_snd, Std.ExtTreeSet.mem_insert,
    Directive.compare_eq_iff]
  grind

/-- The set with a list of directives added (`extend`). -/
def addAll (s : IncludeSet) (directives : List Directive) : IncludeSet :=
  directives.foldl (fun set d => Std.ExtTreeSet.insert set d) s

theorem mem_addAll {s : IncludeSet} {directives : List Directive} {d : Directive} :
    d ∈ s.addAll directives ↔ d ∈ s ∨ d ∈ directives := by
  induction directives generalizing s with
  | nil => simp [addAll]
  | cons e rest ih =>
    have step : s.addAll (e :: rest) = addAll (s.insert e) rest := rfl
    rw [step, ih, Std.ExtTreeSet.mem_insert, List.mem_cons, Directive.compare_eq_iff]
    grind

/-- The directives of both sets (`merge`). -/
def merge (s t : IncludeSet) : IncludeSet := s.addAll t.toList

theorem mem_merge {s t : IncludeSet} {d : Directive} : d ∈ s.merge t ↔ d ∈ s ∨ d ∈ t := by
  rw [merge, mem_addAll, Std.ExtTreeSet.mem_toList]

/-! ## Rendering -/

/-- The lines of the targets that a set mentions, in order and each once. -/
def targetLines (s : IncludeSet) : List String :=
  (Std.ExtTreeSet.ofList (s.toList.map fun d => d.target.line)).toList

theorem mem_targetLines {s : IncludeSet} {line : String} :
    line ∈ s.targetLines ↔ ∃ d ∈ s, d.target.line = line := by
  simp only [targetLines, Std.ExtTreeSet.mem_toList, Std.ExtTreeSet.mem_ofList,
    List.contains_iff_mem, List.mem_map]

/-- The statement that a directive asks for before a line. -/
def statementBefore? (line : String) : Directive → Option String
  | .plain _ => none
  | .precede statement target => if target.line = line then some statement else none

/-- The statements that a set asks for before a line, in order. -/
def statements (s : IncludeSet) (line : String) : List String :=
  s.toList.filterMap (statementBefore? line)

/-- The lines, each below those of its statements that are not among the written ones. -/
def block (s : IncludeSet) (written : List String) : List String → List String
  | [] => []
  | line :: rest =>
    let fresh := (s.statements line).filter (· ∉ written)
    fresh ++ line :: s.block (written ++ fresh) rest

/-- The include block of a set (`render` of an `IncludeSet`). -/
def render (s : IncludeSet) : List String := s.block [] s.targetLines

end IncludeSet

end Amalgam.Include
