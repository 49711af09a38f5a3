/-!
# Include targets and directives

A target is what an include line names. A directive asks for a target to be included, or for a
statement to stand before the line of a target. Directives are ordered by form, statement, delimiter
and name, in that order.

Main results:

* `Target.line_injective`: different targets have different lines.
* `Directive.compare_eq_iff`: the order tells different directives apart.
-/

namespace Amalgam.Include

/-- How an include line encloses its name. -/
inductive Delimiter where
  /-- `<name>`, a system header. -/
  | angle
  /-- `"name"`, a local header. -/
  | quote
deriving DecidableEq

/-- What an include line names (`IncludeTarget`). -/
structure Target where
  delimiter : Delimiter
  name : String
deriving DecidableEq

/-- The line that stands for a target in a document (`render` of an `IncludeTarget`). The text of a
local header stands in the document itself, so its line is a comment. -/
def Target.line (t : Target) : String :=
  match t.delimiter with
  | .angle => "#include <" ++ t.name ++ ">"
  | .quote => "// #include \"" ++ t.name ++ "\""

theorem Target.line_injective : Function.Injective Target.line := by
  rintro ⟨d, n⟩ ⟨d', n'⟩ h
  have hfirst := congrArg (fun s => s.toList.head?) h
  cases d <;> cases d'
  · simpa [Target.line] using h
  · simp [Target.line, String.toList_append] at hfirst
  · simp [Target.line, String.toList_append] at hfirst
  · simpa [Target.line] using h

/-- What a source file asks for at the top of its document (`IncludeDirective`). -/
inductive Directive where
  /-- The line of a target. -/
  | plain (target : Target)
  /-- A statement before the line of a target. -/
  | precede (statement : String) (target : Target)
deriving DecidableEq

namespace Directive

/-- The target that a directive is about. -/
def target : Directive → Target
  | plain t => t
  | precede _ t => t

/-- The statement that a directive carries, or the empty text. -/
def statement : Directive → String
  | plain _ => ""
  | precede s _ => s

/-- Plain directives come first. -/
def form : Directive → Nat
  | plain _ => 0
  | precede _ _ => 1

/-- Angle brackets come before quotes. -/
def enclosure (d : Directive) : Nat :=
  match d.target.delimiter with
  | .angle => 0
  | .quote => 1

instance : Ord Directive :=
  ⟨compareLex (compareOn form) <| compareLex (compareOn statement) <|
    compareLex (compareOn enclosure) (compareOn fun d => d.target.name)⟩

instance : Std.TransOrd Directive :=
  inferInstanceAs (Std.TransCmp (compareLex _ (compareLex _ (compareLex _ _))))

/-- The order tells different directives apart. -/
theorem compare_eq_iff {d e : Directive} : compare d e = .eq ↔ d = e := by
  constructor
  · intro h
    obtain ⟨hf, h⟩ := Ordering.then_eq_eq.1 h
    obtain ⟨hs, h⟩ := Ordering.then_eq_eq.1 h
    obtain ⟨hd, hn⟩ := Ordering.then_eq_eq.1 h
    have hf : form d = form e := Std.LawfulEqOrd.eq_of_compare hf
    have hs : statement d = statement e := Std.LawfulEqOrd.eq_of_compare hs
    have hd : enclosure d = enclosure e := Std.LawfulEqOrd.eq_of_compare hd
    have hn : d.target.name = e.target.name := Std.LawfulEqOrd.eq_of_compare hn
    have ht : d.target = e.target := by
      simp only [enclosure] at hd
      generalize d.target = t, e.target = u at hd hn
      obtain ⟨delimiter, name⟩ := t
      obtain ⟨delimiter', name'⟩ := u
      cases delimiter <;> cases delimiter' <;> simp_all
    cases d <;> cases e <;> simp_all [form, statement, target]
  · rintro rfl
    exact Std.ReflOrd.compare_self

instance : Std.LawfulEqOrd Directive := ⟨compare_eq_iff.1⟩

end Directive

end Amalgam.Include
