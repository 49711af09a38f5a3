import Mathlib
import Amalgam.SourceFile
import Amalgam.Proofs.Steps
import Amalgam.Proofs.Text.Lines

/-!
# Where the lines of a file go

Taking a file apart neither loses nor invents a line, and reorders none. The first line may be the
mark; every other line is kept in the body as it is or is an include line, and what the include lines
ask for stands in their order.

Main results:

* `interleaving_filter`: a test takes a list apart without a change of order.
* `length_body_add_countP`: each line is in the body or asks for one target.
* `parse_keeps_lines`: where each line of a file is after it has been taken apart.
-/

namespace Amalgam

/-! ## Interleavings -/

/-- Whether the last list is made of the members of the other two, each of them in its order. -/
inductive Interleaving {α : Type} : List α → List α → List α → Prop
  | nil : Interleaving [] [] []
  | left {a : α} {xs ys zs : List α} (h : Interleaving xs ys zs) :
      Interleaving (a :: xs) ys (a :: zs)
  | right {a : α} {xs ys zs : List α} (h : Interleaving xs ys zs) :
      Interleaving xs (a :: ys) (a :: zs)

/-- A test takes a list apart without a change of order. -/
theorem interleaving_filter {α : Type} (p : α → Bool) (zs : List α) :
    Interleaving (zs.filter p) (zs.filter fun z => !p z) zs := by
  induction zs with
  | nil => exact .nil
  | cons z rest ih =>
    rw [List.filter_cons, List.filter_cons]
    cases p z
    · exact ih.right
    · exact ih.left

/-! ## What include lines ask for -/

namespace Include

/-- Whether a directive asks for the line of its target. -/
def Directive.isPlain : Directive → Bool
  | .plain _ => true
  | .precede _ _ => false

theorem directives_eq (asked : Target × Option String) :
    directives asked =
      (asked.2.map fun statement => .precede statement asked.1).toList ++ [.plain asked.1] := by
  obtain ⟨target, _ | statement⟩ := asked <;> rfl

/-- Each include line asks for the line of one target. -/
theorem countP_isPlain_directives (asked : List (Target × Option String)) :
    (asked.flatMap directives).countP Directive.isPlain = asked.length := by
  induction asked with
  | nil => rfl
  | cons a rest ih =>
    have hone : (directives a).countP Directive.isPlain = 1 := by
      obtain ⟨target, _ | statement⟩ := a <;> rfl
    rw [List.flatMap_cons, List.countP_append, ih, hone, List.length_cons, Nat.add_comm]

end Include

/-! ## Parts of a file -/

namespace SourceFile

open Amalgam.Include

/-- The lines that are include lines. -/
def includeLines (lines : List String) : List String :=
  lines.filter fun line => !(parseLine? line).isNone

theorem map_parseLine?_includeLines (lines : List String) :
    (includeLines lines).map parseLine? = (lines.filterMap parseLine?).map some := by
  induction lines with
  | nil => rfl
  | cons line rest ih =>
    rw [includeLines] at ih ⊢
    rw [List.filter_cons, List.filterMap_cons]
    cases hline : parseLine? line with
    | none => simpa using ih
    | some asked => simpa [hline] using ih

theorem numberIn_eq_some_iff {series : Series} {mark : Option Mark} {n : Nat} :
    numberIn series mark = some n ↔ mark = some ⟨series, n⟩ := by
  rcases mark with _ | ⟨other, k⟩
  · simp [numberIn]
  · by_cases h : other = series
    · simp [numberIn, h]
    · simp [numberIn, h]

/-- A mark belongs to one series. -/
theorem numberIn_eq_none_or (mark : Option Mark) :
    numberIn .rank mark = none ∨ numberIn .expose mark = none := by
  rcases mark with _ | ⟨_ | _, n⟩
  · exact .inl rfl
  · exact .inr rfl
  · exact .inl rfl

/-- A first line that is a mark is taken off, and no other line. -/
theorem append_afterMark {path : Path} {lines : List String} {mark : Option Mark}
    (h : markOf path lines = .ok mark) :
    (if mark.isSome then [lines.head?.getD ""] else []) ++ afterMark mark lines = lines := by
  cases mark with
  | none => rfl
  | some m =>
    cases lines with
    | nil => cases h
    | cons first rest => rfl

/-- Each line is a line of the body or asks for the line of a target; banner and footer have four
lines. -/
theorem length_body_add_countP (path : Path) (lines : List String) :
    (banner path ++ content lines ++ [footer path]).length +
      (requests lines).countP Directive.isPlain = lines.length + 4 := by
  rw [requests, countP_isPlain_directives, ← length_content_add lines]
  simp only [banner, List.length_append, List.length_cons, List.length_nil]
  omega

theorem parse_eq_ok_iff {path : Path} {kind : Kind} {text : String} {f : SourceFile} :
    parse path kind text = .ok f ↔ ∃ mark, markOf path (linesOf text) = .ok mark ∧ f = {
      path, kind
      rank := numberIn .rank mark
      exposeRank := numberIn .expose mark
      body := banner path ++ content (afterMark mark (linesOf text)) ++ [footer path]
      includes := requests (afterMark mark (linesOf text)) } := by
  constructor
  · intro h
    obtain ⟨mark, hmark, h⟩ := bind_eq_ok_iff.1 h
    cases h
    exact ⟨mark, hmark, rfl⟩
  · rintro ⟨mark, hmark, rfl⟩
    exact parse_of_markOf hmark

/-- The lines of a text that is taken apart are the mark, if the first of them is one, and an
interleaving of the lines that are kept, which are no include lines and stand between banner and
footer as they are, and the include lines, each of which gives what it asks for in its place. -/
theorem parse_keeps_lines {path : Path} {kind : Kind} {text : String} {f : SourceFile}
    (h : parse path kind text = .ok f) :
    ∃ (lines : List String) (mark : Option Mark) (remaining kept hoisted : List String)
      (asked : List (Target × Option String)),
      Text.Lined text.toList (lines.map String.toList) ∧
      Mark.parse (lines.head?.getD "") = .ok mark ∧
      (∀ n, f.rank = some n ↔ mark = some ⟨.rank, n⟩) ∧
      (∀ n, f.exposeRank = some n ↔ mark = some ⟨.expose, n⟩) ∧
      (f.rank = none ∨ f.exposeRank = none) ∧
      (lines = [] → f.rank = none ∧ f.exposeRank = none) ∧
      lines = (if mark.isSome then [lines.head?.getD ""] else []) ++ remaining ∧
      Interleaving kept hoisted remaining ∧
      (∀ line ∈ kept, parseLine? line = none) ∧
      hoisted.map parseLine? = asked.map some ∧
      f.body = banner path ++ kept ++ [footer path] ∧
      f.includes = asked.flatMap (fun a =>
        (a.2.map fun statement => .precede statement a.1).toList ++ [.plain a.1]) ∧
      f.body.length + f.includes.countP Directive.isPlain + (if mark.isSome then 1 else 0) =
        lines.length + 4 := by
  obtain ⟨mark, hmark, rfl⟩ := parse_eq_ok_iff.1 h
  have htaken := append_afterMark hmark
  generalize afterMark mark (linesOf text) = remaining at htaken ⊢
  refine ⟨linesOf text, mark, remaining, content remaining, includeLines remaining,
    remaining.filterMap parseLine?, ?_, mapError_eq_ok_iff.1 hmark, fun _ => numberIn_eq_some_iff,
    fun _ => numberIn_eq_some_iff, numberIn_eq_none_or mark, ?_, htaken.symm,
    interleaving_filter _ _, ?_, map_parseLine?_includeLines remaining, rfl, ?_, ?_⟩
  · rw [Text.lined_iff]
    simp [linesOf]
  · intro hnil
    rw [hnil] at hmark
    cases hmark
    exact ⟨rfl, rfl⟩
  · intro line hline
    simpa using (List.mem_filter.1 hline).2
  · rw [requests, funext directives_eq]
  · have hlength := congrArg List.length htaken
    have hparts := length_body_add_countP path remaining
    cases mark with
    | none => exact hparts.trans (congrArg (· + 4) hlength)
    | some m =>
      rw [Option.isSome_some, if_pos rfl, List.length_append, List.length_singleton] at hlength
      rw [Option.isSome_some, if_pos rfl, hparts]
      omega

/-- A mark, an include line with a statement, a line with a carriage return, and a last line without
a line feed. -/
theorem parse_keeps_lines_mixed :
    let text := "// RANK=2\n#include <a> // PRECEDED BY: S\nint a;\r\nint b;"
    let f : SourceFile := ⟨"/a.h", .header, some 2, none,
      ["/*", " * ===== BEGIN /a.h =====", " */", "int a;", "int b;", "/* ===== END /a.h ===== */"],
      [.precede "S" ⟨.angle, "a"⟩, .plain ⟨.angle, "a"⟩]⟩
    parse "/a.h" .header text = .ok f ∧
      ∃ lines : List String, Text.Lined text.toList (lines.map String.toList) ∧
        f.body.length + f.includes.countP Directive.isPlain + 1 = lines.length + 4 := by
  intro text f
  have h : parse "/a.h" .header text = .ok f := by decide +kernel
  obtain ⟨lines, mark, _, _, _, _, hlines, -, hrank, -, -, -, -, -, -, -, -, -, hlength⟩ :=
    parse_keeps_lines h
  obtain rfl := (hrank 2).1 rfl
  exact ⟨h, lines, hlines, hlength⟩

end SourceFile

end Amalgam
