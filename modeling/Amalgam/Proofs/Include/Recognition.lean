import Mathlib
import Amalgam.Include.Line

/-!
# What is no include line

The lines that are written around and above the files are never include lines for a local header:
what opens or continues a block comment is no include line at all, and the line of a target is a
comment or names a system header.

Main results:

* `parseLine?_of_slash_star`, `parseLine?_of_blank_star`: lines of block comments.
* `not_isActiveLocal_line`: the line of a target is no uncommented include of a local header.
-/

namespace Amalgam.Include

open Amalgam.Text

/-- A line is an uncommented include of a local header when it is an include line that names its
target in quotes and no comment sign stands before it. -/
def IsActiveLocal (line : String) : Prop :=
  (∃ name statement, parseLine? line = some (⟨.quote, name⟩, statement)) ∧
    slashes? (skipBlanks line.toList) = none

theorem not_isActiveLocal_of_parseLine?_eq_none {line : String} (h : parseLine? line = none) :
    ¬ IsActiveLocal line := by
  rintro ⟨⟨name, statement, hp⟩, -⟩
  rw [h] at hp
  cases hp

/-! ## Lines of block comments -/

theorem skipBlanks_cons {c : Char} (rest : List Char) (h : isBlank c = false) :
    skipBlanks (c :: rest) = c :: rest := by
  simp [skipBlanks, h]

/-- Without a comment sign an include line has to start with a number sign. -/
theorem recognise_eq_none {line rest : List Char} {c : Char} (h : skipBlanks line = c :: rest)
    (hs : slashes? (c :: rest) = none) (hc : c ≠ '#') : recognise line = none := by
  have hskip : skipComment (c :: rest) = c :: rest := by rw [skipComment, hs]
  have hafter : after? ['#'] (c :: rest) = none := by simp [after?, Ne.symm hc]
  rw [recognise, h, hskip, hafter]
  rfl

/-- A line that opens a block comment is no include line. -/
theorem parseLine?_of_slash_star {line : String} (h : ['/', '*'] <+: line.toList) :
    parseLine? line = none := by
  obtain ⟨rest, h⟩ := h
  have hb : skipBlanks line.toList = '/' :: '*' :: rest := by
    rw [← h]
    exact skipBlanks_cons _ (by decide)
  have hs : slashes? ('/' :: '*' :: rest) = none := by simp [slashes?, after?]
  rw [parseLine?, recognise_eq_none hb hs (by decide)]
  rfl

/-- A line that goes on with a block comment is no include line. -/
theorem parseLine?_of_blank_star {line : String} (h : [' ', '*'] <+: line.toList) :
    parseLine? line = none := by
  obtain ⟨rest, h⟩ := h
  have hb : skipBlanks line.toList = '*' :: rest := by
    rw [← h]
    show (' ' :: '*' :: rest).dropWhile isBlank = _
    rw [List.dropWhile_cons_of_pos (by decide)]
    exact skipBlanks_cons _ (by decide)
  have hs : slashes? ('*' :: rest) = none := by simp [slashes?, after?]
  rw [parseLine?, recognise_eq_none hb hs (by decide)]
  rfl

theorem parseLine?_empty : parseLine? "" = none := by decide +kernel

/-! ## Lines of targets -/

/-- The line of a system header is recognised in angle brackets or not at all. -/
theorem delimiter_of_recognise_angle {name : List Char} {found : Found}
    (h : recognise ("#include <".toList ++ name) = some found) : found.delimiter = .angle := by
  have hsign : skipComment (skipBlanks ("#include <".toList ++ name)) =
      ['#'] ++ ("include <".toList ++ name) := by
    have hb : skipBlanks ("#include <".toList ++ name) = ['#'] ++ ("include <".toList ++ name) :=
      skipBlanks_cons _ (by decide)
    rw [hb, skipComment]
    simp [slashes?, after?]
  have hword : skipBlanks ("include <".toList ++ name) = "include".toList ++ (" <".toList ++ name) :=
    skipBlanks_cons _ (by decide)
  have hopen : skipBlanks (" <".toList ++ name) = '<' :: name := by
    show (' ' :: '<' :: name).dropWhile isBlank = _
    rw [List.dropWhile_cons_of_pos (by decide)]
    exact skipBlanks_cons _ (by decide)
  rw [recognise, hsign, after?_eq_some_iff.2 rfl, Option.bind_eq_bind, Option.bind_some, hword,
    after?_eq_some_iff.2 rfl, Option.bind_some, hopen, enclosed?] at h
  simp only [Option.bind_eq_bind, Option.bind_eq_some_iff, Option.map_eq_some_iff] at h
  obtain ⟨_, ⟨cut, -, rfl⟩, h⟩ := h
  split_ifs at h
  cases h
  rfl

/-- The line of a target is no uncommented include of a local header. -/
theorem not_isActiveLocal_line (t : Target) : ¬ IsActiveLocal t.line := by
  obtain ⟨_ | _, name⟩ := t
  · rintro ⟨⟨local', statement, hp⟩, -⟩
    obtain ⟨found, hfound, heq⟩ := Option.map_eq_some_iff.1 hp
    have hline : (Target.line ⟨.angle, name⟩).toList =
        "#include <".toList ++ (name.toList ++ ['>']) := by
      simp [Target.line]
    rw [hline] at hfound
    have hdelim := delimiter_of_recognise_angle hfound
    rw [Prod.mk.injEq, Found.target, hdelim] at heq
    cases heq.1
  · rintro ⟨-, hs⟩
    have hline : (Target.line ⟨.quote, name⟩).toList =
        '/' :: '/' :: (" #include \"".toList ++ (name.toList ++ ['"'])) := by
      simp [Target.line]
    rw [hline, skipBlanks_cons _ (by decide)] at hs
    simp [slashes?, after?] at hs

end Amalgam.Include
