import Amalgam.Text.Blank

/-!
# Decimal digits and numbers

A decimal digit is a character of the Unicode category Nd. Each script's ten digits stand in a row,
so the class is given by its zeros. A run of digits has a value only if all of them are ASCII.

Main results:

* `isDecimalDigit_eq_false_of_isBlank`: no blank is a decimal digit.
* `value?_eq_some_iff`: a run of digits has a value exactly when it is not empty and all ASCII.
-/

namespace Amalgam.Text

/-- The zero of each run of ten decimal digits. -/
def decimalZeros : List Nat :=
  [0x30, 0x660, 0x6F0, 0x7C0, 0x966, 0x9E6, 0xA66, 0xAE6, 0xB66, 0xBE6, 0xC66, 0xCE6, 0xD66, 0xDE6,
   0xE50, 0xED0, 0xF20, 0x1040, 0x1090, 0x17E0, 0x1810, 0x1946, 0x19D0, 0x1A80, 0x1A90, 0x1B50,
   0x1BB0, 0x1C40, 0x1C50, 0xA620, 0xA8D0, 0xA900, 0xA9D0, 0xA9F0, 0xAA50, 0xABF0, 0xFF10, 0x104A0,
   0x10D30, 0x10D40, 0x11066, 0x110F0, 0x11136, 0x111D0, 0x112F0, 0x11450, 0x114D0, 0x11650,
   0x116C0, 0x116D0, 0x116DA, 0x11730, 0x118E0, 0x11950, 0x11BF0, 0x11C50, 0x11D50, 0x11DA0,
   0x11F50, 0x16130, 0x16A60, 0x16AC0, 0x16B50, 0x16D70, 0x1CCF0, 0x1D7CE, 0x1D7D8, 0x1D7E2,
   0x1D7EC, 0x1D7F6, 0x1E140, 0x1E2F0, 0x1E4F0, 0x1E5F1, 0x1E950, 0x1FBF0]

/-- A character is a decimal digit when it has the Unicode category Nd. -/
def isDecimalDigit (c : Char) : Bool :=
  decimalZeros.any fun first => first ≤ c.toNat && c.toNat < first + 10

/-- No blank is a decimal digit. -/
theorem isDecimalDigit_eq_false_of_isBlank {c : Char} (h : isBlank c = true) :
    isDecimalDigit c = false := by
  rw [Bool.eq_false_iff]
  intro hd
  simp only [isDecimalDigit, List.any_eq_true, isBlank, inRanges, Bool.and_eq_true,
    decide_eq_true_eq] at hd h
  obtain ⟨first, hz, hd⟩ := hd
  obtain ⟨range, hr, h⟩ := h
  have apart : ∀ r ∈ blankRanges, ∀ z ∈ decimalZeros, r.2 < z ∨ z + 10 ≤ r.1 := by decide
  have := apart range hr first hz
  omega

/-- The number that a run of ASCII digits writes in base ten. -/
def valueOf (digits : List Char) : Nat :=
  digits.foldl (fun n c => 10 * n + (c.toNat - 48)) 0

/-- The number written by a run of digits, if it is not empty and all its digits are ASCII. -/
def value? (digits : List Char) : Option Nat :=
  if digits ≠ [] ∧ digits.all Char.isDigit then some (valueOf digits) else none

theorem value?_eq_some_iff {digits : List Char} {n : Nat} :
    value? digits = some n ↔ digits ≠ [] ∧ (∀ c ∈ digits, c.isDigit = true) ∧ valueOf digits = n := by
  rw [value?]
  split
  · next h =>
    rw [Option.some.injEq]
    exact ⟨fun e => ⟨h.1, List.all_eq_true.1 h.2, e⟩, fun e => e.2.2⟩
  · next h =>
    constructor
    · intro e; cases e
    · exact fun e => absurd ⟨e.1, List.all_eq_true.2 e.2.1⟩ h

end Amalgam.Text
