import Mathlib
import Amalgam.Text.Utf8

/-!
# The order of texts and the order of their bytes

Texts are ordered by their characters, files on a disk by the bytes of their names. In UTF-8 both
orders are the same: a longer form starts with a larger byte, and forms of one length are compared
as the numbers that they write out, highest digits first.

Main results:

* `encode_lt_encode_iff`: a text stands before another exactly when its bytes do.
* `before_iff`: so the order of texts as strings is the order of their bytes.
-/

namespace Amalgam.Text

namespace Utf8

theorem toNat_val_lt (c : Char) : c.val.toNat < 0x110000 := by
  have h : c.val.toNat.isValidChar := c.valid
  rw [Nat.isValidChar] at h
  omega

/-- Of two numbers, the smaller one has the smaller digits to the base 64, highest digits first. -/
theorem digits_lt {v w : Nat} (h : v < w) :
    v / 262144 < w / 262144 ∨ v / 262144 = w / 262144 ∧
      (v / 4096 % 64 < w / 4096 % 64 ∨ v / 4096 % 64 = w / 4096 % 64 ∧
        (v / 64 % 64 < w / 64 % 64 ∨ v / 64 % 64 = w / 64 % 64 ∧ v % 64 < w % 64)) := by
  have digit {m n : Nat} (h : m < n) : m / 64 < n / 64 ∨ m / 64 = n / 64 ∧ m % 64 < n % 64 := by
    omega
  have shift (n : Nat) : n / 64 / 64 = n / 4096 ∧ n / 4096 / 64 = n / 262144 :=
    ⟨Nat.div_div_eq_div_mul n 64 64, Nat.div_div_eq_div_mul n 4096 64⟩
  have h₁ := digit h
  have h₂ := @digit (v / 64) (w / 64)
  have h₃ := @digit (v / 4096) (w / 4096)
  rw [(shift v).1, (shift w).1] at h₂
  rw [(shift v).2, (shift w).2] at h₃
  omega

/-- The bytes of the smaller one of two characters come first, whatever follows. -/
theorem utf8EncodeChar_append_lt {a b : Char} (h : a < b) (s t : List UInt8) :
    String.utf8EncodeChar a ++ s < String.utf8EncodeChar b ++ t := by
  have hlt : a.val.toNat < b.val.toNat := UInt32.lt_iff_toNat_lt.1 h
  have ha := toNat_val_lt a
  have hb := toNat_val_lt b
  generalize hv : a.val.toNat = v at *
  generalize hw : b.val.toNat = w at *
  have hdigits := digits_lt hlt
  simp only [String.utf8EncodeChar, hv, hw]
  -- one case for each pair of lengths; the bytes are compared as numbers
  split_ifs <;>
    simp only [List.cons_append, List.nil_append, List.cons_lt_cons_iff, UInt8.lt_iff_toNat_lt,
      ← UInt8.toNat_inj, UInt8.toNat_ofNat'] <;>
    simp (disch := omega) only [Nat.mod_eq_of_lt] <;>
    omega

theorem encode_cons (c : Char) (s : List Char) :
    encode (c :: s) = String.utf8EncodeChar c ++ encode s := List.flatMap_cons

theorem encode_lt_encode {s t : List Char} (h : s < t) : encode s < encode t := by
  induction t generalizing s with
  | nil => exact absurd h (List.not_lt_nil s)
  | cons b t ih =>
    cases s with
    | nil =>
      rw [encode_cons]
      obtain ⟨first, rest, hb⟩ := List.exists_cons_of_ne_nil (String.utf8EncodeChar_ne_nil (c := b))
      rw [hb]
      exact List.nil_lt_cons first _
    | cons a s =>
      rw [encode_cons, encode_cons]
      rcases List.cons_lt_cons_iff.1 h with hab | ⟨rfl, hst⟩
      · exact utf8EncodeChar_append_lt hab _ _
      · exact List.append_left_lt (ih hst)

/-- A text stands before another exactly when its bytes do. -/
theorem encode_lt_encode_iff {s t : List Char} : encode s < encode t ↔ s < t := by
  refine ⟨fun h => ?_, encode_lt_encode⟩
  rcases lt_trichotomy s t with hst | rfl | hts
  · exact hst
  · exact absurd h (List.lt_irrefl _)
  · exact absurd h (List.lt_asymm (encode_lt_encode hts))

end Utf8

/-- Whether the bytes of a text come before those of another one. -/
def Before (s t : String) : Prop := Utf8.encode s.toList < Utf8.encode t.toList

theorem before_iff {s t : String} : Before s t ↔ s < t :=
  Utf8.encode_lt_encode_iff.trans String.lt_iff_toList_lt.symm

end Amalgam.Text
