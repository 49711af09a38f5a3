/-!
# Blank characters and trimming

A character is blank when it has the Unicode property White_Space. Trimming takes a class of
characters off both ends of a text and touches nothing inside.
-/

namespace Amalgam.Text

/-- Whether a character lies in one of the ranges, both ends included. -/
def inRanges (ranges : List (Nat × Nat)) (c : Char) : Bool :=
  ranges.any fun range => range.1 ≤ c.toNat && c.toNat ≤ range.2

/-- The code points that have the Unicode property White_Space. -/
def blankRanges : List (Nat × Nat) :=
  [(0x9, 0xD), (0x20, 0x20), (0x85, 0x85), (0xA0, 0xA0), (0x1680, 0x1680), (0x2000, 0x200A),
   (0x2028, 0x2029), (0x202F, 0x202F), (0x205F, 0x205F), (0x3000, 0x3000)]

/-- A character is blank when it has the Unicode property White_Space. -/
def isBlank (c : Char) : Bool := inRanges blankRanges c

/-! ## Trimming -/

variable {α : Type}

/-- The list without the longest run of `p` at its end. -/
def dropEnd (p : α → Bool) : List α → List α
  | [] => []
  | a :: rest =>
    match dropEnd p rest with
    | [] => if p a then [] else [a]
    | kept => a :: kept

theorem dropEnd_isPrefixOf (p : α → Bool) (s : List α) : dropEnd p s <+: s := by
  induction s with
  | nil => exact List.prefix_refl _
  | cons a rest ih =>
    rw [dropEnd]
    split
    · split
      · exact List.nil_prefix
      · exact (List.prefix_cons_inj a).2 List.nil_prefix
    · exact (List.prefix_cons_inj a).2 ih

/-- The list without the runs of `p` at its two ends. -/
def trimBy (p : α → Bool) (s : List α) : List α := dropEnd p (s.dropWhile p)

/-- A text without the blanks at its two ends. -/
def trim (s : List Char) : List Char := trimBy isBlank s

end Amalgam.Text
