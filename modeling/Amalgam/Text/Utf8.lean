/-!
# UTF-8 with replacement

Bytes are read one at a time by a small machine: between characters it holds nothing, inside a
character it holds how many bytes are still wanted and which values the next one may take. A
sequence that breaks off is replaced as a whole, and the byte that broke it is read again as the
start of a character.

Main results:

* `scan_append_ascii`: a byte of ASCII ends whatever was being read, so what follows is read afresh.
-/

namespace Amalgam.Text.Utf8

/-- The bytes of a text. -/
def encode (s : List Char) : List UInt8 := s.flatMap String.utf8EncodeChar

/-- The inside of a character: bytes still wanted, bounds of the next one, and the value so far. -/
structure Pending where
  left : Nat
  low : UInt8
  high : UInt8
  bits : Nat
  low_ge : 0x80 ≤ low := by decide

/-- Reads the first byte of a character; `none` stands for a replaced sequence. -/
def start (b : UInt8) : List (Option Char) × Option Pending :=
  if b < 0x80 then ([some (Char.ofNat b.toNat)], none)
  else if b < 0xC2 then ([none], none)
  else if b < 0xE0 then ([], some { left := 1, low := 0x80, high := 0xBF, bits := b.toNat - 0xC0 })
  else if b = 0xE0 then ([], some { left := 2, low := 0xA0, high := 0xBF, bits := 0 })
  else if b = 0xED then ([], some { left := 2, low := 0x80, high := 0x9F, bits := 0xD })
  else if b < 0xF0 then ([], some { left := 2, low := 0x80, high := 0xBF, bits := b.toNat - 0xE0 })
  else if b = 0xF0 then ([], some { left := 3, low := 0x90, high := 0xBF, bits := 0 })
  else if b < 0xF4 then ([], some { left := 3, low := 0x80, high := 0xBF, bits := b.toNat - 0xF0 })
  else if b = 0xF4 then ([], some { left := 3, low := 0x80, high := 0x8F, bits := 4 })
  else ([none], none)

/-- Reads one byte. -/
def step : Option Pending → UInt8 → List (Option Char) × Option Pending
  | none, b => start b
  | some p, b =>
    if p.low ≤ b ∧ b ≤ p.high then
      let bits := 64 * p.bits + (b.toNat - 0x80)
      if p.left ≤ 1 then ([some (Char.ofNat bits)], none)
      else ([], some { left := p.left - 1, low := 0x80, high := 0xBF, bits })
    else (none :: (start b).1, (start b).2)

/-- A character that the end of the bytes cuts short is replaced. -/
def finish : Option Pending → List (Option Char)
  | none => []
  | some _ => [none]

/-- The characters of the bytes in order, with `none` for each replaced sequence. -/
def scan (state : Option Pending) : List UInt8 → List (Option Char)
  | [] => finish state
  | b :: rest => (step state b).1 ++ scan (step state b).2 rest

/-- The character that stands for a replaced sequence. -/
def replacement : Char := '\uFFFD'

/-- Reads bytes as text, replacing what is no character. -/
def decodeLossy (bytes : List UInt8) : List Char :=
  (scan none bytes).map fun c => c.getD replacement

/-- Whether the bytes are the UTF-8 form of a text. -/
def isWellFormed (bytes : List UInt8) : Bool := (scan none bytes).all Option.isSome

/-- Reads bytes as text, if they are the UTF-8 form of one. -/
def decode? (bytes : List UInt8) : Option (List Char) :=
  if isWellFormed bytes then some (decodeLossy bytes) else none

/-! ## ASCII separates -/

/-- What the machine gives for a byte of ASCII. -/
theorem step_ascii {b : UInt8} (h : b < 0x80) (state : Option Pending) :
    step state b = (finish state ++ [some (Char.ofNat b.toNat)], none) := by
  have hstart : start b = ([some (Char.ofNat b.toNat)], none) := by rw [start, if_pos h]
  cases state with
  | none => exact hstart
  | some p =>
    have : ¬ p.low ≤ b := fun hle =>
      absurd (UInt8.le_trans p.low_ge hle) (by simpa using h)
    simp only [step, this, false_and, if_false, hstart]
    rfl

/-- What follows a byte of ASCII is read afresh. -/
theorem scan_append_ascii {b : UInt8} (h : b < 0x80) (state : Option Pending) (s t : List UInt8) :
    scan state (s ++ b :: t) = scan state s ++ some (Char.ofNat b.toNat) :: scan none t := by
  induction s generalizing state with
  | nil => simp [scan, step_ascii h]
  | cons b rest ih => simp [scan, ih]

end Amalgam.Text.Utf8
