import Mathlib
import Amalgam.Text.Pieces
import Amalgam.Text.Utf8
import Amalgam.Proofs.Text.ByteOrder

/-!
# What the lossy reading of bytes gives

The bytes of a character are a first byte, which says how many follow, and the digits of its number
to the base 64. The machine that reads bytes inside a character knows how many digits are missing and
what those before them are, and it goes on exactly as long as some character can still come of it. So
it cuts every run of bytes into the forms of characters and into what it replaces, and a cut at a line
feed before the reading is the same as one after it.

Main results:

* `starts_start`, `Wants.admits_and_digit_iff`: which characters can come of what is being read.
* `scan_utf8EncodeChar_append`: the form of a character is read as this character.
* `reads_scan`: bytes are read as forms of characters and replaced runs, in order.
* `isWellFormed_iff`, `decodeLossy_encode`: where nothing is replaced.
* `pieces_decodeLossy`: the pieces of the text are the texts of the pieces.
-/

namespace Amalgam.Text.Utf8

open String (utf8EncodeChar)

/-! ## The form of a character -/

/-- How many bytes follow the first byte of a character. -/
def tailCount (v : Nat) : Nat :=
  if v < 0x80 then 0
  else if v < 0x800 then 1
  else if v < 0x10000 then 2
  else 3

/-- The first byte of a character, as a number. -/
def lead (v : Nat) : Nat :=
  if v < 0x80 then v
  else if v < 0x800 then 0xC0 + v / 0x40
  else if v < 0x10000 then 0xE0 + v / 0x1000
  else 0xF0 + v / 0x40000

/-- The last bytes of a character: so many digits of its number to the base 64. -/
def tails : Nat → Nat → List UInt8
  | 0, _ => []
  | n + 1, v => UInt8.ofNat (0x80 + v / 64 ^ n % 64) :: tails n v

/-- The form of a character: what its first byte is, and how many digits follow. -/
theorem utf8EncodeChar_eq (c : Char) :
    utf8EncodeChar c = UInt8.ofNat (lead c.toNat) :: tails (tailCount c.toNat) c.toNat := by
  have hlt := toNat_val_lt c
  simp only [utf8EncodeChar, Char.toNat]
  generalize c.val.toNat = v at hlt ⊢
  unfold lead tailCount
  -- one case for each pair of lengths, of which four are possible; the bytes are compared as numbers
  split_ifs <;> first
    | omega
    | rfl
    | simp only [tails, List.cons.injEq, and_true, ← UInt8.toNat_inj, UInt8.toNat_ofNat',
        Nat.reducePow, Nat.div_one]
      omega

theorem toNat_lead (c : Char) : (UInt8.ofNat (lead c.toNat)).toNat = lead c.toNat := by
  have hlt := toNat_val_lt c
  rw [UInt8.toNat_ofNat']
  refine Nat.mod_eq_of_lt ?_
  simp only [Char.toNat, lead]
  split_ifs <;> omega

/-- The first byte is one of ASCII exactly when it is the whole character. -/
theorem lead_lt_iff {v : Nat} : lead v < 0x80 ↔ v < 0x80 := by
  rw [lead]
  split_ifs
  · rfl
  all_goals omega

theorem utf8EncodeChar_of_ascii {c : Char} (h : c.toNat < 0x80) :
    utf8EncodeChar c = [UInt8.ofNat c.toNat] := by
  rw [utf8EncodeChar_eq, lead, tailCount, if_pos h, if_pos h, tails]

/-- A byte of ASCII is the form of the character with its number. -/
theorem utf8EncodeChar_ofNat {b : UInt8} (h : b < 0x80) :
    utf8EncodeChar (Char.ofNat b.toNat) = [b] := by
  have hb : b.toNat < 0x80 := h
  have hv : (Char.ofNat b.toNat).toNat = b.toNat := by
    rw [Char.toNat_ofNat, if_pos (.inl (by omega))]
  rw [utf8EncodeChar_of_ascii (by rwa [hv]), hv, UInt8.ofNat_toNat]

/-! ## What a machine inside a character reads -/

namespace Pending

/-- Whether a character with this number can come of what is being read. -/
structure Admits (p : Pending) (v : Nat) : Prop where
  pos : 0 < p.left
  bits : v / 64 ^ p.left = p.bits
  low : p.low.toNat ≤ 0x80 + v / 64 ^ (p.left - 1) % 64
  high : 0x80 + v / 64 ^ (p.left - 1) % 64 ≤ p.high.toNat

theorem admits_iff {p : Pending} {v : Nat} :
    p.Admits v ↔ 0 < p.left ∧ v / 64 ^ p.left = p.bits ∧
      p.low.toNat ≤ 0x80 + v / 64 ^ (p.left - 1) % 64 ∧
        0x80 + v / 64 ^ (p.left - 1) % 64 ≤ p.high.toNat :=
  ⟨fun h => ⟨h.1, h.2, h.3, h.4⟩, fun h => ⟨h.1, h.2.1, h.2.2.1, h.2.2.2⟩⟩

end Pending

/-- Whether a machine inside a character still wants bytes, and only such as can be digits. -/
structure Pending.Wants (p : Pending) : Prop where
  pos : 0 < p.left
  high_le : p.high ≤ 0xBF

/-- How the first byte of a character is read. -/
inductive Starts (b : UInt8) : List (Option Char) × Option Pending → Prop
  | ascii (h : b < 0x80) : Starts b ([some (Char.ofNat b.toNat)], none)
  /-- The byte starts no character. -/
  | never (h : ∀ v, v.isValidChar → lead v ≠ b.toNat) : Starts b ([none], none)
  /-- The byte starts the characters that can come of what is being read. -/
  | lead {p : Pending} (hp : p.Wants)
      (hadmits : ∀ v, p.Admits v ↔ v.isValidChar ∧ lead v = b.toNat)
      (hcount : ∀ v, p.Admits v → tailCount v = p.left) : Starts b ([], some p)

theorem starts_start (b : UInt8) : Starts b (start b) := by
  by_cases hascii : b < 0x80
  · rw [start, if_pos hascii]
    exact .ascii hascii
  have hb := b.toNat_lt
  have outside (hb : 0x80 ≤ b.toNat ∧ b.toNat < 0xC2 ∨ 0xF5 ≤ b.toNat) (v : Nat)
      (hv : v.isValidChar) : lead v ≠ b.toNat := by
    rw [Nat.isValidChar] at hv
    unfold lead
    split_ifs <;> omega
  have h : ¬ b.toNat < 0x80 := hascii
  simp only [start, UInt8.lt_iff_toNat_lt, ← UInt8.toNat_inj, UInt8.reduceToNat, if_neg h]
  split_ifs with h₁ h₂ h₃ h₄ h₅ h₆ h₇ h₈
  · exact .never (outside (.inl (by omega)))
  on_goal 8 => exact .never (outside (.inr (by omega)))
  -- the bounds of the first digit are those of the numbers with this length and first byte
  all_goals
    refine .lead ⟨Nat.succ_pos _, by simp⟩ (fun v => ?_) (fun v => ?_) <;>
      simp only [Pending.admits_iff, Nat.isValidChar, lead, tailCount, Nat.reducePow, Nat.reduceSub,
        Nat.div_one, UInt8.reduceToNat] <;>
      split_ifs <;> omega

namespace Pending

theorem low_ge_next : (0x80 : UInt8) ≤ 0x80 := UInt8.le_refl _

/-- What is being read after one more digit. -/
def next (p : Pending) (b : UInt8) : Pending :=
  ⟨p.left - 1, 0x80, 0xBF, 64 * p.bits + (b.toNat - 0x80), low_ge_next⟩

/-- The next digit of a character that can come of what is being read. -/
def digit (p : Pending) (v : Nat) : UInt8 := UInt8.ofNat (0x80 + v / 64 ^ (p.left - 1) % 64)

theorem toNat_digit (p : Pending) (v : Nat) :
    (p.digit v).toNat = 0x80 + v / 64 ^ (p.left - 1) % 64 := by
  rw [digit, UInt8.toNat_ofNat']
  exact Nat.mod_eq_of_lt (by omega)

variable {p : Pending} {v : Nat} {b : UInt8}

theorem Wants.next (hlast : ¬ p.left ≤ 1) (b : UInt8) : (p.next b).Wants :=
  ⟨Nat.sub_pos_of_lt (Nat.lt_of_not_le hlast), UInt8.le_refl _⟩

/-- A byte within the bounds is the next digit of the characters that have it after the same start. -/
theorem Wants.admits_and_digit_iff (hp : p.Wants) :
    p.Admits v ∧ p.digit v = b ↔
      (p.low ≤ b ∧ b ≤ p.high) ∧ v / 64 ^ (p.left - 1) = (p.next b).bits := by
  obtain ⟨hpos, hhigh⟩ := hp
  have hlow := p.low_ge
  have hdigits : v / 64 ^ (p.left - 1) = 64 * (v / 64 ^ p.left) + v / 64 ^ (p.left - 1) % 64 := by
    obtain ⟨n, hn⟩ := Nat.exists_eq_add_one.2 hpos
    rw [hn, Nat.add_sub_cancel, Nat.pow_succ, ← Nat.div_div_eq_div_mul]
    omega
  rw [admits_iff, ← UInt8.toNat_inj, toNat_digit]
  simp only [Pending.next, UInt8.le_iff_toNat_le, UInt8.reduceToNat] at hlow hhigh ⊢
  omega

/-- After a digit only the digits before it restrict what can come. -/
theorem admits_next_iff :
    (p.next b).Admits v ↔ ¬ p.left ≤ 1 ∧ v / 64 ^ (p.left - 1) = (p.next b).bits := by
  simp only [admits_iff, next, UInt8.reduceToNat]
  omega

/-- The last digit completes the number. -/
theorem div_pow_of_last (hlast : p.left ≤ 1) (v : Nat) : v / 64 ^ (p.left - 1) = v := by
  rw [Nat.sub_eq_zero_of_le hlast, Nat.pow_zero, Nat.div_one]

end Pending

theorem step_some (p : Pending) (b : UInt8) :
    step (some p) b =
      if p.low ≤ b ∧ b ≤ p.high then
        if p.left ≤ 1 then ([some (Char.ofNat (p.next b).bits)], none) else ([], some (p.next b))
      else (none :: (start b).1, (start b).2) := rfl

theorem tails_left {p : Pending} (hp : p.Wants) (v : Nat) :
    tails p.left v = p.digit v :: tails (p.left - 1) v := by
  obtain ⟨n, hn⟩ := Nat.exists_eq_add_one.2 hp.pos
  rw [Pending.digit, hn]
  rfl

theorem tails_of_last {p : Pending} (hp : p.Wants) (hlast : p.left ≤ 1) (v : Nat) :
    tails p.left v = [p.digit v] := by
  rw [tails_left hp, Nat.sub_eq_zero_of_le hlast, tails]

/-- The digits of a character that can come of what is being read are read as this character. -/
theorem scan_tails {p : Pending} {v : Nat} (hp : p.Wants) (h : p.Admits v) (rest : List UInt8) :
    scan (some p) (tails p.left v ++ rest) = some (Char.ofNat v) :: scan none rest := by
  obtain ⟨hwithin, hbits⟩ := hp.admits_and_digit_iff.1 ⟨h, rfl⟩
  by_cases hlast : p.left ≤ 1
  · rw [tails_of_last hp hlast, List.singleton_append, scan, step_some, if_pos hwithin,
      if_pos hlast, ← hbits, Pending.div_pow_of_last hlast]
    rfl
  · rw [tails_left hp, List.cons_append, scan, step_some, if_pos hwithin, if_neg hlast]
    exact scan_tails (.next hlast _) (Pending.admits_next_iff.2 ⟨hlast, hbits⟩) rest
termination_by p.left
decreasing_by exact Nat.sub_lt hp.pos Nat.one_pos

/-- The form of a character is read as this character. -/
theorem scan_utf8EncodeChar_append (c : Char) (rest : List UInt8) :
    scan none (utf8EncodeChar c ++ rest) = some c :: scan none rest := by
  have hlead := toNat_lead c
  rw [utf8EncodeChar_eq, List.cons_append, scan, step]
  generalize UInt8.ofNat (lead c.toNat) = b at hlead ⊢
  have hstart := starts_start b
  generalize start b = outcome at hstart ⊢
  cases hstart with
  | ascii h =>
    have hone : c.toNat < 0x80 := lead_lt_iff.1 (hlead ▸ h)
    rw [lead, if_pos hone] at hlead
    rw [tailCount, if_pos hone, tails, hlead, Char.ofNat_toNat]
    rfl
  | never h => exact absurd hlead.symm (h _ c.valid)
  | lead hp hadmits hcount =>
    have h := (hadmits c.toNat).2 ⟨c.valid, hlead.symm⟩
    rw [List.nil_append, hcount _ h, scan_tails hp h, Char.ofNat_toNat]

/-! ## How bytes are cut -/

/-- How bytes are read: each form of a character as this character, and other runs as replaced. -/
inductive Reads : List UInt8 → List (Option Char) → Prop
  | nil : Reads [] []
  | char (c : Char) {rest : List UInt8} {cs : List (Option Char)} (h : Reads rest cs) :
      Reads (utf8EncodeChar c ++ rest) (some c :: cs)
  | junk {run rest : List UInt8} {cs : List (Option Char)} (hne : run ≠ []) (h : Reads rest cs) :
      Reads (run ++ rest) (none :: cs)

/-- A machine inside a character reads the rest of one, or what it has read is replaced. -/
theorem scan_some_cases {p : Pending} (hp : p.Wants) (bytes : List UInt8) :
    (∃ v rest, p.Admits v ∧ bytes = tails p.left v ++ rest ∧
      scan (some p) bytes = some (Char.ofNat v) :: scan none rest) ∨
    ∃ run rest, bytes = run ++ rest ∧ scan (some p) bytes = none :: scan none rest := by
  induction bytes generalizing p with
  | nil => exact .inr ⟨[], [], rfl, rfl⟩
  | cons b bytes ih =>
    rw [scan, step_some]
    by_cases hwithin : p.low ≤ b ∧ b ≤ p.high
    · rw [if_pos hwithin]
      by_cases hlast : p.left ≤ 1
      · obtain ⟨hadmits, hb⟩ :=
          hp.admits_and_digit_iff.2 ⟨hwithin, Pending.div_pow_of_last hlast (p.next b).bits⟩
        rw [if_pos hlast]
        exact .inl ⟨_, bytes, hadmits, by rw [tails_of_last hp hlast, hb]; rfl, rfl⟩
      · rw [if_neg hlast]
        rcases ih (.next hlast b) with ⟨v, rest, hv, rfl, hscan⟩ | ⟨run, rest, rfl, hscan⟩
        · obtain ⟨hadmits, hb⟩ :=
            hp.admits_and_digit_iff.2 ⟨hwithin, (Pending.admits_next_iff.1 hv).2⟩
          exact .inl ⟨v, rest, hadmits, by rw [tails_left hp, hb]; rfl, hscan⟩
        · exact .inr ⟨b :: run, rest, rfl, hscan⟩
    · rw [if_neg hwithin]
      exact .inr ⟨[], b :: bytes, rfl, rfl⟩

/-- A byte is read with those after it as the form of a character, or as replaced. -/
theorem scan_cons_cases (b : UInt8) (bytes : List UInt8) :
    (∃ c rest, b :: bytes = utf8EncodeChar c ++ rest ∧
      scan none (b :: bytes) = some c :: scan none rest) ∨
    ∃ run rest, bytes = run ++ rest ∧ scan none (b :: bytes) = none :: scan none rest := by
  rw [scan, step]
  have hstart := starts_start b
  generalize start b = outcome at hstart ⊢
  cases hstart with
  | ascii h =>
    exact .inl ⟨Char.ofNat b.toNat, bytes, by rw [utf8EncodeChar_ofNat h]; rfl, rfl⟩
  | never h => exact .inr ⟨[], bytes, rfl, rfl⟩
  | lead hp hadmits hcount =>
    rw [List.nil_append]
    rcases scan_some_cases hp bytes with ⟨v, rest, hv, rfl, hscan⟩ | hreplaced
    · obtain ⟨hvalid, hlead⟩ := (hadmits v).1 hv
      have hchar : (Char.ofNat v).toNat = v := by rw [Char.toNat_ofNat, if_pos hvalid]
      refine .inl ⟨Char.ofNat v, rest, ?_, hscan⟩
      rw [utf8EncodeChar_eq, hchar, hlead, hcount v hv, UInt8.ofNat_toNat, List.cons_append]
    · exact .inr hreplaced

/-- Bytes are read as forms of characters and replaced runs, in order. -/
theorem reads_scan (bytes : List UInt8) : Reads bytes (scan none bytes) := by
  match bytes with
  | [] => exact .nil
  | b :: bytes =>
    rcases scan_cons_cases b bytes with ⟨c, rest, heq, hscan⟩ | ⟨run, rest, rfl, hscan⟩
    · have hlength : rest.length ≤ bytes.length := by
        have hsum := congrArg List.length heq
        have hpos := List.length_pos_iff.2 (String.utf8EncodeChar_ne_nil (c := c))
        rw [List.length_cons, List.length_append] at hsum
        omega
      rw [hscan, heq]
      exact (reads_scan rest).char c
    · rw [hscan, ← List.cons_append]
      exact (reads_scan rest).junk (List.cons_ne_nil b run)
termination_by bytes.length

/-! ## What is read -/

variable {bytes : List UInt8} {cs : List (Option Char)}

theorem Reads.exists_encode (h : Reads bytes cs) (hall : cs.all Option.isSome = true) :
    ∃ s, encode s = bytes := by
  induction h with
  | nil => exact ⟨[], rfl⟩
  | char c _ ih =>
    obtain ⟨s, rfl⟩ := ih (by simpa using hall)
    exact ⟨c :: s, encode_cons c s⟩
  | junk => simp at hall

/-- A character of ASCII is read off its own byte only. -/
theorem Reads.mem_of_ascii {b : UInt8} (hb : b < 0x80) (h : Reads bytes cs)
    (hmem : some (Char.ofNat b.toNat) ∈ cs) : b ∈ bytes := by
  induction h with
  | nil => cases hmem
  | char c _ ih =>
    rcases List.mem_cons.1 hmem with heq | hmem
    · rw [← Option.some.inj heq, utf8EncodeChar_ofNat hb]
      exact List.mem_cons_self
    · exact List.mem_append_right _ (ih hmem)
  | junk _ _ ih => exact List.mem_append_right _ (ih (by simpa using hmem))

theorem scan_encode (s : List Char) : scan none (encode s) = s.map some := by
  induction s with
  | nil => rfl
  | cons c s ih => rw [encode_cons, scan_utf8EncodeChar_append, ih, List.map_cons]

/-- Bytes are well formed exactly when they are those of a text. -/
theorem isWellFormed_iff : isWellFormed bytes = true ↔ ∃ s, encode s = bytes := by
  constructor
  · exact (reads_scan bytes).exists_encode
  · rintro ⟨s, rfl⟩
    simp [isWellFormed, scan_encode]

/-- The bytes of a text are read as this text. -/
theorem decodeLossy_encode (s : List Char) : decodeLossy (encode s) = s := by
  rw [decodeLossy, scan_encode, List.map_map]
  exact List.map_id s

theorem decodeLossy_eq_nil_iff : decodeLossy bytes = [] ↔ bytes = [] := by
  rw [decodeLossy, List.map_eq_nil_iff]
  have h := reads_scan bytes
  constructor
  · intro hnil
    rw [hnil] at h
    cases h
    rfl
  · rintro rfl
    rfl

theorem mem_of_mem_decodeLossy {b : UInt8} (hb : b < 0x80)
    (h : Char.ofNat b.toNat ∈ decodeLossy bytes) : b ∈ bytes := by
  obtain ⟨c | c, hc, heq⟩ := List.mem_map.1 h
  · -- the replacement is no character of ASCII
    have hlt := congrArg Char.toNat heq
    have hb : b.toNat < 0x80 := hb
    rw [Char.toNat_ofNat, if_pos (.inl (by omega))] at hlt
    simp [replacement] at hlt
    omega
  · obtain rfl : c = Char.ofNat b.toNat := heq
    exact (reads_scan bytes).mem_of_ascii hb hc

/-- Something is replaced in bytes that are not well formed. -/
theorem replacement_mem_decodeLossy (h : isWellFormed bytes = false) :
    replacement ∈ decodeLossy bytes := by
  obtain ⟨c | c, hc, hsome⟩ := List.all_eq_false.1 h
  · exact List.mem_map.2 ⟨none, hc, rfl⟩
  · simp at hsome

theorem decodeLossy_append_ascii {b : UInt8} (hb : b < 0x80) (s t : List UInt8) :
    decodeLossy (s ++ b :: t) = decodeLossy s ++ Char.ofNat b.toNat :: decodeLossy t := by
  rw [decodeLossy, scan_append_ascii hb, List.map_append, List.map_cons]
  rfl

/-! ## Cutting at line feeds -/

/-- The text of bytes without a line feed is one piece. -/
theorem pieces_decodeLossy_of_not_mem (h : 10 ∉ bytes) :
    pieces '\n' (decodeLossy bytes) = [decodeLossy bytes] :=
  pieces_of_not_mem fun hfeed => h (mem_of_mem_decodeLossy (by decide) hfeed)

/-- The pieces of the text are the texts of the pieces. -/
theorem pieces_decodeLossy (bytes : List UInt8) :
    pieces '\n' (decodeLossy bytes) = (pieces 10 bytes).map decodeLossy := by
  by_cases hfeed : 10 ∈ bytes
  · obtain ⟨s, t, rfl, hs⟩ := List.eq_append_cons_of_mem hfeed
    have hlength : t.length < (s ++ 10 :: t).length := by simp [Nat.lt_add_left]
    have hcut : decodeLossy (s ++ 10 :: t) = decodeLossy s ++ '\n' :: decodeLossy t :=
      decodeLossy_append_ascii (by decide) s t
    rw [hcut, pieces_append_cons, pieces_decodeLossy_of_not_mem hs, pieces_decodeLossy t,
      pieces_append_cons, pieces_of_not_mem hs, List.map_append, List.map_singleton]
  · rw [pieces_decodeLossy_of_not_mem hfeed, pieces_of_not_mem hfeed, List.map_singleton]
termination_by bytes.length

end Amalgam.Text.Utf8
