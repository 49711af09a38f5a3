import Mathlib
import Amalgam.Build
import Amalgam.Proofs.Document.Lines
import Amalgam.Proofs.Text.ByteOrder

/-!
# The bytes of lines

In UTF-8 the byte of a line feed stands for a line feed and nothing else. So lines that hold none are
found again by cutting their bytes at this byte, with one empty piece after the last of them, and
other lines have other bytes.

Main results:

* `bytesOf_eq`: a document is written as its lines in UTF-8, each followed by one line feed.
* `newline_mem_encode_iff`: which texts have the byte of a line feed.
* `pieces_bytesOf`: the bytes of lines, cut at their line feeds.
* `bytesOf_inj`: lines are known by their bytes.
-/

namespace Amalgam

open Text

namespace Text.Utf8

theorem newline_mem_utf8EncodeChar_iff {c : Char} : 10 ∈ String.utf8EncodeChar c ↔ c = '\n' := by
  have hc : c = '\n' ↔ c.val.toNat = 10 := by
    rw [← Char.toNat_inj]
    rfl
  have hten : (10 : UInt8).toNat = 10 := rfl
  have hlt := toNat_val_lt c
  rw [hc]
  generalize hv : c.val.toNat = v at hlt ⊢
  simp only [String.utf8EncodeChar, hv]
  -- all bytes of a longer form are large
  split_ifs <;>
    simp only [List.mem_cons, List.not_mem_nil, or_false, ← UInt8.toNat_inj, UInt8.toNat_ofNat',
      hten] <;>
    simp (disch := omega) only [Nat.mod_eq_of_lt] <;>
    omega

/-- Only a line feed has the byte of a line feed. -/
theorem newline_mem_encode_iff {s : List Char} : 10 ∈ encode s ↔ '\n' ∈ s := by
  rw [encode, List.mem_flatMap]
  simp only [newline_mem_utf8EncodeChar_iff, exists_eq_right]

theorem encode_injective : Function.Injective encode := by
  intro s t h
  rcases lt_trichotomy s t with hst | rfl | hts
  · exact absurd (h ▸ encode_lt_encode hst) (List.lt_irrefl _)
  · rfl
  · exact absurd (h ▸ encode_lt_encode hts) (List.lt_irrefl _)

/-- The bytes of a text are those of the string. -/
theorem encode_toList (s : String) : encode s.toList = s.toUTF8.data.toList := by
  have h : s.toList.utf8Encode = s.toByteArray := String.utf8Encode_toList
  rw [String.toUTF8_eq_toByteArray, ← h, List.utf8Encode, List.data_toByteArray]
  rfl

end Text.Utf8

/-- The bytes of a line, without what ends it. -/
def lineBytes (line : String) : List UInt8 := line.toUTF8.data.toList

theorem encode_eq_lineBytes (line : String) : Utf8.encode line.toList = lineBytes line :=
  Utf8.encode_toList line

theorem bytesOf_cons (line : String) (rest : List String) :
    bytesOf (line :: rest) = lineBytes line ++ 10 :: bytesOf rest := by
  have hone : bytesOf [line] = Utf8.encode line.toList ++ [10] := by
    simp [bytesOf, Utf8.encode, String.utf8EncodeChar]
  rw [← List.singleton_append, bytesOf_append, hone, encode_eq_lineBytes, List.append_assoc,
    List.singleton_append]

/-- A document is written as its lines, each followed by one line feed. -/
theorem bytesOf_eq (lines : List String) :
    bytesOf lines = lines.flatMap fun line => lineBytes line ++ [10] := by
  induction lines with
  | nil => rfl
  | cons line rest ih => rw [bytesOf_cons, ih, List.flatMap_cons, List.append_assoc, List.singleton_append]

/-- The bytes of lines, cut at their line feeds, are those of each line and an empty piece. -/
theorem pieces_bytesOf {lines : List String} (h : ∀ line ∈ lines, IsLine line) :
    pieces 10 (bytesOf lines) = lines.map lineBytes ++ [[]] := by
  induction lines with
  | nil => rfl
  | cons line rest ih =>
    have hline : 10 ∉ lineBytes line := fun hn =>
      h line List.mem_cons_self (Utf8.newline_mem_encode_iff.1 (encode_eq_lineBytes line ▸ hn))
    rw [bytesOf_cons, pieces_append_cons, pieces_of_not_mem hline,
      ih fun l hl => h l (List.mem_cons_of_mem _ hl), List.map_cons, List.singleton_append,
      List.cons_append]

/-- Lines are known by their bytes. -/
theorem bytesOf_inj {lines lines' : List String} (h : ∀ line ∈ lines, IsLine line)
    (h' : ∀ line ∈ lines', IsLine line) : bytesOf lines = bytesOf lines' ↔ lines = lines' := by
  constructor
  · intro heq
    have hcut := congrArg (pieces 10) heq
    rw [pieces_bytesOf h, pieces_bytesOf h', List.append_left_inj] at hcut
    refine List.map_injective_iff.2 (fun s t hst => ?_) hcut
    rw [← encode_eq_lineBytes, ← encode_eq_lineBytes] at hst
    exact String.toList_inj.1 (Utf8.encode_injective hst)
  · rintro rfl
    rfl

end Amalgam
