import Mathlib
import Amalgam.Build
import Amalgam.Proofs.Mark.Form
import Amalgam.Proofs.SourceFile.Parts
import Amalgam.Proofs.Text.Decoding
import Amalgam.Proofs.Text.Lines

/-!
# Damaged lines

A file is decoded as a whole and cut into lines afterwards. As no replaced sequence reaches over a
line feed, each line can just as well be decoded on its own. So bytes that are no text damage the line
that they stand in: what every other line gives stays the same, and a damaged first line is no mark,
whatever stands in it.

Main results:

* `linesOf_decodeLossy`: the lines of a file are those of its raw lines, each decoded on its own.
* `madeOf_of_load`: a file is made of what each of its lines gives.
* `markOf_of_damaged`: damaged lines hold no mark.
* `load_damaged`: what may differ between two files that differ in damaged lines only.
-/

namespace Amalgam

open Amalgam.Include Amalgam.Text

/-! ## Raw lines -/

/-- The bytes of a line, and whether a line feed ended it. -/
structure RawLine where
  bytes : List UInt8
  ended : Bool
deriving DecidableEq

/-- The raw lines of a file: what its line feeds end, and what follows the last one unless that is
empty. -/
def rawLines (bytes : List UInt8) : List RawLine :=
  let cut := pieces 10 bytes
  cut.dropLast.map (⟨·, true⟩) ++ (cut.getLast?.toList.filter (· ≠ [])).map (⟨·, false⟩)

namespace RawLine

/-- The line decoded on its own; a line feed takes one carriage return before it along. -/
def text (r : RawLine) : String :=
  String.ofList (if r.ended then dropReturn (Utf8.decodeLossy r.bytes) else Utf8.decodeLossy r.bytes)

/-- Whether the bytes of the line are those of a text. -/
def IsText (r : RawLine) : Prop := ∃ s, Utf8.encode s = r.bytes

instance (r : RawLine) : Decidable r.IsText := decidable_of_iff _ Utf8.isWellFormed_iff

/-- Whether two lines are the same or both damaged. -/
def SameOrDamaged (r other : RawLine) : Prop := r = other ∨ ¬ r.IsText ∧ ¬ other.IsText

instance : DecidableRel SameOrDamaged := fun _ _ => inferInstanceAs (Decidable (_ ∨ _ ∧ _))

/-- In a damaged line something is replaced. -/
theorem replacement_mem_text {r : RawLine} (h : ¬ r.IsText) :
    Utf8.replacement ∈ r.text.toList := by
  have hmem : Utf8.replacement ∈ Utf8.decodeLossy r.bytes := by
    refine Utf8.replacement_mem_decodeLossy (Bool.eq_false_iff.2 fun hw => h ?_)
    exact Utf8.isWellFormed_iff.1 hw
  rw [text, String.toList_ofList]
  split
  · rcases dropReturn_cases (Utf8.decodeLossy r.bytes) with ⟨-, heq⟩ | heq
    · rwa [heq]
    · -- what is taken off is a carriage return
      rw [heq, List.mem_append] at hmem
      exact hmem.resolve_right (by decide)
  · exact hmem

/-- A damaged line holds no mark. -/
theorem parse_text {r : RawLine} (h : ¬ r.IsText) : Mark.parse r.text = .ok none :=
  Mark.parse_of_mem (replacement_mem_text h) (by decide)

end RawLine

/-- The lines of a file are those of its raw lines, each decoded on its own. -/
theorem linesOf_decodeLossy (bytes : List UInt8) :
    SourceFile.linesOf (String.ofList (Utf8.decodeLossy bytes)) =
      (rawLines bytes).map RawLine.text := by
  rw [SourceFile.linesOf, String.toList_ofList, lines, rawLines, Utf8.pieces_decodeLossy]
  obtain ⟨front, last, hcut⟩ : ∃ front last, pieces 10 bytes = front ++ [last] :=
    ⟨_, _, (List.dropLast_append_getLast (pieces_ne_nil 10 bytes)).symm⟩
  rw [hcut]
  by_cases hlast : last = []
  · simp [hlast, Utf8.decodeLossy_eq_nil_iff.2, RawLine.text]
  · have : Utf8.decodeLossy last ≠ [] := fun h => hlast (Utf8.decodeLossy_eq_nil_iff.1 h)
    simp [hlast, this, RawLine.text]

namespace SourceFile

/-! ## What each line gives -/

/-- Takes the lines of a file apart. -/
def ofLines (path : Path) (kind : Kind) (lines : List String) : Except Failure SourceFile := do
  let mark ← markOf path lines
  let lines := afterMark mark lines
  return {
    path, kind
    rank := numberIn .rank mark
    exposeRank := numberIn .expose mark
    body := banner path ++ content lines ++ [footer path]
    includes := requests lines }

theorem parse_eq_ofLines (path : Path) (kind : Kind) (text : String) :
    parse path kind text = ofLines path kind (linesOf text) := rfl

/-- What a line gives: lines of the body, or what an include line asks for. -/
structure Share where
  kept : List String
  asked : List Directive
deriving DecidableEq

/-- What a line gives that is not the mark. -/
def shareOf (line : String) : Share :=
  match parseLine? line with
  | none => ⟨[line], []⟩
  | some asked => ⟨[], directives asked⟩

/-- What the first line gives: nothing if it is a mark. -/
def firstShare (line : String) : Share :=
  match Mark.parse line with
  | .ok (some _) => ⟨[], []⟩
  | _ => shareOf line

/-- What each line of a file gives. -/
def shares : List String → List Share
  | [] => []
  | first :: rest => firstShare first :: rest.map shareOf

/-- Whether a file is made of what its lines give. -/
structure MadeOf (f : SourceFile) (shares : List Share) : Prop where
  body : f.body = banner f.path ++ shares.flatMap Share.kept ++ [footer f.path]
  includes : f.includes = shares.flatMap Share.asked

theorem content_eq_flatMap (lines : List String) :
    content lines = (lines.map shareOf).flatMap Share.kept := by
  induction lines with
  | nil => rfl
  | cons line rest ih =>
    rw [content] at ih ⊢
    rw [List.filter_cons, List.map_cons, List.flatMap_cons, ← ih, shareOf]
    cases parseLine? line <;> rfl

theorem requests_eq_flatMap (lines : List String) :
    requests lines = (lines.map shareOf).flatMap Share.asked := by
  induction lines with
  | nil => rfl
  | cons line rest ih =>
    rw [requests] at ih ⊢
    rw [List.filterMap_cons, List.map_cons, List.flatMap_cons, ← ih, shareOf]
    cases parseLine? line <;> rfl

theorem shares_eq {path : Path} {lines : List String} {mark : Option Mark}
    (h : markOf path lines = .ok mark) :
    shares lines = (if mark.isSome then [⟨[], []⟩] else []) ++ (afterMark mark lines).map shareOf := by
  have hmark := mapError_eq_ok_iff.1 h
  cases lines with
  | nil =>
    obtain rfl : none = mark := Except.ok.inj hmark
    rfl
  | cons first rest =>
    have hfirst : Mark.parse first = .ok mark := hmark
    rw [shares, firstShare, hfirst]
    cases mark <;> rfl

/-- A text is refused for its mark only. -/
theorem parse_eq_error_iff {path : Path} {kind : Kind} {text : String} {failure : Failure} :
    parse path kind text = .error failure ↔ markOf path (linesOf text) = .error failure := by
  cases hmark : markOf path (linesOf text) with
  | ok mark => simp [parse_of_markOf hmark]
  | error e => simp [parse, hmark, bind, Except.bind]

/-- A text with the same mark is taken apart too, with the same places. -/
theorem parse_of_markOf_eq {path : Path} {kind : Kind} {text other : String} {f : SourceFile}
    (hmark : markOf path (linesOf other) = markOf path (linesOf text))
    (h : parse path kind text = .ok f) :
    ∃ g, parse path kind other = .ok g ∧ g.rank = f.rank ∧ g.exposeRank = f.exposeRank := by
  obtain ⟨mark, hm, rfl⟩ := parse_eq_ok_iff.1 h
  exact ⟨_, parse_of_markOf (hmark.trans hm), rfl, rfl⟩

/-- What a line gives depends on the line, and on whether it is the first. -/
theorem getElem?_shares (lines : List String) (i : Nat) :
    (shares lines)[i]? = lines[i]?.map (if i = 0 then firstShare else shareOf) := by
  cases lines with
  | nil => rfl
  | cons first rest => cases i <;> simp [shares]

/-! ## Damaged lines -/

/-- Lines that are the same but for damage hold the same mark. -/
theorem markOf_of_damaged {rs others : List RawLine}
    (h : List.Forall₂ RawLine.SameOrDamaged rs others) (path : Path) :
    markOf path (others.map RawLine.text) = markOf path (rs.map RawLine.text) := by
  cases h with
  | nil => rfl
  | cons hfirst _ =>
    rcases hfirst with rfl | ⟨hr, hother⟩
    · rfl
    · simp [markOf, RawLine.parse_text hr, RawLine.parse_text hother]

/-- A line that is not damaged is the same line of both. -/
theorem getElem?_of_damaged {rs others : List RawLine}
    (h : List.Forall₂ RawLine.SameOrDamaged rs others) {i : Nat} {r : RawLine}
    (hr : rs[i]? = some r) (htext : r.IsText) : others[i]? = some r := by
  induction h generalizing i with
  | nil => cases hr
  | cons hfirst _ ih =>
    cases i with
    | zero =>
      obtain rfl := Option.some.inj hr
      rcases hfirst with rfl | ⟨hdamaged, -⟩
      · rfl
      · exact absurd htext hdamaged
    | succ i => exact ih hr

/-- What each line of a file's bytes gives. -/
def sharesOf (bytes : List UInt8) : List Share := shares ((rawLines bytes).map RawLine.text)

section Load

variable {d : Disk} {path : Path} {kind : Kind} {bytes : List UInt8}

/-- A file is made of what its lines give. -/
theorem madeOf_of_load (hread : d.read path = .ok bytes) {f : SourceFile}
    (h : load d path kind = .ok f) : f.path = path ∧ f.MadeOf (sharesOf bytes) := by
  rw [load_of_read hread] at h
  obtain ⟨mark, hmark, rfl⟩ := parse_eq_ok_iff.1 h
  rw [sharesOf, ← linesOf_decodeLossy]
  refine ⟨rfl, ?_, ?_⟩ <;>
    simp only [shares_eq hmark, content_eq_flatMap, requests_eq_flatMap] <;>
    cases mark <;> simp

/-- A file is taken apart like the lines of its bytes, each decoded on its own, and like its text if
its bytes are those of one. When two files differ in damaged lines only, both are refused for the same
mark, or both are taken apart, with the same places, and each line that is not damaged gives the same
to body and includes. -/
theorem load_damaged (hread : d.read path = .ok bytes) (kind : Kind) :
    (∀ text, parse path kind text = ofLines path kind (linesOf text)) ∧
    load d path kind = ofLines path kind ((rawLines bytes).map RawLine.text) ∧
    (∀ text : String, Utf8.encode text.toList = bytes → load d path kind = parse path kind text) ∧
    ∀ (e : Disk) (other : List UInt8), e.read path = .ok other →
      List.Forall₂ RawLine.SameOrDamaged (rawLines bytes) (rawLines other) →
      (∀ failure, load e path kind = .error failure ↔ load d path kind = .error failure) ∧
      (∀ f, load d path kind = .ok f → ∃ g, load e path kind = .ok g ∧
        g.rank = f.rank ∧ g.exposeRank = f.exposeRank ∧
        f.path = path ∧ f.MadeOf (sharesOf bytes) ∧ g.path = path ∧ g.MadeOf (sharesOf other)) ∧
      ∀ (i : Nat) (r : RawLine), (rawLines bytes)[i]? = some r → r.IsText →
        (rawLines other)[i]? = some r ∧
          ∃ share, (sharesOf bytes)[i]? = some share ∧ (sharesOf other)[i]? = some share := by
  have hlines := linesOf_decodeLossy bytes
  refine ⟨fun _ => rfl, ?_, ?_, ?_⟩
  · rw [load_of_read hread, parse_eq_ofLines, hlines]
  · rintro text rfl
    rw [load_of_read hread, Utf8.decodeLossy_encode, String.ofList_toList]
  · intro e other hother hdamaged
    have hothers := linesOf_decodeLossy other
    have hmark := markOf_of_damaged hdamaged path
    rw [← hlines, ← hothers] at hmark
    refine ⟨fun failure => ?_, fun f hf => ?_, fun i r hr htext => ?_⟩
    · rw [load_of_read hread, load_of_read hother, parse_eq_error_iff, parse_eq_error_iff, hmark]
    · have hmade := madeOf_of_load hread hf
      rw [load_of_read hread] at hf
      obtain ⟨g, hg, hrank, hexpose⟩ := parse_of_markOf_eq hmark hf
      rw [← load_of_read hother] at hg
      exact ⟨g, hg, hrank, hexpose, hmade.1, hmade.2, madeOf_of_load hother hg⟩
    · have hsame := getElem?_of_damaged hdamaged hr htext
      refine ⟨hsame, (if i = 0 then firstShare else shareOf) r.text, ?_, ?_⟩
      · rw [sharesOf, getElem?_shares, List.getElem?_map, hr]
        rfl
      · rw [sharesOf, getElem?_shares, List.getElem?_map, hsame]
        rfl

end Load

/-- The bytes of three lines, with a run of bytes at the end of the second one. -/
def damagedBytes (run : List UInt8) : List UInt8 :=
  Utf8.encode "// RANK=1\nint ".toList ++ run ++ Utf8.encode "\n#include <b>\n".toList

/-- A disk with one header. -/
def damagedDisk (run : List UInt8) : Disk := Disk.empty.put ["a.h"] (.file (damagedBytes run))

/-- A character cut short before a line feed in one file, an overlong form and half of a pair in the
other. -/
theorem load_damaged_middle :
    let cut := damagedBytes [0xE2, 0x82]
    let overlong := damagedBytes [0xC0, 0xAF, 0xED, 0xA0, 0x80]
    let f : SourceFile := ⟨"/a.h", .header, some 1, none,
      ["/*", " * ===== BEGIN /a.h =====", " */", "int \uFFFD", "/* ===== END /a.h ===== */"],
      [.plain ⟨.angle, "b"⟩]⟩
    load (damagedDisk [0xE2, 0x82]) "/a.h" .header = .ok f ∧
      List.Forall₂ RawLine.SameOrDamaged (rawLines cut) (rawLines overlong) ∧
      ∃ g, load (damagedDisk [0xC0, 0xAF, 0xED, 0xA0, 0x80]) "/a.h" .header = .ok g ∧
        g.rank = some 1 ∧ g.MadeOf (sharesOf overlong) := by
  intro cut overlong f
  have hf : load (damagedDisk [0xE2, 0x82]) "/a.h" .header = .ok f := by decide +kernel
  have hdamaged : List.Forall₂ RawLine.SameOrDamaged (rawLines cut) (rawLines overlong) := by
    decide +kernel
  have hread : (damagedDisk [0xE2, 0x82]).read "/a.h" = .ok cut := by decide +kernel
  have hread' : (damagedDisk [0xC0, 0xAF, 0xED, 0xA0, 0x80]).read "/a.h" = .ok overlong := by
    decide +kernel
  obtain ⟨-, -, -, htwo⟩ := load_damaged hread .header
  obtain ⟨-, hload, -⟩ := htwo _ overlong hread' hdamaged
  obtain ⟨g, hg, hrank, -, -, -, -, hmade⟩ := hload f hf
  exact ⟨hf, hdamaged, g, hg, hrank, hmade⟩

end SourceFile

end Amalgam
