import Mathlib
import Amalgam.Build
import Amalgam.Proofs.Disk.Shape
import Amalgam.Proofs.Text.Endings

/-!
# Line endings do not matter

The lines of a text are what a file is taken apart by, so a text gives the same in both styles of line
endings and in every mixture of them. A search looks at no bytes at all. So the documents of a tree
stay the same when its files are converted from one style to the other.

Main results:

* `Disk.Converted.load`: a converted file is taken apart as before.
* `endings_do_not_matter`: the four laws, for texts and for trees.
-/

namespace Amalgam

open Text

namespace SourceFile

variable {path : Path} {kind : Kind} {text other : String}

/-- Texts with the same lines are taken apart alike. -/
theorem parse_congr (h : lines other.toList = lines text.toList) :
    parse path kind other = parse path kind text := by
  have hlines : linesOf other = linesOf text := congrArg (List.map String.ofList) h
  simp only [parse, hlines]

end SourceFile

/-! ## Trees -/

/-- Whether two runs of bytes come of the same ones without carriage returns, each by putting carriage
returns in front of some line feeds. -/
def SameButEndings (bytes other : List UInt8) : Prop :=
  ∃ plain, 13 ∉ plain ∧ Respelled 13 10 plain bytes ∧ Respelled 13 10 plain other

theorem SameButEndings.lines {bytes other : List UInt8} (h : SameButEndings bytes other) :
    Text.lines (Utf8.decodeLossy other) = Text.lines (Utf8.decodeLossy bytes) := by
  obtain ⟨plain, hreturn, hbytes, hother⟩ := h
  have hreturn := Utf8.return_not_mem_decodeLossy hreturn
  rw [lines_of_respelled hreturn (Utf8.decodeLossy_of_respelled hbytes),
    lines_of_respelled hreturn (Utf8.decodeLossy_of_respelled hother)]

namespace Disk

/-- Whether two disks are the same but for the line endings of some of their files. -/
structure Converted (d e : Disk) : Prop where
  cwd : e.cwd = d.cwd
  node : ∀ l, e.node? l = d.node? l ∨ ∃ bytes other, SameButEndings bytes other ∧
    d.node? l = some (.file bytes) ∧ e.node? l = some (.file other)

namespace Converted

variable {d e : Disk}

/-- A file put in both styles. -/
theorem put {l : Location} (hfree : d.Free l) {bytes other : List UInt8}
    (h : SameButEndings bytes other) :
    Converted (d.put l (.file bytes)) (d.put l (.file other)) := by
  refine ⟨by rw [cwd_put, cwd_put], fun m => ?_⟩
  rw [node?_put _ hfree, node?_put _ hfree]
  by_cases hm : m = l
  · rw [if_pos hm, if_pos hm]
    exact .inr ⟨bytes, other, h, rfl, rfl⟩
  · rw [if_neg hm, if_neg hm]
    exact .inl rfl

theorem sameShape (h : Converted d e) : SameShape d e :=
  ⟨h.cwd, fun l => (h.node l).imp_right fun ⟨bytes, other, _, hd, he⟩ => ⟨bytes, other, hd, he⟩⟩

/-- A converted file is taken apart as before, and read or not as before. -/
theorem load (h : Converted d e) (path : Path) (kind : Kind) :
    SourceFile.load e path kind = SourceFile.load d path kind := by
  have hread : e.read path = d.read path ∨ ∃ bytes other, SameButEndings bytes other ∧
      d.read path = .ok bytes ∧ e.read path = .ok other := by
    rw [read, read, locate_congr h.sameShape]
    cases d.locate path with
    | error fault => exact .inl rfl
    | ok l =>
      rcases h.node l with hnode | ⟨bytes, other, hsame, hd, he⟩
      · exact .inl (by simp only [hnode])
      · exact .inr ⟨bytes, other, hsame, by simp only [hd], by simp only [he]⟩
  rcases hread with heq | ⟨bytes, other, hsame, hd, he⟩
  · rw [SourceFile.load, SourceFile.load, heq]
  · rw [SourceFile.load_of_read hd, SourceFile.load_of_read he]
    refine SourceFile.parse_congr ?_
    rw [String.toList_ofList, String.toList_ofList]
    exact hsame.lines

/-- A build gives the same, whether it fails or not. -/
theorem build (h : Converted d e) (c : Config) : c.build e = c.build d := by
  have hload (kind : Kind) (paths : List Path) :
      SourceFile.loadAll e kind paths = SourceFile.loadAll d kind paths :=
    mapM_congr fun path _ => h.load path kind
  rw [Config.build, Config.build, Config.classify, Config.classify,
    Config.gather_of_sameShape h.sameShape]
  simp only [hload]

end Converted

end Disk

/-! ## All of it -/

/-- A file is taken apart alike, or refused for the same mark, whether the line feeds of its text stand
alone, all follow a carriage return, or some of them do; and whether its last line is ended or not. So
a tree whose files are converted means the same sources and gives the same documents. -/
theorem endings_do_not_matter :
    (∀ (path : Path) (kind : Kind) (text : String), '\r' ∉ text.toList →
      SourceFile.parse path kind (String.ofList (respell '\r' '\n' text.toList)) =
          SourceFile.parse path kind text ∧
        ∀ other : String, Respelled '\r' '\n' text.toList other.toList →
          SourceFile.parse path kind other = SourceFile.parse path kind text) ∧
    (∀ (path : Path) (kind : Kind) (text : String), text ≠ "" →
      text.toList.getLast? ≠ some '\n' → text.toList.getLast? ≠ some '\r' →
      SourceFile.parse path kind (text ++ "\n") = SourceFile.parse path kind text) ∧
    ∀ (c : Config) (base : Path) (d e : Disk), d.Converted e →
      c.resolvePaths e base = c.resolvePaths d base ∧ c.build e = c.build d := by
  refine ⟨fun path kind text hreturn => ?_, fun path kind text hne hfeed hreturn => ?_,
    fun c base d e h => ⟨c.resolvePaths_of_sameShape h.sameShape base, h.build c⟩⟩
  · have hother (other : String) (h : Respelled '\r' '\n' text.toList other.toList) :
        SourceFile.parse path kind other = SourceFile.parse path kind text :=
      SourceFile.parse_congr (lines_of_respelled hreturn h)
    refine ⟨hother _ ?_, hother⟩
    rw [String.toList_ofList]
    exact respelled_respell '\r' '\n' text.toList
  · refine SourceFile.parse_congr ?_
    rw [String.toList_append]
    exact lines_append_newline ⟨fun h => hne (String.toList_eq_nil_iff.1 h), hfeed, hreturn⟩

/-- A tree with one implementation. -/
def endingsDisk (bytes : List UInt8) : Disk :=
  (Disk.empty.put ["src"] .dir).put ["src", "a.c"] (.file bytes)

/-- A text in the other style, in a mixture of both and with its last line ended, and a tree in both
styles with bytes that are no text. -/
theorem endings_do_not_matter_mixed :
    let text := "// RANK=1\n#if\n#endif"
    let bytes : List UInt8 := [0xE2, 0x82, 10, 10]
    SourceFile.parse "/a.h" .header "// RANK=1\r\n#if\r\n#endif" =
        SourceFile.parse "/a.h" .header text ∧
      SourceFile.parse "/a.h" .header "// RANK=1\n#if\r\n#endif" =
        SourceFile.parse "/a.h" .header text ∧
      SourceFile.parse "/a.h" .header (text ++ "\n") = SourceFile.parse "/a.h" .header text ∧
      (endingsDisk bytes).Converted (endingsDisk (respell 13 10 bytes)) ∧
      Config.build { src := ["/src"] } (endingsDisk (respell 13 10 bytes)) =
        Config.build { src := ["/src"] } (endingsDisk bytes) := by
  intro text bytes
  obtain ⟨hstyles, hlast, htrees⟩ := endings_do_not_matter
  obtain ⟨hall, hsome⟩ := hstyles "/a.h" .header text (by decide)
  have hfull : String.ofList (respell '\r' '\n' text.toList) = "// RANK=1\r\n#if\r\n#endif" := by
    decide
  have hmixed : Respelled '\r' '\n' "// RANK=1\n#if\n#endif".toList
      "// RANK=1\n#if\r\n#endif".toList :=
    (Respelled.refl "#endif".toList).put.append_left "// RANK=1\n#if".toList
  have hconverted : (endingsDisk bytes).Converted (endingsDisk (respell 13 10 bytes)) :=
    Disk.Converted.put (by decide +kernel) ⟨bytes, by decide, .refl _, respelled_respell 13 10 bytes⟩
  rw [hfull] at hall
  exact ⟨hall, hsome _ hmixed, hlast "/a.h" .header text (by decide) (by decide) (by decide),
    hconverted, (htrees _ "/" _ _ hconverted).2⟩

end Amalgam
