import Mathlib
import Amalgam.Proofs.Discovery.Feedback
import Amalgam.Proofs.Disk.Written
import Amalgam.Proofs.Document.Bytes
import Amalgam.Proofs.Run.Again

/-!
# Reading the documents back

The documents are written line by line, and no line of them holds a line feed. So the source file that
a run leaves, cut at its line feeds, gives the lines of its document and one empty piece, whatever the
files were that went into it. So does the header file, unless links make both the same file: then the
source document, which is written last, is all that is left. Apart from that case two builds with
different documents never leave the same pair of files.

Main results:

* `isLine_of_build`: no line of what a build gives holds a line feed.
* `run_read_back`: what the files that a run leaves hold.
* `read_back_of_linked_outputs`: what is left where links make both the same file.
-/

namespace Amalgam

open Text Disk Classification

/-- Whether the target of a configuration and the paths of all files that it gathers are written on
one line. -/
structure Config.IsFlat (c : Config) (d : Disk) : Prop where
  target : IsLine c.target
  paths : ∀ sources, c.gather d = .ok sources →
    ∀ p ∈ sources.headers ++ sources.implementations, IsLine p.spelling

section Build

variable {c : Config} {d : Disk}

theorem isFlat_of_loadAll {kind : Kind} {paths : List Path} (hpaths : ∀ p ∈ paths, IsLine p.spelling)
    {files : List SourceFile} (h : SourceFile.loadAll d kind paths = .ok files) :
    ∀ f ∈ files, f.IsFlat := by
  intro f hf
  obtain ⟨path, hpath, hload⟩ := (mem_of_mapM_eq_ok h).1 hf
  obtain ⟨bytes, -, hparse⟩ := bind_eq_ok_iff.1 hload
  exact isFlat_of_parse (hpaths path hpath) hparse

/-- No line of what a build gives holds a line feed. -/
theorem isLine_of_build (hflat : c.IsFlat d) {built : Built} (h : c.build d = .ok built) :
    (∀ line ∈ built.documents.header, IsLine line) ∧
      ∀ line ∈ built.documents.source, IsLine line := by
  obtain ⟨classification, hclassify, rfl⟩ := Config.build_eq_ok_iff.1 h
  obtain ⟨-, sources, hgather, headers, hheaders, implementations, himplementations, hof⟩ :=
    Config.classify_eq_ok_iff.1 hclassify
  have hpaths := hflat.paths sources hgather
  have hfiles : ∀ f ∈ headers ++ implementations, f.IsFlat := by
    intro f hf
    rcases List.mem_append.1 hf with hf | hf
    · exact isFlat_of_loadAll (fun p hp => hpaths p (List.mem_append_left _ hp)) hheaders f hf
    · exact isFlat_of_loadAll (fun p hp => hpaths p (List.mem_append_right _ hp)) himplementations f hf
  have hname : IsLine c.headerName := hflat.target.append (by simp [IsLine])
  exact isLine_of_mem_documents (sorts_ofFiles hof) hfiles hname

end Build

/-! ## The files that a run leaves -/

/-- Paths that lead to one file read alike. -/
theorem Disk.SameFile.read {d : Disk} {p q : Path} (h : d.SameFile p q) : d.read p = d.read q := by
  obtain ⟨l, hp, hq⟩ := h
  rw [Disk.read, Disk.read, hp, hq]

section Run

variable {c : Config} {d : Disk} {report : Report} {built : Built}
  (h : (c.run d).result = .ok report) (hbuild : c.build d = .ok built)

include h hbuild

/-- The source file holds the source document. -/
theorem read_source_of_run :
    (c.run d).disk.read report.outputs.source = .ok (bytesOf built.documents.source) := by
  obtain ⟨built', ready, half, hbuild', rfl, -, -, hwhole⟩ := Config.run_eq_ok h
  obtain rfl : built' = built := Except.ok.inj (hbuild'.symm.trans hbuild)
  exact read_of_stored (stored_of_write hwhole)

/-- The header file holds the header document, unless it is the same file. -/
theorem read_header_of_run
    (hmeet : ¬ (c.run d).disk.SameFile report.outputs.header report.outputs.source) :
    (c.run d).disk.read report.outputs.header = .ok (bytesOf built.documents.header) := by
  obtain ⟨built', ready, half, hbuild', rfl, -, hhalf, hwhole⟩ := Config.run_eq_ok h
  obtain rfl : built' = built := Except.ok.inj (hbuild'.symm.trans hbuild)
  exact read_of_stored_of_ne (stored_of_write hwhole) (read_of_stored (stored_of_write hhalf))
    fun l hs hh => hmeet ⟨l, hh, hs⟩

omit hbuild in
/-- Without links the two documents are never the same file. -/
theorem not_same_of_unlinked (hd : d.Unlinked) :
    ¬ (c.run d).disk.SameFile report.outputs.header report.outputs.source := by
  obtain ⟨built, hbuild, rfl, hdelivered, -⟩ := exists_delivered hd h
  rintro ⟨l, hheader, hsource⟩
  have hlead := hdelivered.leads (c.headerFile built) List.mem_cons_self
  have hlead' := hdelivered.leads (c.sourceFile built) (List.mem_cons_of_mem _ List.mem_cons_self)
  have heq := Except.ok.inj ((hlead.symm.trans hheader).trans (hsource.symm.trans hlead'))
  exact headerName_ne_sourceName c (by simpa [Config.headerFile, Config.sourceFile] using heq)

end Run

/-- What the files that a run leaves hold. Cut at its line feeds, the source file gives the lines of its
document and one empty piece, and so does the header file, unless it is the same file; without links it
never is. Where it is not, a run with other documents leaves another pair of files. -/
theorem run_read_back {c : Config} {d : Disk} {report : Report} (hflat : c.IsFlat d)
    (h : (c.run d).result = .ok report) :
    ∃ built, c.build d = .ok built ∧
      (∀ line ∈ built.documents.header ++ built.documents.source, '\n' ∉ line.toList) ∧
      (∃ source, (c.run d).disk.read report.outputs.source = .ok source ∧
        pieces 10 source = built.documents.source.map lineBytes ++ [[]]) ∧
      (∃ header, (c.run d).disk.read report.outputs.header = .ok header ∧
        ((c.run d).disk.SameFile report.outputs.header report.outputs.source →
          pieces 10 header = built.documents.source.map lineBytes ++ [[]]) ∧
        (¬ (c.run d).disk.SameFile report.outputs.header report.outputs.source →
          pieces 10 header = built.documents.header.map lineBytes ++ [[]])) ∧
      (d.Unlinked → ¬ (c.run d).disk.SameFile report.outputs.header report.outputs.source) ∧
      ∀ (c' : Config) (d' : Disk) (report' : Report) (built' : Built), c'.IsFlat d' →
        (c'.run d').result = .ok report' → c'.build d' = .ok built' →
        ¬ (c.run d).disk.SameFile report.outputs.header report.outputs.source →
        ¬ (c'.run d').disk.SameFile report'.outputs.header report'.outputs.source →
        built'.documents ≠ built.documents →
        ((c'.run d').disk.read report'.outputs.header, (c'.run d').disk.read report'.outputs.source) ≠
          ((c.run d).disk.read report.outputs.header, (c.run d).disk.read report.outputs.source) := by
  obtain ⟨built, -, -, hbuild, -⟩ := Config.run_eq_ok h
  obtain ⟨hheader, hsource⟩ := isLine_of_build hflat hbuild
  have hread := read_source_of_run h hbuild
  refine ⟨built, hbuild, List.forall_mem_append.2 ⟨hheader, hsource⟩,
    ⟨_, hread, pieces_bytesOf hsource⟩, ?_, not_same_of_unlinked h, ?_⟩
  · by_cases hmeet : (c.run d).disk.SameFile report.outputs.header report.outputs.source
    · exact ⟨_, hmeet.read.trans hread, fun _ => pieces_bytesOf hsource, fun hn => absurd hmeet hn⟩
    · exact ⟨_, read_header_of_run h hbuild hmeet, fun hm => absurd hm hmeet,
        fun _ => pieces_bytesOf hheader⟩
  · intro c' d' report' built' hflat' h' hbuild' hmeet hmeet' hne heq
    obtain ⟨hheader', hsource'⟩ := isLine_of_build hflat' hbuild'
    rw [read_header_of_run h hbuild hmeet, read_header_of_run h' hbuild' hmeet', hread,
      read_source_of_run h' hbuild', Prod.mk.injEq, Except.ok.injEq, Except.ok.injEq,
      bytesOf_inj hheader' hheader, bytesOf_inj hsource' hsource] at heq
    exact hne (Documents.mk.injEq .. ▸ heq)

/-- A disk with a header whose lines end in carriage returns of both kinds. -/
def returnDisk : Disk :=
  (Disk.empty.put ["src"] .dir).put ["src", "a.h"] (.file (Utf8.encode
    "#include <x> // PRECEDED BY: int y;\r\nint a;\rint b;\r\n".toList))

/-- The configuration that merges this header. -/
def returnConfig : Config := { src := ["/src"], dest := "/out", target := "all" }

theorem run_read_back_returns :
    returnConfig.IsFlat returnDisk ∧
      (returnConfig.run returnDisk).result = .ok ⟨⟨"/out/all.h", "/out/all.c"⟩, ⟨⟨0, 0, 1, 0⟩, []⟩⟩ ∧
      ∃ built header source, returnConfig.build returnDisk = .ok built ∧
        (returnConfig.run returnDisk).disk.read "/out/all.h" = .ok header ∧
        (returnConfig.run returnDisk).disk.read "/out/all.c" = .ok source ∧
        pieces 10 header = built.documents.header.map lineBytes ++ [[]] ∧
        pieces 10 source = built.documents.source.map lineBytes ++ [[]] := by
  have hgather : returnConfig.gather returnDisk = .ok ⟨["/src/a.h"], []⟩ := by decide +kernel
  have hflat : returnConfig.IsFlat returnDisk := by
    refine ⟨by decide +kernel, fun sources hsources => ?_⟩
    obtain rfl := Except.ok.inj (hgather.symm.trans hsources)
    decide +kernel
  have hresult : (returnConfig.run returnDisk).result =
      .ok ⟨⟨"/out/all.h", "/out/all.c"⟩, ⟨⟨0, 0, 1, 0⟩, []⟩⟩ := by
    decide +kernel
  have hunlinked : returnDisk.Unlinked :=
    (unlinked_empty.put ["src"] (by simp)).put ["src", "a.h"] (by simp)
  obtain ⟨built, hbuild, -, ⟨source, hread, hsource⟩, ⟨header, hread', -, hheader⟩, hapart, -⟩ :=
    run_read_back hflat hresult
  exact ⟨hflat, hresult, built, header, source, hbuild, hread', hread, hheader (hapart hunlinked),
    hsource⟩

/-- A disk with one exposed header, where the place of the header document is a link to that of the
source document. -/
def linkedOutputs (text : String) : Disk :=
  (((Disk.empty.put ["src"] .dir).put ["src", "a.h"] (.file (Utf8.encode text.toList))).put ["out"]
    .dir).put ["out", "concat.h"] (.link "concat.c")

/-- Where both documents go to one file the header file holds the source document in the end, and two
runs with different documents leave the same pair of files. -/
theorem read_back_of_linked_outputs :
    let c : Config := { src := ["/src"], dest := "/out" }
    let d := linkedOutputs "// EXPOSE 1\nint a;\n"
    let e := linkedOutputs "// EXPOSE 1\nint b;\n"
    let outputs : Outputs := ⟨"/out/concat.h", "/out/concat.c"⟩
    c.IsFlat d ∧ c.IsFlat e ∧
      (c.run d).result = .ok ⟨outputs, ⟨⟨0, 1, 0, 0⟩, []⟩⟩ ∧
      (c.run e).result = .ok ⟨outputs, ⟨⟨0, 1, 0, 0⟩, []⟩⟩ ∧
      (∃ built, c.build d = .ok built ∧
        (c.run d).disk.read "/out/concat.h" = .ok (bytesOf built.documents.source) ∧
        bytesOf built.documents.source ≠ bytesOf built.documents.header) ∧
      (c.build d).map Built.documents ≠ (c.build e).map Built.documents ∧
      (c.run d).disk.read "/out/concat.h" = (c.run e).disk.read "/out/concat.h" ∧
      (c.run d).disk.read "/out/concat.c" = (c.run e).disk.read "/out/concat.c" := by
  intro c d e outputs
  have hflat (text : String) (hgather : c.gather (linkedOutputs text) = .ok ⟨["/src/a.h"], []⟩) :
      c.IsFlat (linkedOutputs text) := by
    refine ⟨by decide +kernel, fun sources hsources => ?_⟩
    obtain rfl := Except.ok.inj (hgather.symm.trans hsources)
    decide +kernel
  have hresult : (c.run d).result = .ok ⟨outputs, ⟨⟨0, 1, 0, 0⟩, []⟩⟩ := by decide +kernel
  obtain ⟨built, -, -, hbuild, -⟩ := Config.run_eq_ok hresult
  have hmeet : (c.run d).disk.SameFile "/out/concat.h" "/out/concat.c" :=
    ⟨["out", "concat.c"], by decide +kernel, by decide +kernel⟩
  have hdocuments : (c.build d).map (fun b => bytesOf b.documents.source) ≠
      (c.build d).map fun b => bytesOf b.documents.header := by
    decide +kernel
  refine ⟨hflat _ (by decide +kernel), hflat _ (by decide +kernel), hresult, by decide +kernel,
    ⟨built, hbuild, ?_, fun heq => hdocuments ?_⟩, by decide +kernel, by decide +kernel,
    by decide +kernel⟩
  · exact hmeet.read.trans (read_source_of_run hresult hbuild)
  · rw [hbuild]
    exact congrArg Except.ok heq

end Amalgam
