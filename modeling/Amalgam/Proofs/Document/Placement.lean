import Mathlib
import Amalgam.Build
import Amalgam.Proofs.Classification.Groups

/-!
# Where the bodies stand

After its include block a document is a sequence of sections. The header document has one section
for each exposed header, in strictly ascending order of the expose numbers. The source document has
one for each ranked header, in strictly ascending order of the ranks, then one with the headers
without a mark and one with the implementations, both in the order of the files.

Main results:

* `layout_sections`: the sections of a classification are laid out in this way.
* `bodies_placed_once`: so every file has its body at exactly one place of the two documents, an
  exposed header in the header document and every other file in the source document.
-/

namespace Amalgam

open Classification Document

/-- The bodies that sections hold, file by file. -/
def Section.bodies (sections : List Section) : List (List String) :=
  sections.flatMap fun s => s.files.map SourceFile.body

/-- The lines of the sections of headers that have a place: each body between a blank line and the
opening that names the place, and the closing. -/
theorem Section.lines_map_ofPlace (places : List (Nat × SourceFile)) :
    (places.map Section.ofPlace).flatMap Section.lines = places.flatMap fun place =>
      ["", "/* ===== " ++ ("rank " ++ toString place.1) ++ " ===== */"] ++ place.2.body ++
        ["/* ===== end " ++ ("rank " ++ toString place.1) ++ " ===== */"] := by
  rw [List.flatMap_map]
  exact congrArg places.flatMap (funext Section.lines_ofPlace)

theorem Section.bodies_append (sections more : List Section) :
    Section.bodies (sections ++ more) = Section.bodies sections ++ Section.bodies more :=
  List.flatMap_append

theorem Section.bodies_map_ofPlace (places : List (Nat × SourceFile)) :
    Section.bodies (places.map Section.ofPlace) = (places.map Prod.snd).map SourceFile.body := by
  induction places with
  | nil => rfl
  | cons p rest ih =>
    rw [List.map_cons, List.map_cons, List.map_cons, ← ih]
    rfl

/-- How files are laid out over the sections of the two documents. -/
structure Layout (files : List SourceFile) (header source : List Section) : Prop where
  header : ∃ exposed, Ascending .expose files exposed ∧ header = exposed.map Section.ofPlace
  source : ∃ ranked, Ascending .rank files ranked ∧ source = ranked.map Section.ofPlace ++
    [⟨"unranked headers", Group.unplaced.members files⟩,
      ⟨"implementation files", Group.implementation.members files⟩]

namespace Layout

variable {files : List SourceFile} {header source : List Section}

/-- The header document holds the bodies of the exposed headers. -/
theorem bodies_header (h : Layout files header source) :
    (Section.bodies header).Perm (((Group.placed .expose).members files).map SourceFile.body) := by
  obtain ⟨exposed, hexposed, rfl⟩ := h.header
  rw [Section.bodies_map_ofPlace]
  exact hexposed.perm.map SourceFile.body

/-- The source document holds the bodies of all other files. -/
theorem bodies_source (h : Layout files header source) :
    (Section.bodies source).Perm ((internalFiles files).map SourceFile.body) := by
  obtain ⟨ranked, hranked, rfl⟩ := h.source
  have htail : Section.bodies [⟨"unranked headers", Group.unplaced.members files⟩,
      ⟨"implementation files", Group.implementation.members files⟩] =
      (Group.unplaced.members files ++ Group.implementation.members files).map
        SourceFile.body := by
    simp [Section.bodies]
  rw [Section.bodies_append, Section.bodies_map_ofPlace, htail, ← List.map_append]
  exact ((hranked.perm.append_right _).trans (perm_internalFiles files)).map SourceFile.body

/-- Both documents together hold the bodies of all files. -/
theorem bodies_both (h : Layout files header source) :
    (Section.bodies (header ++ source)).Perm (files.map SourceFile.body) := by
  rw [Section.bodies_append]
  have hp := (perm_members_append_internalFiles files).map SourceFile.body
  rw [List.map_append] at hp
  exact (h.bodies_header.append h.bodies_source).trans hp

/-- No section holds a file that is not laid out. -/
theorem mem_files (h : Layout files header source) {s : Section} (hs : s ∈ header ++ source)
    {f : SourceFile} (hf : f ∈ s.files) : f ∈ files := by
  have ofPlace_mem {series : Series} {places : List (Nat × SourceFile)}
      (hp : Ascending series files places) (hs : s ∈ places.map Section.ofPlace) : f ∈ files := by
    obtain ⟨p, hp', rfl⟩ := List.mem_map.1 hs
    rw [Section.ofPlace, List.mem_singleton] at hf
    rw [hf]
    exact (Group.mem_members.1 (hp.perm.mem_iff.1 (List.mem_map_of_mem hp'))).1
  obtain ⟨exposed, hexposed, rfl⟩ := h.header
  obtain ⟨ranked, hranked, rfl⟩ := h.source
  simp only [List.mem_append, List.mem_cons, List.not_mem_nil, or_false] at hs
  rcases hs with hs | hs | rfl | rfl
  · exact ofPlace_mem hexposed hs
  · exact ofPlace_mem hranked hs
  · exact (Group.mem_members.1 hf).1
  · exact (Group.mem_members.1 hf).1

end Layout

/-- The sections of a classification are laid out by the groups of the files it sorts. -/
theorem layout_sections {c : Classification} {files : List SourceFile} (h : c.Sorts files) :
    Layout files (headerSections c) (sourceSections c) := by
  refine ⟨⟨c.exposed.toList, h.places .expose, rfl⟩, ⟨c.ranked.toList, h.places .rank, ?_⟩⟩
  rw [sourceSections, h.unranked, h.implementations]

/-- After its include block the header document is one section for each exposed header, in ascending
order, and the source document after its own include line one section for each ranked header, in
ascending order, one with the bodies of the headers without a mark and one with those of the
implementations, in the order of the files. So every body stands in one section of one of them. -/
theorem bodies_placed_once {headers implementations : List SourceFile} {c : Classification}
    (h : ofFiles headers implementations = .ok c) (config : Config) :
    let files := headers ++ implementations
    let documents := (config.assemble c).documents
    let sectionOf (label : String) (lines : List String) : List String :=
      ["", "/* ===== " ++ label ++ " ===== */"] ++ lines ++ ["/* ===== end " ++ label ++ " ===== */"]
    (∃ exposed ranked, Ascending .expose files exposed ∧ Ascending .rank files ranked ∧
      documents.header = [notice, ""] ++ c.exposedIncludes.render ++
        exposed.flatMap (fun place => sectionOf ("rank " ++ toString place.1) place.2.body) ∧
      documents.source = [notice, ""] ++ c.internalIncludes.render ++
        [ownInclude config.headerName] ++
        ranked.flatMap (fun place => sectionOf ("rank " ++ toString place.1) place.2.body) ++
        sectionOf "unranked headers"
          ((Group.unplaced.members files).flatMap SourceFile.body) ++
        sectionOf "implementation files"
          ((Group.implementation.members files).flatMap SourceFile.body) ∧
      headerSections c = exposed.map Section.ofPlace ∧
      sourceSections c = ranked.map Section.ofPlace ++
        [⟨"unranked headers", Group.unplaced.members files⟩,
          ⟨"implementation files", Group.implementation.members files⟩]) ∧
    (Section.bodies (headerSections c)).Perm
      (((Group.placed .expose).members files).map SourceFile.body) ∧
    (Section.bodies (sourceSections c)).Perm ((internalFiles files).map SourceFile.body) ∧
    (Section.bodies (headerSections c ++ sourceSections c)).Perm (files.map SourceFile.body) := by
  intro files documents sectionOf
  have hlayout := layout_sections (sorts_ofFiles h)
  refine ⟨?_, hlayout.bodies_header, hlayout.bodies_source, hlayout.bodies_both⟩
  obtain ⟨exposed, hexposed, hheader⟩ := hlayout.header
  obtain ⟨ranked, hranked, hsource⟩ := hlayout.source
  refine ⟨exposed, ranked, hexposed, hranked, ?_, ?_, hheader, hsource⟩
  · have hdocument : documents.header = Document.header c := rfl
    rw [hdocument, Document.header, hheader, Section.lines_map_ofPlace]
  · have hdocument : documents.source = Document.source c config.headerName := rfl
    rw [hdocument, Document.source, hsource, List.flatMap_append, Section.lines_map_ofPlace,
      List.flatMap_cons, List.flatMap_singleton, Section.lines_mk, Section.lines_mk]
    simp only [sectionOf, files, List.append_assoc]

/-- Headers of every group, their ranks sparse and not in order. -/
def mixedHeaders : List SourceFile :=
  [⟨"/a.h", .header, some 10, none, ["int a;"], []⟩, ⟨"/e.h", .header, none, some 7, ["int e;"], []⟩,
    ⟨"/b.h", .header, some 2, none, ["int b;"], []⟩, ⟨"/u.h", .header, none, none, ["int u;"], []⟩]

theorem bodies_placed_once_mixed :
    ∃ c, ofFiles mixedHeaders [⟨"/m.c", .implementation, none, some 7, ["int m;"], []⟩] = .ok c ∧
      (Config.assemble {} c).documents.header =
        ["/* Generated by cconcat. Do not edit by hand. */", "", "", "/* ===== rank 7 ===== */",
          "int e;", "/* ===== end rank 7 ===== */"] ∧
      (sourceSections c).map Section.label =
        ["rank 2", "rank 10", "unranked headers", "implementation files"] ∧
      (Section.bodies (headerSections c ++ sourceSections c)).Perm
        [["int a;"], ["int e;"], ["int b;"], ["int u;"], ["int m;"]] := by
  have h : ofFiles mixedHeaders [⟨"/m.c", .implementation, none, some 7, ["int m;"], []⟩] = .ok _ :=
    rfl
  exact ⟨_, h, by decide +kernel, by decide +kernel, (bodies_placed_once h {}).2.2.2⟩

end Amalgam
