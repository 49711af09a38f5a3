import Amalgam.Classification

/-!
# The two documents

The header document holds the exposed headers, the source document everything else. Each starts with
a notice and its include block; the files follow in sections, which are marked at both ends.

Main results:

* `Section.lines_mk`: a section is a blank line, its opening, the bodies of its files and its closing.
-/

namespace Amalgam

open Amalgam.Include

/-- Files under a label. -/
structure Section where
  label : String
  files : List SourceFile

namespace Section

/-- The line that opens a section. -/
def opening (label : String) : String := "/* ===== " ++ label ++ " ===== */"

/-- The line that closes a section. -/
def closing (label : String) : String := "/* ===== end " ++ label ++ " ===== */"

/-- The lines of a section: an empty one, the opening, all bodies, the closing (`push_section`). -/
def lines (s : Section) : List String :=
  ["", opening s.label] ++ s.files.flatMap SourceFile.body ++ [closing s.label]

/-- A section is a blank line, its opening, the bodies of its files in order, and its closing. -/
theorem lines_mk (label : String) (files : List SourceFile) :
    (Section.mk label files).lines =
      ["", "/* ===== " ++ label ++ " ===== */"] ++ files.flatMap SourceFile.body ++
        ["/* ===== end " ++ label ++ " ===== */"] := by
  rw [lines, opening, closing]

/-- The section of one header that has a place. -/
def ofPlace (place : Nat × SourceFile) : Section := ⟨"rank " ++ toString place.1, [place.2]⟩

theorem lines_ofPlace (place : Nat × SourceFile) :
    (ofPlace place).lines =
      ["", "/* ===== " ++ ("rank " ++ toString place.1) ++ " ===== */"] ++ place.2.body ++
        ["/* ===== end " ++ ("rank " ++ toString place.1) ++ " ===== */"] := by
  rw [ofPlace, lines_mk, List.flatMap_singleton]

end Section

/-- The lines of the two documents. -/
structure Documents where
  header : List String
  source : List String
deriving DecidableEq

namespace Document

/-- The first line of every document. -/
def notice : String := "/* Generated by cconcat. Do not edit by hand. */"

/-- The line by which the source document includes the header document. -/
def ownInclude (headerName : String) : String := "#include \"" ++ headerName ++ "\""

/-- The sections of the header document: the exposed headers in ascending order. -/
def headerSections (c : Classification) : List Section := c.exposed.toList.map Section.ofPlace

/-- The sections of the source document: the ranked headers in ascending order, the headers without
a place, and the implementations. -/
def sourceSections (c : Classification) : List Section :=
  c.ranked.toList.map Section.ofPlace ++
    [⟨"unranked headers", c.unranked⟩, ⟨"implementation files", c.implementations⟩]

/-- The lines of the header document (`header_document`). -/
def header (c : Classification) : List String :=
  [notice, ""] ++ c.exposedIncludes.render ++ (headerSections c).flatMap Section.lines

/-- The lines of the source document, which includes the header document under the given name
(`source_document`). -/
def source (c : Classification) (headerName : String) : List String :=
  [notice, ""] ++ c.internalIncludes.render ++ [ownInclude headerName] ++
    (sourceSections c).flatMap Section.lines

end Document

/-- Both documents of a classification. -/
def Documents.of (c : Classification) (headerName : String) : Documents where
  header := Document.header c
  source := Document.source c headerName

end Amalgam
