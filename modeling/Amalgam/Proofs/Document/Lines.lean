import Mathlib
import Amalgam.Proofs.Document.Placement
import Amalgam.Proofs.Include.Block
import Amalgam.Proofs.Text.Trim

/-!
# The lines of the documents are lines

A text is cut at its line feeds, so none of its lines holds one. What an include line asks for is
cut out of that line, and all else that is written around the lines of a file is made of its path, of
labels and of numbers. So no line of a document holds a line feed, as long as the paths and the
target hold none.

Main results:

* `isLine_of_parseLine?`: what an include line asks for is written on one line.
* `isFlat_of_parse`: so is all that becomes of a file, if its path is.
* `isLine_of_mem_documents`: and then all that is written into the documents.
-/

namespace Amalgam

open Text Classification Document Amalgam.Include

/-- Whether a text can be written on one line. -/
def IsLine (s : String) : Prop := '\n' ∉ s.toList

instance (s : String) : Decidable (IsLine s) := inferInstanceAs (Decidable (_ ∉ _))

namespace IsLine

variable {s t : String}

theorem append (hs : IsLine s) (ht : IsLine t) : IsLine (s ++ t) := by
  rw [IsLine, String.toList_append, List.mem_append, not_or]
  exact ⟨hs, ht⟩

theorem between {before after : String} (hs : IsLine s) (hbefore : IsLine before)
    (hafter : IsLine after) : IsLine (before ++ s ++ after) :=
  (hbefore.append hs).append hafter

/-- A part of a line is a line again. -/
theorem of_isInfix {cs : List Char} (hs : IsLine s) (h : cs <:+: s.toList) :
    IsLine (String.ofList cs) := by
  rw [IsLine, String.toList_ofList]
  exact fun hn => hs (h.mem hn)

/-- A number is written with digits alone. -/
theorem toString (n : Nat) : IsLine (ToString.toString n) := by
  have htext : (ToString.toString n).toList = Nat.toDigits 10 n := by
    show (Nat.repr n).toList = _
    rw [Nat.repr, String.toList_ofList]
  rw [IsLine, htext]
  intro h
  exact absurd (Nat.isDigit_of_mem_toDigits (by decide) (by decide) h) (by decide)

end IsLine

/-! ## What include lines ask for -/

theorem skipBlanks_isSuffix (s : List Char) : skipBlanks s <:+ s := List.dropWhile_suffix _

theorem after?_isSuffix {word s rest : List Char} (h : after? word s = some rest) : rest <:+ s :=
  ⟨word, (after?_eq_some_iff.1 h).symm⟩

theorem slashes?_isSuffix {s rest : List Char} (h : slashes? s = some rest) : rest <:+ s := by
  obtain ⟨more, hmore, rfl⟩ := Option.map_eq_some_iff.1 h
  exact (List.dropWhile_suffix _).trans (after?_isSuffix hmore)

theorem skipComment_isSuffix (s : List Char) : skipComment s <:+ s := by
  rw [skipComment]
  split
  · next rest h => exact (skipBlanks_isSuffix rest).trans (slashes?_isSuffix h)
  · exact List.suffix_rfl

theorem delimited?_isInfix {close : Char} {s : List Char} {cut : List Char × List Char}
    (h : delimited? close s = some cut) : cut.1 <:+: s ∧ cut.2 <:+: s := by
  have hs : s = cut.1 ++ close :: cut.2 := (delimited_eq_some_iff.1 h).1
  refine ⟨⟨[], close :: cut.2, by simp [hs]⟩, ⟨cut.1 ++ [close], [], by simp [hs]⟩⟩

theorem enclosed?_isInfix {s : List Char} {found : Found} (h : enclosed? s = some found) :
    found.name <:+: s ∧ found.rest <:+: s := by
  unfold enclosed? at h
  split at h
  · obtain ⟨cut, hcut, rfl⟩ := Option.map_eq_some_iff.1 h
    exact (delimited?_isInfix hcut).imp List.infix_cons List.infix_cons
  · obtain ⟨cut, hcut, rfl⟩ := Option.map_eq_some_iff.1 h
    exact (delimited?_isInfix hcut).imp List.infix_cons List.infix_cons
  · cases h

/-- What is found on an include line stands on it. -/
theorem recognise_isInfix {line : List Char} {found : Found} (h : recognise line = some found) :
    found.name <:+: line ∧ found.rest <:+: line := by
  simp only [recognise, bind, Option.bind_eq_some_iff] at h
  obtain ⟨sign, hsign, word, hword, f, hf, h⟩ := h
  have hsigned : skipBlanks sign <:+ line :=
    (skipBlanks_isSuffix sign).trans <| (after?_isSuffix hsign).trans <|
      (skipComment_isSuffix _).trans (skipBlanks_isSuffix line)
  have hworded : skipBlanks word <:+ line :=
    (skipBlanks_isSuffix word).trans <| (after?_isSuffix hword).trans hsigned
  split at h
  · cases h
  · obtain rfl := Option.some.inj h
    obtain ⟨hname, hrest⟩ := enclosed?_isInfix hf
    exact ⟨hname.trans hworded.isInfix, hrest.trans hworded.isInfix⟩

theorem annotation?_isInfix {rest statement : List Char} (h : annotation? rest = some statement) :
    statement <:+: rest := by
  simp only [annotation?, bind, Option.bind_eq_some_iff] at h
  obtain ⟨comment, hcomment, words, hwords, h⟩ := h
  have hrest : words <:+ rest :=
    (after?_isSuffix hwords).trans <| (skipBlanks_isSuffix comment).trans <|
      (slashes?_isSuffix hcomment).trans (skipBlanks_isSuffix rest)
  split at h
  · cases h
  · obtain rfl := Option.some.inj h
    exact (trimBy_isInfix _ _).trans <| (trimBy_isInfix _ _).trans <|
      (trimBy_isInfix _ _).trans hrest.isInfix

/-- What an include line asks for is written on one line. -/
theorem isLine_of_parseLine? {line : String} (hline : IsLine line) {target : Target}
    {statement : Option String} (h : parseLine? line = some (target, statement)) :
    IsLine target.name ∧ ∀ s ∈ statement, IsLine s := by
  obtain ⟨found, hfound, heq⟩ := Option.map_eq_some_iff.1 h
  obtain ⟨rfl, rfl⟩ := Prod.mk.inj heq
  obtain ⟨hname, hrest⟩ := recognise_isInfix hfound
  refine ⟨hline.of_isInfix ((trimBy_isInfix _ _).trans hname), fun s hs => ?_⟩
  obtain ⟨cs, hcs, rfl⟩ := Option.map_eq_some_iff.1 hs
  exact hline.of_isInfix ((annotation?_isInfix hcs).trans hrest)

/-! ## What becomes of a file -/

/-- Whether all that a directive asks for is written on one line. -/
def Include.Directive.IsFlat (d : Directive) : Prop := IsLine d.target.name ∧ IsLine d.statement

/-- Whether all that is written for a file is made of lines. -/
structure SourceFile.IsFlat (f : SourceFile) : Prop where
  body : ∀ line ∈ f.body, IsLine line
  includes : ∀ d ∈ f.includes, d.IsFlat

theorem isFlat_of_mem_directives {found : Target × Option String} (htarget : IsLine found.1.name)
    (hstatement : ∀ s ∈ found.2, IsLine s) {d : Directive} (h : d ∈ directives found) : d.IsFlat := by
  have hempty : IsLine "" := by simp [IsLine]
  obtain ⟨target, _ | statement⟩ := found
  · obtain rfl := List.mem_singleton.1 h
    exact ⟨htarget, hempty⟩
  · rcases List.mem_cons.1 h with rfl | h
    · exact ⟨htarget, hstatement statement rfl⟩
    · obtain rfl := List.mem_singleton.1 h
      exact ⟨htarget, hempty⟩

theorem isLine_of_mem_linesOf {text line : String} (h : line ∈ SourceFile.linesOf text) :
    IsLine line := by
  obtain ⟨cs, hcs, rfl⟩ := List.mem_map.1 h
  rw [IsLine, String.toList_ofList]
  exact not_mem_lines hcs

theorem isLine_of_mem_banner {path : Path} (hpath : IsLine path.spelling) {line : String}
    (h : line ∈ SourceFile.banner path) : IsLine line := by
  rw [SourceFile.banner, List.mem_cons, List.mem_cons, List.mem_singleton] at h
  rcases h with rfl | rfl | rfl
  · simp [IsLine]
  · exact hpath.between (by simp [IsLine]) (by simp [IsLine])
  · simp [IsLine]

theorem isLine_footer {path : Path} (hpath : IsLine path.spelling) :
    IsLine (SourceFile.footer path) :=
  hpath.between (by simp [IsLine]) (by simp [IsLine])

/-- All that becomes of a file is made of lines, whatever its text, if its path is written on one. -/
theorem isFlat_of_parse {path : Path} (hpath : IsLine path.spelling) {kind : Kind} {text : String}
    {f : SourceFile} (h : SourceFile.parse path kind text = .ok f) : f.IsFlat := by
  obtain ⟨mark, -, h⟩ := bind_eq_ok_iff.1 h
  obtain rfl := Except.ok.inj h
  have hlines : ∀ line ∈ SourceFile.afterMark mark (SourceFile.linesOf text), IsLine line := by
    intro line hline
    rw [SourceFile.afterMark] at hline
    split at hline
    · exact isLine_of_mem_linesOf (List.mem_of_mem_tail hline)
    · exact isLine_of_mem_linesOf hline
  refine ⟨fun line hline => ?_, fun d hd => ?_⟩
  · rw [List.mem_append, List.mem_append, List.mem_singleton] at hline
    rcases hline with (hbanner | hcontent) | rfl
    · exact isLine_of_mem_banner hpath hbanner
    · exact hlines line (List.mem_filter.1 hcontent).1
    · exact isLine_footer hpath
  · obtain ⟨found, hfound, hd⟩ := List.mem_flatMap.1 hd
    obtain ⟨line, hline, hparse⟩ := List.mem_filterMap.1 hfound
    obtain ⟨htarget, hstatement⟩ := isLine_of_parseLine? (hlines line hline) hparse
    exact isFlat_of_mem_directives htarget hstatement hd

/-! ## What is written into the documents -/

theorem isLine_line {t : Target} (h : IsLine t.name) : IsLine t.line := by
  obtain ⟨_ | _, name⟩ := t
  · exact h.between (by simp [IsLine]) (by simp [IsLine])
  · exact h.between (by simp [IsLine]) (by simp [IsLine])

/-- An include block of such directives is made of lines. -/
theorem isLine_of_mem_render {s : IncludeSet} (hs : ∀ d ∈ s, d.IsFlat) {line : String}
    (h : line ∈ s.render) : IsLine line := by
  rcases IncludeSet.mem_render_iff.1 h with ⟨d, hd, rfl⟩ | ⟨t, ht⟩
  · exact isLine_line (hs d hd).1
  · exact (hs _ ht).2

/-- A section of such files is made of lines, if its label is one. -/
theorem isLine_of_mem_section {s : Section} (hlabel : IsLine s.label)
    (hfiles : ∀ f ∈ s.files, f.IsFlat) {line : String} (h : line ∈ s.lines) : IsLine line := by
  simp only [Section.lines, List.mem_append, List.mem_cons, List.not_mem_nil, or_false,
    List.mem_flatMap] at h
  rcases h with ((rfl | rfl) | ⟨f, hf, hline⟩) | rfl
  · simp [IsLine]
  · exact hlabel.between (by simp [IsLine]) (by simp [IsLine])
  · exact (hfiles f hf).body line hline
  · exact hlabel.between (by simp [IsLine]) (by simp [IsLine])

theorem isLine_label {files : List SourceFile} {header source : List Section}
    (h : Layout files header source) {s : Section} (hs : s ∈ header ++ source) : IsLine s.label := by
  have ofPlace {places : List (Nat × SourceFile)} (hs : s ∈ places.map Section.ofPlace) :
      IsLine s.label := by
    obtain ⟨place, -, rfl⟩ := List.mem_map.1 hs
    exact .append (by simp [IsLine]) (.toString place.1)
  obtain ⟨exposed, -, rfl⟩ := h.header
  obtain ⟨ranked, -, rfl⟩ := h.source
  simp only [List.mem_append, List.mem_cons, List.not_mem_nil, or_false] at hs
  rcases hs with hs | hs | rfl | rfl
  · exact ofPlace hs
  · exact ofPlace hs
  · simp [IsLine]
  · simp [IsLine]

/-- No line of the documents of a classification holds a line feed, if all that becomes of its files
is made of lines and the name of the header document is one. -/
theorem isLine_of_mem_documents {c : Classification} {files : List SourceFile} (h : c.Sorts files)
    (hfiles : ∀ f ∈ files, f.IsFlat) {headerName : String} (hname : IsLine headerName) :
    (∀ line ∈ (Documents.of c headerName).header, IsLine line) ∧
      ∀ line ∈ (Documents.of c headerName).source, IsLine line := by
  have hlayout := layout_sections h
  have hsections : ∀ s ∈ headerSections c ++ sourceSections c, ∀ line ∈ s.lines, IsLine line :=
    fun s hs line hl => isLine_of_mem_section (isLine_label hlayout hs)
      (fun f hf => hfiles f (hlayout.mem_files hs hf)) hl
  have hexposed : ∀ d ∈ c.exposedIncludes, d.IsFlat := by
    intro d hd
    obtain ⟨f, hf, hdf⟩ := (h.includes (.placed .expose) d).1 hd
    exact (hfiles f (Group.mem_members.1 hf).1).includes d hdf
  have hinternal : ∀ d ∈ c.internalIncludes, d.IsFlat := by
    intro d hd
    obtain ⟨f, hf, hdf⟩ := (h.mem_internalIncludes d).1 hd
    exact (hfiles f (mem_internalFiles.1 hf).1).includes d hdf
  have hpreamble : ∀ line ∈ [notice, ""], IsLine line := by
    simp [IsLine, notice]
  have hown : IsLine (ownInclude headerName) :=
    hname.between (by simp [IsLine]) (by simp [IsLine])
  refine ⟨fun line hl => ?_, fun line hl => ?_⟩
  · rw [Documents.of, Document.header, List.mem_append, List.mem_append, List.mem_flatMap] at hl
    rcases hl with (hl | hl) | ⟨s, hs, hl⟩
    · exact hpreamble line hl
    · exact isLine_of_mem_render hexposed hl
    · exact hsections s (List.mem_append_left _ hs) line hl
  · rw [Documents.of, Document.source, List.mem_append, List.mem_append, List.mem_append,
      List.mem_singleton, List.mem_flatMap] at hl
    rcases hl with ((hl | hl) | rfl) | ⟨s, hs, hl⟩
    · exact hpreamble line hl
    · exact isLine_of_mem_render hinternal hl
    · exact hown
    · exact hsections s (List.mem_append_right _ hs) line hl

end Amalgam
