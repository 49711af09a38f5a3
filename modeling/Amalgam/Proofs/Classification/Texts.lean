import Mathlib
import Amalgam.Proofs.Classification.Groups
import Amalgam.Proofs.Include.Block
import Amalgam.Proofs.Steps

/-!
# From texts to a classification

The files of a classification come from texts. What a text gives is fixed by its first line, which
may hold a mark, and by the lines after the mark, some of which are include lines. The include sets
of a classification are read off the texts of the headers that are exposed and of all other texts.

Main results:

* `parse_eq`: a text can be taken apart when its mark can be read, and what it then gives.
* `sorts_ofTexts`: so a classification of texts sorts the files that they give.
* `collects_exposed`, `collects_internal`: the include sets hold what the texts ask for.
-/

namespace Amalgam

open Amalgam.Include SourceFile

/-- A text and the path of its file. -/
structure NamedText where
  path : Path
  text : String

namespace NamedText

/-- The mark on the first line of a text, if that holds a readable one. -/
def mark? (t : NamedText) : Option Mark := (markOf t.path (linesOf t.text)).toOption.join

/-- The lines of a text after its mark. -/
def lines (t : NamedText) : List String := afterMark t.mark? (linesOf t.text)

/-- What a text gives as a file of a kind, if its mark can be read. -/
def file (kind : Kind) (t : NamedText) : SourceFile where
  path := t.path
  kind := kind
  rank := numberIn .rank t.mark?
  exposeRank := numberIn .expose t.mark?
  body := banner t.path ++ content t.lines ++ [footer t.path]
  includes := requests t.lines

/-- Takes a text apart. -/
def parse (kind : Kind) (t : NamedText) : Except Failure SourceFile :=
  SourceFile.parse t.path kind t.text

/-- A text can be taken apart when its first line holds a readable mark or none. -/
theorem parse_eq (kind : Kind) (t : NamedText) :
    t.parse kind = (markOf t.path (linesOf t.text)).map fun _ => t.file kind := by
  cases h : markOf t.path (linesOf t.text) with
  | error failure => simp [parse, SourceFile.parse, h, bind, Except.bind, Except.map]
  | ok mark =>
    have hmark : t.mark? = mark := by simp [mark?, h, Except.toOption]
    rw [parse, parse_of_markOf h, Except.map, file, lines, hmark]

theorem eq_file_of_parse_eq_ok {kind : Kind} {t : NamedText} {f : SourceFile}
    (h : t.parse kind = .ok f) : f = t.file kind := by
  rw [parse_eq] at h
  cases hm : markOf t.path (linesOf t.text) with
  | error failure =>
    rw [hm] at h
    cases h
  | ok mark =>
    rw [hm] at h
    cases h
    rfl

/-! ## Groups of texts -/

theorem mark?_file (kind : Kind) (t : NamedText) : (t.file kind).mark? = t.mark? := by
  unfold SourceFile.mark? file
  rcases t.mark? with _ | ⟨_ | _, n⟩ <;> rfl

/-- Whether the mark of a text would expose a header. -/
def isExposed (t : NamedText) : Bool := t.mark?.any fun mark => mark.series = .expose

theorem group_header_eq_iff {t : NamedText} :
    (t.file .header).group = .placed .expose ↔ t.isExposed = true := by
  have hk : (t.file .header).kind = .header := rfl
  rw [SourceFile.group, hk, mark?_file, isExposed]
  cases t.mark? <;> simp

theorem group_implementation (t : NamedText) :
    (t.file .implementation).group = .implementation := rfl

/-- The texts of the exposed headers. -/
def exposed (headers : List NamedText) : List NamedText := headers.filter isExposed

/-- The texts of the files that are not exposed. -/
def internal (headers implementations : List NamedText) : List NamedText :=
  headers.filter (fun t => ¬ t.isExposed) ++ implementations

theorem exposed_subset (headers implementations : List NamedText) :
    exposed headers ⊆ headers ++ implementations :=
  fun _ ht => List.mem_append_left _ (List.mem_of_mem_filter ht)

theorem internal_subset (headers implementations : List NamedText) :
    internal headers implementations ⊆ headers ++ implementations :=
  List.append_subset.2 ⟨fun _ ht => List.mem_append_left _ (List.mem_of_mem_filter ht),
    List.subset_append_right headers implementations⟩

/-- The files that the texts of headers and of implementations give. -/
def files (headers implementations : List NamedText) : List SourceFile :=
  headers.map (file .header) ++ implementations.map (file .implementation)

theorem includes_file (kind : Kind) (t : NamedText) :
    (t.file kind).includes = requests t.lines := by
  rw [file]

theorem exists_mem_exposed_iff {headers implementations : List NamedText} {d : Directive} :
    (∃ f ∈ (Group.placed .expose).members (files headers implementations), d ∈ f.includes) ↔
      ∃ t ∈ exposed headers, d ∈ requests t.lines := by
  simp only [Group.mem_members, files, exposed, List.mem_append, List.mem_map, List.mem_filter]
  constructor
  · rintro ⟨f, ⟨⟨t, ht, rfl⟩ | ⟨t, ht, rfl⟩, hg⟩, hd⟩
    · rw [includes_file] at hd
      exact ⟨t, ⟨ht, group_header_eq_iff.1 hg⟩, hd⟩
    · cases hg
  · rintro ⟨t, ⟨ht, he⟩, hd⟩
    rw [← includes_file .header] at hd
    exact ⟨t.file .header, ⟨.inl ⟨t, ht, rfl⟩, group_header_eq_iff.2 he⟩, hd⟩

theorem exists_mem_internal_iff {headers implementations : List NamedText} {d : Directive} :
    (∃ f ∈ internalFiles (files headers implementations), d ∈ f.includes) ↔
      ∃ t ∈ internal headers implementations, d ∈ requests t.lines := by
  simp only [mem_internalFiles, files, internal, List.mem_append, List.mem_map, List.mem_filter,
    decide_eq_true_eq]
  constructor
  · rintro ⟨f, ⟨⟨t, ht, rfl⟩ | ⟨t, ht, rfl⟩, hg⟩, hd⟩
    · rw [includes_file] at hd
      exact ⟨t, .inl ⟨ht, mt group_header_eq_iff.2 hg⟩, hd⟩
    · rw [includes_file] at hd
      exact ⟨t, .inr ht, hd⟩
  · rintro ⟨t, ⟨ht, he⟩ | ht, hd⟩
    · rw [← includes_file .header] at hd
      exact ⟨t.file .header, ⟨.inl ⟨t, ht, rfl⟩, mt group_header_eq_iff.1 he⟩, hd⟩
    · rw [← includes_file .implementation] at hd
      exact ⟨t.file .implementation, ⟨.inr ⟨t, ht, rfl⟩, by simp [group_implementation]⟩, hd⟩

end NamedText

open NamedText

/-! ## What texts ask for -/

/-- The targets that texts require: those of the include lines after their marks. -/
def required (texts : List NamedText) : List Target :=
  texts.flatMap fun t => (t.lines.filterMap parseLine?).map Prod.fst

theorem mem_required {texts : List NamedText} {target : Target} :
    target ∈ required texts ↔
      ∃ t ∈ texts, ∃ line ∈ t.lines, ∃ statement?, parseLine? line = some (target, statement?) := by
  simp only [required, List.mem_flatMap, List.mem_map, List.mem_filterMap, Prod.exists,
    exists_and_right, exists_eq_right]
  refine exists_congr fun t => and_congr_right fun _ => ?_
  exact ⟨fun ⟨st, line, hl, hp⟩ => ⟨line, hl, st, hp⟩, fun ⟨line, hl, st, hp⟩ => ⟨st, line, hl, hp⟩⟩

/-- The statements that texts ask for: those on the include lines after their marks. -/
def asked (texts : List NamedText) : List String :=
  texts.flatMap fun t => (t.lines.filterMap parseLine?).filterMap Prod.snd

theorem mem_asked {texts : List NamedText} {statement : String} :
    statement ∈ asked texts ↔
      ∃ t ∈ texts, ∃ line ∈ t.lines, ∃ target, parseLine? line = some (target, some statement) := by
  simp only [asked, List.mem_flatMap, List.mem_filterMap, Prod.exists, exists_eq_right]
  refine exists_congr fun t => and_congr_right fun _ => ?_
  exact ⟨fun ⟨target, line, hl, hp⟩ => ⟨line, hl, target, hp⟩,
    fun ⟨line, hl, target, hp⟩ => ⟨target, line, hl, hp⟩⟩

theorem asked_subset {texts more : List NamedText} (h : texts ⊆ more) : asked texts ⊆ asked more := by
  intro statement hs
  obtain ⟨t, ht, hp⟩ := mem_asked.1 hs
  exact mem_asked.2 ⟨t, h ht, hp⟩

theorem mem_requests {lines : List String} {d : Directive} :
    d ∈ requests lines ↔ ∃ line ∈ lines, ∃ found, parseLine? line = some found ∧
      d ∈ directives found := by
  simp only [requests, List.mem_flatMap, List.mem_filterMap]
  constructor
  · rintro ⟨found, ⟨line, hl, hp⟩, hd⟩
    exact ⟨line, hl, found, hp, hd⟩
  · rintro ⟨line, hl, found, hp, hd⟩
    exact ⟨found, ⟨line, hl, hp⟩, hd⟩

theorem precede_mem_directives {statement : String} {target : Target}
    {found : Target × Option String} :
    .precede statement target ∈ directives found ↔ found = (target, some statement) := by
  obtain ⟨t, _ | st⟩ := found <;> simp [directives, eq_comm, and_comm]

theorem exists_mem_directives (found : Target × Option String) {line : String} :
    (∃ d ∈ directives found, d.target.line = line) ↔ found.1.line = line := by
  obtain ⟨t, _ | st⟩ := found <;> simp [directives, Directive.target]

/-- A set collects what texts ask for: the directives of their include lines, and no more. -/
def Collects (s : IncludeSet) (texts : List NamedText) : Prop :=
  ∀ d, d ∈ s ↔ ∃ t ∈ texts, d ∈ requests t.lines

namespace Collects

variable {s : IncludeSet} {texts : List NamedText}

theorem mentions_iff (h : Collects s texts) {line : String} :
    s.Mentions line ↔ ∃ target ∈ required texts, target.line = line := by
  constructor
  · rintro ⟨d, hd, hline⟩
    obtain ⟨t, ht, hd⟩ := (h d).1 hd
    obtain ⟨l, hl, found, hp, hd⟩ := mem_requests.1 hd
    exact ⟨found.1, mem_required.2 ⟨t, ht, l, hl, found.2, hp⟩,
      (exists_mem_directives found).1 ⟨d, hd, hline⟩⟩
  · rintro ⟨target, hr, hline⟩
    obtain ⟨t, ht, l, hl, st, hp⟩ := mem_required.1 hr
    obtain ⟨d, hd, hline⟩ := (exists_mem_directives (target, st)).2 hline
    exact ⟨d, (h d).2 ⟨t, ht, mem_requests.2 ⟨l, hl, _, hp, hd⟩⟩, hline⟩

theorem asksFor_iff (h : Collects s texts) {statement : String} :
    s.AsksFor statement ↔ statement ∈ asked texts := by
  rw [mem_asked]
  constructor
  · rintro ⟨target, hd⟩
    obtain ⟨t, ht, hd⟩ := (h _).1 hd
    obtain ⟨l, hl, found, hp, hd⟩ := mem_requests.1 hd
    rw [precede_mem_directives] at hd
    exact ⟨t, ht, l, hl, target, hd ▸ hp⟩
  · rintro ⟨t, ht, l, hl, target, hp⟩
    exact ⟨target, (h _).2 ⟨t, ht, mem_requests.2 ⟨l, hl, _, hp, precede_mem_directives.2 rfl⟩⟩⟩

end Collects

/-! ## Classifications of texts -/

namespace Classification

/-- The classification of the files that texts of headers and texts of implementations give. -/
def ofTexts (headers implementations : List NamedText) : Except Failure Classification := do
  let headers ← headers.mapM (NamedText.parse .header)
  let implementations ← implementations.mapM (NamedText.parse .implementation)
  ofFiles headers implementations

variable {c : Classification} {headers implementations : List NamedText}

/-- A classification of texts sorts the files that the texts give. -/
theorem sorts_ofTexts (h : ofTexts headers implementations = .ok c) :
    c.Sorts (files headers implementations) := by
  rw [ofTexts, bind_eq_ok_iff] at h
  obtain ⟨hs, hh, h⟩ := h
  rw [bind_eq_ok_iff] at h
  obtain ⟨is, hi, hc⟩ := h
  rw [map_of_mapM_eq_ok (fun _ _ => eq_file_of_parse_eq_ok) hh,
    map_of_mapM_eq_ok (fun _ _ => eq_file_of_parse_eq_ok) hi] at hc
  exact sorts_ofFiles hc

/-- The exposed directives are what the texts of the exposed headers ask for. -/
theorem collects_exposed (h : ofTexts headers implementations = .ok c) :
    Collects c.exposedIncludes (NamedText.exposed headers) := by
  intro d
  have hd := (sorts_ofTexts h).includes (.placed .expose) d
  rw [exists_mem_exposed_iff] at hd
  exact hd

/-- The internal directives are what all other texts ask for. -/
theorem collects_internal (h : ofTexts headers implementations = .ok c) :
    Collects c.internalIncludes (internal headers implementations) := by
  intro d
  rw [← exists_mem_internal_iff]
  exact (sorts_ofTexts h).mem_internalIncludes d

end Classification

end Amalgam
