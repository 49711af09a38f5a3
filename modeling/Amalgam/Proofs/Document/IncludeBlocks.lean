import Mathlib
import Amalgam.Proofs.Classification.Texts
import Amalgam.Proofs.Document.Placement
import Amalgam.Proofs.Include.Recognition

/-!
# Include lines of the documents

The include lines of all texts are moved to the include blocks: the block of the header document
serves the exposed headers, the block of the source document all other files, and no include line
stays in a section. A block gives every required target one line and every statement one line; the
two do not look at each other, so a statement that has the text of a target's line is written beside
it.

Main results:

* `includes_hoisted`: which lines are in the blocks, and that no section holds an include line.
* `includeBlocks_nodup_iff`: how often a line is in a block, and when no line is there twice.
-/

namespace Amalgam

open Classification Document NamedText SourceFile Amalgam.Include

/-! ## Blocks -/

namespace Collects

variable {s : IncludeSet} {texts : List NamedText}

/-- The line of a target is in the block when the target is required, unless a statement has the
text of the line. -/
theorem line_mem_render_iff (h : Collects s texts) {target : Target}
    (ha : target.line ∉ asked texts) : target.line ∈ s.render ↔ target ∈ required texts := by
  rw [IncludeSet.mem_render_iff, h.mentions_iff, h.asksFor_iff]
  constructor
  · rintro (⟨other, hr, hline⟩ | hs)
    · rw [← Target.line_injective hline]
      exact hr
    · exact absurd hs ha
  · intro hr
    exact .inl ⟨target, hr, rfl⟩

/-- Only statements are uncommented includes of local headers in the block. -/
theorem mem_asked_of_isActiveLocal (h : Collects s texts) {line : String} (hl : line ∈ s.render)
    (ha : IsActiveLocal line) : line ∈ asked texts := by
  rw [IncludeSet.mem_render_iff, h.asksFor_iff] at hl
  rcases hl with ⟨d, -, rfl⟩ | hs
  · exact absurd ha (not_isActiveLocal_line d.target)
  · exact hs

theorem count_render (h : Collects s texts) (line : String) :
    s.render.count line = (if ∃ target ∈ required texts, target.line = line then 1 else 0) +
      if line ∈ asked texts then 1 else 0 := by
  classical
  rw [IncludeSet.count_render]
  congr 1
  · exact if_congr h.mentions_iff rfl rfl
  · exact if_congr h.asksFor_iff rfl rfl

theorem nodup_render_iff (h : Collects s texts) :
    s.render.Nodup ↔ ∀ target ∈ required texts, target.line ∉ asked texts := by
  rw [IncludeSet.nodup_render_iff]
  simp only [h.mentions_iff, h.asksFor_iff]
  constructor
  · intro hall target hr
    exact hall target.line ⟨target, hr, rfl⟩
  · rintro hall line ⟨target, hr, rfl⟩
    exact hall target hr

end Collects

/-! ## Sections -/

theorem parseLine?_notice : parseLine? notice = none :=
  parseLine?_of_slash_star (by delta notice; simp)

theorem parseLine?_opening (label : String) : parseLine? (Section.opening label) = none :=
  parseLine?_of_slash_star (by delta Section.opening; simp)

theorem parseLine?_closing (label : String) : parseLine? (Section.closing label) = none :=
  parseLine?_of_slash_star (by delta Section.closing; simp)

theorem parseLine?_of_mem_banner {path : Path} {line : String} (h : line ∈ banner path) :
    parseLine? line = none := by
  rw [banner, List.mem_cons, List.mem_cons, List.mem_singleton] at h
  rcases h with rfl | rfl | rfl
  · exact parseLine?_of_slash_star (by simp)
  · exact parseLine?_of_blank_star (by simp)
  · exact parseLine?_of_blank_star (by simp)

theorem parseLine?_footer (path : Path) : parseLine? (footer path) = none :=
  parseLine?_of_slash_star (by delta footer; simp)

/-- No line of the body of a file is an include line. -/
theorem parseLine?_of_mem_body {kind : Kind} {t : NamedText} {line : String}
    (h : line ∈ (t.file kind).body) : parseLine? line = none := by
  rw [file, List.mem_append, List.mem_append, List.mem_singleton] at h
  rcases h with (hb | hc) | rfl
  · exact parseLine?_of_mem_banner hb
  · simpa using (List.mem_filter.1 hc).2
  · exact parseLine?_footer t.path

/-- No line of a section is an include line, if no body in it holds one. -/
theorem Section.parseLine?_of_mem_lines {s : Section}
    (hs : ∀ f ∈ s.files, ∀ line ∈ f.body, parseLine? line = none) {line : String}
    (h : line ∈ s.lines) : parseLine? line = none := by
  simp only [Section.lines, List.mem_append, List.mem_cons, List.not_mem_nil, or_false,
    List.mem_flatMap] at h
  rcases h with ((rfl | rfl) | ⟨f, hf, hl⟩) | rfl
  · exact parseLine?_empty
  · exact parseLine?_opening s.label
  · exact hs f hf line hl
  · exact parseLine?_closing s.label

variable {c : Classification} {headers implementations : List NamedText}

/-- No line after the include blocks is an include line, the own include apart. -/
theorem parseLine?_of_mem_sections (h : ofTexts headers implementations = .ok c) {line : String}
    (hl : line ∈ (headerSections c ++ sourceSections c).flatMap Section.lines) :
    parseLine? line = none := by
  obtain ⟨s, hs, hl⟩ := List.mem_flatMap.1 hl
  refine Section.parseLine?_of_mem_lines ?_ hl
  intro f hf body hbody
  have hfile := (layout_sections (sorts_ofTexts h)).mem_files hs hf
  rw [files, List.mem_append, List.mem_map, List.mem_map] at hfile
  obtain ⟨t, -, rfl⟩ | ⟨t, -, rfl⟩ := hfile
  · exact parseLine?_of_mem_body hbody
  · exact parseLine?_of_mem_body hbody

/-! ## Documents -/

/-- The first two lines of a document are no include lines. -/
theorem parseLine?_of_mem_preamble {line : String} (h : line ∈ [notice, ""]) :
    parseLine? line = none := by
  rw [List.mem_cons, List.mem_singleton] at h
  rcases h with rfl | rfl
  · exact parseLine?_notice
  · exact parseLine?_empty

/-- An uncommented include of a local header is the own include or a statement. -/
theorem eq_ownInclude_or_mem_asked (h : ofTexts headers implementations = .ok c)
    {headerName line : String} (hl : line ∈ Document.header c ++ Document.source c headerName)
    (ha : IsActiveLocal line) :
    line = ownInclude headerName ∨ line ∈ asked (headers ++ implementations) := by
  have hsome : parseLine? line ≠ none := fun hn => not_isActiveLocal_of_parseLine?_eq_none hn ha
  have hpreamble : line ∉ [notice, ""] := fun hn => hsome (parseLine?_of_mem_preamble hn)
  have hsections : line ∉ (headerSections c ++ sourceSections c).flatMap Section.lines :=
    fun hs => hsome (parseLine?_of_mem_sections h hs)
  rw [List.flatMap_append, List.mem_append, not_or] at hsections
  rw [Document.header, Document.source] at hl
  -- What is left are the two blocks and the line between block and sections.
  simp only [List.mem_append, hpreamble, hsections, List.mem_singleton, false_or, or_false] at hl
  rcases hl with hb | hb | rfl
  · have hasked := (collects_exposed h).mem_asked_of_isActiveLocal hb ha
    exact .inr (asked_subset (exposed_subset headers implementations) hasked)
  · have hasked := (collects_internal h).mem_asked_of_isActiveLocal hb ha
    exact .inr (asked_subset (internal_subset headers implementations) hasked)
  · exact .inl rfl

/-- Include lines are moved to the blocks, all of them and only there. A target gets its line in the
block of the source document when a file that is not exposed requires it, and in the block of the
header document when an exposed header does. No other line is an include line but the own include,
so whatever includes a local header uncommented is the own include or a statement. -/
theorem includes_hoisted (h : ofTexts headers implementations = .ok c) (headerName : String) :
    (∀ target : Target, target.line ∉ asked (headers ++ implementations) →
      (target.line ∈ c.internalIncludes.render ↔
        target ∈ required (internal headers implementations)) ∧
      (target.line ∈ c.exposedIncludes.render ↔ target ∈ required (exposed headers))) ∧
    (∃ headerRest sourceRest,
      Document.header c = [notice, ""] ++ c.exposedIncludes.render ++ headerRest ∧
      Document.source c headerName = [notice, ""] ++ c.internalIncludes.render ++
        [ownInclude headerName] ++ sourceRest ∧
      ∀ line ∈ headerRest ++ sourceRest, parseLine? line = none) ∧
    (∀ line ∈ Document.header c ++ Document.source c headerName, IsActiveLocal line →
      line = ownInclude headerName ∨ line ∈ asked (headers ++ implementations)) := by
  refine ⟨fun target ha => ⟨?_, ?_⟩, ⟨_, _, rfl, rfl, ?_⟩, ?_⟩
  · have hsub := asked_subset (internal_subset headers implementations)
    exact (collects_internal h).line_mem_render_iff fun ha' => ha (hsub ha')
  · have hsub := asked_subset (exposed_subset headers implementations)
    exact (collects_exposed h).line_mem_render_iff fun ha' => ha (hsub ha')
  · intro line hl
    rw [← List.flatMap_append] at hl
    exact parseLine?_of_mem_sections h hl
  · intro line hl ha
    exact eq_ownInclude_or_mem_asked h hl ha

/-- Headers of which one is exposed and one shares its include line with an implementation. -/
def sharingHeaders : List NamedText :=
  [⟨"/e.h", "// EXPOSE 1\n#include <e>\n"⟩, ⟨"/r.h", "#include <a> // PRECEDED BY: `S`\n"⟩]

/-- An implementation with the line and the statement of one of the headers. -/
def sharingImplementations : List NamedText := [⟨"/m.c", "#include <a> // PRECEDED BY: S\n"⟩]

theorem includes_hoisted_sharing :
    ∃ c, ofTexts sharingHeaders sharingImplementations = .ok c ∧
      "#include <a>" ∈ c.internalIncludes.render ∧ "#include <a>" ∉ c.exposedIncludes.render := by
  have h : ofTexts sharingHeaders sharingImplementations = .ok _ := rfl
  have hs := (includes_hoisted h "out.h").1 ⟨.angle, "a"⟩ (by decide +kernel)
  exact ⟨_, h, hs.1.2 (by decide +kernel), fun hm => absurd (hs.2.1 hm) (by decide +kernel)⟩

/-- In a block a line is written once if it is the line of a required target, and once more if it is
asked for as a statement; so no line is there twice exactly when no statement has the text of the
line of a target that the same files require. -/
theorem includeBlocks_nodup_iff (h : ofTexts headers implementations = .ok c) :
    (∀ line, c.exposedIncludes.render.count line =
      (if ∃ target ∈ required (exposed headers), target.line = line then 1 else 0) +
        if line ∈ asked (exposed headers) then 1 else 0) ∧
    (∀ line, c.internalIncludes.render.count line =
      (if ∃ target ∈ required (internal headers implementations), target.line = line
        then 1 else 0) +
        if line ∈ asked (internal headers implementations) then 1 else 0) ∧
    (c.exposedIncludes.render.Nodup ↔
      ∀ target ∈ required (exposed headers), target.line ∉ asked (exposed headers)) ∧
    (c.internalIncludes.render.Nodup ↔
      ∀ target ∈ required (internal headers implementations),
        target.line ∉ asked (internal headers implementations)) :=
  ⟨(collects_exposed h).count_render, (collects_internal h).count_render,
    (collects_exposed h).nodup_render_iff, (collects_internal h).nodup_render_iff⟩

theorem includeBlocks_nodup_iff_sharing :
    ∃ c, ofTexts sharingHeaders sharingImplementations = .ok c ∧
      c.internalIncludes.render.Nodup := by
  have h : ofTexts sharingHeaders sharingImplementations = .ok _ := rfl
  exact ⟨_, h, (includeBlocks_nodup_iff h).2.2.2.2 (by decide +kernel)⟩

/-- A statement with the text of an include line is written beside the line. -/
theorem count_of_statement_include :
    ∃ c, ofTexts [⟨"/a.h", "#include <a> // PRECEDED BY: #include <b>\n#include <b>\n"⟩] [] = .ok c ∧
      c.internalIncludes.render.count "#include <b>" = 2 ∧ ¬ c.internalIncludes.render.Nodup := by
  have h : ofTexts [⟨"/a.h", "#include <a> // PRECEDED BY: #include <b>\n#include <b>\n"⟩] [] =
    .ok _ := rfl
  have hcount := (collects_internal h).count_render "#include <b>"
  have htwo : (_ : List String).count "#include <b>" = 2 := hcount.trans (by decide +kernel)
  refine ⟨_, h, htwo, fun hn => ?_⟩
  have hone := List.nodup_iff_count_le_one.1 hn "#include <b>"
  omega

end Amalgam
