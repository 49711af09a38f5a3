import Mathlib
import Amalgam.Proofs.Classification.Texts
import Amalgam.Proofs.Include.Arrangement
import Amalgam.Proofs.Include.Form

/-!
# Reading a block back

A target that was read off an include line has a name without blanks around it and without the
delimiter that closes it. Such a name stands in the line of its target as it is, so this line is read
as the target again, unless the name is empty and there is nothing to read. A block without
statements is made of such lines alone, and reading it gives its targets back.

Main results:

* `isRead_of_parseLine?`: what the name of a target that was read looks like.
* `parseLine?_line`, `parseLine?_line_of_empty`: what the line of a target is read as.
* `exists_render_eq_map_line`: a block without statements is made of the lines of its targets.
* `render_reads_back`: reading a rendered line, and a rendered block.
-/

namespace Amalgam.Include

open Amalgam.Text SourceFile

/-! ## Targets that were read -/

/-- Whether a target can have been read off an include line: no blanks stand around its name, and the
name does not hold the delimiter that closes it. -/
structure Target.IsRead (t : Target) : Prop where
  trimmed : trim t.name.toList = t.name.toList
  closing_not_mem : t.delimiter.closing ∉ t.name.toList

theorem isRead_of_parseLine? {line : String} {t : Target} {statement : Option String}
    (h : parseLine? line = some (t, statement)) : t.IsRead := by
  obtain ⟨f, -, rfl⟩ := exists_parseLine?_iff.1 ⟨statement, h⟩
  have hname : f.target.name.toList = trim f.name := String.toList_ofList
  constructor
  · rw [hname]
    exact trimBy_trimBy isBlank f.name
  · rw [hname]
    exact fun hmem => f.closing_not_mem ((trimBy_isInfix isBlank f.name).mem hmem)

/-! ## The line of a target -/

theorem blanks_space : Blanks [' '] := by
  rintro c hc
  obtain rfl := List.mem_singleton.1 hc
  decide

/-- The comment sign before the line of a local header. -/
def Delimiter.sign : Delimiter → Option Sign
  | .angle => none
  | .quote => some ⟨2, [' '], le_rfl, blanks_space⟩

/-- The form of the line of a target. -/
def Target.form (t : Target) (hname : t.name ≠ "") (hclosing : t.delimiter.closing ∉ t.name.toList) :
    Form where
  lead := []
  sign := t.delimiter.sign
  afterHash := []
  afterWord := [' ']
  delimiter := t.delimiter
  name := t.name.toList
  rest := []
  lead_blank := by simp [Blanks]
  afterHash_blank := by simp [Blanks]
  afterWord_blank := blanks_space
  name_ne_nil := by simpa using hname
  closing_not_mem := hclosing
  feed_not_mem := by simp

theorem Target.text_form (t : Target) (hname : t.name ≠ "")
    (hclosing : t.delimiter.closing ∉ t.name.toList) :
    (t.form hname hclosing).text = t.line.toList := by
  obtain ⟨_ | _, name⟩ := t <;>
    simp [Form.text, form, Form.signText, Delimiter.sign, Sign.text, Form.enclosed,
      Delimiter.opening, Delimiter.closing, line]

theorem Target.target_form {t : Target} (h : t.IsRead) (hname : t.name ≠ "") :
    (t.form hname h.closing_not_mem).target = t := by
  have hof : String.ofList (trim t.name.toList) = t.name := by
    rw [h.trimmed, String.ofList_toList]
  exact congrArg (Target.mk t.delimiter) hof

/-- The line of a target that was read is read as this target, with no statement. -/
theorem parseLine?_line {t : Target} (h : t.IsRead) (hname : t.name ≠ "") :
    parseLine? t.line = some (t, none) := by
  have hfound := recognise_eq_some_iff.2 ⟨_, t.text_form hname h.closing_not_mem, rfl⟩
  rw [parseLine?, hfound, Option.map_some]
  exact congrArg (fun u => some (u, none)) (Target.target_form h hname)

/-- Between delimiters that enclose nothing there is no name to read. -/
theorem parseLine?_line_of_empty {t : Target} (h : t.name = "") : parseLine? t.line = none := by
  obtain ⟨_ | _, name⟩ := t
  all_goals
    obtain rfl : name = "" := h
    decide +kernel

theorem target_eq_of_mem_directives {d : Directive} {found : Target × Option String}
    (h : d ∈ directives found) : d.target = found.1 := by
  obtain ⟨t, _ | statement⟩ := found
  · obtain rfl := List.mem_singleton.1 h
    rfl
  · rcases List.mem_cons.1 h with rfl | h
    · rfl
    · obtain rfl := List.mem_singleton.1 h
      rfl

/-- What the lines of a file ask for is about targets that were read. -/
theorem isRead_of_mem_requests {lines : List String} {d : Directive} (h : d ∈ requests lines) :
    d.target.IsRead := by
  obtain ⟨line, -, found, hfound, hd⟩ := mem_requests.1 h
  rw [target_eq_of_mem_directives hd]
  exact isRead_of_parseLine? hfound

/-! ## Blocks without statements -/

namespace IncludeSet

/-- A block without statements is made of the lines of the targets that its set names, in the order
of these lines. -/
theorem exists_render_eq_map_line {s : IncludeSet} (h : ∀ statement, ¬ s.AsksFor statement) :
    ∃ targets : List Target, s.render = targets.map Target.line ∧ targets.Nodup ∧
      (∀ t, t ∈ targets ↔ s.Names t) ∧ targets.Pairwise fun t u => Before t.line u.line := by
  obtain ⟨a, hrender⟩ := exists_arrangement s
  have habove (t : Target) : a.above t = [] := by
    refine List.eq_nil_iff_forall_not_mem.2 fun statement hmem => h statement ⟨t, ?_⟩
    exact ((a.mem_above t statement).1 hmem).1
  refine ⟨a.targets, ?_, a.nodup_targets, a.mem_targets, a.targets_ascending⟩
  rw [hrender, Arrangement.entries, Arrangement.entriesOf_eq_map habove, List.map_map]
  rfl

/-- The line of a target that was read off an include line is read as this target again, with no
statement; it is no include line when the name of the target is empty. Different targets have
different lines. So a block is read back: where files ask for targets with names alone, and for no
statement, reading the lines of their block gives each of these targets once, in the order of the
bytes of the lines. -/
theorem render_reads_back :
    (∀ line t statement, parseLine? line = some (t, statement) →
        parseLine? t.line = if t.name = "" then none else some (t, none)) ∧
      Function.Injective Target.line ∧
      ∀ (files : List SourceFile) (s : IncludeSet),
        (∀ f ∈ files, ∃ path kind text, SourceFile.parse path kind text = .ok f) →
        (∀ d, d ∈ s ↔ ∃ f ∈ files, d ∈ f.includes) →
        (∀ f ∈ files, ∀ d ∈ f.includes, ∃ t : Target, d = .plain t ∧ t.name ≠ "") →
          ∃ targets : List Target,
            s.render.map parseLine? = targets.map (fun t => some (t, none)) ∧ targets.Nodup ∧
              (∀ t, t ∈ targets ↔ ∃ f ∈ files, .plain t ∈ f.includes) ∧
              targets.Pairwise fun t u => Before t.line u.line := by
  refine ⟨fun line t statement h => ?_, Target.line_injective, fun files s hparsed hs hplain => ?_⟩
  · split
    · next hname => exact parseLine?_line_of_empty hname
    · next hname => exact parseLine?_line (isRead_of_parseLine? h) hname
  · -- no file asks for a statement, so the block holds lines of targets only
    have hasks : ∀ statement, ¬ s.AsksFor statement := by
      rintro statement ⟨t, ht⟩
      obtain ⟨f, hf, hd⟩ := (hs _).1 ht
      obtain ⟨u, hu, -⟩ := hplain f hf _ hd
      cases hu
    obtain ⟨targets, hrender, hnodup, hmem, hascending⟩ := exists_render_eq_map_line hasks
    have hnames (t : Target) : s.Names t ↔ ∃ f ∈ files, .plain t ∈ f.includes := by
      rw [← hs]
      constructor
      · rintro ⟨d, hd, rfl⟩
        obtain ⟨f, hf, hd'⟩ := (hs d).1 hd
        obtain ⟨t, rfl, -⟩ := hplain f hf d hd'
        exact hd
      · exact fun ht => ⟨_, ht, rfl⟩
    refine ⟨targets, ?_, hnodup, fun t => (hmem t).trans (hnames t), hascending⟩
    rw [hrender, List.map_map]
    refine List.map_congr_left fun t ht => ?_
    obtain ⟨f, hf, hd⟩ := (hnames t).1 ((hmem t).1 ht)
    obtain ⟨path, kind, text, hparse⟩ := hparsed f hf
    obtain rfl := NamedText.eq_file_of_parse_eq_ok (t := ⟨path, text⟩) hparse
    obtain ⟨u, hu, hname⟩ := hplain _ hf _ hd
    obtain rfl := Directive.plain.inj hu
    rw [NamedText.includes_file] at hd
    exact parseLine?_line (isRead_of_mem_requests hd) hname

/-- A name with a space inside, and a name with the other delimiter that is asked for twice. -/
theorem render_reads_back_spaced :
    let text := "# include < b c >\n#include \"a<b>.h\"\nint x;\n// #include\"a<b>.h\""
    let local' : Target := ⟨.quote, "a<b>.h"⟩
    let system : Target := ⟨.angle, "b c"⟩
    let f : SourceFile := ⟨"/a.h", .header, none, none,
      ["/*", " * ===== BEGIN /a.h =====", " */", "int x;", "/* ===== END /a.h ===== */"],
      [.plain system, .plain local', .plain local']⟩
    SourceFile.parse "/a.h" .header text = .ok f ∧
      ∃ targets : List Target,
        (addAll ∅ f.includes).render.map parseLine? = targets.map (fun t => some (t, none)) ∧
          targets.Nodup ∧ ∀ t, t ∈ targets ↔ t = system ∨ t = local' := by
  intro text local' system f
  have h : SourceFile.parse "/a.h" .header text = .ok f := by decide +kernel
  have hnamed : ∀ d ∈ f.includes, ∃ t : Target, d = .plain t ∧ t.name ≠ "" := by
    simp [f, system, local']
  obtain ⟨targets, hread, hnodup, hmem, -⟩ := render_reads_back.2.2 [f] (addAll ∅ f.includes)
    (List.forall_mem_singleton.2 ⟨_, _, _, h⟩) (fun d => by simp [mem_addAll])
    (List.forall_mem_singleton.2 hnamed)
  refine ⟨h, targets, hread, hnodup, fun t => (hmem t).trans ?_⟩
  simp [f]

end IncludeSet

end Amalgam.Include
