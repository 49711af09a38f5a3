import Mathlib
import Amalgam.Proofs.Include.Rendered

/-!
# Statements behind an include line

Behind its target an include line may carry a note, a comment that opens with the words `PRECEDED BY:`
and goes on with a statement. The statement is what is left of the remainder when the outer blanks are
taken off, then the outer backticks, and then the outer blanks again; where nothing is left there is no
statement. So a statement may be written between backticks, and hold backticks and comment signs.

Main results:

* `Note.text_injective`: a comment is the text of one note at most.
* `annotation?_eq_some_iff`: the statement that a comment asks for is what its remainder leaves.
* `leaves_of_ticked`: a remainder leaves the statement that it holds between blanks and backticks.
* `parseLine?_append_note`: so an include line with a note behind it is read back.
* `parseLine?_reads_notes`: which statement is read off an include line.
-/

namespace Amalgam.Include

open Amalgam.Text Form

/-! ## Notes -/

/-- The pieces of a comment that asks for a statement. -/
structure Note where
  lead : List Char
  sign : Sign
  remainder : List Char
  lead_blank : Blanks lead

/-- How a note is written behind the target of an include line. -/
def Note.text (n : Note) : List Char :=
  n.lead ++ (n.sign.text ++ ("PRECEDED BY:".toList ++ n.remainder))

/-- Whether a remainder leaves a statement when the outer blanks are taken off, then the outer
backticks, and then the outer blanks again. -/
def Leaves (remainder statement : List Char) : Prop :=
  ∃ outer inner, Stripped isBlank remainder outer ∧ Stripped (· = '`') outer inner ∧
    Stripped isBlank inner statement

theorem leaves_iff {remainder statement : List Char} :
    Leaves remainder statement ↔ bareStatement remainder = statement := by
  simp only [Leaves, stripped_iff, exists_and_left, exists_eq_left']
  rfl

theorem Leaves.isInfix {remainder statement : List Char} (h : Leaves remainder statement) :
    statement <:+: remainder := by
  obtain ⟨outer, inner, houter, hinner, hstatement⟩ := h
  exact hstatement.isInfix.trans (hinner.isInfix.trans houter.isInfix)

theorem Leaves.clear {remainder statement : List Char} (h : Leaves remainder statement) :
    Clear isBlank statement := by
  obtain ⟨_, _, -, -, hstatement⟩ := h
  exact hstatement.toClear

theorem Note.remainder_isInfix (n : Note) : n.remainder <:+: n.text :=
  ⟨n.lead ++ (n.sign.text ++ "PRECEDED BY:".toList), [], by simp [Note.text]⟩

/-! ## Reading a note -/

theorem head?_sign_append {sign : Sign} {rest : List Char} :
    ∀ c, (sign.text ++ rest).head? = some c → isBlank c = false := by
  obtain ⟨tail, htail⟩ := sign.exists_text_eq rest
  intro c hc
  rw [htail] at hc
  cases hc
  decide

theorem head?_words {rest : List Char} :
    ∀ c, ("PRECEDED BY:".toList ++ rest).head? = some c → isBlank c = false := by
  rintro c ⟨⟩
  decide

theorem head?_blanks_words {blanks rest : List Char} (h : Blanks blanks) :
    (blanks ++ ("PRECEDED BY:".toList ++ rest)).head? ≠ some '/' :=
  head?_append_blanks h (by simp)

/-- A comment is the text of one note at most. -/
theorem Note.text_injective : Function.Injective Note.text := by
  intro n m h
  obtain ⟨hlead, h⟩ :=
    append_inj_of_runs h n.lead_blank head?_sign_append m.lead_blank head?_sign_append
  have hhead (n : Note) : ∀ c, (n.sign.blanks ++ ("PRECEDED BY:".toList ++ n.remainder)).head? =
      some c → decide (c = '/') = false :=
    fun c hc => decide_eq_false fun heq => head?_blanks_words n.sign.blanks_blank (heq ▸ hc)
  simp only [Sign.text, List.append_assoc] at h
  obtain ⟨hslashes, h⟩ := append_inj_of_runs h (by simp) (hhead n) (by simp) (hhead m)
  obtain ⟨hblanks, h⟩ :=
    append_inj_of_runs h n.sign.blanks_blank head?_words m.sign.blanks_blank head?_words
  have hremainder := List.append_cancel_left h
  have hcount : n.sign.slashes = m.sign.slashes := by simpa using congrArg List.length hslashes
  obtain ⟨_, ⟨_, _, _, _⟩, _, _⟩ := n
  obtain ⟨_, ⟨_, _, _, _⟩, _, _⟩ := m
  subst hlead hblanks hremainder hcount
  rfl

/-- The statement that a comment asks for is what the remainder of its note leaves. -/
theorem annotation?_eq_some_iff {rest statement : List Char} :
    annotation? rest = some statement ↔
      ∃ n : Note, n.text = rest ∧ Leaves n.remainder statement ∧ statement ≠ [] := by
  simp only [annotation?, Option.bind_eq_bind, Option.bind_eq_some_iff, after?_eq_some_iff,
    slashes?_eq_some_iff, Option.ite_none_left_eq_some, Option.some.injEq]
  constructor
  · rintro ⟨comment, ⟨-, k, hk, hslashes⟩, remainder, hwords, hne, rfl⟩
    obtain ⟨gap, rfl, hgap⟩ := (skipBlanks_eq_iff head?_words).1 hwords
    let sign : Sign := ⟨k, gap, hk, hgap⟩
    have hsign : skipBlanks rest = sign.text ++ ("PRECEDED BY:".toList ++ remainder) := by
      rw [hslashes, Sign.text, List.append_assoc]
    obtain ⟨lead, rfl, hlead⟩ := (skipBlanks_eq_iff head?_sign_append).1 hsign
    exact ⟨⟨lead, sign, remainder, hlead⟩, rfl, leaves_iff.2 rfl, hne⟩
  · rintro ⟨n, rfl, hleaves, hne⟩
    have hskip : skipBlanks n.text =
        n.sign.text ++ ("PRECEDED BY:".toList ++ n.remainder) :=
      (skipBlanks_eq_iff head?_sign_append).2 ⟨n.lead, rfl, n.lead_blank⟩
    obtain rfl := leaves_iff.1 hleaves
    refine ⟨n.sign.blanks ++ ("PRECEDED BY:".toList ++ n.remainder),
      ⟨head?_blanks_words n.sign.blanks_blank, n.sign.slashes, n.sign.two_le_slashes, ?_⟩,
      n.remainder, ?_, hne, rfl⟩
    · rw [hskip, Sign.text, List.append_assoc]
    · exact (skipBlanks_eq_iff head?_words).2 ⟨_, rfl, n.sign.blanks_blank⟩

/-! ## Writing a note -/

/-- Whether a remainder is a statement with blanks, any number of backticks and again blanks on each
side of it. -/
def Ticked (statement remainder : List Char) : Prop :=
  ∃ before opening inner inner' closing after,
    remainder = before ++ opening ++ inner ++ statement ++ (inner' ++ closing ++ after) ∧
      (Blanks before ∧ Blanks inner ∧ Blanks inner' ∧ Blanks after) ∧
      (∀ c ∈ opening, c = '`') ∧ ∀ c ∈ closing, c = '`'

theorem blanks_append {first second : List Char} (h : Blanks first) (h' : Blanks second) :
    Blanks (first ++ second) :=
  List.forall_mem_append.2 ⟨h, h'⟩

/-- Without backticks the blanks on the two sides of them are one run, which is an outer one. -/
theorem exists_tight_left {before inner : List Char} (ticks : List Char) (hb : Blanks before)
    (hi : Blanks inner) :
    ∃ before' inner', before ++ ticks ++ inner = before' ++ ticks ++ inner' ∧ Blanks before' ∧
      Blanks inner' ∧ (ticks = [] → inner' = []) := by
  by_cases ht : ticks = []
  · subst ht
    exact ⟨before ++ inner, [], by simp, blanks_append hb hi, by simp [Blanks], fun _ => rfl⟩
  · exact ⟨before, inner, rfl, hb, hi, fun h => absurd h ht⟩

theorem exists_tight_right {inner after : List Char} (ticks : List Char) (hi : Blanks inner)
    (ha : Blanks after) :
    ∃ inner' after', inner ++ ticks ++ after = inner' ++ ticks ++ after' ∧ Blanks inner' ∧
      Blanks after' ∧ (ticks = [] → inner' = []) := by
  by_cases ht : ticks = []
  · subst ht
    exact ⟨[], inner ++ after, by simp, by simp [Blanks], blanks_append hi ha, fun _ => rfl⟩
  · exact ⟨inner, after, rfl, hi, ha, fun h => absurd h ht⟩

theorem isBlank_tick : isBlank '`' = false := by decide

theorem ne_tick_of_isBlank {c : Char} (h : isBlank c = true) : decide (c = '`') = false := by
  refine decide_eq_false ?_
  rintro rfl
  rw [isBlank_tick] at h
  cases h

/-- A remainder leaves the statement that it holds between blanks and backticks. -/
theorem leaves_of_ticked {statement remainder : List Char} (h : Ticked statement remainder)
    (hne : statement ≠ []) (hblank : Clear isBlank statement)
    (htick : Clear (· = '`') statement) : Leaves remainder statement := by
  obtain ⟨before, opening, inner, inner', closing, after, rfl, ⟨hb, hi, hi', ha⟩, ho, hc⟩ := h
  -- so each backtick run is empty only where no blanks stand inside of it
  obtain ⟨before, inner, hleft, hb, hi, hopening⟩ := exists_tight_left opening hb hi
  obtain ⟨inner', after, hright, hi', ha, hclosing⟩ := exists_tight_right closing hi' ha
  rw [hleft, hright]
  have hticks {ticks blanks : List Char} (ht : ∀ c ∈ ticks, c = '`')
      (hempty : ticks = [] → blanks = []) :
      (∀ c, (ticks ++ blanks).head? = some c → isBlank c = false) ∧
        ∀ c, (blanks ++ ticks).getLast? = some c → isBlank c = false := by
    by_cases hnil : ticks = []
    · simp [hnil, hempty hnil]
    · rw [List.head?_append_of_ne_nil _ hnil, List.getLast?_append_of_ne_nil _ hnil]
      exact ⟨fun c hc => ht c (List.mem_of_head? hc) ▸ isBlank_tick,
        fun c hc => ht c (List.mem_of_getLast? hc) ▸ isBlank_tick⟩
  refine ⟨opening ++ inner ++ statement ++ (inner' ++ closing), inner ++ statement ++ inner',
    ⟨?_, ?_⟩, ⟨?_, ?_⟩, hblank, ?_⟩
  · exact hblank.append hne (hticks ho hopening).1 (hticks hc hclosing).2
  · exact ⟨before, after, by simp, hb, ha⟩
  · exact htick.append hne (fun c h => ne_tick_of_isBlank (hi c (List.mem_of_head? h)))
      fun c h => ne_tick_of_isBlank (hi' c (List.mem_of_getLast? h))
  · exact ⟨opening, closing, by simp, by simpa using ho, by simpa using hc⟩
  · exact ⟨inner, inner', rfl, hi, hi'⟩

/-- An include line with a note behind it is read as its target with the statement of the note. -/
theorem parseLine?_append_note {f : Form} (hf : f.rest = []) {n : Note} (hn : '\n' ∉ n.text)
    {statement : List Char} (h : Leaves n.remainder statement) (hne : statement ≠ []) :
    parseLine? (String.ofList (f.text ++ n.text)) = some (f.target, some (String.ofList statement)) := by
  let g : Form := { f with rest := n.text, feed_not_mem := hn }
  have htext : g.text = f.text ++ n.text := by
    simp [g, Form.text, enclosed, hf]
  have hfound := recognise_eq_some_iff.2 ⟨g, htext, rfl⟩
  have hnote : annotation? g.rest = some statement := annotation?_eq_some_iff.2 ⟨n, rfl, h, hne⟩
  rw [parseLine?, String.toList_ofList, hfound, Option.map_some, hnote]
  rfl

/-! ## Reading include lines -/

theorem statement_eq_some_iff {rest : List Char} {s : String} :
    (annotation? rest).map String.ofList = some s ↔
      ∃ n : Note, n.text = rest ∧ Leaves n.remainder s.toList ∧ s ≠ "" := by
  rw [Option.map_eq_some_iff]
  constructor
  · rintro ⟨statement, h, rfl⟩
    obtain ⟨n, hn, hleaves, hne⟩ := annotation?_eq_some_iff.1 h
    exact ⟨n, hn, by rwa [String.toList_ofList], by simpa using hne⟩
  · rintro ⟨n, hn, hleaves, hne⟩
    have hne : s.toList ≠ [] := by simpa using hne
    exact ⟨s.toList, annotation?_eq_some_iff.2 ⟨n, hn, hleaves, hne⟩, String.ofList_toList⟩

/-- Behind the target of an include line a comment is the text of one note at most. There is a
statement exactly when the rest of the line is the text of a note whose remainder leaves something,
and it is what is left, which is never empty, is on one line and has no blanks around it. So every
include line of a target with a note behind it is read as this target and the statement that the note
holds between blanks and backticks. -/
theorem parseLine?_reads_notes :
    Function.Injective Note.text ∧
    (∀ (line : String) (t : Target) (statement : Option String),
      parseLine? line = some (t, statement) →
        ∃ f : Form, f.text = line.toList ∧ f.target = t ∧
          (∀ s : String, statement = some s ↔
            ∃ n : Note, n.text = f.rest ∧ Leaves n.remainder s.toList ∧ s ≠ "") ∧
          ∀ s : String, statement = some s →
            s ≠ "" ∧ '\n' ∉ s.toList ∧ Clear isBlank s.toList) ∧
    ∀ (t : Target) (s : String), t.IsRead → t.name ≠ "" → s ≠ "" → Clear isBlank s.toList →
      Clear (· = '`') s.toList →
        (∃ f : Form, f.rest = [] ∧ f.target = t ∧ f.text = t.line.toList) ∧
          ∀ (f : Form) (n : Note), f.rest = [] → f.target = t → '\n' ∉ n.text →
            Ticked s.toList n.remainder →
              parseLine? (String.ofList (f.text ++ n.text)) = some (t, some s) := by
  refine ⟨Note.text_injective, fun line t statement h => ?_, fun t s ht hname hne hblank htick => ?_⟩
  · obtain ⟨found, hfound, heq⟩ := Option.map_eq_some_iff.1 h
    obtain ⟨f, hf, rfl⟩ := recognise_eq_some_iff.1 hfound
    obtain ⟨rfl, rfl⟩ := Prod.mk.inj heq
    refine ⟨f, hf, rfl, fun s => statement_eq_some_iff, fun s hs => ?_⟩
    obtain ⟨n, hn, hleaves, hne⟩ := statement_eq_some_iff.1 hs
    refine ⟨hne, fun hfeed => f.feed_not_mem ?_, hleaves.clear⟩
    have hmem := n.remainder_isInfix.mem (hleaves.isInfix.mem hfeed)
    rwa [hn] at hmem
  · refine ⟨⟨t.form hname ht.closing_not_mem, rfl, Target.target_form ht hname,
      t.text_form hname ht.closing_not_mem⟩, ?_⟩
    rintro f n hf rfl hn hticked
    have hne : s.toList ≠ [] := by simpa using hne
    have hread := parseLine?_append_note hf hn (leaves_of_ticked hticked hne hblank htick) hne
    rwa [String.ofList_toList] at hread

/-- A statement with a comment sign and backticks inside, between more backticks on one side of it
than on the other. -/
theorem parseLine?_reads_notes_ticked :
    let t : Target := ⟨.quote, "a/b.h"⟩
    let s := "x // `y` z"
    t.IsRead ∧ t.name ≠ "" ∧ s ≠ "" ∧ Clear isBlank s.toList ∧ Clear (· = '`') s.toList ∧
      parseLine? "// #include \"a/b.h\" /// PRECEDED BY:`` x // `y` z` " = some (t, some s) := by
  intro t s
  have ht : t.IsRead := ⟨by decide, by decide⟩
  have hblank : Clear isBlank s.toList := by decide
  have htick : Clear (· = '`') s.toList := by decide
  let n : Note := ⟨[' '], ⟨3, [' '], by decide, blanks_space⟩, "`` x // `y` z` ".toList, blanks_space⟩
  have hticked : Ticked s.toList n.remainder :=
    ⟨[], ['`', '`'], [' '], [], ['`'], [' '], by decide,
      ⟨by simp [Blanks], blanks_space, by simp [Blanks], blanks_space⟩, by simp, by simp⟩
  obtain ⟨⟨f, hf, hft, htext⟩, hread⟩ :=
    parseLine?_reads_notes.2.2 t s ht (by decide) (by decide) hblank htick
  have hline : String.ofList (f.text ++ n.text) =
      "// #include \"a/b.h\" /// PRECEDED BY:`` x // `y` z` " := by
    rw [htext]
    decide
  exact ⟨ht, by decide, by decide, hblank, htick, hline ▸ hread f n hf hft (by decide) hticked⟩

end Amalgam.Include
