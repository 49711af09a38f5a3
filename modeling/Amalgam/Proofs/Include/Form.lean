import Mathlib
import Amalgam.Include.Line
import Amalgam.Proofs.Text.Trim

/-!
# How an include line is written

An include line can be written in many ways: blanks may stand in five places, and two or more
slashes before the number sign. The form of a line holds its pieces one by one. The reader finds a
target exactly on the lines that some form writes, and a line has one form only.

Main results:

* `recognise_eq_some_iff`: the reader finds what the form of a line encloses.
* `Form.text_injective`: no line can be read as two forms.
* `parseLine?_reads_forms`: which lines are include lines, and of which target.
-/

namespace Amalgam.Include

open Amalgam.Text

/-! ## The form -/

/-- The character before the name of a target. -/
def Delimiter.opening : Delimiter → Char
  | .angle => '<'
  | .quote => '"'

/-- The character after the name of a target. -/
def Delimiter.closing : Delimiter → Char
  | .angle => '>'
  | .quote => '"'

/-- A comment sign: two or more slashes, and blanks after them. -/
structure Sign where
  slashes : Nat
  blanks : List Char
  two_le_slashes : 2 ≤ slashes
  blanks_blank : Blanks blanks

/-- How a comment sign is written. -/
def Sign.text (sign : Sign) : List Char := List.replicate sign.slashes '/' ++ sign.blanks

theorem Delimiter.opening_injective : Function.Injective Delimiter.opening := by
  rintro (_ | _) (_ | _) h
  · rfl
  · cases h
  · cases h
  · rfl

theorem Sign.exists_text_eq (sign : Sign) (rest : List Char) :
    ∃ tail, sign.text ++ rest = '/' :: tail := by
  obtain ⟨k, hk⟩ := Nat.exists_eq_add_of_le' (Nat.le_of_succ_le sign.two_le_slashes)
  exact ⟨_, by rw [Sign.text, hk, List.replicate_succ]; rfl⟩

/-- The pieces of an include line. -/
structure Form where
  lead : List Char
  sign : Option Sign
  afterHash : List Char
  afterWord : List Char
  delimiter : Delimiter
  name : List Char
  rest : List Char
  lead_blank : Blanks lead
  afterHash_blank : Blanks afterHash
  afterWord_blank : Blanks afterWord
  name_ne_nil : name ≠ []
  closing_not_mem : delimiter.closing ∉ name
  feed_not_mem : '\n' ∉ rest

namespace Form

/-- The comment sign of a form, if it has one. -/
def signText (sign : Option Sign) : List Char := sign.elim [] Sign.text

/-- A name between its delimiters, and the rest of the line. -/
def enclosed (delimiter : Delimiter) (name rest : List Char) : List Char :=
  delimiter.opening :: (name ++ delimiter.closing :: rest)

/-- The line that a form writes. -/
def text (f : Form) : List Char :=
  f.lead ++ (signText f.sign ++ '#' :: (f.afterHash ++ ("include".toList ++
    (f.afterWord ++ enclosed f.delimiter f.name f.rest))))

/-- The target of a form: its name without the blanks around it. -/
def target (f : Form) : Target := ⟨f.delimiter, String.ofList (trim f.name)⟩

end Form

open Form

/-! ## Reading the form -/

/-- All leading slashes are taken off, if there are at least two. -/
theorem slashes?_eq_some_iff {s rest : List Char} :
    slashes? s = some rest ↔
      rest.head? ≠ some '/' ∧ ∃ n, 2 ≤ n ∧ s = List.replicate n '/' ++ rest := by
  rw [slashes?, Option.map_eq_some_iff]
  simp only [after?_eq_some_iff]
  constructor
  · rintro ⟨more, rfl, rfl⟩
    have hrun : more.takeWhile (· = '/') =
        List.replicate (more.takeWhile (· = '/')).length '/' :=
      List.eq_replicate_of_mem fun c hc => by simpa using List.mem_takeWhile_imp hc
    refine ⟨fun hhead => ?_, (more.takeWhile (· = '/')).length + 2, by omega, ?_⟩
    · have hnot := List.head?_dropWhile_not (fun c => decide (c = '/')) more
      rw [hhead] at hnot
      simp at hnot
    · rw [Nat.add_comm, List.replicate_add, ← hrun, List.append_assoc,
        List.takeWhile_append_dropWhile]
      rfl
  · rintro ⟨hhead, n, hn, rfl⟩
    obtain ⟨k, rfl⟩ := Nat.exists_eq_add_of_le hn
    refine ⟨List.replicate k '/' ++ rest, ?_, ?_⟩
    · rw [List.replicate_add, List.append_assoc]
      rfl
    · rw [List.dropWhile_append_of_pos (by simp)]
      cases rest with
      | nil => rfl
      | cons c tail => exact List.dropWhile_cons_of_neg (by simpa using hhead)

theorem head?_hash {rest : List Char} : ∀ c, ('#' :: rest).head? = some c → isBlank c = false := by
  rintro c ⟨⟩
  decide

theorem head?_sign {sign : Option Sign} {rest : List Char} :
    ∀ c, (signText sign ++ '#' :: rest).head? = some c → isBlank c = false := by
  cases sign with
  | none => exact head?_hash
  | some sign =>
    obtain ⟨tail, htail⟩ := sign.exists_text_eq ('#' :: rest)
    intro c hc
    rw [signText, Option.elim, htail] at hc
    cases hc
    decide

/-- Blanks before a text that does not start with a slash do not make it do so. -/
theorem head?_append_blanks {blanks rest : List Char} (h : Blanks blanks)
    (hrest : rest.head? ≠ some '/') : (blanks ++ rest).head? ≠ some '/' := by
  cases blanks with
  | nil => exact hrest
  | cons c more =>
    intro hc
    obtain rfl := Option.some.inj hc
    exact absurd (h '/' List.mem_cons_self) (by decide)

/-- What follows the slashes of a sign does not go on with slashes. -/
theorem head?_blanks {blanks rest : List Char} (h : Blanks blanks) :
    (blanks ++ '#' :: rest).head? ≠ some '/' :=
  head?_append_blanks h (by simp)

theorem skipComment_eq_iff {s rest : List Char} :
    skipComment s = '#' :: rest ↔ ∃ sign, s = signText sign ++ '#' :: rest := by
  constructor
  · intro h
    rw [skipComment] at h
    split at h
    · next more hmore =>
      obtain ⟨-, n, hn, rfl⟩ := slashes?_eq_some_iff.1 hmore
      obtain ⟨blanks, rfl, hblanks⟩ := (skipBlanks_eq_iff head?_hash).1 h
      exact ⟨some ⟨n, blanks, hn, hblanks⟩, by simp [signText, Sign.text]⟩
    · exact ⟨none, h⟩
  · rintro ⟨_ | sign, rfl⟩
    · simp [skipComment, signText, slashes?, after?]
    · have hslashes : slashes? (signText (some sign) ++ '#' :: rest) =
          some (sign.blanks ++ '#' :: rest) :=
        slashes?_eq_some_iff.2 ⟨head?_blanks sign.blanks_blank, sign.slashes,
          sign.two_le_slashes, by simp [signText, Sign.text]⟩
      rw [skipComment, hslashes]
      exact (skipBlanks_eq_iff head?_hash).2 ⟨_, rfl, sign.blanks_blank⟩

theorem enclosed?_eq_some_iff {s : List Char} {found : Found} :
    enclosed? s = some found ↔ s = enclosed found.delimiter found.name found.rest ∧
      found.name ≠ [] ∧ found.delimiter.closing ∉ found.name := by
  obtain ⟨delimiter, name, rest⟩ := found
  have hcut (close : Char) (more : List Char) (d : Delimiter) :
      (delimited? close more).map (fun cut => Found.mk d cut.1 cut.2) =
          some ⟨delimiter, name, rest⟩ ↔
        d = delimiter ∧ more = name ++ close :: rest ∧ name ≠ [] ∧ close ∉ name := by
    rw [Option.map_eq_some_iff, ← delimited_eq_some_iff]
    constructor
    · rintro ⟨⟨_, _⟩, hsome, heq⟩
      cases heq
      exact ⟨rfl, hsome⟩
    · rintro ⟨rfl, hsome⟩
      exact ⟨_, hsome, rfl⟩
  unfold enclosed?
  split
  · next more =>
    rw [hcut]
    cases delimiter <;> simp [enclosed, Delimiter.opening, Delimiter.closing]
  · next more =>
    rw [hcut]
    cases delimiter <;> simp [enclosed, Delimiter.opening, Delimiter.closing]
  · next hangle hquote =>
    refine iff_of_false (by simp) ?_
    rintro ⟨rfl, -⟩
    cases delimiter
    · exact hangle _ rfl
    · exact hquote _ rfl

theorem head?_include {rest : List Char} :
    ∀ c, ("include".toList ++ rest).head? = some c → isBlank c = false := by
  rintro c ⟨⟩
  decide

theorem head?_enclosed {delimiter : Delimiter} {name rest : List Char} :
    ∀ c, (enclosed delimiter name rest).head? = some c → isBlank c = false := by
  rintro c ⟨⟩
  cases delimiter <;> decide

/-- The reader finds what the form of a line encloses. -/
theorem recognise_eq_some_iff {line : List Char} {found : Found} :
    recognise line = some found ↔
      ∃ f : Form, f.text = line ∧ (⟨f.delimiter, f.name, f.rest⟩ : Found) = found := by
  simp only [recognise, Option.bind_eq_bind, Option.bind_eq_some_iff, after?_eq_some_iff,
    Option.ite_none_left_eq_some, Option.some.injEq]
  constructor
  · rintro ⟨afterSign, hsign, afterWord, hword, f, henclosed, hfeed, rfl⟩
    obtain ⟨sign, hskip⟩ := skipComment_eq_iff.1 hsign
    obtain ⟨lead, rfl, hlead⟩ := (skipBlanks_eq_iff head?_sign).1 hskip
    obtain ⟨gap, rfl, hgap⟩ := (skipBlanks_eq_iff head?_include).1 hword
    obtain ⟨hskip, hne, hclose⟩ := enclosed?_eq_some_iff.1 henclosed
    obtain ⟨space, rfl, hspace⟩ := (skipBlanks_eq_iff head?_enclosed).1 hskip
    exact ⟨⟨lead, sign, gap, space, f.delimiter, f.name, f.rest, hlead, hgap, hspace, hne, hclose,
      hfeed⟩, rfl, rfl⟩
  · rintro ⟨f, rfl, rfl⟩
    refine ⟨f.afterHash ++ ("include".toList ++ (f.afterWord ++
      enclosed f.delimiter f.name f.rest)), ?_, f.afterWord ++ enclosed f.delimiter f.name f.rest,
      ?_, ⟨f.delimiter, f.name, f.rest⟩, ?_, f.feed_not_mem, rfl⟩
    · rw [text, (skipBlanks_eq_iff head?_sign).2 ⟨f.lead, rfl, f.lead_blank⟩]
      exact skipComment_eq_iff.2 ⟨f.sign, rfl⟩
    · exact (skipBlanks_eq_iff head?_include).2 ⟨f.afterHash, rfl, f.afterHash_blank⟩
    · rw [(skipBlanks_eq_iff head?_enclosed).2 ⟨f.afterWord, rfl, f.afterWord_blank⟩]
      exact enclosed?_eq_some_iff.2 ⟨rfl, f.name_ne_nil, f.closing_not_mem⟩

/-! ## One form for a line -/

theorem signText_inj {sign other : Option Sign} {rest more : List Char}
    (h : signText sign ++ '#' :: rest = signText other ++ '#' :: more) :
    sign = other ∧ rest = more := by
  have hhead {blanks rest : List Char} (hb : Blanks blanks) :
      ∀ c, (blanks ++ '#' :: rest).head? = some c → decide (c = '/') = false := by
    rintro c hc
    exact decide_eq_false fun heq => head?_blanks hb (heq ▸ hc)
  cases sign with
  | none =>
    cases other with
    | none => exact ⟨rfl, (List.cons.inj h).2⟩
    | some other =>
      obtain ⟨tail, htail⟩ := other.exists_text_eq ('#' :: more)
      rw [signText, signText, Option.elim, Option.elim, htail] at h
      cases h
  | some sign =>
    cases other with
    | none =>
      obtain ⟨tail, htail⟩ := sign.exists_text_eq ('#' :: rest)
      rw [signText, signText, Option.elim, Option.elim, htail] at h
      cases h
    | some other =>
      obtain ⟨n, blanks, hn, hb⟩ := sign
      obtain ⟨k, blanks', hk, hb'⟩ := other
      simp only [signText, Option.elim, Sign.text, List.append_assoc] at h
      obtain ⟨hslashes, htail⟩ := append_inj_of_runs h (by simp) (hhead hb) (by simp) (hhead hb')
      obtain ⟨hblanks, hhash⟩ := append_inj_of_runs htail hb head?_hash hb' head?_hash
      obtain rfl : n = k := by simpa using congrArg List.length hslashes
      subst hblanks
      exact ⟨rfl, (List.cons.inj hhash).2⟩

theorem enclosed_inj {delimiter other : Delimiter} {name name' rest rest' : List Char}
    (h : enclosed delimiter name rest = enclosed other name' rest')
    (hname : delimiter.closing ∉ name) (hname' : other.closing ∉ name') :
    delimiter = other ∧ name = name' ∧ rest = rest' := by
  obtain ⟨hopening, hnamed⟩ := List.cons.inj h
  obtain rfl := Delimiter.opening_injective hopening
  have hrun {name : List Char} (hn : delimiter.closing ∉ name) :
      ∀ c ∈ name, decide (c ≠ delimiter.closing) = true := by
    rintro c hc
    exact decide_eq_true fun heq => hn (heq ▸ hc)
  obtain ⟨hnames, hclosed⟩ :=
    append_inj_of_runs hnamed (hrun hname) (by simp) (hrun hname') (by simp)
  exact ⟨rfl, hnames, (List.cons.inj hclosed).2⟩

/-- No line can be read as two forms. -/
theorem Form.text_injective : Function.Injective Form.text := by
  intro f g h
  obtain ⟨hlead, h⟩ := append_inj_of_runs h f.lead_blank head?_sign g.lead_blank head?_sign
  obtain ⟨hsign, h⟩ := signText_inj h
  obtain ⟨hhash, h⟩ :=
    append_inj_of_runs h f.afterHash_blank head?_include g.afterHash_blank head?_include
  obtain ⟨hword, h⟩ := append_inj_of_runs (List.append_cancel_left h) f.afterWord_blank
    head?_enclosed g.afterWord_blank head?_enclosed
  obtain ⟨hdelimiter, hname, hrest⟩ := enclosed_inj h f.closing_not_mem g.closing_not_mem
  cases f
  cases g
  congr

/-! ## Include lines -/

/-- The target of a form has its delimiter, and its name without the blanks at both ends. -/
theorem Form.target_eq_iff {f : Form} {t : Target} :
    f.target = t ↔ f.delimiter = t.delimiter ∧ Stripped isBlank f.name t.name.toList := by
  rw [stripped_iff, ← trim]
  constructor
  · rintro rfl
    exact ⟨rfl, (String.toList_ofList).symm⟩
  · rintro ⟨hdelimiter, hname⟩
    rw [target, hdelimiter, hname, String.ofList_toList]

/-- The include lines of a target are the lines of the forms with that target. -/
theorem exists_parseLine?_iff {line : String} {t : Target} :
    (∃ statement, parseLine? line = some (t, statement)) ↔
      ∃ f : Form, f.text = line.toList ∧ f.target = t := by
  constructor
  · rintro ⟨statement, h⟩
    obtain ⟨found, hfound, heq⟩ := Option.map_eq_some_iff.1 h
    obtain ⟨f, hf, rfl⟩ := recognise_eq_some_iff.1 hfound
    exact ⟨f, hf, congrArg Prod.fst heq⟩
  · rintro ⟨f, hf, rfl⟩
    exact ⟨_, Option.map_eq_some_iff.2 ⟨_, recognise_eq_some_iff.2 ⟨f, hf, rfl⟩, rfl⟩⟩

/-- A line has one form at most. It is an include line of a target exactly when it has a form of the
same delimiter whose name, without the blanks at both ends, is that of the target, and no include line
exactly when it has none. -/
theorem parseLine?_reads_forms :
    Function.Injective Form.text ∧
    (∀ (line : String) (t : Target), (∃ statement, parseLine? line = some (t, statement)) ↔
      ∃ f : Form, f.text = line.toList ∧ f.delimiter = t.delimiter ∧
        Stripped isBlank f.name t.name.toList) ∧
    ∀ line : String, parseLine? line = none ↔ ∀ f : Form, f.text ≠ line.toList := by
  refine ⟨Form.text_injective, fun line t => ?_, fun line => ?_⟩
  · simp only [exists_parseLine?_iff, Form.target_eq_iff]
  · rw [parseLine?, Option.map_eq_none_iff, Option.eq_none_iff_forall_ne_some]
    constructor
    · exact fun h f hf => h _ (recognise_eq_some_iff.2 ⟨f, hf, rfl⟩)
    · intro h found hfound
      obtain ⟨f, hf, -⟩ := recognise_eq_some_iff.1 hfound
      exact h f hf

/-- The form of a line with blanks wherever there may be any, two of them within its name. -/
def spacedForm : Form where
  lead := "\t".toList
  sign := some ⟨3, [' '], by decide, by decide⟩
  afterHash := [' ']
  afterWord := ['\u3000']
  delimiter := .angle
  name := " sys /a.h ".toList
  rest := " // why".toList
  lead_blank := by decide
  afterHash_blank := by decide
  afterWord_blank := by decide
  name_ne_nil := by decide
  closing_not_mem := by decide
  feed_not_mem := by decide

theorem parseLine?_reads_forms_spaced :
    (∃ statement, parseLine? "\t/// # include\u3000< sys /a.h > // why" =
      some (⟨.angle, "sys /a.h"⟩, statement)) ∧
    parseLine? "#include <> // <a.h>" = none ∧ ∀ f : Form, f.text ≠ "#include <> // <a.h>".toList := by
  have hread := parseLine?_reads_forms.2.1 "\t/// # include\u3000< sys /a.h > // why"
  have hnone : parseLine? "#include <> // <a.h>" = none := by decide +kernel
  refine ⟨(hread _).2 ⟨spacedForm, by decide +kernel, rfl, ?_⟩, hnone,
    (parseLine?_reads_forms.2.2 _).1 hnone⟩
  have hclear : Clear isBlank "sys /a.h".toList := by decide +kernel
  have hblank : Blanks [' '] := by decide
  exact ⟨hclear, [' '], [' '], by decide +kernel, hblank, hblank⟩

end Amalgam.Include
