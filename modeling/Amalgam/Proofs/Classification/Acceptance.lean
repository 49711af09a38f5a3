import Mathlib
import Amalgam.Proofs.Classification.Texts
import Amalgam.Proofs.Mark.Form

/-!
# Which texts can be classified

Texts of headers and implementations can be classified when every mark among them has a readable
number and no two headers have the same mark. Numbers are read before marks are compared: the first
unreadable number fails the whole, and only where there is none does the first header whose mark an
earlier one has.

Main results:

* `exists_addAll_iff`, `addAll_eq_error`: which lists of files can be added, and how others fail.
* `ofTexts_outcome`: what becomes of any texts.
-/

namespace Amalgam

open Amalgam.Include Classification

/-- An element of two lists written one after the other is an element of one of them. -/
theorem append_cases {α : Type} {as bs before after : List α} {a : α}
    (h : as ++ bs = before ++ a :: after) :
    (∃ more, before = as ++ more ∧ bs = more ++ a :: after) ∨ ∃ rest, as = before ++ a :: rest := by
  rcases List.append_eq_append_iff.1 h with ⟨more, hbefore, hbs⟩ | ⟨more, has, hmore⟩
  · exact .inl ⟨more, hbefore, hbs⟩
  · cases more with
    | nil => exact .inl ⟨[], by simpa using has.symm, hmore.symm⟩
    | cons b rest =>
      obtain ⟨rfl, -⟩ := List.cons.inj hmore
      exact .inr ⟨rest, has⟩

/-- What holds of some element of a list holds of a first one. -/
theorem exists_first {α : Type} {p : α → Prop} {as : List α} (h : ∃ a ∈ as, p a) :
    ∃ before a after, as = before ++ a :: after ∧ (∀ b ∈ before, ¬ p b) ∧ p a := by
  induction as with
  | nil => simp at h
  | cons a rest ih =>
    by_cases ha : p a
    · exact ⟨[], a, rest, rfl, by simp, ha⟩
    · obtain ⟨before, b, after, rfl, hbefore, hb⟩ := ih (by simpa [ha] using h)
      exact ⟨a :: before, b, after, rfl, by simpa [ha] using hbefore, hb⟩

/-- In a list whose elements are not all related a first one is unrelated to one before it. -/
theorem exists_first_unrelated {α : Type} {r : α → α → Prop} {as : List α} (h : ¬ as.Pairwise r) :
    ∃ before a after, as = before ++ a :: after ∧ before.Pairwise r ∧ ∃ b ∈ before, ¬ r b a := by
  induction as using List.reverseRecOn with
  | nil => exact absurd .nil h
  | append_singleton init a ih =>
    by_cases hinit : init.Pairwise r
    · refine ⟨init, a, [], rfl, hinit, ?_⟩
      simpa [List.pairwise_append, hinit] using h
    · obtain ⟨before, b, after, rfl, hb⟩ := ih hinit
      exact ⟨before, b, after ++ [a], by simp, hb⟩

/-! ## Files -/

/-- Two headers with one mark. -/
def SourceFile.Collides (first f : SourceFile) : Prop :=
  first.kind = .header ∧ f.kind = .header ∧ ∃ mark, first.mark? = some mark ∧ f.mark? = some mark

namespace Classification

variable {c : Classification} {files : List SourceFile}

theorem Sorts.exists_add_iff (h : c.Sorts files) {f : SourceFile} :
    (∃ d, c.add f = .ok d) ↔ ∀ first ∈ files, ¬ first.Collides f := by
  constructor
  · rintro ⟨d, hd⟩ first hfirst ⟨hk, hkf, mark, hm, hmf⟩
    rw [h.add_eq_error_iff.2 ⟨hkf, mark, first, hmf, ⟨hfirst, hk, hm⟩, rfl⟩] at hd
    cases hd
  · intro hnone
    cases hadd : c.add f with
    | ok d => exact ⟨d, rfl⟩
    | error failure =>
      obtain ⟨hkf, mark, first, hmf, ⟨hfirst, hk, hm⟩, -⟩ := h.add_eq_error_iff.1 hadd
      exact absurd ⟨hk, hkf, mark, hm, hmf⟩ (hnone first hfirst)

/-- By induction on the files, the last one taken off: files can be added when no two collide. -/
theorem exists_addAll_iff (files : List SourceFile) :
    (∃ c, empty.addAll files = .ok c) ↔
      files.Pairwise fun first f => ¬ first.Collides f := by
  induction files using List.reverseRecOn with
  | nil => exact ⟨fun _ => .nil, fun _ => ⟨empty, rfl⟩⟩
  | append_singleton files f ih =>
    have hlast (c : Classification) : c.addAll [f] = c.add f := by
      rw [Classification.addAll, List.foldlM_cons]
      cases c.add f <;> rfl
    simp only [addAll_append, bind_eq_ok_iff, hlast, List.pairwise_append, List.pairwise_singleton,
      List.mem_singleton, forall_eq, true_and, ← ih]
    constructor
    · rintro ⟨d, c, hc, hd⟩
      exact ⟨⟨c, hc⟩, (sorts_empty.addAll hc).exists_add_iff.1 ⟨d, hd⟩⟩
    · rintro ⟨⟨c, hc⟩, hnone⟩
      obtain ⟨d, hd⟩ := (sorts_empty.addAll hc).exists_add_iff.2 hnone
      exact ⟨d, c, hc, hd⟩

/-- The first header whose mark an earlier one has stops the adding. -/
theorem addAll_eq_error {before : List SourceFile} {first f : SourceFile} {mark : Mark}
    (hbefore : before.Pairwise fun first f => ¬ first.Collides f) (hfirst : first ∈ before)
    (hk : first.kind = .header) (hm : first.mark? = some mark) (hkf : f.kind = .header)
    (hmf : f.mark? = some mark) (after : List SourceFile) :
    empty.addAll (before ++ f :: after) = .error (.duplicate mark first.path f.path) := by
  obtain ⟨c, hc⟩ := (exists_addAll_iff before).2 hbefore
  have hadd : c.add f = .error (.duplicate mark first.path f.path) :=
    (sorts_empty.addAll hc).add_eq_error_iff.2 ⟨hkf, mark, first, hmf, ⟨hfirst, hk, hm⟩, rfl⟩
  rw [addAll_append, hc]
  show c.addAll (f :: after) = _
  rw [Classification.addAll, List.foldlM_cons, hadd]
  rfl

end Classification

/-! ## Texts -/

namespace NamedText

/-- The first line of a text, empty where the text is. -/
def firstLine (t : NamedText) : String := (SourceFile.linesOf t.text).head?.getD ""

/-- A text declares the mark that its first line is. -/
def Declares (t : NamedText) (mark : Mark) : Prop := mark.On t.firstLine

/-- A text whose first line has the form of a mark with digits that no mark can have. -/
def Misnumbers (t : NamedText) (digits : List Char) : Prop := Mark.Unreadable digits t.firstLine

/-- No two of the texts declare the same mark. -/
def Distinct (texts : List NamedText) : Prop :=
  texts.Pairwise fun s t => ∀ mark, s.Declares mark → ¬ t.Declares mark

variable {t : NamedText} {kind : Kind} {digits : List Char}

theorem mark?_eq_some_iff {mark : Mark} : t.mark? = some mark ↔ t.Declares mark := by
  rw [Declares, ← Mark.parse_eq_ok_some_iff, mark?, SourceFile.markOf, firstLine]
  cases Mark.parse ((SourceFile.linesOf t.text).head?.getD "") <;>
    simp [Except.mapError, Except.toOption]

theorem parse_of_misnumbers (h : t.Misnumbers digits) :
    t.parse kind = .error (.invalidNumber t.path (String.ofList digits)) := by
  have hparse := Mark.parse_eq_error_iff.2 ⟨digits, rfl, h⟩
  rw [parse_eq, SourceFile.markOf]
  rw [firstLine] at hparse
  rw [hparse]
  rfl

theorem parse_of_readable (h : ∀ digits, ¬ t.Misnumbers digits) :
    t.parse kind = .ok (t.file kind) := by
  rw [parse_eq, SourceFile.markOf]
  cases hparse : Mark.parse ((SourceFile.linesOf t.text).head?.getD "") with
  | error text =>
    obtain ⟨digits, -, hdigits⟩ := Mark.parse_eq_error_iff.1 hparse
    exact absurd hdigits (h digits)
  | ok mark => rfl

theorem collides_file_iff {s t : NamedText} :
    (s.file .header).Collides (t.file .header) ↔ ∃ mark, s.Declares mark ∧ t.Declares mark := by
  simp only [SourceFile.Collides, mark?_file, mark?_eq_some_iff]
  simp [file]

theorem not_collides_implementation {f : SourceFile} :
    ¬ f.Collides (t.file .implementation) := by
  rintro ⟨-, hk, -⟩
  cases hk

theorem pairwise_headers_iff {texts : List NamedText} :
    ((texts.map (file .header)).Pairwise fun first f => ¬ first.Collides f) ↔ Distinct texts := by
  rw [List.pairwise_map, Distinct]
  simp only [collides_file_iff, not_exists, not_and]

/-- Among the files that texts give, only headers with the same mark collide. -/
theorem pairwise_files_iff {headers implementations : List NamedText} :
    ((files headers implementations).Pairwise fun first f => ¬ first.Collides f) ↔
      Distinct headers := by
  rw [files, List.pairwise_append, pairwise_headers_iff, List.pairwise_map]
  constructor
  · exact fun h => h.1
  · intro h
    refine ⟨h, List.pairwise_of_forall fun _ _ => not_collides_implementation, ?_⟩
    intro first _ f hf
    obtain ⟨t, -, rfl⟩ := List.mem_map.1 hf
    exact not_collides_implementation

theorem Distinct.perm {texts more : List NamedText} (hp : texts.Perm more) :
    Distinct texts ↔ Distinct more :=
  hp.pairwise_iff fun h mark ht hs => h mark hs ht

end NamedText

open NamedText

namespace Classification

variable {headers implementations : List NamedText}

theorem ofTexts_of_readable
    (h : ∀ t ∈ headers ++ implementations, ∀ digits, ¬ t.Misnumbers digits) :
    ofTexts headers implementations = empty.addAll (files headers implementations) := by
  have hparse (kind : Kind) {texts : List NamedText} (hs : texts ⊆ headers ++ implementations) :
      texts.mapM (NamedText.parse kind) = .ok (texts.map (file kind)) :=
    mapM_eq_ok_map fun t ht => parse_of_readable (h t (hs ht))
  rw [ofTexts, hparse .header (List.subset_append_left ..),
    hparse .implementation (List.subset_append_right ..)]
  rfl

/-- The first unreadable number stops the reading. -/
theorem ofTexts_of_misnumbers {before after : List NamedText} {t : NamedText} {digits : List Char}
    (hall : headers ++ implementations = before ++ t :: after)
    (hbefore : ∀ s ∈ before, ∀ digits, ¬ s.Misnumbers digits) (ht : t.Misnumbers digits) :
    ofTexts headers implementations = .error (.invalidNumber t.path (String.ofList digits)) := by
  have hread (kind : Kind) {texts : List NamedText} (hs : texts ⊆ before) :
      ∀ s ∈ texts, s.parse kind = .ok (s.file kind) :=
    fun s h => parse_of_readable (hbefore s (hs h))
  have hstop (kind : Kind) {texts : List NamedText} (hs : texts ⊆ before) (rest : List NamedText) :
      (texts ++ t :: rest).mapM (NamedText.parse kind) =
        .error (.invalidNumber t.path (String.ofList digits)) :=
    mapM_eq_error (fun s h => ⟨_, hread kind hs s h⟩) (parse_of_misnumbers ht) rest
  obtain ⟨more, rfl, rfl⟩ | ⟨rest, rfl⟩ := append_cases hall
  · rw [ofTexts, mapM_eq_ok_map (hread .header (List.subset_append_left ..)),
      hstop .implementation (List.subset_append_right ..)]
    rfl
  · rw [ofTexts, hstop .header (List.Subset.refl _)]
    rfl

/-- The first header whose mark an earlier one has stops the classifying. -/
theorem ofTexts_of_collision {before after : List NamedText} {first t : NamedText} {mark : Mark}
    (h : ∀ s ∈ headers ++ implementations, ∀ digits, ¬ s.Misnumbers digits)
    (hheaders : headers = before ++ t :: after) (hbefore : Distinct before)
    (hfirst : first ∈ before) (hmark : first.Declares mark) (ht : t.Declares mark) :
    ofTexts headers implementations = .error (.duplicate mark first.path t.path) := by
  have hfiles : files headers implementations =
      before.map (file .header) ++ t.file .header ::
        (after.map (file .header) ++ implementations.map (file .implementation)) := by
    simp [files, hheaders]
  have hm {s : NamedText} (hs : s.Declares mark) : (s.file .header).mark? = some mark := by
    rw [mark?_file, mark?_eq_some_iff]
    exact hs
  rw [ofTexts_of_readable h, hfiles]
  exact addAll_eq_error (pairwise_headers_iff.2 hbefore) (List.mem_map_of_mem hfirst) rfl (hm hmark)
    rfl (hm ht) _

theorem exists_ofTexts_iff :
    (∃ c, ofTexts headers implementations = .ok c) ↔
      (∀ t ∈ headers ++ implementations, ∀ digits, ¬ t.Misnumbers digits) ∧ Distinct headers := by
  constructor
  · rintro ⟨c, hc⟩
    have hread : ∀ t ∈ headers ++ implementations, ∀ digits, ¬ t.Misnumbers digits := by
      intro t ht digits hdigits
      obtain ⟨before, s, after, hall, hbefore, other, hs⟩ :=
        exists_first (p := fun t => ∃ digits, t.Misnumbers digits) ⟨t, ht, digits, hdigits⟩
      rw [ofTexts_of_misnumbers hall (fun s h => not_exists.1 (hbefore s h)) hs] at hc
      cases hc
    rw [ofTexts_of_readable hread] at hc
    exact ⟨hread, pairwise_files_iff.1 ((exists_addAll_iff _).1 ⟨c, hc⟩)⟩
  · rintro ⟨hread, hdistinct⟩
    rw [ofTexts_of_readable hread]
    exact (exists_addAll_iff _).2 (pairwise_files_iff.2 hdistinct)

/-- Texts can be classified exactly when no first line is a mark with an unreadable number and no
two headers declare one mark, however their numbers are written. If there is an unreadable number,
the first of them is the failure, whatever else is wrong. Otherwise the failure is the first header
whose mark an earlier one declared, with the path of that one before its own. The order of the files
does not decide whether there is a failure. -/
theorem ofTexts_outcome (headers implementations : List NamedText) :
    ((∃ c, ofTexts headers implementations = .ok c) ↔
      (∀ t ∈ headers ++ implementations, ∀ digits, ¬ t.Misnumbers digits) ∧ Distinct headers) ∧
    ((∃ t ∈ headers ++ implementations, ∃ digits, t.Misnumbers digits) →
      ∃ before t after digits, headers ++ implementations = before ++ t :: after ∧
        (∀ s ∈ before, ∀ digits, ¬ s.Misnumbers digits) ∧ t.Misnumbers digits ∧
        ofTexts headers implementations =
          .error (.invalidNumber t.path (String.ofList digits))) ∧
    ((∀ t ∈ headers ++ implementations, ∀ digits, ¬ t.Misnumbers digits) → ¬ Distinct headers →
      ∃ before t after first mark, headers = before ++ t :: after ∧ Distinct before ∧
        first ∈ before ∧ first.Declares mark ∧ t.Declares mark ∧
        ofTexts headers implementations = .error (.duplicate mark first.path t.path)) ∧
    (∀ headers' implementations', headers.Perm headers' → implementations.Perm implementations' →
      ((∃ c, ofTexts headers implementations = .ok c) ↔
        ∃ c, ofTexts headers' implementations' = .ok c)) := by
  refine ⟨exists_ofTexts_iff, ?_, ?_, ?_⟩
  · intro hbad
    obtain ⟨before, t, after, hall, hbefore, digits, ht⟩ := exists_first hbad
    have hbefore : ∀ s ∈ before, ∀ digits, ¬ s.Misnumbers digits :=
      fun s h => not_exists.1 (hbefore s h)
    exact ⟨before, t, after, digits, hall, hbefore, ht, ofTexts_of_misnumbers hall hbefore ht⟩
  · intro hread hcollide
    obtain ⟨before, t, after, hheaders, hbefore, first, hfirst, hmark⟩ :=
      exists_first_unrelated hcollide
    simp only [not_forall, not_not, exists_prop] at hmark
    obtain ⟨mark, hmark, ht⟩ := hmark
    exact ⟨before, t, after, first, mark, hheaders, hbefore, hfirst, hmark, ht,
      ofTexts_of_collision hread hheaders hbefore hfirst hmark ht⟩
  · intro headers' implementations' hh hi
    rw [exists_ofTexts_iff, exists_ofTexts_iff, Distinct.perm hh]
    simp only [(hh.append hi).mem_iff]

/-- Numbers are compared by value, however they are written. -/
example : ofTexts [⟨"/a.h", "// RANK=3\n"⟩, ⟨"/b.h", "  //// // RANK = 003\n"⟩] [] =
    .error (.duplicate ⟨.rank, 3⟩ "/a.h" "/b.h") := rfl

/-- The number that decimal digits write, each taken for its value in its own script. -/
def scriptValue (digits : List Char) : Nat :=
  digits.foldl (fun n c => 10 * n + (c.toNat - zeroOf c)) 0
where
  /-- The digit zero of the script of a digit. -/
  zeroOf (c : Char) : Nat :=
    (Text.decimalZeros.find? fun first => first ≤ c.toNat && c.toNat < first + 10).getD c.toNat

/-- A header whose rank is three, in the digits of another script. -/
def otherScript : NamedText := ⟨"/a.h", "// RANK=٣\n"⟩

/-- Digits of another script have the form of a number and are refused, though the number that they
write may be positive and fit. -/
theorem ofTexts_of_other_script :
    ofTexts [otherScript] [] = .error (.invalidNumber "/a.h" "٣") ∧
    ¬ ((∃ c, ofTexts [otherScript] [] = .ok c) ↔
      (∀ t ∈ [otherScript], ∀ series digits, Mark.Form series digits t.firstLine.toList →
        0 < scriptValue digits ∧ scriptValue digits ≤ Mark.maxNumber) ∧ Distinct [otherScript]) := by
  have hshape : Mark.shape? otherScript.firstLine.toList = some (.rank, ['٣']) := by
    decide +kernel
  have hform : Mark.Form .rank ['٣'] otherScript.firstLine.toList := Mark.shape?_eq_some_iff.1 hshape
  have hdigits : otherScript.Misnumbers ['٣'] := by
    refine ⟨⟨.rank, hform⟩, fun n hn => ?_⟩
    exact absurd (hn.1 '٣' List.mem_cons_self) (by decide)
  have hwritten : String.ofList ['٣'] = "٣" := by decide +kernel
  have hall : [otherScript] ++ [] = [] ++ otherScript :: [] := rfl
  have herror : ofTexts [otherScript] [] = .error (.invalidNumber "/a.h" "٣") := by
    rw [← hwritten]
    exact ofTexts_of_misnumbers hall (by simp) hdigits
  have hvalues : ∀ t ∈ [otherScript], ∀ series digits,
      Mark.Form series digits t.firstLine.toList →
        0 < scriptValue digits ∧ scriptValue digits ≤ Mark.maxNumber := by
    intro t ht series digits hform
    rw [List.mem_singleton.1 ht, ← Mark.shape?_eq_some_iff, hshape] at hform
    cases hform
    decide
  refine ⟨herror, fun hiff => ?_⟩
  obtain ⟨c, hc⟩ := hiff.2 ⟨hvalues, List.pairwise_singleton _ _⟩
  rw [herror] at hc
  cases hc

end Classification

end Amalgam
