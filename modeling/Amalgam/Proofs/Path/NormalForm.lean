import Mathlib
import Amalgam.Proofs.Path.Joining

/-!
# Normal forms

An absolute path is in normal form when nothing stands between its slashes but plain names.
Normalising gives such a path and moves no path that is one. What is seen from a path may be seen
from its normal form as well: each name goes down by one, each double dot goes up by one, and at the
root a double dot goes nowhere.

Main results:

* `isNormal_iff_isSpelledOut`, `normalize_eq_self_iff`: the normal forms are the spelled-out paths,
  and the absolute paths that normalising does not move.
* `foldl_walk_ups`: some double dots take as many names away, or all there are.
* `normalize_is_normal_form`: what an absolute path is normalised to, and what is seen from it.
-/

namespace Amalgam.Path

open Text

/-- Whether a path is absolute and has nothing but plain names between its slashes, and none at the
end: no empty name, no dot and no double dot. The root is the one such path that ends in a slash. -/
structure IsNormal (p : Path) : Prop where
  absolute : p.isAbsolute = true
  plain : p.spelling = "/" ∨
    ∀ piece ∈ (pieces '/' p.spelling.toList).tail, piece ≠ [] ∧ piece ≠ ['.'] ∧ piece ≠ ['.', '.']

theorem isPlain_ofList_iff {piece : List Char} :
    IsPlain (.ofList piece) ↔ piece ≠ [] ∧ piece ≠ ['.'] ∧ piece ≠ ['.', '.'] := by
  simp [IsPlain, ← String.toList_inj]

/-- What stands between the slashes of a spelled-out path. -/
theorem pieces_ofLocation {l : List String} (hl : ∀ name ∈ l, IsSegment name) (hne : l ≠ []) :
    pieces '/' (ofLocation l).spelling.toList = [] :: l.map String.toList := by
  have hspelling : (ofLocation l).spelling.toList = '/' :: (joinNames l).toList := by
    simp [ofLocation]
  rw [hspelling, pieces, if_pos rfl, toList_joinNames, pieces_intercalate (by simpa using hne)]
  simpa using fun name hname => (hl name hname).2

/-- Plain names joined by slashes, with a slash before them, spell out a path. -/
theorem isSpelledOut_of_pieces {p : Path} (habsolute : p.isAbsolute = true)
    (h : ∀ piece ∈ (pieces '/' p.spelling.toList).tail, IsPlain (.ofList piece)) :
    p.IsSpelledOut := by
  obtain ⟨rest, hrest⟩ : ∃ rest, p.spelling.toList = '/' :: rest := by
    rw [isAbsolute, decide_eq_true_eq, List.head?_eq_some_iff] at habsolute
    exact habsolute
  rw [hrest, pieces, if_pos rfl, List.tail_cons] at h
  refine ⟨(pieces '/' rest).map String.ofList, fun name hname => ?_, ?_⟩
  · obtain ⟨piece, hpiece, rfl⟩ := List.mem_map.1 hname
    exact ⟨h piece hpiece, by simpa using not_mem_of_mem_pieces hpiece⟩
  · have hnames : ((pieces '/' rest).map String.ofList).map String.toList = pieces '/' rest := by
      simp [Function.comp_def]
    rw [ofLocation, Path.mk.injEq, ← String.toList_inj, hrest, String.toList_append,
      toList_joinNames, hnames, intercalate_pieces]
    rfl

/-- The normal forms are the spelled-out paths. -/
theorem isNormal_iff_isSpelledOut {p : Path} : p.IsNormal ↔ p.IsSpelledOut := by
  constructor
  · rintro ⟨habsolute, hroot | hplain⟩
    · refine ⟨[], List.forall_mem_nil _, ?_⟩
      rw [ofLocation, Path.mk.injEq, hroot]
      rfl
    · exact isSpelledOut_of_pieces habsolute fun piece hpiece =>
        isPlain_ofList_iff.2 (hplain piece hpiece)
  · rintro ⟨l, hl, rfl⟩
    refine ⟨isAbsolute_ofLocation l, ?_⟩
    by_cases hne : l = []
    · subst hne
      exact .inl rfl
    · rw [pieces_ofLocation hl hne, List.tail_cons]
      refine .inr fun piece hpiece => ?_
      obtain ⟨name, hname, rfl⟩ := List.mem_map.1 hpiece
      rw [← isPlain_ofList_iff, String.ofList_toList]
      exact (hl name hname).1

/-- Normalising moves no path in normal form, and every other absolute path. -/
theorem normalize_eq_self_iff {p : Path} (hp : p.isAbsolute = true) :
    p.normalize = p ↔ p.IsNormal := by
  rw [isNormal_iff_isSpelledOut]
  exact ⟨fun h => h ▸ isSpelledOut_normalize hp, IsSpelledOut.normalize_eq⟩

/-- A path in normal form goes from the root through names alone. -/
theorem IsNormal.steps {p : Path} (h : p.IsNormal) :
    ∀ step ∈ p.components, step ≠ .here ∧ step ≠ .up := by
  obtain ⟨l, hl, rfl⟩ := isNormal_iff_isSpelledOut.1 h
  intro step hstep
  rw [components_ofLocation hl] at hstep
  rcases List.mem_cons.1 hstep with rfl | hstep
  · simp
  · obtain ⟨name, -, rfl⟩ := List.mem_map.1 hstep
    simp

/-! ## Going up -/

/-- The path of some double dots. -/
def ups (count : Nat) : Path := ofComponents (List.replicate count .up)

theorem components_ups (count : Nat) : (ups count).components = List.replicate count .up :=
  components_ofMoves fun step hstep => by
    rw [List.eq_of_mem_replicate hstep]
    exact .up

theorem isAbsolute_ups (count : Nat) : (ups count).isAbsolute = false := by
  rw [Bool.eq_false_iff, ne_eq, isAbsolute_iff, components_ups]
  cases count <;> simp [List.replicate_succ]

/-- Some double dots take as many names away, or all there are. -/
theorem foldl_walk_ups (names : List String) (count : Nat) :
    (List.replicate count Component.up).foldl walk names = names.take (names.length - count) := by
  -- The first double dot takes one name away, whatever the others find then.
  induction count generalizing names with
  | zero => simp
  | succ count ih =>
    rw [List.replicate_succ, List.foldl_cons, walk, ih, List.dropLast_eq_take, List.take_take,
      List.length_take]
    congr 1
    omega

/-! ## Normalising -/

section Normalize

variable {p : Path} (hp : p.isAbsolute = true)

include hp

theorem normalize_normalize : p.normalize.normalize = p.normalize :=
  (isSpelledOut_normalize hp).normalize_eq

/-- What is seen from an absolute path is normalised as from its normal form. -/
theorem normalize_join_normalize (q : Path) :
    (p.join q).normalize = (p.normalize.join q).normalize :=
  normalize_join_congr hp (isSpelledOut_normalize hp).isAbsolute (normalize_normalize hp).symm q

/-- A name goes down by one. -/
theorem normalize_join_name {name : String} (hname : IsSegment name) :
    (p.join ⟨name⟩).normalize = ofLocation (normalNames p.components ++ [name]) := by
  rw [normalize_of_isAbsolute (isAbsolute_join_of_isAbsolute hp _),
    components_join hname.1 hname.2, normalNames_append]
  rfl

/-- Double dots go up, each by one, but not above the root. -/
theorem normalize_join_ups (count : Nat) :
    (p.join (ups count)).normalize =
      ofLocation ((normalNames p.components).take ((normalNames p.components).length - count)) := by
  rw [normalize_of_isAbsolute (isAbsolute_join_of_isAbsolute hp _),
    normalNames_join (isAbsolute_ups count), components_ups, foldl_walk_ups]

end Normalize

/-- Normalising an absolute path gives its normal form, and moves only paths that are none; so it
moves no path twice. What is seen from the path is normalised as from its normal form. There a name
goes down by one, and each double dot takes one name away from the end; those in excess stay at the
root, and all that is seen from there is seen from the root. -/
theorem normalize_is_normal_form {p : Path} (hp : p.isAbsolute = true) :
    p.normalize.IsNormal ∧
    (∀ step ∈ p.normalize.components, step ≠ .here ∧ step ≠ .up) ∧
    (p.normalize = p ↔ p.IsNormal) ∧
    p.normalize.normalize = p.normalize ∧
    (∀ q : Path, q.isAbsolute = false → (p.join q).normalize = (p.normalize.join q).normalize) ∧
    ∃ names : List String, (∀ name ∈ names, IsSegment name) ∧ p.normalize = ofLocation names ∧
      (∀ name, IsSegment name → (p.join ⟨name⟩).normalize = ofLocation (names ++ [name])) ∧
      (∀ count, (p.join (ups count)).normalize = ofLocation (names.take (names.length - count))) ∧
      ∀ count, names.length ≤ count → (p.join (ups count)).normalize = ⟨"/"⟩ ∧
        ∀ q : Path, q.isAbsolute = false →
          ((p.join (ups count)).join q).normalize = (join ⟨"/"⟩ q).normalize := by
  have hnormal : p.normalize.IsNormal := isNormal_iff_isSpelledOut.2 (isSpelledOut_normalize hp)
  refine ⟨hnormal, hnormal.steps, normalize_eq_self_iff hp, normalize_normalize hp, fun q _ =>
    normalize_join_normalize hp q, normalNames p.components, fun name hname =>
    isSegment_of_mem_normalNames hname, normalize_of_isAbsolute hp, fun name hname =>
    normalize_join_name hp hname, normalize_join_ups hp, fun count hcount => ?_⟩
  have hroot : (p.join (ups count)).normalize = ⟨"/"⟩ := by
    rw [normalize_join_ups hp, Nat.sub_eq_zero_of_le hcount, List.take_zero]
    rfl
  refine ⟨hroot, fun q _ => ?_⟩
  rw [normalize_join_normalize (isAbsolute_join_of_isAbsolute hp _), hroot]

/-- More double dots than names, in the path and behind it. -/
theorem normalize_is_normal_form_excess :
    let p : Path := ⟨"/../a//./b/../c/"⟩
    p.isAbsolute = true ∧ p.normalize = ⟨"/a/c"⟩ ∧ p.normalize.IsNormal ∧
      (p.join (ups 3)).normalize = ⟨"/"⟩ ∧
      ((p.join (ups 3)).join ⟨"d"⟩).normalize = (join ⟨"/"⟩ ⟨"d"⟩).normalize := by
  intro p
  have hp : p.isAbsolute = true := by decide
  obtain ⟨hnormal, -, -, -, -, names, hsegments, hnames, -, -, hexcess⟩ :=
    normalize_is_normal_form hp
  have hvalue : names = ["a", "c"] := by
    rw [← names_ofLocation hsegments, ← hnames]
    decide +kernel
  obtain ⟨hroot, hseen⟩ := hexcess 3 (by rw [hvalue]; decide)
  exact ⟨hp, by decide +kernel, hnormal, hroot, hseen ⟨"d"⟩ (by decide)⟩

end Amalgam.Path
