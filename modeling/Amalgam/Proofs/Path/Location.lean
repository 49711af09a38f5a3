import Mathlib
import Amalgam.Proofs.Path.Steps

/-!
# Spelled-out paths

A location is spelled out by an absolute path that holds the names on its way and nothing else. Such
a path is its own normal form, so two of them are the same only if they are spelled alike, and what
lies below it is spelled out again.

Main results:

* `components_ofLocation`, `same_ofLocation_iff`: a spelled-out path goes the names of its location.
* `normalize_ofLocation`, `isSpelledOut_normalize`: these paths are what normalising gives.
* `join_ofLocation`: names below a location are spelled out after it.
* `steps_joinNames`: names below any path are steps after its own.
-/

namespace Amalgam.Path

/-- A name that can stand between the slashes of a path and means itself there. -/
def IsSegment (name : String) : Prop := IsPlain name ∧ '/' ∉ name.toList

theorem IsSegment.isMove {name : String} (h : IsSegment name) : (Component.name name).IsMove :=
  .name h.1 h.2

theorem isSegment_of_name_mem_components {p : Path} {name : String}
    (h : Component.name name ∈ p.components) : IsSegment name := by
  rw [components, List.mem_append] at h
  rcases h with h | h
  · rw [start] at h
    split at h
    · simp at h
    · split at h <;> simp at h
  · cases isMove_of_mem_moves h with
    | name plain slash => exact ⟨plain, slash⟩

/-- The names that are left of a path are names of it. -/
theorem isSegment_of_mem_normalNames {p : Path} {name : String}
    (h : name ∈ normalNames p.components) : IsSegment name :=
  isSegment_of_name_mem_components (name_mem_of_mem_normalNames h)

section Names

variable {names : List String} (h : ∀ name ∈ names, IsSegment name)

include h

theorem isMove_of_mem_map_name : ∀ step ∈ names.map Component.name, step.IsMove := by
  rintro step hstep
  obtain ⟨name, hname, rfl⟩ := List.mem_map.1 hstep
  exact (h name hname).isMove

/-- Segments joined by slashes end in no slash. -/
theorem getLast?_joinNames_ne : (joinNames names).toList.getLast? ≠ some '/' := by
  rcases names.eq_nil_or_concat with rfl | ⟨front, last, rfl⟩
  · simp [joinNames]
  · simp only [List.concat_eq_append] at h ⊢
    obtain ⟨⟨hne, -⟩, hslash⟩ := h last (by simp)
    have hlast : ∀ before : List Char, (before ++ last.toList).getLast? ≠ some '/' := by
      intro before hbefore
      rw [List.getLast?_append_of_ne_nil _ (by simpa using hne)] at hbefore
      exact hslash (List.mem_of_getLast? hbefore)
    rw [joinNames]
    by_cases hfront : front = []
    · simpa [hfront] using hlast []
    · rw [String.intercalate_append_of_ne_nil hfront (by simp), String.intercalate_singleton,
        String.toList_append]
      exact hlast _

variable (hne : names ≠ [])

include hne

theorem joinNames_ne : joinNames names ≠ "" := by
  obtain ⟨name, rest, rfl⟩ := List.exists_cons_of_ne_nil hne
  have hname := (h name List.mem_cons_self).1.1
  intro h0
  have htext := congrArg String.toList h0
  rw [toList_joinNames] at htext
  cases rest <;> simp_all

theorem isAbsolute_joinNames : (Path.mk (joinNames names)).isAbsolute = false := by
  obtain ⟨name, rest, rfl⟩ := List.exists_cons_of_ne_nil hne
  obtain ⟨⟨hname, -⟩, hslash⟩ := h name List.mem_cons_self
  exact isAbsolute_joinNames_cons rest hname hslash

end Names

theorem mem_joinNames {names : List String} {c : Char} (h : c ∈ (joinNames names).toList) :
    c = '/' ∨ ∃ name ∈ names, c ∈ name.toList := by
  induction names with
  | nil => simp [joinNames] at h
  | cons name rest ih =>
    by_cases hrest : rest = []
    · subst hrest
      exact .inr ⟨name, by simp, by simpa [joinNames] using h⟩
    · rw [joinNames, String.intercalate_cons_of_ne_nil hrest, ← joinNames, String.toList_append,
        String.toList_append] at h
      simp only [List.mem_append] at h
      rcases h with (h | h) | h
      · exact .inr ⟨name, List.mem_cons_self, h⟩
      · exact .inl (List.mem_singleton.1 h)
      · rcases ih h with hslash | ⟨n, hn, hc⟩
        · exact .inl hslash
        · exact .inr ⟨n, List.mem_cons_of_mem _ hn, hc⟩

/-! ## The path of a location -/

theorem ofLocation_eq (l : List String) :
    ofLocation l = ofComponents (.root :: l.map Component.name) := by
  cases l with
  | nil => rfl
  | cons name rest =>
    have hspelling : ofComponents (.root :: (name :: rest).map Component.name) =
        ⟨joinNames ("" :: name :: rest.map (Component.text ∘ Component.name))⟩ := by
      rw [← List.map_map]
      rfl
    have htext : Component.text ∘ Component.name = id := rfl
    rw [hspelling, htext, List.map_id, ofLocation, joinNames, joinNames,
      String.intercalate_cons_cons, String.empty_append]

theorem isAbsolute_ofLocation (l : List String) : (ofLocation l).isAbsolute = true := by
  simp [isAbsolute, ofLocation]

section Location

variable {l m : List String} (hl : ∀ name ∈ l, IsSegment name)

include hl

theorem components_ofLocation : (ofLocation l).components = .root :: l.map Component.name := by
  rw [ofLocation_eq]
  exact components_ofRoot (isMove_of_mem_map_name hl)

theorem names_ofLocation : (ofLocation l).names = l := by
  have hspelling : (ofLocation l).spelling.toList = [] ++ '/' :: (joinNames l).toList := by
    simp [ofLocation]
  have hbefore : (Path.mk (.ofList [])).names = [] := rfl
  rw [names_of_slash hspelling, hbefore, String.ofList_toList,
    names_joinNames fun name hname => (hl name hname).2, List.nil_append, List.filter_eq_self]
  exact fun name hname => by simpa using (hl name hname).1.1

/-- The way of a spelled-out path goes its names, and no slash stands at the end. -/
theorem route_ofLocation : (ofLocation l).route = l := by
  rw [route, names_ofLocation hl]
  split
  · next h =>
    obtain ⟨hne, hlast⟩ := h
    have htext : (joinNames l).toList ≠ [] := by simpa using joinNames_ne hl hne
    rw [ofLocation, String.toList_append, List.getLast?_append_of_ne_nil _ htext] at hlast
    exact absurd hlast (getLast?_joinNames_ne hl)
  · rfl

theorem foldl_walk_names (here : List String) :
    (l.map Component.name).foldl walk here = here ++ l := by
  induction l generalizing here with
  | nil => simp
  | cons name rest ih =>
    rw [List.map_cons, List.foldl_cons, ih fun n hn => hl n (List.mem_cons_of_mem _ hn), walk]
    simp

theorem normalNames_ofLocation : normalNames (ofLocation l).components = l := by
  rw [components_ofLocation hl, normalNames, List.foldl_cons]
  exact foldl_walk_names hl []

theorem normalize_ofLocation : (ofLocation l).normalize = ofLocation l := by
  rw [normalize, isAbsolute_ofLocation, if_pos rfl, normalNames_ofLocation hl]

/-- Spelled-out paths are the same only when their locations are. -/
theorem same_ofLocation_iff (hm : ∀ name ∈ m, IsSegment name) :
    Same (ofLocation l) (ofLocation m) ↔ l = m := by
  rw [same_iff, components_ofLocation hl, components_ofLocation hm, List.cons.injEq]
  simp [List.map_inj_right fun a b (h : Component.name a = .name b) => Component.name.inj h]

end Location

/-! ## What lies below -/

/-- What stands before a relative path that is seen from another one. -/
theorem exists_lead (p : Path) :
    ∃ lead : String, (∀ {q : Path}, q.isAbsolute = false → p.join q = ⟨lead ++ q.spelling⟩) ∧
      p.spelling.utf8ByteSize ≤ lead.utf8ByteSize := by
  by_cases h : p.spelling = "" ∨ p.spelling.toList.getLast? = some '/'
  · exact ⟨p.spelling, fun hq => by rw [join, hq, if_neg (by decide), if_pos h], le_rfl⟩
  · refine ⟨p.spelling ++ "/", fun hq => by rw [join, hq, if_neg (by decide), if_neg h], ?_⟩
    simp [String.utf8ByteSize_append]

section Below

variable {names : List String} (h : ∀ name ∈ names, IsSegment name) (hne : names ≠ [])

include h hne

/-- Names below a location are spelled out after it. -/
theorem join_ofLocation {l : List String} (hl : ∀ name ∈ l, IsSegment name) :
    (ofLocation l).join ⟨joinNames names⟩ = ofLocation (l ++ names) := by
  rw [join, isAbsolute_joinNames h hne, if_neg (by decide)]
  by_cases hl0 : l = []
  · subst hl0
    rw [if_pos (.inr rfl)]
    rfl
  · have htext : (joinNames l).toList ≠ [] := by simpa using joinNames_ne hl hl0
    have hlast : (ofLocation l).spelling.toList.getLast? ≠ some '/' := by
      rw [ofLocation, String.toList_append, List.getLast?_append_of_ne_nil _ htext]
      exact getLast?_joinNames_ne hl
    have hempty : (ofLocation l).spelling ≠ "" := by simp [ofLocation]
    rw [if_neg (by simp [hlast, hempty])]
    simp only [ofLocation, joinNames, String.intercalate_append_of_ne_nil hl0 hne,
      String.append_assoc]

end Below

/-- A name below a location is spelled out after it. -/
theorem join_ofLocation_name {l : List String} {name : String} (h : IsSegment name)
    (hl : ∀ n ∈ l, IsSegment n) : (ofLocation l).join ⟨name⟩ = ofLocation (l ++ [name]) := by
  have hone : joinNames [name] = name := String.intercalate_singleton
  rw [← join_ofLocation (by simpa using h) (List.cons_ne_nil name []) hl, hone]

section Below

variable {names : List String} (h : ∀ name ∈ names, IsSegment name) (hne : names ≠ [])

include h hne

/-- The last one of several names below a path stands below the others. -/
theorem join_joinNames_concat {last : String} (hlast : IsSegment last) (p : Path) :
    p.join ⟨joinNames (names ++ [last])⟩ = (p.join ⟨joinNames names⟩).join ⟨last⟩ := by
  have htext : (joinNames names).toList ≠ [] := by simpa using joinNames_ne h hne
  have hall : ∀ name ∈ names ++ [last], IsSegment name := by
    simpa [or_imp, forall_and] using ⟨h, hlast⟩
  obtain ⟨lead, hlead, -⟩ := exists_lead p
  have hend : (lead ++ joinNames names).toList.getLast? ≠ some '/' := by
    rw [String.toList_append, List.getLast?_append_of_ne_nil _ htext]
    exact getLast?_joinNames_ne h
  have hempty : lead ++ joinNames names ≠ "" := by simp [joinNames_ne h hne]
  rw [hlead (isAbsolute_joinNames hall (by simp)), hlead (isAbsolute_joinNames h hne), join,
    isAbsolute_of_isPlain hlast.1 hlast.2, if_neg (by decide), if_neg (not_or.2 ⟨hempty, hend⟩)]
  simp only [joinNames, String.intercalate_append_of_ne_nil hne (List.cons_ne_nil last []),
    String.intercalate_singleton, String.append_assoc]

end Below

/-- Names below a path are steps after its own, and it starts where the path does. -/
theorem steps_joinNames {names : List String} (h : ∀ name ∈ names, IsSegment name)
    (hne : names ≠ []) (p : Path) :
    (p.join ⟨joinNames names⟩).start = p.start ∧
      (p.join ⟨joinNames names⟩).isAbsolute = p.isAbsolute ∧
      (p.join ⟨joinNames names⟩).components = p.components ++ names.map Component.name := by
  induction names using List.reverseRecOn with
  | nil => exact absurd rfl hne
  | append_singleton front last ih =>
    obtain ⟨hplain, hslash⟩ : IsSegment last := h last (by simp)
    by_cases hfront : front = []
    · subst hfront
      have hone : joinNames ([] ++ [last]) = last := String.intercalate_singleton
      rw [hone]
      exact ⟨start_join hplain hslash p, isAbsolute_join hplain hslash p,
        components_join hplain hslash p⟩
    · have hfront' : ∀ name ∈ front, IsSegment name := fun n hn => h n (List.mem_append_left _ hn)
      obtain ⟨hs, ha, hc⟩ := ih hfront' hfront
      rw [join_joinNames_concat hfront' hfront ⟨hplain, hslash⟩, start_join hplain hslash,
        isAbsolute_join hplain hslash, components_join hplain hslash, hs, ha, hc]
      simp

/-! ## Paths that are spelled out -/

/-- Whether a path spells out a location. -/
def IsSpelledOut (p : Path) : Prop :=
  ∃ l : List String, (∀ name ∈ l, IsSegment name) ∧ p = ofLocation l

/-- What an absolute path is normalised to is spelled out. -/
theorem isSpelledOut_normalize {p : Path} (h : p.isAbsolute = true) : p.normalize.IsSpelledOut := by
  exact ⟨normalNames p.components, fun name hname => isSegment_of_mem_normalNames hname,
    by rw [normalize, if_pos h]⟩

/-- Spelled-out paths are the same only when they are spelled alike. -/
theorem IsSpelledOut.same_iff_eq {p q : Path} (hp : p.IsSpelledOut) (hq : q.IsSpelledOut) :
    Same p q ↔ p = q := by
  obtain ⟨l, hl, rfl⟩ := hp
  obtain ⟨m, hm, rfl⟩ := hq
  rw [same_ofLocation_iff hl hm]
  constructor
  · rintro rfl
    rfl
  · intro h
    exact (same_ofLocation_iff hl hm).1 (h ▸ Same.refl _)

theorem IsSpelledOut.normalize_eq {p : Path} (h : p.IsSpelledOut) : p.normalize = p := by
  obtain ⟨l, hl, rfl⟩ := h
  exact normalize_ofLocation hl

theorem IsSpelledOut.isAbsolute {p : Path} (h : p.IsSpelledOut) : p.isAbsolute = true := by
  obtain ⟨l, -, rfl⟩ := h
  exact isAbsolute_ofLocation l

/-! ## Sizes -/

/-- A path above a spelled-out one is no longer than it. -/
theorem size_ofLocation_le {l m : List String} (h : l <+: m) (hm : ∀ name ∈ m, IsSegment name) :
    (ofLocation l).spelling.utf8ByteSize ≤ (ofLocation m).spelling.utf8ByteSize := by
  obtain ⟨more, rfl⟩ := h
  by_cases hmore : more = []
  · simp [hmore]
  · have hs : ∀ name ∈ more, IsSegment name := fun n hn => hm n (List.mem_append_right _ hn)
    obtain ⟨lead, hlead, hsize⟩ := exists_lead (ofLocation l)
    rw [← join_ofLocation hs hmore fun n hn => hm n (List.mem_append_left _ hn),
      hlead (isAbsolute_joinNames hs hmore)]
    exact hsize.trans (by simp [String.utf8ByteSize_append])

end Amalgam.Path
