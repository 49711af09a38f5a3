import Mathlib
import Amalgam.Classification
import Amalgam.Proofs.Steps

/-!
# The groups of a classification

Every file belongs to one of four groups, by its kind and its mark. A classification sorts a list of
files (`Sorts`) when each of its parts is what the files of one group give: a table holds the headers
of its series under their own numbers, a list keeps the order of arrival, an include set holds the
directives of its own group and no others.

Main results:

* `group_eq_unplaced_iff`, `group_eq_implementation_iff`: which files have no place.
* `add_eq_ok_iff`: what adding a file does, by its group.
* `Sorts.add`: if a file can be added, the new classification sorts the longer list.
* `sorts_ofFiles`: so the classification of a list of files sorts that list.
* `Sorts.add_eq_error_iff`: which file cannot be added to a classification that sorts a list.
* `Ascending.table_unique`: a table depends only on which headers its series has.
-/

namespace Amalgam

open Amalgam.Include

/-- The groups that files are sorted into. -/
inductive Group where
  | placed (series : Series)
  | unplaced
  | implementation
deriving DecidableEq

/-- The group of a file: a header goes by its mark, an implementation is one whatever its mark. -/
def SourceFile.group (f : SourceFile) : Group :=
  match f.kind, f.mark? with
  | .header, some mark => .placed mark.series
  | .header, none => .unplaced
  | .implementation, _ => .implementation

theorem SourceFile.group_eq_unplaced_iff {f : SourceFile} :
    f.group = .unplaced ↔ f.kind = .header ∧ f.rank = none ∧ f.exposeRank = none := by
  unfold SourceFile.group SourceFile.mark?
  cases f.kind <;> cases f.rank <;> cases f.exposeRank <;> simp

theorem SourceFile.group_eq_implementation_iff {f : SourceFile} :
    f.group = .implementation ↔ f.kind = .implementation := by
  unfold SourceFile.group
  cases f.kind <;> cases f.mark? <;> simp

theorem SourceFile.group_of_mark? {f : SourceFile} {mark : Mark} (hk : f.kind = .header)
    (hm : f.mark? = some mark) : f.group = .placed mark.series := by
  rw [SourceFile.group, hk, hm]

/-- The files of a group, in order. -/
def Group.members (g : Group) (files : List SourceFile) : List SourceFile :=
  files.filter fun f => f.group = g

theorem Group.mem_members {g : Group} {files : List SourceFile} {f : SourceFile} :
    f ∈ g.members files ↔ f ∈ files ∧ f.group = g := by
  simp [Group.members]

theorem Group.members_append (g : Group) (files more : List SourceFile) :
    g.members (files ++ more) = g.members files ++ g.members more :=
  List.filter_append ..

theorem Group.members_singleton (g : Group) (f : SourceFile) :
    g.members [f] = if f.group = g then [f] else [] := by
  simp [Group.members, List.filter_cons]

theorem Group.count_members (g : Group) (files : List SourceFile) (f : SourceFile) :
    (g.members files).count f = if f.group = g then files.count f else 0 := by
  unfold Group.members
  by_cases h : f.group = g
  · rw [if_pos h, List.count_filter (by simpa using h)]
  · rw [if_neg h, List.count_eq_zero]
    intro hf
    exact h (by simpa using (List.mem_filter.1 hf).2)

/-- The files that are not exposed headers. -/
def internalFiles (files : List SourceFile) : List SourceFile :=
  files.filter fun f => f.group ≠ .placed .expose

theorem mem_internalFiles {files : List SourceFile} {f : SourceFile} :
    f ∈ internalFiles files ↔ f ∈ files ∧ f.group ≠ .placed .expose := by
  simp [internalFiles]

/-- A file that is not exposed is in exactly one of the other three groups. -/
theorem perm_internalFiles (files : List SourceFile) :
    ((Group.placed .rank).members files ++
      (Group.unplaced.members files ++ Group.implementation.members files)).Perm
        (internalFiles files) := by
  rw [List.perm_iff_count]
  intro f
  simp only [List.count_append, Group.count_members]
  by_cases h : f.group = .placed .expose
  · have hf : f ∉ internalFiles files := fun hf => (mem_internalFiles.1 hf).2 h
    rw [List.count_eq_zero.2 hf, h]
    simp
  · rw [internalFiles, List.count_filter (by simpa using h)]
    rcases hg : f.group with (_ | _) | _ | _ <;> simp_all

/-- A file is exposed or it is not. -/
theorem perm_members_append_internalFiles (files : List SourceFile) :
    ((Group.placed .expose).members files ++ internalFiles files).Perm files := by
  have h := List.filter_append_perm (fun f : SourceFile => decide (f.group = .placed .expose)) files
  simpa [Group.members, internalFiles] using h

/-! ## Places -/

/-- The headers that the files have in a series, each once under its own number, in strictly
ascending order of the numbers. -/
structure Ascending (series : Series) (files : List SourceFile)
    (places : List (Nat × SourceFile)) : Prop where
  sorted : places.Pairwise fun p q => p.1 < q.1
  own : ∀ p ∈ places, p.2.mark? = some ⟨series, p.1⟩
  perm : (places.map Prod.snd).Perm ((Group.placed series).members files)

theorem Ascending.mem_iff {series : Series} {files : List SourceFile}
    {places : List (Nat × SourceFile)} (h : Ascending series files places) {n : Nat}
    {f : SourceFile} :
    (n, f) ∈ places ↔
      f ∈ (Group.placed series).members files ∧ f.mark? = some ⟨series, n⟩ := by
  constructor
  · intro hp
    exact ⟨h.perm.mem_iff.1 (List.mem_map_of_mem hp), h.own _ hp⟩
  · rintro ⟨hf, hm⟩
    obtain ⟨⟨k, f'⟩, hp, rfl⟩ := List.mem_map.1 (h.perm.mem_iff.2 hf)
    have hk : some (Mark.mk series k) = some ⟨series, n⟩ := (h.own _ hp).symm.trans hm
    cases hk
    exact hp

/-- A table depends only on which headers its series has, not on the order they came in. -/
theorem Ascending.table_unique {series : Series} {files files' : List SourceFile}
    {t t' : Std.ExtTreeMap Nat SourceFile} (h : Ascending series files t.toList)
    (h' : Ascending series files' t'.toList)
    (hp : ((Group.placed series).members files).Perm ((Group.placed series).members files')) :
    t = t' := by
  apply Std.ExtTreeMap.ext_getElem?
  intro n
  rw [Option.ext_iff]
  intro f
  rw [← Std.ExtTreeMap.mem_toList_iff_getElem?_eq_some,
    ← Std.ExtTreeMap.mem_toList_iff_getElem?_eq_some, h.mem_iff, h'.mem_iff, hp.mem_iff]

theorem ascending_nil (series : Series) : Ascending series [] [] :=
  ⟨List.Pairwise.nil, by simp, by simp [Group.members]⟩

/-- A file of another group has no place in the series. -/
theorem Ascending.append_of_ne {series : Series} {files : List SourceFile}
    {places : List (Nat × SourceFile)} (h : Ascending series files places) {f : SourceFile}
    (hg : f.group ≠ .placed series) : Ascending series (files ++ [f]) places := by
  refine ⟨h.sorted, h.own, ?_⟩
  rw [Group.members_append, Group.members_singleton, if_neg hg, List.append_nil]
  exact h.perm

theorem toList_insert_perm {t : Std.ExtTreeMap Nat SourceFile} {n : Nat} (f : SourceFile)
    (hn : t[n]? = none) : (t.insert n f).toList.Perm ((n, f) :: t.toList) := by
  have nodup : ∀ u : Std.ExtTreeMap Nat SourceFile, u.toList.Nodup := by
    intro u
    refine u.distinct_keys_toList.imp ?_
    rintro p _ hne rfl
    exact hne Std.ReflCmp.compare_self
  have hfresh : (n, f) ∉ t.toList := by
    rw [Std.ExtTreeMap.mem_toList_iff_getElem?_eq_some, hn]
    simp
  rw [List.perm_ext_iff_of_nodup (nodup _) (List.nodup_cons.2 ⟨hfresh, nodup t⟩)]
  rintro ⟨k, g⟩
  rw [List.mem_cons, Std.ExtTreeMap.mem_toList_iff_getElem?_eq_some,
    Std.ExtTreeMap.mem_toList_iff_getElem?_eq_some, Std.ExtTreeMap.getElem?_insert]
  by_cases hk : n = k
  · subst hk
    simp [hn, eq_comm]
  · simp [hk, Ne.symm hk]

/-- A header that takes a free place of the series is among its places from then on. -/
theorem Ascending.insert {series : Series} {files : List SourceFile}
    {t : Std.ExtTreeMap Nat SourceFile} (h : Ascending series files t.toList) {f : SourceFile}
    {n : Nat} (hk : f.kind = .header) (hm : f.mark? = some ⟨series, n⟩) (hn : t[n]? = none) :
    Ascending series (files ++ [f]) (t.insert n f).toList := by
  have hperm := toList_insert_perm f hn
  refine ⟨?_, ?_, ?_⟩
  · exact (t.insert n f).ordered_keys_toList.imp Nat.compare_eq_lt.1
  · intro p hp
    rcases List.mem_cons.1 (hperm.mem_iff.1 hp) with rfl | hp
    · exact hm
    · exact h.own p hp
  · rw [Group.members_append, Group.members_singleton,
      if_pos (SourceFile.group_of_mark? hk hm)]
    refine (hperm.map Prod.snd).trans ?_
    rw [List.map_cons]
    exact ((List.perm_cons f).2 h.perm).trans (List.perm_append_singleton f _).symm

/-! ## What adding a file does -/

namespace Classification

variable {c d : Classification} {files : List SourceFile} {f : SourceFile}

/-- The headers with a place in a series, by their numbers. -/
def table (c : Classification) : Series → Std.ExtTreeMap Nat SourceFile
  | .rank => c.ranked
  | .expose => c.exposed

/-- The directives that the files of a group gave. -/
def includesOf (c : Classification) : Group → IncludeSet
  | .placed .rank => c.rankedIncludes
  | .placed .expose => c.exposedIncludes
  | .unplaced => c.unrankedIncludes
  | .implementation => c.implementationIncludes

theorem holder?_eq (c : Classification) (mark : Mark) :
    c.holder? mark = (c.table mark.series)[mark.number]? := by
  obtain ⟨series, n⟩ := mark
  cases series <;> rfl

/-- A file can be added when it is an implementation, a header without a mark, or a header whose
place is free. -/
theorem add_eq_ok_iff :
    c.add f = .ok d ↔
      (f.kind = .implementation ∧ d = c.addImplementation f) ∨
      (f.kind = .header ∧ f.mark? = none ∧ d = c.place f none) ∨
      ∃ mark, f.kind = .header ∧ f.mark? = some mark ∧ c.holder? mark = none ∧
        d = c.place f (some mark) := by
  unfold add
  cases hk : f.kind with
  | implementation => simp [eq_comm]
  | header =>
    unfold addHeader
    cases hm : f.mark? with
    | none => simp [eq_comm]
    | some mark =>
      cases hh : c.holder? mark with
      | none => simp [hh, eq_comm]
      | some first => simp [hh]

theorem table_place (c : Classification) (f : SourceFile) (mark : Mark) (series : Series) :
    (c.place f (some mark)).table series =
      if mark.series = series then (c.table series).insert mark.number f else c.table series := by
  obtain ⟨s, n⟩ := mark
  cases s <;> cases series <;> rfl

theorem group_of_add_eq_ok (h : c.add f = .ok d) :
    (f.group = .implementation ∧ d = c.addImplementation f) ∨
      (f.group = .unplaced ∧ d = c.place f none) ∨
      ∃ mark, f.group = .placed mark.series ∧ d = c.place f (some mark) := by
  rcases add_eq_ok_iff.1 h with ⟨hk, hd⟩ | ⟨hk, hm, hd⟩ | ⟨mark, hk, hm, -, hd⟩
  · exact .inl ⟨by rw [SourceFile.group, hk], hd⟩
  · exact .inr (.inl ⟨by rw [SourceFile.group, hk, hm], hd⟩)
  · exact .inr (.inr ⟨mark, SourceFile.group_of_mark? hk hm, hd⟩)

/-- The table of a series gets the header that has a place in it, if that place was free. -/
theorem table_add (h : c.add f = .ok d) (series : Series) :
    (f.group ≠ .placed series ∧ d.table series = c.table series) ∨
      ∃ n, f.kind = .header ∧ f.mark? = some ⟨series, n⟩ ∧ (c.table series)[n]? = none ∧
        d.table series = (c.table series).insert n f := by
  rcases add_eq_ok_iff.1 h with ⟨hk, rfl⟩ | ⟨hk, hm, rfl⟩ | ⟨mark, hk, hm, hfree, rfl⟩
  · refine .inl ⟨by simp [SourceFile.group, hk], ?_⟩
    cases series <;> rfl
  · refine .inl ⟨by simp [SourceFile.group, hk, hm], ?_⟩
    cases series <;> rfl
  · rw [table_place, SourceFile.group_of_mark? hk hm]
    by_cases hs : mark.series = series
    · subst hs
      exact .inr ⟨mark.number, hk, hm, c.holder?_eq mark ▸ hfree, if_pos rfl⟩
    · exact .inl ⟨by simpa using hs, if_neg hs⟩

/-- The warning that a file gives when it is an implementation. -/
def warning? (f : SourceFile) : Option MisplacedMark := f.mark?.map fun mark => ⟨f.path, mark⟩

/-- The lists of the two groups without places, and the warnings, grow at their ends. -/
theorem lists_add (h : c.add f = .ok d) :
    d.unranked = c.unranked ++ Group.unplaced.members [f] ∧
    d.implementations = c.implementations ++ Group.implementation.members [f] ∧
    d.warnings = c.warnings ++ (Group.implementation.members [f]).filterMap warning? := by
  rw [Group.members_singleton, Group.members_singleton]
  rcases group_of_add_eq_ok h with ⟨hg, rfl⟩ | ⟨hg, rfl⟩ | ⟨mark, hg, rfl⟩
  · cases hm : f.mark? <;> simp [hg, addImplementation, warning?, hm]
  · simp [hg, place]
  · rcases mark with ⟨_ | _, n⟩ <;> simp [hg, place]

/-- The directives of a file go into the set of its group and into no other. -/
theorem includesOf_add (h : c.add f = .ok d) (g : Group) :
    d.includesOf g =
      if f.group = g then IncludeSet.addAll (c.includesOf g) f.includes else c.includesOf g := by
  rcases group_of_add_eq_ok h with ⟨hg, rfl⟩ | ⟨hg, rfl⟩ | ⟨mark, hg, rfl⟩
  · rw [hg]
    rcases g with (_ | _) | _ | _ <;> rfl
  · rw [hg]
    rcases g with (_ | _) | _ | _ <;> rfl
  · rw [hg]
    rcases mark with ⟨_ | _, n⟩ <;> rcases g with (_ | _) | _ | _ <;> rfl

/-! ## The invariant -/

/-- Each part of the classification is what the files of one group give. -/
structure Sorts (c : Classification) (files : List SourceFile) : Prop where
  places : ∀ series, Ascending series files (c.table series).toList
  unranked : c.unranked = Group.unplaced.members files
  implementations : c.implementations = Group.implementation.members files
  includes : ∀ g d, d ∈ c.includesOf g ↔ ∃ f ∈ g.members files, d ∈ f.includes
  warnings : c.warnings = (Group.implementation.members files).filterMap warning?

theorem sorts_empty : empty.Sorts [] := by
  refine ⟨?_, rfl, rfl, ?_, rfl⟩
  · intro series
    cases series <;> exact ascending_nil _
  · intro g d
    rcases g with (_ | _) | _ | _ <;> simp [includesOf, empty, Group.members]

/-- If a file can be added, the new classification sorts the longer list. -/
theorem Sorts.add (h : c.Sorts files) (hadd : c.add f = .ok d) : d.Sorts (files ++ [f]) := by
  obtain ⟨hunranked, himplementations, hwarnings⟩ := lists_add hadd
  refine ⟨?_, ?_, ?_, ?_, ?_⟩
  · intro series
    rcases table_add hadd series with ⟨hg, ht⟩ | ⟨n, hk, hm, hfree, ht⟩
    · rw [ht]
      exact (h.places series).append_of_ne hg
    · rw [ht]
      exact (h.places series).insert hk hm hfree
  · rw [hunranked, h.unranked, Group.members_append]
  · rw [himplementations, h.implementations, Group.members_append]
  · intro g e
    rw [includesOf_add hadd, Group.members_append, Group.members_singleton]
    by_cases hg : f.group = g
    · rw [if_pos hg, if_pos hg, IncludeSet.mem_addAll, h.includes]
      simp [or_and_right, exists_or]
    · rw [if_neg hg, if_neg hg, List.append_nil, h.includes]
  · rw [hwarnings, h.warnings, Group.members_append, List.filterMap_append]

/-- By induction on the files still to add: the classification sorts those it had and those. -/
theorem Sorts.addAll {more : List SourceFile} (h : c.Sorts files)
    (hadd : c.addAll more = .ok d) : d.Sorts (files ++ more) := by
  induction more generalizing c files with
  | nil =>
    cases hadd
    rw [List.append_nil]
    exact h
  | cons f rest ih =>
    rw [Classification.addAll, List.foldlM_cons, bind_eq_ok_iff] at hadd
    obtain ⟨e, hf, hadd⟩ := hadd
    have hsorts := ih (h.add hf) hadd
    rw [List.append_assoc, List.singleton_append] at hsorts
    exact hsorts

/-- The classification of a list of files sorts that list. -/
theorem sorts_ofFiles {headers implementations : List SourceFile}
    (h : ofFiles headers implementations = .ok c) : c.Sorts (headers ++ implementations) :=
  sorts_empty.addAll h

/-- A place is held by the header among the files that has its mark. -/
theorem Sorts.holder?_eq_some_iff (h : c.Sorts files) {mark : Mark} {first : SourceFile} :
    c.holder? mark = some first ↔
      first ∈ files ∧ first.kind = .header ∧ first.mark? = some mark := by
  rw [holder?_eq, ← Std.ExtTreeMap.mem_toList_iff_getElem?_eq_some, (h.places mark.series).mem_iff,
    Group.mem_members]
  constructor
  · rintro ⟨⟨hf, hg⟩, hm⟩
    refine ⟨hf, ?_, hm⟩
    cases hk : first.kind with
    | header => rfl
    | implementation => simp [SourceFile.group, hk] at hg
  · rintro ⟨hf, hk, hm⟩
    exact ⟨⟨hf, SourceFile.group_of_mark? hk hm⟩, hm⟩

/-- A file is refused when it is a header and one of the files is a header with its mark. -/
theorem Sorts.add_eq_error_iff (h : c.Sorts files) {failure : Failure} :
    c.add f = .error failure ↔
      f.kind = .header ∧ ∃ mark first, f.mark? = some mark ∧
        (first ∈ files ∧ first.kind = .header ∧ first.mark? = some mark) ∧
        failure = .duplicate mark first.path f.path := by
  simp only [add_eq_error, h.holder?_eq_some_iff]

/-- The internal directives are those of the files that are not exposed. -/
theorem Sorts.mem_internalIncludes (h : c.Sorts files) (e : Directive) :
    e ∈ c.internalIncludes ↔ ∃ f ∈ internalFiles files, e ∈ f.includes := by
  have hr := h.includes (.placed .rank) e
  have hu := h.includes .unplaced e
  have hi := h.includes .implementation e
  simp only [includesOf] at hr hu hi
  rw [internalIncludes, IncludeSet.mem_merge, IncludeSet.mem_merge, hr, hu, hi]
  simp only [← (perm_internalFiles files).mem_iff, List.mem_append, or_and_right, exists_or, or_assoc]

end Classification

end Amalgam
