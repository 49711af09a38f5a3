import Mathlib
import Amalgam.Discovery
import Amalgam.Proofs.Disk.Location
import Amalgam.Proofs.Steps
import Amalgam.Proofs.Text.ByteOrder

/-!
# What is found

Every accepted path on a walk from one of the roots is found, once under one of its spellings, and
nothing else; and what is found stands in the order of the bytes of the spelling.

Main results:

* `exists_find_iff`: a search succeeds when every root can be walked.
* `pairwise_of_find`: the order of what is found.
* `of_mem_find`, `exists_same_of_find`: which paths are found.
* `find_of_keep`: what a search finds that takes less.
-/

namespace Amalgam

/-! ## Paths in order -/

namespace Path

/-- Whether the bytes of a path come before those of another one. -/
def Before (p q : Path) : Prop :=
  Text.Utf8.encode p.spelling.toList < Text.Utf8.encode q.spelling.toList

theorem before_iff {p q : Path} : p.Before q ↔ p.spelling < q.spelling := Text.before_iff

instance : Std.Irrefl Before := ⟨fun _ => List.lt_irrefl _⟩

instance : Std.Antisymm Before := ⟨fun _ _ h h' => absurd h' (List.lt_asymm h)⟩

theorem mem_sortBySpelling {p : Path} {paths : List Path} : p ∈ sortBySpelling paths ↔ p ∈ paths :=
  List.mem_mergeSort

theorem mem_of_mem_distinct {p : Path} {paths : List Path} (h : p ∈ distinct paths) : p ∈ paths := by
  induction paths with
  | nil => exact h
  | cons q rest ih =>
    rw [distinct] at h
    rcases List.mem_cons.1 h with rfl | h
    · exact List.mem_cons_self
    · exact List.mem_cons_of_mem q (ih (List.mem_of_mem_filter h))

/-- Of every path one spelling is kept. -/
theorem exists_same_of_mem {p : Path} {paths : List Path} (h : p ∈ paths) :
    ∃ q ∈ distinct paths, Same p q := by
  induction paths with
  | nil => cases h
  | cons first rest ih =>
    rw [distinct]
    by_cases hsame : Same p first
    · exact ⟨first, List.mem_cons_self, hsame⟩
    · obtain ⟨q, hq, hpq⟩ := ih ((List.mem_cons.1 h).resolve_left fun heq => hsame (heq ▸ .refl _))
      refine ⟨q, List.mem_cons_of_mem _ (List.mem_filter.2 ⟨hq, ?_⟩), hpq⟩
      simpa using fun hqf => hsame (hpq.trans hqf)

theorem pairwise_distinct (paths : List Path) : (distinct paths).Pairwise fun p q => ¬ Same p q := by
  induction paths with
  | nil => exact .nil
  | cons first rest ih =>
    rw [distinct, List.pairwise_cons]
    refine ⟨fun q hq hsame => ?_, ih.filter _⟩
    have hne := (List.mem_filter.1 hq).2
    simp [hsame.symm] at hne

/-- A rule that does not go by the spelling of a path may be applied before or after one spelling of
every path is kept. -/
theorem distinct_filter {keep : Path → Bool} (hkeep : ∀ p q, Same p q → keep p = keep q)
    (paths : List Path) : distinct (paths.filter keep) = (distinct paths).filter keep := by
  induction paths with
  | nil => rfl
  | cons first rest ih =>
    rw [distinct, List.filter_cons, List.filter_cons]
    split
    · rw [distinct, ih, List.filter_filter, List.filter_filter]
      simp only [Bool.and_comm]
    · next hfirst =>
      rw [ih, List.filter_filter]
      refine List.filter_congr fun q _ => ?_
      have hother : keep q = true → ¬ Same q first := fun hq hsame =>
        hfirst (hkeep q first hsame ▸ hq)
      cases hq : keep q <;> simp_all

/-- Sorting brings no path in two spellings. -/
theorem pairwise_not_same_sortBySpelling {paths : List Path}
    (h : paths.Pairwise fun p q => ¬ Same p q) :
    (sortBySpelling paths).Pairwise fun p q => ¬ Same p q :=
  (List.Perm.pairwise_iff (fun hpq hqp => hpq hqp.symm) (List.mergeSort_perm paths _)).2 h

/-- Paths of which none is the same as another stand in strict order when they are sorted. -/
theorem pairwise_sortBySpelling {paths : List Path} (h : paths.Pairwise fun p q => ¬ Same p q) :
    (sortBySpelling paths).Pairwise Before := by
  have hle : (sortBySpelling paths).Pairwise fun p q : Path => decide (p.spelling ≤ q.spelling) = true :=
    List.pairwise_mergeSort (by simpa using fun p q r : Path => String.le_trans)
      (by simpa using fun p q : Path => String.le_total p.spelling q.spelling) paths
  refine (hle.and (pairwise_not_same_sortBySpelling h)).imp fun {p q} ⟨hpq, hsame⟩ => before_iff.2 ?_
  refine lt_of_le_of_ne (by simpa using hpq) fun heq => hsame ?_
  obtain rfl : p = q := by cases p; cases q; simp_all
  exact .refl p

end Path

open Amalgam.Path

/-! ## Walks -/

namespace Disk

variable {d : Disk} {root : Path} {location : Location}

/-- The stops of a walk are its root and all that lies below it. -/
theorem mem_visits_iff (h : d.locate root = .ok location) {visit : Visit} :
    visit ∈ d.visits root ↔ visit = ⟨root, .dir⟩ ∨
      ∃ more, more ≠ [] ∧ d.node? (location ++ more) = some visit.node ∧
        visit.path = root.join ⟨joinNames more⟩ := by
  rw [visits, h]
  simp only [List.mem_cons, List.mem_map, Prod.exists, mem_below_iff]
  refine or_congr_right ⟨?_, ?_⟩
  · rintro ⟨l, node, ⟨⟨more, rfl⟩, hne, hnode⟩, rfl⟩
    exact ⟨more, by simpa using hne, hnode, by simp⟩
  · obtain ⟨path, node⟩ := visit
    rintro ⟨more, hne, hnode, rfl⟩
    exact ⟨location ++ more, node, ⟨List.prefix_append _ _, by simpa using hne, hnode⟩, by simp⟩

end Disk

namespace Discovery

variable {d : Disk} {root : Path} {roots : List Path} {rejects : Rejects} {ending : String}

/-- Whether a path is that of something below one of the roots, seen from there. -/
def Below (d : Disk) (roots : List Path) (p : Path) : Prop :=
  ∃ root ∈ roots, ∃ location more, d.locate root = .ok location ∧ more ≠ [] ∧
    (d.node? (location ++ more)).isSome ∧ p = root.join ⟨joinNames more⟩

theorem walkRoot_eq_ok_iff {paths : List Path} :
    walkRoot d root = .ok paths ↔ d.isDir root = true ∧ d.walk root = .ok paths := by
  rw [walkRoot]
  split
  · next hdir => simp [hdir, mapError_eq_ok_iff]
  · next hdir => simp [hdir]

/-- A walk passes its root and what lies below it. -/
theorem mem_walkRoot_iff {paths : List Path} (h : walkRoot d root = .ok paths) {p : Path} :
    p ∈ paths ↔ p = root ∨ Below d [root] p := by
  obtain ⟨hdir, hwalk⟩ := walkRoot_eq_ok_iff.1 h
  obtain ⟨location, hlocate, -⟩ := Disk.isDir_eq_true_iff.1 hdir
  rw [(Disk.walk_eq_ok_iff.1 hwalk).2]
  simp only [List.mem_map, Disk.mem_visits_iff hlocate, Below, List.mem_singleton, exists_eq_left]
  constructor
  · rintro ⟨visit, rfl | ⟨more, hne, hnode, hpath⟩, rfl⟩
    · exact .inl rfl
    · exact .inr ⟨location, more, hlocate, hne, by simp [hnode], hpath⟩
  · rintro (rfl | ⟨location', more, hlocate', hne, hsome, rfl⟩)
    · exact ⟨⟨p, .dir⟩, .inl rfl, rfl⟩
    · obtain rfl : location = location' := Except.ok.inj (hlocate.symm.trans hlocate')
      obtain ⟨node, hnode⟩ := Option.isSome_iff_exists.1 hsome
      exact ⟨⟨_, node⟩, .inr ⟨more, hne, hnode, rfl⟩, rfl⟩

/-! ## Searches -/

theorem find_eq_ok_iff {found : List Path} :
    find d roots rejects ending = .ok found ↔ ∃ walks, roots.mapM (walkRoot d) = .ok walks ∧
      sortBySpelling (distinct (walks.flatten.filter (accepts d rejects ending))) = found := by
  rw [find_eq, map_eq_ok_iff]

/-- A search succeeds when every root can be walked. -/
theorem exists_find_iff :
    (∃ found, find d roots rejects ending = .ok found) ↔
      ∀ root ∈ roots, ∃ paths, walkRoot d root = .ok paths := by
  rw [← exists_mapM_eq_ok_iff]
  constructor
  · rintro ⟨found, h⟩
    obtain ⟨walks, hwalks, -⟩ := find_eq_ok_iff.1 h
    exact ⟨walks, hwalks⟩
  · rintro ⟨walks, hwalks⟩
    exact ⟨_, find_of_walk hwalks⟩

section Find

variable {found : List Path} (h : find d roots rejects ending = .ok found)

include h

/-- What is found stands in strict order. -/
theorem pairwise_of_find : found.Pairwise Before := by
  obtain ⟨walks, -, rfl⟩ := find_eq_ok_iff.1 h
  exact pairwise_sortBySpelling (pairwise_distinct _)

/-- Nothing is found in two spellings. -/
theorem pairwise_not_same_of_find : found.Pairwise fun p q => ¬ Same p q := by
  obtain ⟨walks, -, rfl⟩ := find_eq_ok_iff.1 h
  exact pairwise_not_same_sortBySpelling (pairwise_distinct _)

/-- What is found lies below a root and is accepted. -/
theorem of_mem_find {p : Path} (hp : p ∈ found) :
    Below d roots p ∧ accepts d rejects ending p = true := by
  obtain ⟨walks, hwalks, rfl⟩ := find_eq_ok_iff.1 h
  obtain ⟨hp, haccepts⟩ := List.mem_filter.1 (mem_of_mem_distinct (mem_sortBySpelling.1 hp))
  obtain ⟨paths, hpaths, hp⟩ := List.mem_flatten.1 hp
  obtain ⟨root, hroot, hwalk⟩ := (mem_of_mapM_eq_ok hwalks).1 hpaths
  refine ⟨?_, haccepts⟩
  rcases (mem_walkRoot_iff hwalk).1 hp with rfl | ⟨root', hroot', hbelow⟩
  · -- the root itself is a directory, and no directory is accepted
    obtain ⟨l, bytes, hl, hfile⟩ := Disk.isFile_eq_true_iff.1 (accepts_eq_true_iff.1 haccepts).1
    obtain ⟨m, hm, hdir⟩ := Disk.isDir_eq_true_iff.1 (walkRoot_eq_ok_iff.1 hwalk).1
    obtain rfl : l = m := Except.ok.inj (hl.symm.trans hm)
    simp [hfile] at hdir
  · exact ⟨root', List.mem_singleton.1 hroot' ▸ hroot, hbelow⟩

/-- Whatever lies below a root and is accepted is found under some spelling. -/
theorem exists_same_of_find {p : Path} (hbelow : Below d roots p)
    (haccepts : accepts d rejects ending p = true) : ∃ q ∈ found, Same p q := by
  obtain ⟨walks, hwalks, rfl⟩ := find_eq_ok_iff.1 h
  obtain ⟨root, hroot, hroot'⟩ := hbelow
  obtain ⟨paths, hwalk⟩ := exists_mapM_eq_ok_iff.1 ⟨walks, hwalks⟩ root hroot
  have hp : p ∈ paths := (mem_walkRoot_iff hwalk).2 (.inr ⟨root, by simp, hroot'⟩)
  have hpaths : paths ∈ walks := (mem_of_mapM_eq_ok hwalks).2 ⟨root, hroot, hwalk⟩
  obtain ⟨q, hq, hsame⟩ := exists_same_of_mem
    (List.mem_filter.2 ⟨List.mem_flatten.2 ⟨paths, hpaths, hp⟩, haccepts⟩)
  exact ⟨q, mem_sortBySpelling.2 hq, hsame⟩

/-- A search that takes less, by a rule that does not go by spellings, finds what the rule keeps. -/
theorem find_of_keep {more : Rejects} {keep : Path → Bool}
    (hkeep : ∀ p q, Same p q → keep p = keep q)
    (haccepts : ∀ p, accepts d more ending p = (accepts d rejects ending p && keep p)) :
    find d roots more ending = .ok (found.filter keep) := by
  obtain ⟨walks, hwalks, rfl⟩ := find_eq_ok_iff.1 h
  have hleft : find d roots more ending = .ok _ := find_of_walk hwalks
  have hrule : accepts d more ending = fun p => keep p && accepts d rejects ending p :=
    funext fun p => (haccepts p).trans (Bool.and_comm _ _)
  rw [hleft, Except.ok.injEq]
  refine (pairwise_of_find hleft).eq_of_mem_iff ((pairwise_of_find h).filter _) fun p => ?_
  rw [mem_sortBySpelling, hrule, ← List.filter_filter, distinct_filter hkeep,
    List.mem_filter, List.mem_filter, mem_sortBySpelling]

end Find

/-! ## Searches from spelled-out roots -/

section SpelledOut

variable (hroots : ∀ root ∈ roots, root.IsSpelledOut)

include hroots

/-- What lies below a spelled-out root is spelled out. -/
theorem Below.isSpelledOut {p : Path} (h : Below d roots p) : p.IsSpelledOut := by
  obtain ⟨root, hroot, location, more, -, hne, hsome, rfl⟩ := h
  obtain ⟨l, hl, rfl⟩ := hroots root hroot
  obtain ⟨node, hnode⟩ := Option.isSome_iff_exists.1 hsome
  have hmore : ∀ name ∈ more, IsSegment name := fun name hname =>
    Disk.isSegment_of_node? hnode name (List.mem_append_right _ hname)
  exact ⟨l ++ more, by simpa [or_imp, forall_and] using ⟨hl, hmore⟩, join_ofLocation hmore hne hl⟩

/-- From spelled-out roots exactly the accepted paths below them are found. -/
theorem mem_find_iff {found : List Path} (h : find d roots rejects ending = .ok found) {p : Path} :
    p ∈ found ↔ Below d roots p ∧ accepts d rejects ending p = true := by
  refine ⟨of_mem_find h, fun ⟨hbelow, haccepts⟩ => ?_⟩
  obtain ⟨q, hq, hsame⟩ := exists_same_of_find h hbelow haccepts
  have hq' := Below.isSpelledOut hroots (of_mem_find h hq).1
  rwa [((Below.isSpelledOut hroots hbelow).same_iff_eq hq').1 hsame]

end SpelledOut

end Discovery

/-! ## Headers and implementations -/

/-- All files to be merged. -/
def Sources.files (sources : Sources) : List Path := sources.headers ++ sources.implementations

/-- The files to be merged that are of a kind. -/
def Sources.ofKind (sources : Sources) : Kind → List Path
  | .header => sources.headers
  | .implementation => sources.implementations

theorem Sources.mem_files_iff {sources : Sources} {p : Path} :
    p ∈ sources.files ↔ ∃ kind, p ∈ sources.ofKind kind := by
  rw [files, List.mem_append]
  exact ⟨fun h => h.elim (⟨.header, ·⟩) (⟨.implementation, ·⟩),
    fun ⟨kind, h⟩ => by cases kind <;> simp_all [ofKind]⟩

/-- The sources of a configuration are what is found for each kind. -/
theorem Config.gather_eq_ok_iff {c : Config} {d : Disk} {sources : Sources} :
    c.gather d = .ok sources ↔
      ∀ kind : Kind, Discovery.find d c.src c.rejects kind.ending = .ok (sources.ofKind kind) := by
  rw [gather]
  simp only [bind_eq_ok_iff]
  constructor
  · rintro ⟨headers, hheaders, implementations, himplementations, h⟩
    cases h
    intro kind
    cases kind
    · exact hheaders
    · exact himplementations
  · intro h
    exact ⟨_, h .header, _, h .implementation, rfl⟩

end Amalgam
