import Mathlib
import Amalgam.Classifier
import Amalgam.Document
import Amalgam.Proofs.Classification.Groups

/-!
# Calls on a classifier

A classifier that begins empty is given files one after another; each call takes its file or refuses
it. Whatever was refused on the way, the classification is what the files taken make of it, and
every part of it agrees with every other.

Main results:

* `next_of_add_eq_ok`, `next_of_add_eq_error`: what one call does to a history of calls.
* `addAll_taken`: the files taken, added on their own, give the classification.
* `consistent_after_calls`: the state of a classifier after any calls.
* `refused_without_trace`: which call is refused, how, and that it leaves nothing behind.
-/

namespace Amalgam

open Amalgam.Include Classification

/-! ## Histories -/

/-- A classifier after some calls, and the files that it took, in the order of the calls. -/
structure History where
  classification : Classification
  taken : List SourceFile

namespace History

variable {h : History} {f : SourceFile}

/-- The history with one more call. -/
def next (h : History) (f : SourceFile) : History :=
  match (Classifier.add f).call h.classification with
  | (.ok _, c) => ⟨c, h.taken ++ [f]⟩
  | (.error _, c) => ⟨c, h.taken⟩

/-- The history of calls with the given files. -/
def ofCalls (files : List SourceFile) : History := files.foldl next ⟨.empty, []⟩

theorem next_of_add_eq_ok {c : Classification} (hadd : h.classification.add f = .ok c) :
    h.next f = ⟨c, h.taken ++ [f]⟩ := by
  rw [next, Classifier.call_add, hadd]
  rfl

theorem next_of_add_eq_error {failure : Failure} (hadd : h.classification.add f = .error failure) :
    h.next f = h := by
  rw [next, Classifier.call_add, hadd]
  rfl

/-- What holds before all calls and is kept by each call holds after all calls. -/
theorem ofCalls_induction {motive : History → Prop} (start : motive ⟨.empty, []⟩)
    (step : ∀ h f, motive h → motive (h.next f)) (files : List SourceFile) :
    motive (ofCalls files) :=
  List.foldlRecOn files next start fun h hh f _ => step h f hh

/-- The files taken, added on their own, give the classification. -/
theorem addAll_taken (files : List SourceFile) :
    Classification.empty.addAll (ofCalls files).taken = .ok (ofCalls files).classification := by
  refine ofCalls_induction (motive := fun h => empty.addAll h.taken = .ok h.classification) rfl ?_
    files
  intro h f hh
  cases hadd : h.classification.add f with
  | error failure =>
    rw [next_of_add_eq_error hadd]
    exact hh
  | ok c =>
    have hone : h.classification.addAll [f] = .ok c := by
      rw [Classification.addAll, List.foldlM_cons, hadd]
      rfl
    rw [next_of_add_eq_ok hadd, addAll_append, hh]
    exact hone

/-- By induction on the files still to come: files that can be added are all taken. -/
theorem foldl_next_of_addAll {c d : Classification} {taken more : List SourceFile}
    (hadd : c.addAll more = .ok d) : more.foldl next ⟨c, taken⟩ = ⟨d, taken ++ more⟩ := by
  induction more generalizing c taken with
  | nil =>
    cases hadd
    rw [List.append_nil]
    rfl
  | cons f rest ih =>
    rw [Classification.addAll, List.foldlM_cons, bind_eq_ok_iff] at hadd
    obtain ⟨e, hf, hrest⟩ := hadd
    have hnext : next ⟨c, taken⟩ f = ⟨e, taken ++ [f]⟩ := next_of_add_eq_ok hf
    rw [List.foldl_cons, hnext, ih hrest, List.append_assoc, List.singleton_append]

/-- Calls with the files taken alone make the same history. -/
theorem ofCalls_taken (files : List SourceFile) : ofCalls (ofCalls files).taken = ofCalls files :=
  foldl_next_of_addAll (addAll_taken files)

theorem sorts_ofCalls (files : List SourceFile) :
    (ofCalls files).classification.Sorts (ofCalls files).taken :=
  sorts_empty.addAll (addAll_taken files)

end History

/-! ## The state after any calls -/

namespace Classification

variable {c : Classification} {files : List SourceFile}

/-- The files of a group, as the classification holds them. -/
def bucket (c : Classification) : Group → List SourceFile
  | .placed series => (c.table series).toList.map Prod.snd
  | .unplaced => c.unranked
  | .implementation => c.implementations

theorem Sorts.bucket_perm (h : c.Sorts files) (g : Group) :
    (c.bucket g).Perm (g.members files) := by
  cases g with
  | placed series => exact (h.places series).perm
  | unplaced => exact .of_eq h.unranked
  | implementation => exact .of_eq h.implementations

/-- Every part of a classification that took the given files agrees with every other: the tables
hold headers under their own numbers, the lists hold what belongs there in the order of the calls,
each file taken is in one bucket, the include sets hold what the files of their buckets ask for, and
there is one warning for each implementation with a mark. -/
structure Consistent (c : Classification) (taken : List SourceFile) : Prop where
  ranked : ∀ (n : Nat) (f : SourceFile), c.ranked[n]? = some f → f.kind = .header ∧ f.rank = some n
  exposed : ∀ (n : Nat) (f : SourceFile), c.exposed[n]? = some f →
    f.kind = .header ∧ f.rank = none ∧ f.exposeRank = some n
  unranked : c.unranked = taken.filter fun f : SourceFile =>
    f.kind = .header ∧ f.rank = none ∧ f.exposeRank = none
  implementations : c.implementations = taken.filter fun f : SourceFile => f.kind = .implementation
  buckets : (c.ranked.toList.map Prod.snd ++ (c.exposed.toList.map Prod.snd ++
    (c.unranked ++ c.implementations))).Perm taken
  total : c.counts.total = taken.length
  includes : ∀ g d, d ∈ c.includesOf g ↔ ∃ f ∈ c.bucket g, d ∈ f.includes
  warnings : c.warnings = c.implementations.filterMap fun f =>
    ((f.rank.map (Mark.mk .rank)).or (f.exposeRank.map (Mark.mk .expose))).map fun mark =>
      ⟨f.path, mark⟩

/-- The mark that places a file is its rank, or else its expose number. -/
theorem mark?_eq_or (f : SourceFile) :
    f.mark? = (f.rank.map (Mark.mk .rank)).or (f.exposeRank.map (Mark.mk .expose)) := by
  unfold SourceFile.mark?
  cases f.rank <;> cases f.exposeRank <;> rfl

theorem mark?_eq_rank_iff {f : SourceFile} {n : Nat} :
    f.mark? = some ⟨.rank, n⟩ ↔ f.rank = some n := by
  unfold SourceFile.mark?
  cases f.rank <;> cases f.exposeRank <;> simp

theorem mark?_eq_expose_iff {f : SourceFile} {n : Nat} :
    f.mark? = some ⟨.expose, n⟩ ↔ f.rank = none ∧ f.exposeRank = some n := by
  unfold SourceFile.mark?
  cases f.rank <;> cases f.exposeRank <;> simp

theorem Sorts.buckets_perm (h : c.Sorts files) :
    (c.ranked.toList.map Prod.snd ++ (c.exposed.toList.map Prod.snd ++
      (c.unranked ++ c.implementations))).Perm files := by
  have hranked := h.bucket_perm (.placed .rank)
  have hexposed := h.bucket_perm (.placed .expose)
  have hlists := (h.bucket_perm .unplaced).append (h.bucket_perm .implementation)
  refine (hranked.append (hexposed.append hlists)).trans ?_
  refine .trans ?_ (perm_members_append_internalFiles files)
  refine .trans ?_ ((perm_internalFiles files).append_left _)
  simp only [← List.append_assoc]
  exact (List.perm_append_comm.append_right _).append_right _

theorem Sorts.total_counts (h : c.Sorts files) : c.counts.total = files.length := by
  rw [← h.buckets_perm.length_eq]
  simp only [Counts.total, counts, List.length_append, List.length_map,
    Std.ExtTreeMap.length_toList]
  omega

/-- A classification that sorts files is consistent with having taken them. -/
theorem Sorts.consistent (h : c.Sorts files) : c.Consistent files := by
  refine ⟨?_, ?_, ?_, ?_, h.buckets_perm, h.total_counts, ?_, ?_⟩
  · intro n f hf
    have hplace : c.holder? ⟨.rank, n⟩ = some f := hf
    obtain ⟨-, hk, hm⟩ := h.holder?_eq_some_iff.1 hplace
    exact ⟨hk, mark?_eq_rank_iff.1 hm⟩
  · intro n f hf
    have hplace : c.holder? ⟨.expose, n⟩ = some f := hf
    obtain ⟨-, hk, hm⟩ := h.holder?_eq_some_iff.1 hplace
    exact ⟨hk, mark?_eq_expose_iff.1 hm⟩
  · rw [h.unranked, Group.members]
    refine List.filter_congr fun f _ => ?_
    rw [decide_eq_decide]
    exact SourceFile.group_eq_unplaced_iff
  · rw [h.implementations, Group.members]
    refine List.filter_congr fun f _ => ?_
    rw [decide_eq_decide]
    exact SourceFile.group_eq_implementation_iff
  · intro g d
    rw [h.includes]
    simp only [(h.bucket_perm g).mem_iff]
  · simp only [h.warnings, ← h.implementations, ← mark?_eq_or]
    rfl

/-- After any calls on a classifier that began empty, refused ones among them, the classification is
consistent with the files that it took. -/
theorem consistent_after_calls (files : List SourceFile) :
    (History.ofCalls files).classification.Consistent (History.ofCalls files).taken :=
  (History.sorts_ofCalls files).consistent

end Classification

/-! ## Refused calls -/

/-- A call is refused exactly when it brings a header whose key, its rank or else its expose number, a
header taken before it has; the failure names the key, the path of that header and the path of the
new one. A refused call leaves
the classification as it was, and the classification after all calls, and so both documents, are
those after calls with only the files that were taken. -/
theorem refused_without_trace (files : List SourceFile) (f : SourceFile) :
    let h := History.ofCalls files
    let answer := ((Classifier.add f).call h.classification).1
    let after := ((Classifier.add f).call h.classification).2
    let key (f : SourceFile) : Option Mark :=
      (f.rank.map (Mark.mk .rank)).or (f.exposeRank.map (Mark.mk .expose))
    (∀ failure, answer = .error failure ↔
      f.kind = .header ∧ ∃ mark first, key f = some mark ∧
        (first ∈ h.taken ∧ first.kind = .header ∧ key first = some mark) ∧
        failure = .duplicate mark first.path f.path) ∧
    (∀ failure, answer = .error failure → after = h.classification) ∧
    History.ofCalls h.taken = h ∧
    ∀ headerName, Documents.of (History.ofCalls h.taken).classification headerName =
      Documents.of h.classification headerName := by
  intro h answer after key
  have hsorts : h.classification.Sorts h.taken := History.sorts_ofCalls files
  have hanswer : ∀ failure, answer = .error failure ↔
      h.classification.add f = .error failure := by
    intro failure
    simp only [answer, Classifier.call_add]
    cases h.classification.add f <;> simp [Classifier.leaving]
  have hreplay : History.ofCalls h.taken = h := History.ofCalls_taken files
  refine ⟨?_, ?_, hreplay, ?_⟩
  · intro failure
    have hkey : key = SourceFile.mark? := funext fun f => (mark?_eq_or f).symm
    rw [hanswer, hsorts.add_eq_error_iff, hkey]
  · intro failure hfailure
    simp only [after, Classifier.call_add, (hanswer failure).1 hfailure, Classifier.leaving]
  · intro headerName
    rw [hreplay]

end Amalgam
