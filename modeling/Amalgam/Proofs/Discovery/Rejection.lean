import Mathlib
import Amalgam.Proofs.Config.Resolved
import Amalgam.Proofs.Discovery.Found

/-!
# Rejecting a file that was found

A rejected path is resolved before it is compared, while the paths of a walk are not. So rejecting a
path that was found takes away what it resolves to. That is the path itself when a file lies at its
very location; where the path leads there through a link, it stays, and the file behind the link
goes if that was found too.

Main results:

* `find_of_reject`: rejecting one more path takes it away and nothing else.
* `absolutize_eq_self_iff`: which of the paths found resolve to themselves.
* `gather_reject_iff`: so when a path that was found can be rejected.
-/

namespace Amalgam

open Amalgam.Path

namespace Discovery

variable {d : Disk} {roots : List Path} {rejects more : Rejects} {ending : String} {q : Path}

/-- Whether some rejects leave out one path more than others. -/
structure OneMore (more rejects : Rejects) (q : Path) : Prop where
  dirs : more.dirs = rejects.dirs
  files : ∀ p : Path, p.isIn more.files = (p.isIn rejects.files || decide (Same p q))

theorem accepts_of_oneMore (h : OneMore more rejects q) (p : Path) :
    accepts d more ending p = (accepts d rejects ending p && !decide (Same p q)) := by
  have hdir : inRejectedDir more p = inRejectedDir rejects p := by
    rw [inRejectedDir, inRejectedDir, h.dirs]
  rw [Bool.eq_iff_iff, Bool.and_eq_true, accepts_eq_true_iff, accepts_eq_true_iff, hdir, h.files]
  simp [and_assoc]

/-- Rejecting one more path takes it away from what is found and nothing else. -/
theorem find_of_reject (hroots : ∀ root ∈ roots, root.IsSpelledOut) (h : OneMore more rejects q)
    (hq : q.IsSpelledOut) {found : List Path} (hfound : find d roots rejects ending = .ok found) :
    find d roots more ending = .ok (found.filter (· ≠ q)) := by
  have hkeep : ∀ p r : Path, Same p r → (!decide (Same p q)) = !decide (Same r q) :=
    fun p r hsame => congrArg (!·) (decide_eq_decide.2 ⟨hsame.symm.trans, hsame.trans⟩)
  rw [find_of_keep hfound hkeep (accepts_of_oneMore h)]
  refine congrArg Except.ok (List.filter_congr fun p hp => ?_)
  have hspelled := (of_mem_find hfound hp).1.isSpelledOut hroots
  simp [hspelled.same_iff_eq hq]

end Discovery

open Discovery

/-- The sources without one path. -/
def Sources.without (sources : Sources) (q : Path) : Sources where
  headers := sources.headers.filter (· ≠ q)
  implementations := sources.implementations.filter (· ≠ q)

theorem Sources.ofKind_without (sources : Sources) (q : Path) (kind : Kind) :
    (sources.without q).ofKind kind = (sources.ofKind kind).filter (· ≠ q) := by
  cases kind <;> rfl

theorem Sources.mem_files_without_iff {sources : Sources} {p q : Path} :
    p ∈ (sources.without q).files ↔ p ∈ sources.files ∧ p ≠ q := by
  simp only [Sources.mem_files_iff, Sources.ofKind_without, List.mem_filter, decide_eq_true_eq,
    exists_and_right]

/-- Without a path that is there, only that path is missing. -/
theorem Sources.without_eq_without_iff {sources : Sources} {p q : Path} (hq : q ∈ sources.files) :
    sources.without p = sources.without q ↔ p = q := by
  refine ⟨fun h => ?_, fun h => h ▸ rfl⟩
  by_contra hne
  have hkept : q ∈ (sources.without p).files :=
    Sources.mem_files_without_iff.2 ⟨hq, fun heq => hne heq.symm⟩
  rw [h] at hkept
  exact (Sources.mem_files_without_iff.1 hkept).2 rfl

namespace Config

variable {c : Config} {d : Disk} {base q : Path}

/-- The configuration with one more file rejected. -/
def reject (c : Config) (q : Path) : Config := { c with rejectFile := c.rejectFile ++ [q] }

theorem oneMore_reject (c : Config) (d : Disk) (base q : Path) :
    OneMore ((c.reject q).resolvePaths d base).rejects (c.resolvePaths d base).rejects
      (absolutize d base q) where
  dirs := rfl
  files p := by
    simp only [Config.rejects, resolvePaths, reject, isIn, List.map_append, List.any_append,
      List.map_cons, List.map_nil, List.any_cons, List.any_nil, Bool.or_false]
    exact Bool.or_right_comm _ _ _

/-- A path that leads to a file resolves to itself when the file lies at its very location, or when
it leads there through places that are too long to be spelled out. -/
theorem absolutize_eq_self_iff (hq : q.IsSpelledOut) (hfile : d.isFile q = true) :
    absolutize d base q = q ↔
      d.canonical? q = none ∨ ∃ l bytes, q = ofLocation l ∧ d.node? l = some (.file bytes) := by
  have hjoin : base.join q = q := join_of_isAbsolute hq.isAbsolute
  obtain ⟨l, bytes, hlocate, hnode⟩ := Disk.isFile_eq_true_iff.1 hfile
  cases hc : d.canonical? q with
  | none =>
    rw [absolutize_of_canonical?_eq_none (hjoin.symm ▸ hc), hjoin, hq.normalize_eq]
    simp
  | some found =>
    rw [absolutize_of_canonical? (hjoin.symm ▸ hc)]
    obtain ⟨m, rfl, hm, -⟩ := Disk.canonical?_eq_some hc
    obtain rfl : l = m := Except.ok.inj ((Disk.followPath_of_resolve hlocate).symm.trans hm)
    constructor
    · rintro rfl
      exact .inr ⟨l, bytes, rfl, hnode⟩
    · rintro (hnone | ⟨m, bytes', rfl, hnode'⟩)
      · cases hnone
      · have hfits : Disk.Fits m := (Disk.resolve_eq_ok_iff.1 hlocate).1.2.1
        have hcanonical : d.resolve .canonical (ofLocation m) = .ok m :=
          Disk.resolve_ofLocation (by decide) (by simp) hnode' hfits
        rw [Disk.canonical?, Disk.followPath_of_resolve hcanonical] at hc
        exact (Option.some.inj hc).symm

/-- Rejecting a path that was found takes away what it resolves to, and nothing else. So it takes
away that very path exactly when a file lies at its very location, or when the path leads to its file
through places that are too long to be spelled out; on a disk without links it always does. -/
theorem gather_reject_iff (hbase : base.isAbsolute = true) {sources : Sources}
    (h : (c.resolvePaths d base).gather d = .ok sources) (hq : q ∈ sources.files) :
    ((c.reject q).resolvePaths d base).gather d = .ok (sources.without (absolutize d base q)) ∧
      (((c.reject q).resolvePaths d base).gather d = .ok (sources.without q) ↔
        d.canonical? q = none ∨ ∃ l bytes, q = ofLocation l ∧ d.node? l = some (.file bytes)) ∧
      (d.Unlinked → ((c.reject q).resolvePaths d base).gather d = .ok (sources.without q)) := by
  have hresolved : (c.resolvePaths d base).IsResolved := ⟨c, d, base, hbase, rfl⟩
  have hfound := gather_eq_ok_iff.1 h
  have hless : ((c.reject q).resolvePaths d base).gather d =
      .ok (sources.without (absolutize d base q)) := by
    refine gather_eq_ok_iff.2 fun kind => ?_
    rw [Sources.ofKind_without]
    exact find_of_reject hresolved.src (oneMore_reject c d base q)
      (isSpelledOut_absolutize d hbase q) (hfound kind)
  obtain ⟨kind, hkind⟩ := Sources.mem_files_iff.1 hq
  obtain ⟨hbelow, haccepts⟩ := of_mem_find (hfound kind) hkind
  have hspelled := hbelow.isSpelledOut hresolved.src
  have hfile := (accepts_eq_true_iff.1 haccepts).1
  have hiff : ((c.reject q).resolvePaths d base).gather d = .ok (sources.without q) ↔
      d.canonical? q = none ∨ ∃ l bytes, q = ofLocation l ∧ d.node? l = some (.file bytes) := by
    rw [hless, Except.ok.injEq, Sources.without_eq_without_iff hq]
    exact absolutize_eq_self_iff hspelled hfile
  refine ⟨hless, hiff, fun hd => hiff.2 (.inr ?_)⟩
  obtain ⟨l, hl, rfl⟩ := hspelled
  obtain ⟨-, bytes, hnode⟩ := (Disk.isFile_ofLocation_iff hd hl).1 hfile
  exact ⟨l, bytes, rfl, hnode⟩

/-- A disk with one header below the source root. -/
def headerDisk : Disk := (Disk.empty.put ["src"] .dir).put ["src", "a.h"] (.file [])

/-- A disk whose only header below the source root is a link to one that lies elsewhere. -/
def linkDisk : Disk :=
  ((Disk.empty.put ["src"] .dir).put ["a.h"] (.file [])).put ["src", "a.h"] (.link "/a.h")

/-- A configuration that finds what lies below one source root. -/
def rootConfig : Config := { src := ["src"], dest := "out" }

theorem gather_reject_header :
    (rootConfig.resolvePaths headerDisk "/").gather headerDisk = .ok ⟨["/src/a.h"], []⟩ ∧
      ((rootConfig.reject "/src/a.h").resolvePaths headerDisk "/").gather headerDisk =
        .ok ⟨[], []⟩ := by
  have h : (rootConfig.resolvePaths headerDisk "/").gather headerDisk = .ok ⟨["/src/a.h"], []⟩ := by
    decide +kernel
  have hnode : headerDisk.node? ["src", "a.h"] = some (.file []) := by decide +kernel
  exact ⟨h, (gather_reject_iff (by decide) h (by decide)).2.1.2 (.inr ⟨_, [], rfl, hnode⟩)⟩

/-- Rejecting a link that was found leaves it in. -/
theorem gather_reject_link :
    (rootConfig.resolvePaths linkDisk "/").gather linkDisk = .ok ⟨["/src/a.h"], []⟩ ∧
      ((rootConfig.reject "/src/a.h").resolvePaths linkDisk "/").gather linkDisk =
        .ok ⟨["/src/a.h"], []⟩ ∧
      ((rootConfig.reject "/src/a.h").resolvePaths linkDisk "/").gather linkDisk ≠
        .ok (Sources.without ⟨["/src/a.h"], []⟩ "/src/a.h") := by
  decide +kernel

end Config

end Amalgam
