import Mathlib
import Amalgam.Proofs.Config.Lexical
import Amalgam.Proofs.Run.Again

/-!
# Paths that stay resolved

No change of files and directories makes a link. So on a disk without links a path is resolved to what
its spelling says, before and after any such changes, whether it leads anywhere or not. In particular
a run, which makes directories and writes files, does not move the destination that it makes.

Main results:

* `unlinked_of_history`: a disk without links has none after any changes of files and directories.
* `history_run`: a run changes files and directories only.
* `resolvePaths_stable`: resolving by the disk and by the spelling agree, and do so after any changes.
-/

namespace Amalgam

/-! ## Histories of a disk -/

namespace Disk

variable {d e : Disk}

/-- One change of the files and directories of a disk; a file may be written in part only. -/
inductive Change (d : Disk) : Disk → Prop
  | write {p : Path} {bytes : List UInt8} : Change d (d.write p bytes).disk
  | makeDir {e : Disk} {p : Path} (made : d.makeDir p = .ok e) : Change d e
  | remove {e : Disk} {p : Path} (removed : d.remove p = .ok e) : Change d e

/-- A disk and a later one, with files and directories changed any number of times in between. -/
abbrev History : Disk → Disk → Prop := Relation.ReflTransGen Change

theorem remove_eq_ok {p : Path} (h : d.remove p = .ok e) : ∃ location, e = d.erase location := by
  rw [remove] at h
  split at h
  · cases h
  · next location _ =>
    split at h
    · exact ⟨location, (Except.ok.inj h).symm⟩
    · cases h

theorem Unlinked.erase (hd : d.Unlinked) (location : Location) : (d.erase location).Unlinked := by
  by_cases hcwd : location <+: d.cwd
  · rwa [Disk.erase, dif_pos hcwd]
  · intro l target
    rw [node?_erase hcwd]
    split
    · simp
    · exact hd l target

theorem Change.unlinked (h : d.Change e) (hd : d.Unlinked) : e.Unlinked := by
  cases h with
  | @write p bytes =>
    have writing := d.writing_write p bytes
    generalize d.write p bytes = halfway at writing ⊢
    cases writing with
    | closed _ => exact hd
    | broken _ _ stored | done stored => exact stored.unlinked hd
  | makeDir made => exact (makeDir_grown hd made).1.unlinked hd
  | remove removed =>
    obtain ⟨location, rfl⟩ := remove_eq_ok removed
    exact hd.erase location

/-- A disk without links has none after any changes of files and directories. -/
theorem unlinked_of_history (h : d.History e) (hd : d.Unlinked) : e.Unlinked := by
  induction h with
  | refl => exact hd
  | tail _ change ih => exact change.unlinked ih

/-! ## What a run does in between -/

theorem history_ensureDir (d : Disk) (p : Path) : d.History (d.ensureDir p).disk := by
  rw [ensureDir]
  split
  · next made hmade => exact .single (.makeDir hmade)
  · exact .refl

theorem history_makeChain (d : Disk) (paths : List Path) : d.History (d.makeChain paths).disk := by
  induction paths with
  | nil => exact .refl
  | cons first above ih =>
    rw [makeChain]
    split
    · exact .refl
    · split
      · simp only []
        split
        · exact ih
        · exact ih.trans (history_ensureDir _ first)
      · exact history_ensureDir d first

theorem history_write {p : Path} {bytes : List UInt8} {fault? : Option Fault}
    (h : d.write p bytes = ⟨e, fault?⟩) : d.History e := by
  have hchange : d.Change (d.write p bytes).disk := .write
  rw [h] at hchange
  exact .single hchange

theorem history_makeDirs {dest : Path} {fault? : Option Fault}
    (h : d.makeDirs dest = ⟨e, fault?⟩) : d.History e := by
  have hmade : d.History (d.makeDirs dest).disk := history_makeChain d dest.ancestors
  rwa [h] at hmade

theorem history_prepare {ready : Disk} {dest : Path} (h : prepare d dest = ⟨ready, .ok ()⟩) :
    d.History ready := by
  rcases prepare_eq_ok h with ⟨-, rfl⟩ | hmade
  · exact .refl
  · exact history_makeDirs hmade

end Disk

open Disk

/-- A run changes files and directories only, however it ends. -/
theorem Config.history_run (c : Config) (d : Disk) : d.History (c.run d).disk := by
  have course := c.run_course d
  generalize c.run d = effect at course ⊢
  cases course with
  | unbuilt hbuild => exact .refl
  | unprepared hbuild hdir hmade => exact history_makeDirs hmade
  | noHeader hbuild hready hfault => exact (history_prepare hready).trans (history_write hfault)
  | noSource hbuild hready hhalf hfault =>
    exact ((history_prepare hready).trans (history_write hhalf)).trans (history_write hfault)
  | done hbuild hready hhalf hwhole =>
    exact ((history_prepare hready).trans (history_write hhalf)).trans (history_write hwhole)

/-! ## Resolved destinations -/

/-- The destination of a run that has succeeded is a directory, and the path that spells it out is free
of links. -/
theorem dest_of_run {c : Config} {d : Disk} (hd : d.Unlinked) (hc : c.IsResolved) {report : Report}
    (h : (c.run d).result = .ok report) :
    (c.run d).disk.isDir c.dest = true ∧ (c.run d).disk.canonical? c.dest = some c.dest := by
  obtain ⟨built, -, -, hdelivered, -⟩ := exists_delivered hd h
  obtain ⟨L, hL, hdest⟩ := hc.dest
  rw [hdest] at hdelivered ⊢
  have hdir := isDir_of_delivered hL hdelivered hd (List.cons_ne_nil _ _)
  obtain ⟨hfits, hnode⟩ := (isDir_ofLocation_iff (hdelivered.unlinked hd) hL).1 hdir
  refine ⟨hdir, ?_⟩
  rw [canonical?, followPath_of_resolve (resolve_ofLocation (by decide) (by simp) hnode hfits)]

namespace Config

/-- On a disk without links the two ways of resolving a path against an absolute base agree: what the
path leads to is spelled out by the normal form of its spelling. So a path is resolved to that form
whether it leads anywhere or not, and configurations are resolved alike after any changes of files and
directories, those of a run among them. Once a run has made its destination, the destination is a
directory and is still resolved to the path that it was resolved to before. -/
theorem resolvePaths_stable {d : Disk} (hd : d.Unlinked) {base : Path}
    (hbase : base.isAbsolute = true) :
    (∀ p found, d.canonical? (base.join p) = some found → found = (base.join p).normalize) ∧
      (∀ p, absolutize d base p = (base.join p).normalize) ∧
      (∀ e, d.History e → ∀ c : Config, c.resolvePaths e base = c.resolvePaths d base) ∧
      (∀ c r : Config, c.resolvePaths (r.run d).disk base = c.resolvePaths d base) ∧
      ∀ (c : Config) (report : Report), ((c.resolvePaths d base).run d).result = .ok report →
        let dest := (c.resolvePaths d base).dest
        let after := ((c.resolvePaths d base).run d).disk
        after.isDir dest = true ∧ after.canonical? dest = some dest ∧
          absolutize after base c.dest = dest := by
  have hlexical (p : Path) : absolutize d base p = (base.join p).normalize :=
    congrFun (absolutize_eq_lexical hd hbase) p
  have hhistory : ∀ e, d.History e → ∀ c : Config, c.resolvePaths e base = c.resolvePaths d base :=
    fun e h => resolvePaths_congr hd hbase (unlinked_of_history h hd)
  refine ⟨fun p found hfound => ?_, hlexical, hhistory, fun c r => hhistory _ (r.history_run d) c,
    fun c report hrun => ?_⟩
  · rw [← hlexical, absolutize_of_canonical? hfound]
  · obtain ⟨hdir, hcanonical⟩ := dest_of_run hd ⟨c, d, base, hbase, rfl⟩ hrun
    exact ⟨hdir, hcanonical, congrArg Config.dest (hhistory _ (history_run _ d) c)⟩

/-- A configuration whose destination is spelled with dots and is yet to be made. -/
def dottedConfig : Config := { src := ["."], dest := "..//out/./c/" }

theorem resolvePaths_stable_dotted :
    let after := ((dottedConfig.resolvePaths freshDisk "/src").run freshDisk).disk
    freshDisk.canonical? (Path.join "/src" "..//out/./c/") = none ∧
      absolutize freshDisk "/src" "..//out/./c/" = "/out/c" ∧ after.isDir "/out/c" = true ∧
      absolutize after "/src" "..//out/./c/" = "/out/c" := by
  intro after
  have hmissing : freshDisk.canonical? (Path.join "/src" "..//out/./c/") = none := by decide +kernel
  have hdest : (dottedConfig.resolvePaths freshDisk "/src").dest = "/out/c" := by decide +kernel
  have hrun : ∃ report,
      ((dottedConfig.resolvePaths freshDisk "/src").run freshDisk).result = .ok report :=
    ⟨⟨⟨"/out/c/concat.h", "/out/c/concat.c"⟩, ⟨⟨0, 0, 1, 0⟩, []⟩⟩, by decide +kernel⟩
  obtain ⟨report, hreport⟩ := hrun
  obtain ⟨hdir, -, hsame⟩ :=
    (resolvePaths_stable freshDisk_unlinked (by decide)).2.2.2.2 dottedConfig report hreport
  rw [hdest] at hdir hsame
  exact ⟨hmissing, hdest, hdir, hsame⟩

end Config

end Amalgam
