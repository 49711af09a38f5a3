import Mathlib
import Amalgam.Config.Settings
import Amalgam.Proofs.Config.Resolved
import Amalgam.Proofs.Disk.Alike

/-!
# Resolving paths on a disk without links

Where there are no links, a path that leads anywhere leads where its spelling says, so resolving it is
a matter of spelling alone: it does not depend on what is on the disk, and resolving a second time
changes nothing.

Main results:

* `absolutize_eq_lexical`: what a path is resolved to on a disk without links.
* `absolutize_lexical`: a path that has been resolved is not moved by resolving it again.
* `Settings.load_congr`: what a settings file gives depends on its bytes alone.
-/

namespace Amalgam

open Amalgam.Path

/-- The path seen from a base, with its dots worked out by spelling alone. -/
def Path.lexical (base p : Path) : Path := (base.join p).normalize

theorem Path.isSpelledOut_lexical {base : Path} (h : base.isAbsolute = true) (p : Path) :
    (base.lexical p).IsSpelledOut :=
  isSpelledOut_normalize (isAbsolute_join_of_isAbsolute h p)

/-- A single dot stands for the base itself. -/
theorem Path.lexical_here {base : Path} (h : base.isAbsolute = true) :
    base.lexical ⟨"."⟩ = base.normalize := by
  have hnames : normalNames (base.join ⟨"."⟩).components = normalNames base.components :=
    normalNames_join (by decide) base
  rw [lexical, normalize_of_isAbsolute (isAbsolute_join_of_isAbsolute h _),
    normalize_of_isAbsolute h, hnames]

theorem Path.lexical_congr {base base' : Path} (h : base.isAbsolute = true)
    (h' : base'.isAbsolute = true) (heq : base.normalize = base'.normalize) :
    base.lexical = base'.lexical :=
  funext fun p => normalize_join_congr h h' heq p

/-- A path that can be followed to its end leads where its steps do, however long it is. -/
theorem Disk.landing_of_followPath {d : Disk} (hd : d.Unlinked) {want : Disk.Purpose} {p : Path}
    {l : Location} (h : d.followPath want p = .ok l) : d.landing p = l := by
  obtain ⟨onLink, hfollow⟩ := exists_follow_of_followLinks (followLinks_of_followPath h)
  exact (foldl_route d p).symm.trans (follow_eq_ok hd hfollow).1

namespace Config

section

variable {d : Disk} (hd : d.Unlinked) {base : Path} (hbase : base.isAbsolute = true)

include hd hbase

/-- What a path is resolved to on a disk without links. -/
theorem absolutize_eq_lexical : absolutize d base = base.lexical := by
  funext p
  have habs := isAbsolute_join_of_isAbsolute hbase p
  cases hc : d.canonical? (base.join p) with
  | none => exact absolutize_of_canonical?_eq_none hc
  | some found =>
    obtain ⟨l, rfl, hfollow, -⟩ := Disk.canonical?_eq_some hc
    rw [absolutize_of_canonical? hc, ← Disk.landing_of_followPath hd hfollow,
      Disk.ofLocation_landing habs, lexical]

/-- A path that has been resolved is not moved by resolving it again. -/
theorem absolutize_lexical {base' : Path} (hbase' : base'.isAbsolute = true) (p : Path) :
    absolutize d base (base'.lexical p) = base'.lexical p := by
  have hspelled := isSpelledOut_lexical hbase' p
  rw [absolutize_eq_lexical hd hbase, lexical, join_of_isAbsolute hspelled.isAbsolute,
    hspelled.normalize_eq]

theorem resolvePaths_congr {e : Disk} (he : e.Unlinked) (c : Config) :
    c.resolvePaths e base = c.resolvePaths d base := by
  simp only [resolvePaths, absolutize_eq_lexical hd hbase, absolutize_eq_lexical he hbase]

end

end Config

/-- Settings are read from files only. -/
theorem Settings.isFile_of_read {decode : Decoder} {d : Disk} {p : Path} {s : Settings}
    (h : read decode d p = .ok s) : d.isFile p = true := by
  rw [read, readText] at h
  cases hread : d.read p with
  | error fault => simp [hread, bind, Except.bind] at h
  | ok bytes =>
    obtain ⟨l, hlocate, hnode⟩ := Disk.read_eq_ok_iff.1 hread
    exact Disk.isFile_eq_true_iff.2 ⟨l, bytes, hlocate, hnode⟩

/-- A file that two disks show at a path gives the same settings on both. -/
theorem Settings.load_congr (decode : Decoder) {d e : Disk} (hd : d.Unlinked) (he : e.Unlinked)
    {p : Path} (hp : p.isAbsolute = true) (hfile : d.isFile p = true)
    (hstat : e.stat? p = d.stat? p) : load decode e p = load decode d p := by
  obtain ⟨l, bytes, hlocate, hnode⟩ := Disk.isFile_eq_true_iff.1 hfile
  have hd_stat : d.stat? p = some (.file bytes) := Disk.stat?_eq_some_iff.2 ⟨l, hlocate, hnode⟩
  have hread : e.read p = d.read p := by
    rw [Disk.read_eq_ok_iff.2 ⟨l, hlocate, hnode⟩,
      Disk.read_eq_ok_iff.2 (Disk.stat?_eq_some_iff.1 (hstat.trans hd_stat))]
  have hseen : seenFrom e p = seenFrom d p := by
    funext c
    rw [seenFrom, seenFrom]
    cases hparent : p.parent? with
    | none => rfl
    | some dir =>
      have hdir : dir.isAbsolute = true := (begins_of_parent? hparent).start.trans hp
      exact Config.resolvePaths_congr hd hdir he c
  rw [load, load, hseen, read, read, readText, readText, hread]

end Amalgam
