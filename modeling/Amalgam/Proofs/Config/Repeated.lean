import Mathlib
import Amalgam.Proofs.Config.Lexical
import Amalgam.Proofs.Disk.Written

/-!
# Resolving paths again

A path that leads somewhere is resolved to one that is free of links, and resolving that one changes
nothing. A path that leads nowhere is resolved by its spelling; what is left of it then may lead
somewhere after all, through links that were not followed yet. So resolving a second time may change
such a path, and a third time changes none.

Main results:

* `canonical?_of_canonical?_eq_some`: a path free of links is found to be so.
* `absolutize_absolutize_iff`: which paths have come to rest when they have been resolved.
* `resolvePaths_again`: resolving a configuration twice, and three times.
-/

namespace Amalgam

open Amalgam.Path

/-! ## Paths free of links -/

namespace Disk

variable {d : Disk} {here l : Location} {name : String} {rest names : List String} {p q : Path}

section Follow

variable {onLink : Location → Path → List String → Except Fault Location}

/-- Where places are spelled out, each of them must be short enough. -/
theorem fits_of_follow_name (h : d.follow .canonical onLink here (name :: rest) = .ok l)
    (hplain : IsPlain name) : Fits (here ++ [name]) := by
  rw [follow, (follow_cons h).1] at h
  simp only [hplain.1, hplain.2.1, hplain.2.2, or_self, if_false, reduceCtorEq, false_and,
    true_and] at h
  split at h
  · cases h
  · split at h
    · cases h
    · next hsize => exact Nat.not_lt.1 hsize

theorem fits_of_follow (hgo : ∀ h t r, Fits h → onLink h t r = .ok l → Fits l) (hhere : Fits here)
    (h : d.follow .canonical onLink here names = .ok l) : Fits l := by
  induction names generalizing here with
  | nil =>
    obtain rfl : here = l := by simpa [follow] using h
    exact hhere
  | cons name rest ih =>
    obtain ⟨hdir, hstep⟩ := follow_cons h
    cases hstep with
    | stay skip go => exact ih hhere go
    | up above go =>
      exact ih (fits_of_begins (List.dropLast_prefix here) (isSegment_of_node? hdir) hhere) go
    | node plain size found real go =>
      -- the only step to a longer place, which was measured before it was taken
      exact ih (fits_of_follow_name h plain) go
    | link plain size found go => exact hgo _ _ _ hhere go
    | last plain size ends wanted => simp at wanted

end Follow

theorem fits_nil : Fits [] := by
  rw [Fits]
  decide +kernel

theorem fits_of_followLinks {links : Nat} (hhere : Fits here)
    (h : d.followLinks .canonical links here names = .ok l) : Fits l := by
  induction links generalizing here names with
  | zero => exact fits_of_follow (by simp) hhere h
  | succ links ih =>
    refine fits_of_follow (fun here target rest hfits hl => ih ?_ hl) hhere h
    split
    · exact fits_nil
    · exact hfits

/-- A path free of links is found to be so. -/
theorem canonical?_of_canonical?_eq_some (hp : p.isAbsolute = true) (h : d.canonical? p = some q) :
    d.canonical? q = some q := by
  rw [canonical?] at h
  split at h
  · next l hpath =>
    obtain rfl : ofLocation l = q := Option.some.inj h
    obtain ⟨node, hnode⟩ := followPath_eq_ok (followPath_existing_of_canonical hpath)
    have hfollow := followLinks_of_followPath hpath
    rw [base, if_pos hp] at hfollow
    -- the path ends at no link and at a place that is short enough, so it is found as it is spelled
    have hreal : ∀ target, node ≠ .link target := fun target heq =>
      not_link_of_followLinks (by decide) (by simp) hfollow target (heq ▸ hnode)
    have hresolve : d.resolve .canonical (ofLocation l) = .ok l :=
      resolve_ofLocation (by decide) hreal hnode (fits_of_followLinks fits_nil hfollow)
    rw [canonical?, followPath_of_resolve hresolve]
  · cases h

/-- Whether a path that leads nowhere as it is has come to rest when its dots have been worked out by
spelling: what is left of it leads nowhere either, or is free of links. -/
def Settles (d : Disk) (p : Path) : Prop :=
  d.canonical? p = none → ∀ q ∈ d.canonical? p.normalize, q = p.normalize

instance (d : Disk) (p : Path) : Decidable (d.Settles p) := inferInstanceAs (Decidable (_ → _))

/-- A path that is spelled out has come to rest. -/
theorem settles_of_isSpelledOut (d : Disk) (h : p.IsSpelledOut) : d.Settles p := by
  intro hnone
  rw [h.normalize_eq, hnone]
  simp

end Disk

/-! ## Resolving again -/

namespace Config

/-- An absolute path is resolved alike wherever it is seen from. -/
theorem absolutize_congr_base (d : Disk) {p : Path} (hp : p.isAbsolute = true) (base base' : Path) :
    absolutize d base p = absolutize d base' p := by
  rw [absolutize, absolutize, join_of_isAbsolute hp, join_of_isAbsolute hp]

section

variable (d : Disk) {base : Path} (hbase : base.isAbsolute = true)

include hbase

/-- A path stays as it has been resolved when it led somewhere, or when what is left of it does not
lead elsewhere. -/
theorem absolutize_absolutize_iff (base' p : Path) :
    absolutize d base' (absolutize d base p) = absolutize d base p ↔ d.Settles (base.join p) := by
  have hspelled := isSpelledOut_absolutize d hbase p
  have hagain : absolutize d base' (absolutize d base p) =
      (d.canonical? (absolutize d base p)).getD (absolutize d base p) := by
    rw [absolutize, join_of_isAbsolute hspelled.isAbsolute, hspelled.normalize_eq]
  rw [hagain]
  cases hc : d.canonical? (base.join p) with
  | some found =>
    have habsolute := isAbsolute_join_of_isAbsolute hbase p
    rw [absolutize_of_canonical? hc, Disk.canonical?_of_canonical?_eq_some habsolute hc]
    simp [Disk.Settles, hc]
  | none =>
    rw [absolutize_of_canonical?_eq_none hc, Disk.Settles]
    cases d.canonical? (base.join p).normalize <;> simp [hc]

/-- What has been resolved twice stays as it is. -/
theorem absolutize_third (base' base'' p : Path) :
    absolutize d base'' (absolutize d base' (absolutize d base p)) =
      absolutize d base' (absolutize d base p) := by
  have hspelled := isSpelledOut_absolutize d hbase p
  rw [absolutize_congr_base d hspelled.isAbsolute base' base, absolutize_absolutize_iff d hbase,
    join_of_isAbsolute hspelled.isAbsolute]
  exact Disk.settles_of_isSpelledOut d hspelled

end

/-- Without links every path comes to rest at once. -/
theorem settles_of_unlinked {d : Disk} (hd : d.Unlinked) {base : Path}
    (hbase : base.isAbsolute = true) (p : Path) : d.Settles (base.join p) := by
  have hlexical : absolutize d base p = base.lexical p :=
    congrFun (absolutize_eq_lexical hd hbase) p
  rw [← absolutize_absolutize_iff d hbase base, hlexical]
  exact absolutize_lexical hd hbase hbase p

/-! ## The paths of a configuration -/

/-- The paths of a configuration. -/
def paths (c : Config) : List Path := c.src ++ c.rejectDir ++ c.rejectFile ++ [c.dest]

/-- The configuration with a function applied to all its paths. -/
def mapPaths (f : Path → Path) (c : Config) : Config :=
  { c with
    src := c.src.map f
    rejectDir := c.rejectDir.map f
    rejectFile := c.rejectFile.map f
    dest := f c.dest }

theorem resolvePaths_eq_mapPaths (c : Config) (d : Disk) (base : Path) :
    c.resolvePaths d base = c.mapPaths (absolutize d base) := rfl

theorem mapPaths_mapPaths (f g : Path → Path) (c : Config) :
    (c.mapPaths f).mapPaths g = c.mapPaths (g ∘ f) := by
  simp only [mapPaths, List.map_map, Function.comp_apply]

theorem mapPaths_eq_iff {c : Config} {f g : Path → Path} :
    c.mapPaths f = c.mapPaths g ↔ ∀ p ∈ c.paths, f p = g p := by
  simp only [mapPaths, paths, Config.mk.injEq, List.map_inj_left, List.mem_append,
    List.mem_singleton, or_imp, forall_and, forall_eq, and_true, and_assoc]

/-- Resolving the paths of a resolved configuration again changes nothing exactly when each of them
led somewhere, or what its spelling left of it does not lead elsewhere. On a disk without links that
is always so. Whatever it changes does not depend on the new base, and resolving for a third time
changes nothing. -/
theorem resolvePaths_again (c : Config) (d : Disk) {base : Path} (hbase : base.isAbsolute = true)
    (base' : Path) :
    ((c.resolvePaths d base).resolvePaths d base' = c.resolvePaths d base ↔
        ∀ p ∈ c.paths, d.Settles (base.join p)) ∧
      (d.Unlinked → (c.resolvePaths d base).resolvePaths d base' = c.resolvePaths d base) ∧
      ∀ base'',
        (c.resolvePaths d base).resolvePaths d base'' = (c.resolvePaths d base).resolvePaths d base' ∧
          ((c.resolvePaths d base).resolvePaths d base').resolvePaths d base'' =
            (c.resolvePaths d base).resolvePaths d base' := by
  have hiff : (c.resolvePaths d base).resolvePaths d base' = c.resolvePaths d base ↔
      ∀ p ∈ c.paths, d.Settles (base.join p) := by
    simp only [resolvePaths_eq_mapPaths, mapPaths_mapPaths, mapPaths_eq_iff, Function.comp_apply,
      absolutize_absolutize_iff d hbase]
  refine ⟨hiff, fun hd => hiff.2 fun p _ => settles_of_unlinked hd hbase p, fun base'' => ⟨?_, ?_⟩⟩
  · simp only [resolvePaths_eq_mapPaths, mapPaths_mapPaths, mapPaths_eq_iff, Function.comp_apply]
    exact fun p _ =>
      absolutize_congr_base d (isSpelledOut_absolutize d hbase p).isAbsolute base'' base'
  · simp only [resolvePaths_eq_mapPaths, mapPaths_mapPaths, mapPaths_eq_iff, Function.comp_apply]
    exact fun p _ => absolutize_third d hbase base' base'' p

/-- A disk with a link to a directory. -/
def shortcutDisk : Disk := (Disk.empty.put ["real"] .dir).put ["link"] (.link "real")

/-- A path through the link comes to rest, and so does one that leads nowhere. -/
theorem resolvePaths_again_settled :
    let c : Config := { src := ["link/.", "missing/../real"], dest := "link/out" }
    c.resolvePaths shortcutDisk "/" = { src := ["/real", "/real"], dest := "/link/out" } ∧
      (c.resolvePaths shortcutDisk "/").resolvePaths shortcutDisk "real" =
        c.resolvePaths shortcutDisk "/" := by
  intro c
  have hsettles : ∀ p ∈ c.paths, shortcutDisk.Settles (Path.join "/" p) := by decide +kernel
  exact ⟨by decide +kernel, (resolvePaths_again c shortcutDisk (by decide) "real").1.2 hsettles⟩

/-- A path whose spelling alone leaves a link is resolved further when it is resolved again. -/
theorem resolvePaths_again_of_missing :
    let c : Config := { dest := "missing/../link" }
    c.resolvePaths shortcutDisk "/" = { dest := "/link" } ∧
      (c.resolvePaths shortcutDisk "/").resolvePaths shortcutDisk "/" = { dest := "/real" } ∧
      (c.resolvePaths shortcutDisk "/").resolvePaths shortcutDisk "/" ≠
        c.resolvePaths shortcutDisk "/" := by
  decide +kernel

end Config

end Amalgam
