import Mathlib
import Amalgam.Config.Basic
import Amalgam.Proofs.Disk.Location

/-!
# Resolved configurations

Resolving a path against an absolute base spells out a location, whether the path leads anywhere or
not, and whatever links there are. So in a resolved configuration two paths are the same only when
they are spelled alike.

Main results:

* `isSpelledOut_absolutize`: what a resolved path looks like.
* `IsResolved.src`, `IsResolved.dest`: the paths of a resolved configuration.
-/

namespace Amalgam

open Amalgam.Path

namespace Config

/-- What a path is resolved to is spelled out. -/
theorem isSpelledOut_absolutize (d : Disk) {base : Path} (h : base.isAbsolute = true) (p : Path) :
    (absolutize d base p).IsSpelledOut := by
  cases hc : d.canonical? (base.join p) with
  | none =>
    rw [absolutize_of_canonical?_eq_none hc]
    exact isSpelledOut_normalize (isAbsolute_join_of_isAbsolute h p)
  | some found =>
    rw [absolutize_of_canonical? hc]
    obtain ⟨l, rfl, -, node, hnode⟩ := Disk.canonical?_eq_some hc
    exact ⟨l, Disk.isSegment_of_node? hnode, rfl⟩

/-- Whether the paths of a configuration have been resolved, on some disk and against some absolute
base. -/
def IsResolved (c : Config) : Prop :=
  ∃ (given : Config) (d : Disk) (base : Path),
    base.isAbsolute = true ∧ c = given.resolvePaths d base

variable {c : Config}

theorem IsResolved.src (h : c.IsResolved) : ∀ root ∈ c.src, root.IsSpelledOut := by
  obtain ⟨given, d, base, hbase, rfl⟩ := h
  intro root hroot
  obtain ⟨p, -, rfl⟩ := List.mem_map.1 hroot
  exact isSpelledOut_absolutize d hbase p

theorem IsResolved.dest (h : c.IsResolved) : c.dest.IsSpelledOut := by
  obtain ⟨given, d, base, hbase, rfl⟩ := h
  exact isSpelledOut_absolutize d hbase given.dest

end Config

end Amalgam
