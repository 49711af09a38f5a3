import Mathlib
import Amalgam.Proofs.Path.Location

/-!
# Normal forms of joined paths

A relative path that is seen from another one goes on from where that one has come to. So what a
joined path is normalised to depends on the normal form of its base alone.

Main results:

* `normalNames_join`: the normal form of a joined path goes on from that of its base.
* `normalize_join_congr`: bases with one normal form are the same base.
-/

namespace Amalgam.Path

section Join

variable {q : Path} (hq : q.isAbsolute = false)

include hq

/-- A joined path goes on from where its base has come to. -/
theorem foldl_walk_join (p : Path) (here : List String) :
    (p.join q).components.foldl walk here =
      q.components.foldl walk (p.components.foldl walk here) := by
  rw [foldl_walk_components, foldl_walk_components, foldl_walk_components,
    names_join_of_relative hq, List.filterMap_append, List.foldl_append]

theorem normalNames_join (p : Path) :
    normalNames (p.join q).components = q.components.foldl walk (normalNames p.components) :=
  foldl_walk_join hq p []

end Join

/-- Nothing that is seen from an absolute path is relative. -/
theorem isAbsolute_join_of_isAbsolute {p : Path} (h : p.isAbsolute = true) (q : Path) :
    (p.join q).isAbsolute = true := by
  by_cases hq : q.isAbsolute = true
  · rw [join_of_isAbsolute hq, hq]
  · rw [join, if_neg hq]
    rw [isAbsolute, decide_eq_true_eq, List.head?_eq_some_iff] at h
    obtain ⟨rest, hrest⟩ := h
    split <;> simp [isAbsolute, hrest]

theorem normalize_of_isAbsolute {p : Path} (h : p.isAbsolute = true) :
    p.normalize = ofLocation (normalNames p.components) := by
  rw [normalize, h, if_pos rfl]

/-- Absolute bases with one normal form are the same base. -/
theorem normalize_join_congr {p p' : Path} (hp : p.isAbsolute = true) (hp' : p'.isAbsolute = true)
    (h : p.normalize = p'.normalize) (q : Path) : (p.join q).normalize = (p'.join q).normalize := by
  by_cases hq : q.isAbsolute = true
  · rw [join_of_isAbsolute hq, join_of_isAbsolute hq]
  have segments (r : Path) : ∀ name ∈ normalNames r.components, IsSegment name := fun _ hname =>
    isSegment_of_mem_normalNames hname
  have hnames : normalNames p.components = normalNames p'.components := by
    rw [normalize_of_isAbsolute hp, normalize_of_isAbsolute hp'] at h
    exact (same_ofLocation_iff (segments p) (segments p')).1 (h ▸ .refl _)
  rw [normalize_of_isAbsolute (isAbsolute_join_of_isAbsolute hp q),
    normalize_of_isAbsolute (isAbsolute_join_of_isAbsolute hp' q),
    normalNames_join (Bool.eq_false_iff.2 hq), normalNames_join (Bool.eq_false_iff.2 hq), hnames]

end Amalgam.Path
