import Mathlib
import Amalgam.Proofs.Disk.Way

/-!
# Making directories

Making a directory together with those above it puts directories on the way of its path where there
was nothing, and changes nothing else. When it succeeds, all that the path passes is a directory.

Main results:

* `makeDirs_grown`: what making a directory with those above it does to a disk without links.
-/

namespace Amalgam.Disk

/-- Whether a disk is an earlier one with directories made on the way of a path where there was
nothing. -/
structure Grown (before after : Disk) (p : Path) : Prop where
  keeps : after.Keeps before
  node : ∀ l, after.node? l = before.node? l ∨
    before.Passes p l ∧ before.node? l = none ∧ after.node? l = some .dir

/-- Whether all that a path passes is a directory. -/
def Paved (d : Disk) (p : Path) : Prop := ∀ l, d.Passes p l → d.node? l = some .dir

section

variable {d e f : Disk} {p q : Path}

theorem Grown.cwd (h : d.Grown e p) : e.cwd = d.cwd := h.keeps.cwd

theorem Grown.refl (d : Disk) (p : Path) : d.Grown d p := ⟨.refl d, fun _ => .inl rfl⟩

theorem Grown.trans (h : d.Grown e p) (h' : e.Grown f p) : d.Grown f p where
  keeps := h'.keeps.trans h.keeps
  node l := by
    rcases h.node l with heq | ⟨hpass, hnone, hdir⟩
    · rw [← heq]
      exact (h'.node l).imp id fun ⟨hp, hn⟩ => ⟨(passes_of_cwd h.cwd).1 hp, hn⟩
    · rcases h'.node l with heq | ⟨-, hn, -⟩
      · exact .inr ⟨hpass, hnone, heq.trans hdir⟩
      · simp [hdir] at hn

theorem Grown.of_begins (h : d.Grown e q) (hq : q.Begins p) : d.Grown e p where
  keeps := h.keeps
  node l := (h.node l).imp id fun ⟨hp, hn⟩ => ⟨hp.of_begins hq, hn⟩

theorem Grown.unlinked (h : d.Grown e p) (hd : d.Unlinked) : e.Unlinked := by
  intro l target hl
  rcases h.node l with heq | ⟨_, _, hdir⟩
  · exact hd l target (heq.symm.trans hl)
  · simp [hdir] at hl

theorem Grown.covers (h : d.Grown e p) : e.Covers d where
  cwd := h.cwd
  dir l hl := by
    rcases h.node l with heq | ⟨-, -, hdir⟩
    · rw [heq, hl]
    · exact hdir
  node l hl := by
    rcases h.node l with heq | ⟨-, -, hdir⟩
    · rwa [heq]
    · simp [hdir]

theorem Paved.of_covers (h : d.Paved p) (hc : e.Covers d) : e.Paved p :=
  fun l hl => hc.dir l (h l ((passes_of_cwd hc.cwd).1 hl))

/-- The empty path passes the current directory alone. -/
theorem paved_empty (d : Disk) (h : p.spelling = "") : d.Paved p := by
  obtain rfl : p = ⟨""⟩ := by rw [← h]
  rintro l ⟨steps, hsteps, rfl⟩
  obtain rfl : steps = [] := List.prefix_nil.1 hsteps
  exact d.node?_cwd

theorem paved_of_isDir (hd : d.Unlinked) (h : d.isDir p = true) : d.Paved p := by
  rw [isDir, stat?] at h
  cases hl : d.locate p with
  | error fault => simp [hl] at h
  | ok location =>
    have hdir : d.node? location = some .dir := by
      simp only [hl] at h
      split at h
      · assumption
      · cases h
    intro l hpass
    exact ((resolve_eq_ok hd hl).2 l hpass).elim (fun heq => heq ▸ hdir) id

/-! ## One directory -/

theorem keeps_of_makeDir_eq_ok (h : d.makeDir p = .ok e) : e.Keeps d := by
  rw [makeDir, make] at h
  split at h
  · cases h
  · split at h
    · cases h
    · split at h
      · cases h
        exact keeps_put _ _ _
      · cases h

theorem makeDir_grown (hd : d.Unlinked) (h : d.makeDir p = .ok e) : d.Grown e p ∧ e.Paved p := by
  obtain ⟨location, hresolve, hnone, hnode⟩ := node?_of_makeDir_eq_ok h
  obtain ⟨rfl, hpass⟩ := resolve_eq_ok hd hresolve
  have hkeeps := keeps_of_makeDir_eq_ok h
  refine ⟨⟨hkeeps, fun l => ?_⟩, fun l hl => ?_⟩
  · rw [hnode]
    split
    · next heq => exact .inr ⟨heq ▸ passes_landing d p, heq ▸ hnone, rfl⟩
    · exact .inl rfl
  · rw [hnode]
    split
    · rfl
    · next hne => exact (hpass l ((passes_of_cwd hkeeps.cwd).1 hl)).resolve_left hne

theorem ensureDir_grown (hd : d.Unlinked) (p : Path) :
    d.Grown (d.ensureDir p).disk p ∧
      ((d.ensureDir p).fault? = none → (d.ensureDir p).disk.Paved p) := by
  rw [ensureDir]
  split
  · next made hmade => exact ⟨(makeDir_grown hd hmade).1, fun _ => (makeDir_grown hd hmade).2⟩
  · refine ⟨.refl d p, fun hnone => paved_of_isDir hd ?_⟩
    by_contra hdir
    simp [hdir] at hnone

/-! ## Directories from above -/

/-- A chain of paths, each on the way of one path, is made on that way. -/
theorem makeChain_grown (hd : d.Unlinked) {paths : List Path} (h : ∀ q ∈ paths, q.Begins p) :
    d.Grown (d.makeChain paths).disk p ∧
      ((d.makeChain paths).fault? = none →
        ∀ q ∈ paths.head?, (d.makeChain paths).disk.Paved q) := by
  induction paths with
  | nil => exact ⟨.refl d p, by simp⟩
  | cons first above ih =>
    have hfirst := h first List.mem_cons_self
    have single := ensureDir_grown hd first
    rw [makeChain]
    split
    · next hempty => exact ⟨.refl d p, by simpa using paved_empty d hempty⟩
    · split
      · obtain ⟨hbase, -⟩ := ih fun q hq => h q (List.mem_cons_of_mem _ hq)
        have last := ensureDir_grown (hbase.unlinked hd) first
        simp only []
        split
        · next hfault => exact ⟨hbase, fun hnone => by simp [hnone] at hfault⟩
        · exact ⟨hbase.trans (last.1.of_begins hfirst), by simpa using last.2⟩
      · exact ⟨single.1.of_begins hfirst, by simpa using single.2⟩

/-- What making a directory with those above it does to a disk without links. -/
theorem makeDirs_grown (hd : d.Unlinked) (p : Path) :
    d.Grown (d.makeDirs p).disk p ∧
      ((d.makeDirs p).fault? = none → (d.makeDirs p).disk.Paved p) := by
  obtain ⟨hgrown, hpaved⟩ := makeChain_grown hd fun q hq => Path.begins_of_mem_ancestors hq
  refine ⟨hgrown, fun hnone => hpaved hnone p ?_⟩
  rw [Path.ancestors]
  cases p.components.length <;> simp [Path.ancestorsUpTo]

end

end Amalgam.Disk
