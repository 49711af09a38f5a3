import Mathlib
import Amalgam.Proofs.Disk.Location

/-!
# Reading back what has been written

A file is written where there was a file or nothing, never where there was a directory or a link. So
no path that led anywhere went through its place, and all paths lead on as before, links or not. What
has been written is read back under its path, and under every other path that does not lead to the
same file there is what was there before.

Main results:

* `locate_of_wrote`: paths lead on as before a file was written.
* `read_of_stored`: what has been written is read back.
* `read_of_stored_of_ne`: what lies elsewhere is read as before.
-/

namespace Amalgam.Disk

variable {d e : Disk} {want : Purpose} {here location l : Location} {names : List String}
  {bytes : List UInt8} {p q : Path}

/-- Whether one disk is another with a file put where there was a file or nothing. -/
structure Wrote (d : Disk) (location : Location) (bytes : List UInt8) (e : Disk) : Prop where
  cwd : e.cwd = d.cwd
  holds : e.node? location = some (.file bytes)
  rest : ∀ l, l ≠ location → e.node? l = d.node? l
  file : ∀ node, d.node? location = some node → ∃ old, node = .file old

/-! ## Where a written file is put -/

/-- What a path is followed to is no link, as long as no new name is asked for. -/
theorem not_link_of_follow (hwant : want ≠ .directory)
    {onLink : Location → Path → List String → Except Fault Location}
    (hlink : ∀ h t r l, d.node? h = some .dir → onLink h t r = .ok l →
      ∀ target, d.node? l ≠ some (.link target))
    (hhere : ∀ target, d.node? here ≠ some (.link target))
    (h : d.follow want onLink here names = .ok l) : ∀ target, d.node? l ≠ some (.link target) := by
  induction names generalizing here with
  | nil =>
    obtain rfl : here = l := by simpa [follow] using h
    exact hhere
  | cons name rest ih =>
    obtain ⟨hdir, hstep⟩ := follow_cons h
    cases hstep with
    | stay skip go => exact ih hhere go
    | up above go => exact ih (by simp [above_of_node? hdir]) go
    | node plain size found real go => exact ih (by simpa [found] using real) go
    | link plain size found go => exact hlink _ _ _ _ hdir go
    | last plain size ends wanted =>
      obtain ⟨-, -, hnone⟩ := wanted.resolve_left fun h => hwant h.1
      simp [hnone]

theorem not_link_of_followLinks (hwant : want ≠ .directory) {links : Nat}
    (hhere : ∀ target, d.node? here ≠ some (.link target))
    (h : d.followLinks want links here names = .ok l) : ∀ target, d.node? l ≠ some (.link target) := by
  induction links generalizing here names l with
  | zero => exact not_link_of_follow hwant (by simp) hhere h
  | succ links ih =>
    refine not_link_of_follow hwant (fun here target rest l hdir hl => ih ?_ hl) hhere h
    split
    · simp
    · simp [hdir]

/-- A file is put where there was a file or nothing. -/
theorem wrote_of_stored (h : d.Stored p bytes e) :
    ∃ location, d.resolve .file p = .ok location ∧ d.Wrote location bytes e := by
  obtain ⟨location, hresolve, hfree, -, rfl⟩ := stored_iff.1 h
  have hbase : ∀ target, d.node? (d.base p) ≠ some (.link target) := by
    rw [base]
    split
    · simp
    · simp [node?_cwd]
  have hlink := not_link_of_followLinks (by decide) hbase (resolve_eq_ok_iff.1 hresolve).2
  refine ⟨location, hresolve, cwd_put d _ _, ?_, fun l hl => ?_, fun node hnode => ?_⟩
  · rw [node?_put _ hfree, if_pos rfl]
  · rw [node?_put _ hfree, if_neg hl]
  · cases node with
    | file old => exact ⟨old, rfl⟩
    | dir => exact absurd hnode hfree.not_dir
    | link target => exact absurd hnode (hlink target)

/-! ## Where paths lead afterwards -/

section Wrote

variable (h : d.Wrote location bytes e)

include h

theorem Wrote.dir (hdir : d.node? l = some .dir) : e.node? l = some .dir := by
  by_cases hl : l = location
  · obtain ⟨old, hold⟩ := h.file .dir (hl ▸ hdir)
    cases hold
  · rw [h.rest l hl, hdir]

theorem Wrote.link {target : String} (hlink : d.node? l = some (.link target)) :
    e.node? l = some (.link target) := by
  by_cases hl : l = location
  · obtain ⟨old, hold⟩ := h.file (.link target) (hl ▸ hlink)
    cases hold
  · rw [h.rest l hl, hlink]

/-- What was no link has stayed or is a file now. -/
theorem Wrote.no_link {node : Node} (hnode : d.node? l = some node)
    (hno : ∀ target, node ≠ .link target) :
    ∃ node', e.node? l = some node' ∧ ∀ target, node' ≠ .link target := by
  by_cases hl : l = location
  · exact ⟨_, hl ▸ h.holds, by simp⟩
  · exact ⟨node, by rw [h.rest l hl, hnode], hno⟩

/-- Where there was nothing there is a file now or still nothing. -/
theorem Wrote.file_of_none (hnone : d.node? l = none) (hsome : (e.node? l).isSome) :
    e.node? l = some (.file bytes) := by
  by_cases hl : l = location
  · rw [hl, h.holds]
  · rw [h.rest l hl, hnone] at hsome
    cases hsome

theorem follow_of_wrote (hwant : want ≠ .directory) (hend : (e.node? l).isSome)
    {onLink onLink' : Location → Path → List String → Except Fault Location}
    (hgo : ∀ h t r, onLink h t r = .ok l → onLink' h t r = .ok l)
    (hfollow : d.follow want onLink here names = .ok l) :
    e.follow .existing onLink' here names = .ok l := by
  induction names generalizing here with
  | nil => simpa [follow] using hfollow
  | cons name rest ih =>
    obtain ⟨hdir, hstep⟩ := follow_cons hfollow
    apply follow_of_step (h.dir hdir)
    cases hstep with
    | stay skip go => exact .stay skip (ih go)
    | up above go => exact .up above (ih go)
    | node plain size found real go =>
      obtain ⟨node', hnode', hno'⟩ := h.no_link found real
      exact .node plain size hnode' hno' (ih go)
    | link plain size found go => exact .link plain size (h.link found) (hgo _ _ _ go)
    | last plain size ends wanted =>
      -- the file itself, which was not there before
      obtain ⟨-, hrest, hnone⟩ := wanted.resolve_left fun h => hwant h.1
      have hfile := h.file_of_none hnone hend
      rw [← ends] at hfile
      exact .node plain size hfile (by simp) (by rw [hrest, follow, ends])

theorem followLinks_of_wrote (hwant : want ≠ .directory) (hend : (e.node? l).isSome) {links : Nat}
    (hfollow : d.followLinks want links here names = .ok l) :
    e.followLinks .existing links here names = .ok l := by
  induction links generalizing here names with
  | zero => exact follow_of_wrote h hwant hend (by simp) hfollow
  | succ links ih => exact follow_of_wrote h hwant hend (fun _ _ _ hl => ih hl) hfollow

/-- Where a path led before a file was written, it leads afterwards. -/
theorem locate_of_wrote (hwant : want ≠ .directory) (hend : (e.node? l).isSome)
    (hresolve : d.resolve want q = .ok l) : e.locate q = .ok l := by
  obtain ⟨hsearch, hlinks⟩ := resolve_eq_ok_iff.1 hresolve
  refine resolve_eq_ok_iff.2 ⟨hsearch, ?_⟩
  rw [base_of_cwd h.cwd]
  exact followLinks_of_wrote h hwant hend hlinks

end Wrote

/-! ## What is read afterwards -/

/-- What has been written is read back. -/
theorem read_of_stored (h : d.Stored p bytes e) : e.read p = .ok bytes := by
  obtain ⟨location, hresolve, hwrote⟩ := wrote_of_stored h
  have hend : (e.node? location).isSome := by simp [hwrote.holds]
  exact read_eq_ok_iff.2 ⟨location, locate_of_wrote hwrote (by decide) hend hresolve, hwrote.holds⟩

/-- What lies elsewhere is read as before a file was written. -/
theorem read_of_stored_of_ne (h : d.Stored p bytes e) {old : List UInt8} (hq : d.read q = .ok old)
    (hne : ∀ l, e.locate p = .ok l → e.locate q ≠ .ok l) : e.read q = .ok old := by
  obtain ⟨location, hresolve, hwrote⟩ := wrote_of_stored h
  have hend : (e.node? location).isSome := by simp [hwrote.holds]
  have hp := locate_of_wrote hwrote (by decide) hend hresolve
  obtain ⟨l, hlocate, hnode⟩ := read_eq_ok_iff.1 hq
  obtain ⟨node', hnode', -⟩ := hwrote.no_link hnode (by simp)
  have hl : e.locate q = .ok l := locate_of_wrote hwrote (by decide) (by simp [hnode']) hlocate
  refine read_eq_ok_iff.2 ⟨l, hl, ?_⟩
  rw [hwrote.rest l fun heq => hne location hp (heq ▸ hl), hnode]

end Amalgam.Disk
