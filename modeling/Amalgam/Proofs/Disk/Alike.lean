import Mathlib
import Amalgam.Proofs.Disk.Location

/-!
# What an absolute path can tell of a disk

On a disk without links an absolute path is followed through the locations that it passes and no
others, so two disks that are alike there show the same at its end. Where it ends in a file, it ends
in a name, and the path without this name leads to the directory of the file.

Main results:

* `stat?_congr`: an absolute path shows the same on disks that are alike on its way.
* `stat?_eq_none_of_passes`: a path through what is no directory leads nowhere.
* `parent?_of_locate`: the path above that of a file leads to the directory of the file.
-/

namespace Amalgam.Disk

open Amalgam.Path

variable {d e : Disk} {p : Path} {l : Location}

/-! ## The way of an absolute path -/

theorem base_of_isAbsolute (h : p.isAbsolute = true) (d : Disk) : d.base p = [] := by
  rw [base, h, if_pos rfl]

/-- An absolute path leads where its normal form does. -/
theorem landing_of_isAbsolute (h : p.isAbsolute = true) (d : Disk) :
    d.landing p = normalNames p.components := by
  rw [landing, base_of_isAbsolute h]
  rfl

theorem ofLocation_landing (h : p.isAbsolute = true) (d : Disk) :
    ofLocation (d.landing p) = p.normalize := by
  rw [landing_of_isAbsolute h, normalize_of_isAbsolute h]

/-- What the names of a route pass its path passes too. -/
theorem passes_of_route (d : Disk) {first : List String} (h : first <+: p.route) :
    d.Passes p (first.foldl hop (d.base p)) := by
  have hnames {more : List String} (hmore : more <+: p.names) :
      d.Passes p (more.foldl hop (d.base p)) := by
    refine ⟨p.start ++ more.filterMap step?, ?_, ?_⟩
    · rw [components, List.prefix_append_right_inj]
      exact hmore.filterMap step?
    · rw [List.foldl_append, foldl_walk_start, foldl_hop fun name hn => names_ne p name (hmore.mem hn)]
  rw [route] at h
  split at h
  · rcases List.prefix_concat_iff.1 h with rfl | h
    · -- the empty name at the end leads nowhere
      rw [List.foldl_append]
      exact hnames List.prefix_rfl
    · exact hnames h
  · exact hnames h

/-! ## Disks that are alike on the way -/

section Alike

variable (hd : d.Unlinked) (he : e.Unlinked) (hp : p.isAbsolute = true)
  (h : ∀ l, d.Passes p l → e.node? l = d.node? l)

include hd he hp h

/-- An absolute path leads where it leads on a disk that is alike on its way. -/
theorem locate_of_alike (hl : d.locate p = .ok l) : e.locate p = .ok l := by
  obtain ⟨node, hnode⟩ := locate_eq_ok hl
  have hend : e.node? l = d.node? l := h l ((resolve_eq_ok hd hl).1 ▸ passes_landing d p)
  have hway : ∀ first, first <+: p.route →
      e.node? (first.foldl hop (d.base p)) = d.node? (first.foldl hop (d.base p)) :=
    fun first hfirst => h _ (passes_of_route d hfirst)
  obtain ⟨hsearch, hlinks⟩ := resolve_eq_ok_iff.1 hl
  obtain ⟨onLink, hfollow⟩ := exists_follow_of_followLinks hlinks
  refine resolve_eq_ok_iff.2 ⟨hsearch, ?_⟩
  rw [base_of_isAbsolute hp, ← base_of_isAbsolute hp d]
  exact followLinks_of_follow (follow_of_way hd he (by decide) (by simp [hend, hnode])
    (fun first hfirst hdir => (hway first hfirst).trans hdir)
    (fun first hfirst hsome => hway first hfirst ▸ hsome) hfollow)

theorem stat?_congr : e.stat? p = d.stat? p := by
  have hback : ∀ l, e.Passes p l → d.node? l = e.node? l := by
    intro l hl
    rw [Passes, base_of_isAbsolute hp, ← base_of_isAbsolute hp d] at hl
    exact (h l hl).symm
  rw [stat?, stat?]
  cases hl : d.locate p with
  | ok l =>
    rw [locate_of_alike hd he hp h hl]
    exact h l ((resolve_eq_ok hd hl).1 ▸ passes_landing d p)
  | error fault =>
    cases hl' : e.locate p with
    | ok l' =>
      rw [locate_of_alike he hd hp hback hl'] at hl
      cases hl
    | error fault' => rfl

end Alike

/-- A path through what is no directory leads nowhere. -/
theorem stat?_eq_none_of_passes (hd : d.Unlinked) (hpass : d.Passes p l) (hne : d.landing p ≠ l)
    (hdir : d.node? l ≠ some .dir) : d.stat? p = none := by
  rw [stat?]
  cases hl : d.locate p with
  | error fault => rfl
  | ok location =>
    obtain ⟨hland, hdirs⟩ := resolve_eq_ok hd hl
    exact absurd ((hdirs l hpass).resolve_left fun heq => hne (hland.trans heq.symm)) hdir

/-! ## The directory of a file -/

/-- The path above that of a file leads to the directory of the file. -/
theorem parent?_of_locate (hd : d.Unlinked) (hp : p.isAbsolute = true) (hl : d.locate p = .ok l)
    {bytes : List UInt8} (hfile : d.node? l = some (.file bytes)) :
    ∃ dir, p.parent? = some dir ∧ dir.isAbsolute = true ∧ dir.normalize = ofLocation l.dropLast := by
  obtain ⟨hland, hpass⟩ := resolve_eq_ok hd hl
  rw [landing_of_isAbsolute hp] at hland
  have hroot : p.components = .root :: p.names.filterMap step? := by
    rw [components, start, hp, if_pos rfl]
    rfl
  have hl0 : l ≠ [] := by
    rintro rfl
    simp at hfile
  obtain ⟨front, last, hsteps⟩ : ∃ front last, p.components = front ++ [last] :=
    ⟨_, _, (List.dropLast_append_getLast (hroot ▸ List.cons_ne_nil _ _)).symm⟩
  have hwalk : Path.walk (normalNames front) last = l := by
    rw [← hland, hsteps, normalNames_append]
    rfl
  have hfront : d.Passes p (normalNames front) :=
    ⟨front, ⟨[last], hsteps.symm⟩, by rw [base_of_isAbsolute hp]; rfl⟩
  -- the root is no file, so the last step is not the first one
  have hmove : last.IsMove := by
    rw [hroot] at hsteps
    cases front with
    | nil =>
      obtain rfl : Component.root = last := (List.cons.inj hsteps).1
      exact absurd hwalk.symm hl0
    | cons first more =>
      refine isMove_of_mem_moves (p := p) ?_
      rw [(List.cons.inj hsteps).2]
      exact List.mem_append_right _ List.mem_cons_self
  cases hmove with
  | up =>
    -- a step up ends in a directory
    have hup : (normalNames front).dropLast = l := hwalk
    rcases hpass _ hfront with heq | hdir
    · have hlength := congrArg List.length (heq ▸ hup)
      rw [List.length_dropLast] at hlength
      exact absurd (List.length_pos_iff.2 hl0) (by omega)
    · have habove := above_of_node? hdir
      rw [hup, hfile] at habove
      cases habove
  | name plain slash =>
    have hparent : p.parent? = some (ofComponents front) := by
      rw [parent?, hsteps, List.getLast?_concat, List.dropLast_concat]
    have habs : (ofComponents front).isAbsolute = true := by
      rw [(begins_of_parent? hparent).start, hp]
    refine ⟨ofComponents front, hparent, habs, ?_⟩
    rw [normalize_of_isAbsolute habs, components_ofComponents ⟨_, hsteps.symm⟩, ← hwalk]
    exact congrArg ofLocation List.dropLast_concat.symm

end Amalgam.Disk
