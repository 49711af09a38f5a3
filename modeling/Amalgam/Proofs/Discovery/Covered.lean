import Mathlib
import Amalgam.Proofs.Config.Resolved
import Amalgam.Proofs.Discovery.Found

/-!
# The files that roots cover

On a disk without links, a search from spelled-out roots takes the files at the locations below them,
whatever root they are seen from. So what is found is decided by the set of these locations alone.

Main results:

* `exists_walkRoot_iff`: which locations can be walked.
* `below_and_accepts_iff`: a search takes the files that its roots cover.
* `find_eq_ok_of_takes`: searches that take the same files find the same.
-/

namespace Amalgam.Discovery

open Amalgam.Path Amalgam.Disk

variable {d e : Disk} {roots more : List Path} {rejects : Rejects} {ending : String} {r l m : Location}

/-! ## Walks -/

/-- Whether a location is that of a directory below which every directory can be listed. -/
structure Listable (d : Disk) (r : Location) : Prop where
  dir : d.node? r = some .dir
  fits : ∀ m, d.node? (r ++ m) = some .dir → Fits (r ++ m)

/-- All that lies below a directory that can be walked can be walked. -/
theorem Listable.below (h : Listable d r) (hl : r <+: l) (hdir : d.node? l = some .dir) :
    Listable d l := by
  obtain ⟨m, rfl⟩ := hl
  exact ⟨hdir, fun n hn => List.append_assoc r m n ▸ h.fits (m ++ n) (List.append_assoc r m n ▸ hn)⟩

theorem listingFault?_eq_none_iff {visit : Visit} :
    d.listingFault? visit = none ↔
      (visit.node = .dir → ∃ location, d.locate visit.path = .ok location) := by
  rw [listingFault?]
  split
  · next fault hnode hlocate => simp [hnode, hlocate]
  · next hother =>
    refine iff_of_true rfl fun hnode => ?_
    cases hlocate : d.locate visit.path with
    | ok location => exact ⟨location, rfl⟩
    | error fault => exact absurd hlocate (hother fault hnode)

section Unlinked

variable (hd : d.Unlinked)

include hd

/-- On a disk without links a walk succeeds from a directory below which every directory can be
listed. -/
theorem exists_walkRoot_iff (hr : ∀ name ∈ r, IsSegment name) :
    (∃ paths, walkRoot d (ofLocation r) = .ok paths) ↔ Listable d r := by
  have hwalk : (∃ paths, walkRoot d (ofLocation r) = .ok paths) ↔
      (Fits r ∧ d.node? r = some .dir) ∧
        ∀ stop ∈ d.visits (ofLocation r), d.listingFault? stop = none := by
    simp only [walkRoot_eq_ok_iff, isDir_ofLocation_iff hd hr, walk_eq_ok_iff, exists_and_left,
      exists_eq, and_true]
  have hlocate (hdir : d.node? r = some .dir) (hfits : Fits r) :
      d.locate (ofLocation r) = .ok r :=
    (locate_ofLocation_eq_ok_iff hd hr).2 ⟨rfl, hfits, by simp [hdir]⟩
  rw [hwalk]
  constructor
  · rintro ⟨⟨hfits, hdir⟩, hlisted⟩
    refine ⟨hdir, fun m hm => ?_⟩
    by_cases hm0 : m = []
    · rwa [hm0, List.append_nil]
    · have hstop : ⟨(ofLocation r).join ⟨joinNames m⟩, .dir⟩ ∈ d.visits (ofLocation r) :=
        (mem_visits_iff (hlocate hdir hfits)).2 (.inr ⟨m, hm0, hm, rfl⟩)
      obtain ⟨location, hlocation⟩ := listingFault?_eq_none_iff.1 (hlisted _ hstop) rfl
      have hall := isSegment_of_node? hm
      rw [join_ofLocation (fun n hn => hall n (List.mem_append_right r hn)) hm0 hr,
        locate_ofLocation_eq_ok_iff hd hall] at hlocation
      exact hlocation.2.1
  · rintro ⟨hdir, hfits⟩
    have hfits' : Fits r := by simpa using hfits [] (by simpa using hdir)
    refine ⟨⟨hfits', hdir⟩, fun stop hstop => listingFault?_eq_none_iff.2 fun hnode => ?_⟩
    rcases (mem_visits_iff (hlocate hdir hfits')).1 hstop with rfl | ⟨m, hm0, hm, hpath⟩
    · exact ⟨r, hlocate hdir hfits'⟩
    · have hall := isSegment_of_node? hm
      rw [hpath, join_ofLocation (fun n hn => hall n (List.mem_append_right r hn)) hm0 hr]
      exact ⟨r ++ m, (locate_ofLocation_eq_ok_iff hd hall).2
        ⟨rfl, hfits m (hnode ▸ hm), by simp [hm]⟩⟩

end Unlinked

/-! ## Files -/

/-- Whether a search from some roots takes the file at a location. -/
structure Takes (d : Disk) (roots : List Path) (rejects : Rejects) (ending : String) (l : Location) :
    Prop where
  root : ∃ r, ofLocation r ∈ roots ∧ r <+: l ∧ r ≠ l
  file : ∃ bytes, d.node? l = some (.file bytes)
  fits : Fits l
  named : endsAs ending (ofLocation l) = true
  outside : inRejectedDir rejects (ofLocation l) = false
  kept : (ofLocation l).isIn rejects.files = false

/-- A search takes the files that its roots cover. -/
theorem below_and_accepts_iff (hd : d.Unlinked) (hroots : ∀ root ∈ roots, root.IsSpelledOut)
    {p : Path} :
    Below d roots p ∧ accepts d rejects ending p = true ↔
      ∃ l, p = ofLocation l ∧ Takes d roots rejects ending l := by
  constructor
  · rintro ⟨hbelow, haccepts⟩
    obtain ⟨l, hl, rfl⟩ := hbelow.isSpelledOut hroots
    obtain ⟨hfile, hending, houtside, hkept⟩ := accepts_eq_true_iff.1 haccepts
    obtain ⟨hfits, hnode⟩ := (isFile_ofLocation_iff hd hl).1 hfile
    obtain ⟨root, hroot, location, more, hlocate, hne, hsome, hjoin⟩ := hbelow
    obtain ⟨r, hr, rfl⟩ := hroots root hroot
    obtain ⟨rfl, -, -⟩ := (locate_ofLocation_eq_ok_iff hd hr).1 hlocate
    obtain ⟨node, hbelow⟩ := Option.isSome_iff_exists.1 hsome
    have hall := isSegment_of_node? hbelow
    rw [join_ofLocation (fun n hn => hall n (List.mem_append_right _ hn)) hne hr] at hjoin
    obtain rfl : l = location ++ more := (same_ofLocation_iff hl hall).1 (hjoin ▸ .refl _)
    exact ⟨_, rfl, ⟨location, hroot, List.prefix_append _ _, by simpa using hne⟩, hnode, hfits,
      hending, houtside, hkept⟩
  · rintro ⟨l, rfl, ⟨r, hroot, ⟨more, rfl⟩, hne⟩, ⟨bytes, hnode⟩, hfits, hending, houtside, hkept⟩
    have hall := isSegment_of_node? hnode
    have hr : ∀ name ∈ r, IsSegment name := fun n hn => hall n (List.mem_append_left _ hn)
    have hmore : more ≠ [] := by simpa using hne
    have hlocate : d.locate (ofLocation r) = .ok r :=
      (locate_ofLocation_eq_ok_iff hd hr).2 ⟨rfl, fits_of_begins (List.prefix_append r more) hall hfits,
        by simp [dir_of_append hnode hmore]⟩
    refine ⟨⟨_, hroot, r, more, hlocate, hmore, by simp [hnode], ?_⟩, ?_⟩
    · rw [join_ofLocation (fun n hn => hall n (List.mem_append_right _ hn)) hmore hr]
    · exact accepts_eq_true_iff.2
        ⟨(isFile_ofLocation_iff hd hall).2 ⟨hfits, bytes, hnode⟩, hending, houtside, hkept⟩

/-- Every root of a search that succeeds can be walked. -/
theorem listable_of_find (hd : d.Unlinked) {found : List Path}
    (h : find d roots rejects ending = .ok found) (hr : ∀ name ∈ r, IsSegment name)
    (hroot : ofLocation r ∈ roots) : Listable d r :=
  (exists_walkRoot_iff hd hr).1 (exists_find_iff.1 ⟨found, h⟩ _ hroot)

/-- Searches that take the same files find the same. -/
theorem find_eq_ok_of_takes (hd : d.Unlinked) (he : e.Unlinked)
    (hroots : ∀ root ∈ roots, root.IsSpelledOut) (hmore : ∀ root ∈ more, root.IsSpelledOut)
    (hlist : ∀ r, (∀ name ∈ r, IsSegment name) → ofLocation r ∈ more → Listable e r)
    (htakes : ∀ l, Takes d roots rejects ending l ↔ Takes e more rejects ending l)
    {found : List Path} (h : find d roots rejects ending = .ok found) :
    find e more rejects ending = .ok found := by
  obtain ⟨other, hother⟩ : ∃ other, find e more rejects ending = .ok other := by
    refine exists_find_iff.2 fun root hroot => ?_
    obtain ⟨r, hr, rfl⟩ := hmore root hroot
    exact (exists_walkRoot_iff he hr).2 (hlist r hr hroot)
  rw [hother, Except.ok.injEq]
  refine (pairwise_of_find hother).eq_of_mem_iff (pairwise_of_find h) fun p => ?_
  rw [mem_find_iff hmore hother, mem_find_iff hroots h, below_and_accepts_iff he hmore,
    below_and_accepts_iff hd hroots]
  simp only [htakes]

end Amalgam.Discovery
