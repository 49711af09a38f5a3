import Mathlib
import Amalgam.Disk.Edit
import Amalgam.Proofs.Path.Steps

/-!
# The way of a path on a disk without links

Where no node is a link, a path leads where its steps alone say, and every location that it passes on
the way is a directory.

Main results:

* `resolve_eq_ok`: where a path that can be followed leads, and what it passes.
* `locate_of_resolve`: such a path still leads there after the disk has gained nodes.
-/

namespace Amalgam.Disk

open Amalgam.Path

/-- Whether no node is a link. -/
def Unlinked (d : Disk) : Prop := ∀ location target, d.node? location ≠ some (.link target)

theorem unlinked_empty : empty.Unlinked := by
  intro location target h
  by_cases hl : location = []
  · simp [hl] at h
  · rw [node?_of_ne_nil empty hl] at h
    simp [empty] at h

/-- A disk without links has none after a file or a directory has been put. -/
theorem Unlinked.put {d : Disk} (hd : d.Unlinked) (location : Location) {node : Node}
    (hnode : ∀ target, node ≠ .link target) : (d.put location node).Unlinked := by
  by_cases hfree : d.Free location
  · intro l target
    rw [node?_put node hfree]
    split
    · simpa using hnode target
    · exact hd l target
  · rwa [Disk.put, dif_neg hfree]

/-- The location from which a path starts. -/
def base (d : Disk) (p : Path) : Location := if p.isAbsolute then [] else d.cwd

/-- The location to which the steps of a path lead. -/
def landing (d : Disk) (p : Path) : Location := p.components.foldl Path.walk (d.base p)

/-- Whether the first steps of a path lead to a location. -/
def Passes (d : Disk) (p : Path) (location : Location) : Prop :=
  ∃ steps, steps <+: p.components ∧ steps.foldl Path.walk (d.base p) = location

section Passes

variable {d e : Disk} {p q : Path} {location : Location}

theorem base_of_cwd (h : e.cwd = d.cwd) (p : Path) : e.base p = d.base p := by
  rw [base, base, h]

theorem landing_of_cwd (h : e.cwd = d.cwd) (p : Path) : e.landing p = d.landing p := by
  rw [landing, landing, base_of_cwd h]

theorem passes_of_cwd (h : e.cwd = d.cwd) : e.Passes p location ↔ d.Passes p location := by
  rw [Passes, Passes, base_of_cwd h]

theorem passes_landing (d : Disk) (p : Path) : d.Passes p (d.landing p) :=
  ⟨p.components, List.prefix_rfl, rfl⟩

/-- A path that goes the first steps of another one passes nothing that the other does not. -/
theorem Passes.of_begins (h : d.Passes p location) (hq : p.Begins q) : d.Passes q location := by
  obtain ⟨steps, hsteps, rfl⟩ := h
  exact ⟨steps, hsteps.trans hq.steps, by rw [base, base, hq.start]⟩

/-- A plain name below a path leads to a child of where the path leads. -/
theorem landing_join {name : String} (hplain : IsPlain name) (hslash : '/' ∉ name.toList) :
    d.landing (p.join ⟨name⟩) = d.landing p ++ [name] := by
  rw [landing, landing, base, isAbsolute_join hplain hslash, components_join hplain hslash,
    List.foldl_append, ← base]
  rfl

end Passes

/-! ## Steps and names -/

/-- Where one name of a route leads from a location when it finds no link. -/
def hop (here : Location) (name : String) : Location :=
  if name = "" ∨ name = "." then here else if name = ".." then here.dropLast else here ++ [name]

theorem foldl_hop {names : List String} (h : ∀ name ∈ names, name ≠ "") (here : Location) :
    names.foldl hop here = (names.filterMap step?).foldl Path.walk here := by
  induction names generalizing here with
  | nil => rfl
  | cons name rest ih =>
    have hname := h name List.mem_cons_self
    rw [List.foldl_cons, ih fun n hn => h n (List.mem_cons_of_mem _ hn), hop, List.filterMap_cons]
    by_cases hdot : name = "."
    · simp [step?, hdot]
    · by_cases hup : name = ".."
      · simp [step?, hup, Path.walk]
      · simp [step?, hname, hdot, hup, Path.walk]

theorem names_ne (p : Path) : ∀ name ∈ p.names, name ≠ "" :=
  fun _ h => (not_mem_of_mem_names h).1

/-- The names of a route lead where the steps of its path do. -/
theorem foldl_route (d : Disk) (p : Path) : p.route.foldl hop (d.base p) = d.landing p := by
  have hroute : p.route.foldl hop (d.base p) = p.names.foldl hop (d.base p) := by
    rw [route]
    split
    · rw [List.foldl_append]
      rfl
    · rfl
  rw [hroute, foldl_hop (names_ne p), landing, foldl_walk_components]

/-- What the steps of a path pass the names of its route pass too. -/
theorem Passes.exists_route {d : Disk} {p : Path} {location : Location} (h : d.Passes p location) :
    ∃ first, first <+: p.route ∧ first.foldl hop (d.base p) = location := by
  have hnames : p.names <+: p.route := by
    rw [route]
    split
    · exact List.prefix_append _ _
    · exact List.prefix_rfl
  have hmoves {more : List Component} (hmore : more <+: p.names.filterMap step?) :
      ∃ first, first <+: p.route ∧
        first.foldl hop (d.base p) = more.foldl Path.walk (d.base p) := by
    obtain ⟨first, hfirst, rfl⟩ := List.prefix_filterMap_iff.1 hmore
    exact ⟨first, hfirst.trans hnames, foldl_hop (fun name hn => names_ne p name (hfirst.mem hn)) _⟩
  obtain ⟨steps, hsteps, rfl⟩ := h
  rw [components] at hsteps
  rcases start_cases p with hs | ⟨step, hs, hstay⟩
  · rw [hs, List.nil_append] at hsteps
    exact hmoves hsteps
  · rw [hs, List.singleton_append] at hsteps
    rcases List.prefix_cons_iff.1 hsteps with rfl | ⟨more, rfl, hmore⟩
    · exact ⟨[], List.nil_prefix, rfl⟩
    · rw [List.foldl_cons, hstay]
      exact hmoves hmore

/-! ## Following -/

section Follow

variable {d : Disk} {want : Purpose} {here location : Location} {name : String}
  {rest names : List String} {onLink : Location → Path → List String → Except Fault Location}

/-- How following goes on from a directory with one name and comes to its end. -/
inductive FollowStep (d : Disk) (want : Purpose)
    (onLink : Location → Path → List String → Except Fault Location) (here : Location)
    (name : String) (rest : List String) (location : Location) : Prop
  | stay (skip : name = "" ∨ name = ".") (go : d.follow want onLink here rest = .ok location)
  | up (above : name = "..") (go : d.follow want onLink here.dropLast rest = .ok location)
  /-- A file or a directory is there. -/
  | node {node : Node} (plain : IsPlain name) (size : name.utf8ByteSize ≤ nameLimit)
      (found : d.node? (here ++ [name]) = some node) (real : ∀ target, node ≠ .link target)
      (go : d.follow want onLink (here ++ [name]) rest = .ok location)
  | link {target : String} (plain : IsPlain name) (size : name.utf8ByteSize ≤ nameLimit)
      (found : d.node? (here ++ [name]) = some (.link target))
      (go : onLink here ⟨target⟩ rest = .ok location)
  /-- The last name is that of a directory to be made or of a file that is not there yet. -/
  | last (plain : IsPlain name) (size : name.utf8ByteSize ≤ nameLimit)
      (ends : here ++ [name] = location)
      (wanted : want = .directory ∧ (rest = [] ∨ rest = [""]) ∨
        want = .file ∧ rest = [] ∧ d.node? location = none)

/-- Following a name takes one of these steps, from a directory. -/
theorem follow_cons (h : d.follow want onLink here (name :: rest) = .ok location) :
    d.node? here = some .dir ∧ d.FollowStep want onLink here name rest location := by
  rw [follow] at h
  split at h
  · cases h
  · next hdir =>
    refine ⟨hdir, ?_⟩
    split at h
    · next hstay => exact .stay hstay h
    · next hstay =>
      split at h
      · next hup => exact .up hup h
      · next hup =>
        have hplain : IsPlain name := ⟨fun h => hstay (.inl h), fun h => hstay (.inr h), hup⟩
        split at h
        · cases h
        · split at h
          · cases h
          · next hsize =>
            split at h
            · cases h
            · split at h
              · next hlast =>
                exact .last hplain (Nat.not_lt.1 hsize) (Except.ok.inj h) (.inl hlast)
              · split at h
                · next hnone =>
                  split at h
                  · next hlast =>
                    obtain rfl := Except.ok.inj h
                    exact .last hplain (Nat.not_lt.1 hsize) rfl (.inr ⟨hlast.1, hlast.2, hnone⟩)
                  · cases h
                · next target hlink => exact .link hplain (Nat.not_lt.1 hsize) hlink h
                · next node hno hnode => exact .node hplain (Nat.not_lt.1 hsize) hnode hno h
  · cases h

/-- To find what is there, each of these steps can be taken. -/
theorem follow_of_step (hdir : d.node? here = some .dir)
    (h : d.FollowStep .existing onLink here name rest location) :
    d.follow .existing onLink here (name :: rest) = .ok location := by
  cases h with
  | stay skip go => simpa only [follow, hdir, skip, if_true] using go
  | up above go =>
    subst above
    simpa [follow, hdir] using go
  | node plain size found real go => rw [follow_cons_name hdir plain size found real, go]
  | link plain size found go =>
    rw [follow, hdir]
    simp only [plain.1, plain.2.1, plain.2.2, or_self, if_false, Nat.not_lt.2 size, found,
      reduceCtorEq, false_and, go]
  | last plain size ends wanted => simp at wanted

theorem hop_of_plain (h : IsPlain name) : hop here name = here ++ [name] := by
  rw [hop, if_neg (not_or.2 ⟨h.1, h.2.1⟩), if_neg h.2.2]

/-- What following one name does where it finds no link: it goes on from where the name leads, or it
ends there. -/
theorem follow_cons_eq_ok (hd : d.Unlinked)
    (h : d.follow want onLink here (name :: rest) = .ok location) :
    d.node? here = some .dir ∧ (IsPlain name → name.utf8ByteSize ≤ nameLimit) ∧
      ((d.node? (hop here name)).isSome ∧
          d.follow want onLink (hop here name) rest = .ok location ∨
        hop here name = location ∧ (rest = [] ∨ want = .directory ∧ rest = [""])) := by
  obtain ⟨hdir, hstep⟩ := follow_cons h
  refine ⟨hdir, ?_⟩
  cases hstep with
  | stay skip go =>
    rw [hop, if_pos skip]
    exact ⟨fun hp => (skip.elim hp.1 hp.2.1).elim, .inl ⟨by simp [hdir], go⟩⟩
  | up above go =>
    have hup : hop here name = here.dropLast := by simp [hop, above]
    rw [hup]
    exact ⟨fun hp => (hp.2.2 above).elim, .inl ⟨by simp [above_of_node? hdir], go⟩⟩
  | node plain size found real go =>
    rw [hop_of_plain plain]
    exact ⟨fun _ => size, .inl ⟨by simp [found], go⟩⟩
  | @link target plain size found go => exact absurd found (hd _ target)
  | last plain size ends wanted =>
    rw [hop_of_plain plain]
    refine ⟨fun _ => size, .inr ⟨ends, ?_⟩⟩
    rcases wanted with ⟨hwant, hrest⟩ | ⟨-, hrest, -⟩
    · exact hrest.imp id (⟨hwant, ·⟩)
    · exact .inl hrest

/-- Where following ends, and that it goes through directories until there. -/
theorem follow_eq_ok (hd : d.Unlinked) (h : d.follow want onLink here names = .ok location) :
    names.foldl hop here = location ∧
      ∀ first, first <+: names →
        first.foldl hop here = location ∨ d.node? (first.foldl hop here) = some .dir := by
  induction names generalizing here with
  | nil =>
    obtain rfl : here = location := by simpa [follow] using h
    exact ⟨rfl, fun first hfirst => .inl (by rw [List.prefix_nil.1 hfirst, List.foldl_nil])⟩
  | cons name rest ih =>
    obtain ⟨hdir, -, ⟨-, hgo⟩ | ⟨rfl, hrest⟩⟩ := follow_cons_eq_ok hd h
    · obtain ⟨hland, hpass⟩ := ih hgo
      refine ⟨hland, fun first hfirst => ?_⟩
      rcases List.prefix_cons_iff.1 hfirst with rfl | ⟨more, rfl, hmore⟩
      · exact .inr hdir
      · exact hpass more hmore
    · -- what may follow the last name is an empty one, and that leads nowhere
      have hstay : ∀ more, more <+: rest → more.foldl hop (hop here name) = hop here name := by
        intro more hmore
        rcases hrest with rfl | ⟨-, rfl⟩
        · rw [List.prefix_nil.1 hmore, List.foldl_nil]
        · rcases List.prefix_cons_iff.1 hmore with rfl | ⟨t, rfl, ht⟩
          · rfl
          · rw [List.prefix_nil.1 ht]
            rfl
      refine ⟨hstay rest List.prefix_rfl, fun first hfirst => ?_⟩
      rcases List.prefix_cons_iff.1 hfirst with rfl | ⟨more, rfl, hmore⟩
      · exact .inr hdir
      · exact .inl (hstay more hmore)

theorem exists_follow_of_followLinks {links : Nat}
    (h : d.followLinks want links here names = .ok location) :
    ∃ onLink, d.follow want onLink here names = .ok location := by
  cases links <;> exact ⟨_, h⟩

theorem followLinks_of_follow {links : Nat}
    (h : ∀ onLink, d.follow want onLink here names = .ok location) :
    d.followLinks want links here names = .ok location := by
  cases links <;> exact h _

/-- Whether a path is one that can be looked up at all. -/
def IsSearchable (p : Path) : Prop :=
  '\x00' ∉ p.spelling.toList ∧ p.spelling.utf8ByteSize ≤ pathLimit ∧ p.spelling ≠ ""

theorem resolve_eq_ok_iff {p : Path} :
    d.resolve want p = .ok location ↔
      IsSearchable p ∧ d.followLinks want linkLimit (d.base p) p.route = .ok location := by
  rw [resolve, followPath, IsSearchable, base]
  split
  · simp_all
  · split
    · simp_all
    · split
      · simp_all
      · simp_all

/-- A path of any length is followed name by name from where it starts. -/
theorem followLinks_of_followPath {p : Path} (h : d.followPath want p = .ok location) :
    d.followLinks want linkLimit (d.base p) p.route = .ok location := by
  rw [followPath] at h
  split at h
  · cases h
  · split at h
    · cases h
    · exact h

/-- A path that can be followed leads where its steps do, and what it passes before is a directory. -/
theorem resolve_eq_ok (hd : d.Unlinked) {p : Path} (h : d.resolve want p = .ok location) :
    d.landing p = location ∧
      ∀ l, d.Passes p l → l = location ∨ d.node? l = some .dir := by
  obtain ⟨onLink, hfollow⟩ := exists_follow_of_followLinks (resolve_eq_ok_iff.1 h).2
  obtain ⟨hland, hpass⟩ := follow_eq_ok hd hfollow
  refine ⟨(foldl_route d p).symm.trans hland, fun l hl => ?_⟩
  obtain ⟨first, hfirst, rfl⟩ := hl.exists_route
  exact hpass first hfirst

end Follow

/-! ## Disks that have gained nodes -/

/-- Whether a disk has every directory of another one, and some node wherever the other has one. -/
structure Covers (e d : Disk) : Prop where
  cwd : e.cwd = d.cwd
  dir : ∀ l, d.node? l = some .dir → e.node? l = some .dir
  node : ∀ l, (d.node? l).isSome → (e.node? l).isSome

section Covers

variable {d e : Disk} {want : Purpose} {here location : Location} {name : String}
  {rest names : List String}

theorem Covers.trans {f : Disk} (h : f.Covers e) (h' : e.Covers d) : f.Covers d where
  cwd := h.cwd.trans h'.cwd
  dir l hl := h.dir l (h'.dir l hl)
  node l hl := h.node l (h'.node l hl)

theorem covers_put (hfree : d.Free location) (bytes : List UInt8) :
    (d.put location (.file bytes)).Covers d where
  cwd := cwd_put d location _
  dir l hl := by
    rw [node?_put _ hfree, if_neg fun heq : l = location => hfree.not_dir (heq ▸ hl), hl]
  node l hl := by
    rw [node?_put _ hfree]
    split
    · rfl
    · exact hl

/-- Storing a file makes no link. -/
theorem Stored.unlinked {p : Path} {bytes : List UInt8} (h : d.Stored p bytes e) (hd : d.Unlinked) :
    e.Unlinked := by
  obtain ⟨location, -, -, rfl⟩ := h
  exact hd.put location (by simp)

theorem Stored.covers {p : Path} {bytes : List UInt8} (h : d.Stored p bytes e) : e.Covers d := by
  obtain ⟨location, -, hfree, -, rfl⟩ := stored_iff.1 h
  exact covers_put hfree bytes

theorem follow_existing_cons (he : e.Unlinked) (hdir : e.node? here = some .dir)
    (hsize : IsPlain name → name.utf8ByteSize ≤ nameLimit) (hnode : (e.node? (hop here name)).isSome)
    (onLink : Location → Path → List String → Except Fault Location) :
    e.follow .existing onLink here (name :: rest) = e.follow .existing onLink (hop here name) rest := by
  rw [hop] at hnode ⊢
  by_cases hstay : name = "" ∨ name = "."
  · rw [if_pos hstay, follow, hdir]
    simp only [hstay, if_true]
  by_cases hup : name = ".."
  · rw [if_neg hstay, if_pos hup, follow, hdir]
    simp [hup]
  rw [if_neg hstay, if_neg hup] at hnode ⊢
  obtain ⟨node, hn⟩ := Option.isSome_iff_exists.1 hnode
  have hplain : IsPlain name := ⟨fun h => hstay (.inl h), fun h => hstay (.inr h), hup⟩
  exact follow_cons_name hdir hplain (hsize hplain) hn fun target hlink => he _ target (hlink ▸ hn)

/-- A path that could be followed to its end is followed to the same end on a disk that has the same
directories on the way and some node wherever there was one, if the end is one of them. -/
theorem follow_of_way (hd : d.Unlinked) (he : e.Unlinked) (hwant : want ≠ .directory)
    (hend : (e.node? location).isSome)
    (hdirs : ∀ first, first <+: names → d.node? (first.foldl hop here) = some .dir →
      e.node? (first.foldl hop here) = some .dir)
    (hnodes : ∀ first, first <+: names → (d.node? (first.foldl hop here)).isSome →
      (e.node? (first.foldl hop here)).isSome)
    {onLink : Location → Path → List String → Except Fault Location}
    (h : d.follow want onLink here names = .ok location)
    (onLink' : Location → Path → List String → Except Fault Location) :
    e.follow .existing onLink' here names = .ok location := by
  induction names generalizing here with
  | nil => simpa [follow] using h
  | cons name rest ih =>
    have hhere : d.node? here = some .dir → e.node? here = some .dir := hdirs [] List.nil_prefix
    have hnext : (d.node? (hop here name)).isSome → (e.node? (hop here name)).isSome :=
      hnodes [name] (List.prefix_cons_iff.2 (.inr ⟨[], rfl, List.nil_prefix⟩))
    have longer {first : List String} (hfirst : first <+: rest) : name :: first <+: name :: rest :=
      (List.prefix_cons_inj name).2 hfirst
    obtain ⟨hdir, hsize, ⟨hnode, hgo⟩ | ⟨rfl, hrest⟩⟩ := follow_cons_eq_ok hd h
    · rw [follow_existing_cons he (hhere hdir) hsize (hnext hnode)]
      exact ih (fun first hfirst => hdirs (name :: first) (longer hfirst))
        (fun first hfirst => hnodes (name :: first) (longer hfirst)) hgo
    · obtain rfl : rest = [] := hrest.resolve_right fun h => hwant h.1
      rw [follow_existing_cons he (hhere hdir) hsize hend, follow]

/-- Where a path led, it leads to what lies there on a disk that has gained nodes. -/
theorem locate_of_resolve (hd : d.Unlinked) (he : e.Unlinked) (hc : e.Covers d)
    (hwant : want ≠ .directory) (hend : (e.node? location).isSome) {p : Path}
    (h : d.resolve want p = .ok location) : e.locate p = .ok location := by
  obtain ⟨hsearch, hlinks⟩ := resolve_eq_ok_iff.1 h
  obtain ⟨onLink, hfollow⟩ := exists_follow_of_followLinks hlinks
  refine resolve_eq_ok_iff.2 ⟨hsearch, ?_⟩
  rw [base_of_cwd hc.cwd]
  exact followLinks_of_follow (follow_of_way hd he hwant hend (fun _ _ => hc.dir _)
    (fun _ _ => hc.node _) hfollow)

end Covers

end Amalgam.Disk
