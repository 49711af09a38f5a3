import Mathlib
import Amalgam.Proofs.Discovery.Covered
import Amalgam.Proofs.Run.Built

/-!
# Listing the same roots in another way

Source roots may be listed in another order, more than once, or together with directories inside
them. The files below the roots stay the same, so a build gives the same, and its files stand in the
order of their paths, not of the roots.

Main results:

* `Relisted.subset`, `Relisted.inside`: the roots of another listing.
* `Relisted.find_eq_ok_iff`: on a disk without links they give the same files.
* `build_relisted`: so a build gives the same.
-/

namespace Amalgam

open Amalgam.Path Amalgam.Disk

namespace Discovery

variable {d : Disk} {roots more : List Path} {p q r : Path}

/-! ## Listings -/

/-- Whether a path leads to a directory that is the place to which another path leads, or lies below
it. -/
def Inside (d : Disk) (p q : Path) : Prop :=
  ∃ l m, d.locate q = .ok l ∧ d.locate p = .ok m ∧ l <+: m ∧ d.node? m = some .dir

theorem Inside.trans (h : Inside d p q) (h' : Inside d q r) : Inside d p r := by
  obtain ⟨l, m, hl, hm, hlm, hdir⟩ := h
  obtain ⟨k, l', hk, hl', hkl, -⟩ := h'
  obtain rfl : l = l' := Except.ok.inj (hl.symm.trans hl')
  exact ⟨k, m, hk, hm, hkl.trans hlm, hdir⟩

/-- Whether roots are others in another order, some of them repeated, and with directories inside
some of them added. -/
inductive Relisted (d : Disk) : List Path → List Path → Prop
  | permuted {roots more : List Path} : roots.Perm more → Relisted d roots more
  | repeated {root : Path} {roots : List Path} : root ∈ roots → Relisted d roots (root :: roots)
  | inner {root inside : Path} {roots : List Path} : root ∈ roots → Inside d inside root →
      Relisted d roots (inside :: roots)
  | trans {roots more most : List Path} : Relisted d roots more → Relisted d more most →
      Relisted d roots most

/-- No root is left out. -/
theorem Relisted.subset (h : Relisted d roots more) : roots ⊆ more := by
  induction h with
  | permuted hperm => exact hperm.subset
  | repeated _ | inner _ _ => exact List.subset_cons_self _ _
  | trans _ _ ih ih' => exact fun _ hroot => ih' (ih hroot)

/-- Every root is one of the others or lies inside one of them. -/
theorem Relisted.inside (h : Relisted d roots more) {p : Path} (hp : p ∈ more) :
    p ∈ roots ∨ ∃ root ∈ roots, Inside d p root := by
  induction h generalizing p with
  | permuted hperm => exact .inl (hperm.mem_iff.2 hp)
  | repeated hroot =>
    rcases List.mem_cons.1 hp with rfl | hp
    · exact .inl hroot
    · exact .inl hp
  | inner hroot hinside =>
    rcases List.mem_cons.1 hp with rfl | hp
    · exact .inr ⟨_, hroot, hinside⟩
    · exact .inl hp
  | trans _ _ ih ih' =>
    rcases ih' hp with hp | ⟨q, hq, hpq⟩
    · exact ih hp
    · rcases ih hq with hq | ⟨root, hroot, hqr⟩
      · exact .inr ⟨q, hq, hpq⟩
      · exact .inr ⟨root, hroot, hpq.trans hqr⟩

theorem Relisted.ne_nil_iff (h : Relisted d roots more) : more ≠ [] ↔ roots ≠ [] := by
  constructor
  · intro hmore
    obtain ⟨p, hp⟩ := List.exists_mem_of_ne_nil more hmore
    rcases h.inside hp with hp | ⟨root, hroot, -⟩
    · exact List.ne_nil_of_mem hp
    · exact List.ne_nil_of_mem hroot
  · intro hroots
    obtain ⟨root, hroot⟩ := List.exists_mem_of_ne_nil roots hroots
    exact List.ne_nil_of_mem (h.subset hroot)

/-! ## Searches -/

section SpelledOut

variable (hd : d.Unlinked) (hroots : ∀ root ∈ roots, root.IsSpelledOut)
  (hmore : ∀ root ∈ more, root.IsSpelledOut) (h : Relisted d roots more)

include hd hroots h

/-- The locations that roots spell out are those of the others or directories below these. -/
theorem Relisted.exists_root {l : Location} (hl : ∀ name ∈ l, IsSegment name)
    (hmem : ofLocation l ∈ more) :
    ∃ r, ofLocation r ∈ roots ∧ (∀ name ∈ r, IsSegment name) ∧ r <+: l ∧
      (r = l ∨ d.node? l = some .dir) := by
  rcases h.inside hmem with hmem | ⟨root, hroot, k, m, hk, hm, hkm, hdir⟩
  · exact ⟨l, hmem, hl, List.prefix_rfl, .inl rfl⟩
  · obtain ⟨r, hr, rfl⟩ := hroots root hroot
    obtain ⟨rfl, -, -⟩ := (locate_ofLocation_eq_ok_iff hd hr).1 hk
    obtain ⟨rfl, -, -⟩ := (locate_ofLocation_eq_ok_iff hd hl).1 hm
    exact ⟨k, hroot, hr, hkm, .inr hdir⟩

/-- Roots that are listed in another way take the same files. -/
theorem Relisted.takes_iff {rejects : Rejects} {ending : String} {l : Location} :
    Takes d roots rejects ending l ↔ Takes d more rejects ending l := by
  constructor
  · intro htakes
    obtain ⟨r, hroot, hrl, hne⟩ := htakes.root
    exact { htakes with root := ⟨r, h.subset hroot, hrl, hne⟩ }
  · intro htakes
    obtain ⟨m, hroot, hml, hne⟩ := htakes.root
    obtain ⟨bytes, hnode⟩ := htakes.file
    have hm : ∀ name ∈ m, IsSegment name := fun n hn => isSegment_of_node? hnode n (hml.mem hn)
    obtain ⟨r, hr, -, hrm, -⟩ := h.exists_root hd hroots hm hroot
    refine { htakes with root := ⟨r, hr, hrm.trans hml, ?_⟩ }
    -- if the outer root were the file, so would be the root between them
    rintro rfl
    exact hne (hml.eq_of_length_le hrm.length_le)

include hmore

/-- Roots that are listed in another way find the same files. -/
theorem Relisted.find_eq_ok_iff {rejects : Rejects} {ending : String} {found : List Path} :
    find d more rejects ending = .ok found ↔ find d roots rejects ending = .ok found := by
  constructor
  · intro hfind
    refine find_eq_ok_of_takes hd hd hmore hroots (fun r hr hroot => ?_)
      (fun l => (h.takes_iff hd hroots).symm) hfind
    exact listable_of_find hd hfind hr (h.subset hroot)
  · intro hfind
    refine find_eq_ok_of_takes hd hd hroots hmore (fun l hl hroot => ?_)
      (fun l => h.takes_iff hd hroots) hfind
    -- a root that was added is passed on the walk from the one above it
    obtain ⟨r, hmem, hr, hrl, rfl | hdir⟩ := h.exists_root hd hroots hl hroot
    · exact listable_of_find hd hfind hr hmem
    · exact (listable_of_find hd hfind hr hmem).below hrl hdir

end SpelledOut

end Discovery

/-! ## Builds -/

/-- The source document ends with the files that have no place. -/
theorem Document.exists_front (classification : Classification) (headerName : String) :
    ∃ front, source classification headerName = front ++
      (["", "/* ===== unranked headers ===== */"] ++
        classification.unranked.flatMap SourceFile.body ++
        ["/* ===== end unranked headers ===== */"]) ++
      (["", "/* ===== implementation files ===== */"] ++
        classification.implementations.flatMap SourceFile.body ++
        ["/* ===== end implementation files ===== */"]) := by
  refine ⟨[notice, ""] ++ classification.internalIncludes.render ++ [ownInclude headerName] ++
    (classification.ranked.toList.map Section.ofPlace).flatMap Section.lines, ?_⟩
  have hunranked : (Section.mk "unranked headers" classification.unranked).lines =
      ["", "/* ===== unranked headers ===== */"] ++ classification.unranked.flatMap SourceFile.body ++
        ["/* ===== end unranked headers ===== */"] := Section.lines_mk _ _
  have himplementations :
      (Section.mk "implementation files" classification.implementations).lines =
        ["", "/* ===== implementation files ===== */"] ++
          classification.implementations.flatMap SourceFile.body ++
          ["/* ===== end implementation files ===== */"] := Section.lines_mk _ _
  simp [source, sourceSections, hunranked, himplementations]

namespace Config

open Discovery

variable {c : Config} {d : Disk} {roots : List Path}

/-- On a disk without links it does not matter how the roots of a resolved configuration are listed: a
build succeeds for the one listing when it does for the other, and then with the same documents, counts
and warnings. The source document ends with the headers without a place and with the implementations,
and both stand in strictly ascending order of the bytes of their paths. -/
theorem build_relisted (hd : d.Unlinked) (hc : c.IsResolved)
    (hc' : { c with src := roots : Config }.IsResolved) (h : Relisted d c.src roots) :
    (∀ built, { c with src := roots : Config }.build d = .ok built ↔ c.build d = .ok built) ∧
      ∀ built, c.build d = .ok built → ∃ classification front,
        c.classify d = .ok classification ∧ built = c.assemble classification ∧
          built.documents.source = front ++
            (["", "/* ===== unranked headers ===== */"] ++
              classification.unranked.flatMap SourceFile.body ++
              ["/* ===== end unranked headers ===== */"]) ++
            (["", "/* ===== implementation files ===== */"] ++
              classification.implementations.flatMap SourceFile.body ++
              ["/* ===== end implementation files ===== */"]) ∧
          (classification.unranked.map SourceFile.path).Pairwise Path.Before ∧
          (classification.implementations.map SourceFile.path).Pairwise Path.Before := by
  have hvalidate : { c with src := roots : Config }.validate = .ok () ↔ c.validate = .ok () := by
    rw [validate_eq_ok_iff, validate_eq_ok_iff]
    exact and_congr_left' h.ne_nil_iff
  have hgather (sources : Sources) :
      { c with src := roots : Config }.gather d = .ok sources ↔ c.gather d = .ok sources := by
    rw [gather_eq_ok_iff, gather_eq_ok_iff]
    exact forall_congr' fun kind => h.find_eq_ok_iff hd hc.src hc'.src
  refine ⟨fun built => ?_, fun built hbuild => ?_⟩
  · simp only [build_eq_ok_iff, classify_eq_ok_iff, hvalidate, hgather]
    rfl
  · obtain ⟨classification, hclassify, rfl⟩ := build_eq_ok_iff.1 hbuild
    obtain ⟨front, hfront⟩ := Document.exists_front classification c.headerName
    exact ⟨classification, front, hclassify, rfl, hfront, pairwise_of_classify hclassify⟩

/-- A disk with a directory inside the source root. -/
def nestedDisk : Disk :=
  ((Disk.empty.put ["src"] .dir).put ["src", "sub"] .dir).put ["src", "sub", "a.h"]
    (.file (Text.Utf8.encode "int a;\n".toList))

/-- A configuration that lists the source root alone. -/
def nestedConfig : Config := { src := ["/src"], dest := "/out" }

theorem nestedDisk_unlinked : nestedDisk.Unlinked :=
  ((unlinked_empty.put ["src"] (by simp)).put ["src", "sub"] (by simp)).put ["src", "sub", "a.h"]
    (by simp)

theorem relisted_nested : Relisted nestedDisk ["/src"] ["/src/sub", "/src", "/src"] :=
  .trans (.repeated List.mem_cons_self)
    (.inner List.mem_cons_self ⟨["src"], ["src", "sub"], by decide +kernel⟩)

theorem build_relisted_nested :
    ∃ built, nestedConfig.build nestedDisk = .ok built ∧ built.summary = ⟨⟨0, 0, 1, 0⟩, []⟩ ∧
      { nestedConfig with src := ["/src/sub", "/src", "/src"] : Config }.build nestedDisk =
        .ok built := by
  have hsummary : (nestedConfig.build nestedDisk).toOption.map Built.summary =
      some ⟨⟨0, 0, 1, 0⟩, []⟩ := by
    decide +kernel
  obtain ⟨built, hbuild, hcounts⟩ := Option.map_eq_some_iff.1 hsummary
  have hbuild : nestedConfig.build nestedDisk = .ok built := by
    cases h : nestedConfig.build nestedDisk <;> simp_all [Except.toOption]
  have hsame := build_relisted (c := nestedConfig) nestedDisk_unlinked
    ⟨nestedConfig, nestedDisk, "/", by decide +kernel⟩
    ⟨{ nestedConfig with src := ["/src/sub", "/src", "/src"] }, nestedDisk, "/", by decide +kernel⟩
    relisted_nested
  exact ⟨built, hbuild, hcounts, (hsame.1 built).2 hbuild⟩

end Config

end Amalgam
