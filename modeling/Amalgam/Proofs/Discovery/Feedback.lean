import Mathlib
import Amalgam.Build
import Amalgam.Proofs.Config.Resolved
import Amalgam.Proofs.Discovery.Found

/-!
# Documents among the sources

A run leaves the paths of its own documents out of its sources. Paths are compared by their steps, so
a document is left out under the spelling that the destination gives it, and under no other one. A
root from which it is reached under another spelling takes it in again. That cannot happen where all
paths start alike and go no step up, as in a resolved configuration.

Main results:

* `same_of_landing_eq`: paths that start alike and go no step up lead to one place only if they are
  the same.
* `gather_documents`: when a document of an earlier run is among the sources.
-/

namespace Amalgam

open Amalgam.Path

/-! ## Paths to one place -/

theorem Path.isAbsolute_of_start {p q : Path} (h : p.start = q.start) :
    p.isAbsolute = q.isAbsolute := by
  rw [start, start] at h
  cases hp : p.isAbsolute <;> cases hq : q.isAbsolute <;> simp [hp, hq] at h ⊢ <;>
    split at h <;> simp at h

/-- A path that goes no step up goes names only. -/
theorem Path.exists_names {p : Path} (h : .up ∉ p.components) :
    ∃ names : List String, (∀ name ∈ names, IsSegment name) ∧
      p.components = p.start ++ names.map Component.name := by
  have hmoves : ∀ step ∈ p.names.filterMap step?, ∃ name, IsSegment name ∧ .name name = step := by
    intro step hstep
    cases isMove_of_mem_moves hstep with
    | up => exact absurd (List.mem_append_right _ hstep) h
    | name plain slash => exact ⟨_, ⟨plain, slash⟩, rfl⟩
  rw [components]
  generalize p.names.filterMap step? = moves at hmoves
  induction moves with
  | nil => exact ⟨[], by simp, rfl⟩
  | cons step rest ih =>
    obtain ⟨name, hname, rfl⟩ := hmoves step List.mem_cons_self
    obtain ⟨names, hnames, hrest⟩ := ih fun s hs => hmoves s (List.mem_cons_of_mem _ hs)
    rw [List.append_cancel_left_eq] at hrest
    exact ⟨name :: names, by simpa using ⟨hname, hnames⟩, by rw [hrest, List.map_cons]⟩

namespace Disk

variable {d : Disk} {p q : Path}

theorem landing_of_same (h : Same p q) : d.landing p = d.landing q := by
  have habsolute : p.isAbsolute = q.isAbsolute := by
    rw [Bool.eq_iff_iff, isAbsolute_iff, isAbsolute_iff, h]
  rw [landing, landing, base, base, habsolute, h]

/-- Paths that start alike and go no step up lead to one place only if they are the same. -/
theorem same_of_landing_eq (hstart : p.start = q.start) (hp : .up ∉ p.components)
    (hq : .up ∉ q.components) (h : d.landing p = d.landing q) : Same p q := by
  obtain ⟨names, hnames, hp⟩ := exists_names hp
  obtain ⟨more, hmore, hq⟩ := exists_names hq
  have hbase : d.base q = d.base p := by rw [base, base, isAbsolute_of_start hstart]
  rw [landing, landing, hp, hq, ← hstart, hbase, List.foldl_append, List.foldl_append,
    foldl_walk_start, foldl_walk_names hnames, foldl_walk_names hmore, List.append_cancel_left_eq] at h
  rw [same_iff, hp, hq, hstart, h]

/-- Whether two paths lead to one file or directory. -/
def SameFile (d : Disk) (p q : Path) : Prop := ∃ l, d.locate p = .ok l ∧ d.locate q = .ok l

end Disk

/-! ## Documents -/

namespace Config

variable {c : Config} {d : Disk}

/-- The paths under which a run writes its documents. -/
def documentPaths (c : Config) : List Path := [(c.outputs c.dest).header, (c.outputs c.dest).source]

/-- Whether a path is one of a source that the configuration itself does not reject. -/
def Wants (c : Config) (d : Disk) (p : Path) : Prop :=
  ∃ kind : Kind, Discovery.accepts d ⟨c.rejectDir, c.rejectFile⟩ kind.ending p = true

theorem accepts_rejects_iff {ending : String} {p : Path} :
    Discovery.accepts d c.rejects ending p = true ↔
      Discovery.accepts d ⟨c.rejectDir, c.rejectFile⟩ ending p = true ∧
        ∀ o ∈ c.documentPaths, ¬ Same p o := by
  have hfiles : p.isIn c.rejects.files = false ↔
      p.isIn c.rejectFile = false ∧ ∀ o ∈ c.documentPaths, ¬ Same p o := by
    simp [isIn, Config.rejects, documentPaths, outputs]
  rw [Discovery.accepts_eq_true_iff, Discovery.accepts_eq_true_iff, hfiles]
  constructor
  · rintro ⟨hfile, hending, hdir, hreject, hdocuments⟩
    exact ⟨⟨hfile, hending, hdir, hreject⟩, hdocuments⟩
  · rintro ⟨⟨hfile, hending, hdir, hreject⟩, hdocuments⟩
    exact ⟨hfile, hending, hdir, hreject, hdocuments⟩

section Gather

variable {sources : Sources} (h : c.gather d = .ok sources)

include h

/-- A source lies below a root, is wanted, and is not spelled as a document. -/
theorem of_mem_files {p : Path} (hp : p ∈ sources.files) :
    Discovery.Below d c.src p ∧ c.Wants d p ∧ ∀ o ∈ c.documentPaths, ¬ Same p o := by
  obtain ⟨kind, hkind⟩ := Sources.mem_files_iff.1 hp
  obtain ⟨hbelow, haccepts⟩ := Discovery.of_mem_find (gather_eq_ok_iff.1 h kind) hkind
  obtain ⟨hwants, hdocuments⟩ := accepts_rejects_iff.1 haccepts
  exact ⟨hbelow, ⟨kind, hwants⟩, hdocuments⟩

theorem exists_same_of_wants {p : Path} (hbelow : Discovery.Below d c.src p) (hwants : c.Wants d p)
    (hdocuments : ∀ o ∈ c.documentPaths, ¬ Same p o) : ∃ q ∈ sources.files, Same p q := by
  obtain ⟨kind, haccepts⟩ := hwants
  obtain ⟨q, hq, hsame⟩ := Discovery.exists_same_of_find (gather_eq_ok_iff.1 h kind) hbelow
    (accepts_rejects_iff.2 ⟨haccepts, hdocuments⟩)
  exact ⟨q, Sources.mem_files_iff.2 ⟨kind, hq⟩, hsame⟩

end Gather

/-- A source is spelled as its root and the names below it, and leads where these do. -/
theorem exists_root_of_below {roots : List Path} {p : Path}
    (h : Discovery.Below d roots p) :
    ∃ root ∈ roots, ∃ more, more ≠ [] ∧ p = root.join ⟨joinNames more⟩ ∧ p.start = root.start ∧
      p.components = root.components ++ more.map Component.name ∧
      d.landing p = d.landing root ++ more := by
  obtain ⟨root, hroot, location, more, hlocate, hne, hsome, rfl⟩ := h
  obtain ⟨node, hnode⟩ := Option.isSome_iff_exists.1 hsome
  have hmore : ∀ name ∈ more, IsSegment name := fun name hname =>
    Disk.isSegment_of_node? hnode name (List.mem_append_right _ hname)
  obtain ⟨hstart, -, hcomponents⟩ := steps_joinNames hmore hne root
  exact ⟨root, hroot, more, hne, rfl, hstart, hcomponents, Disk.landing_joinNames hmore hne root⟩

/-- A document of an earlier run is never among the sources under the spelling that the destination
gives it. It is among them under another spelling exactly when a root from which it can be reached
spells it otherwise and nothing else leaves it out. That cannot happen when the roots and the document
start alike and go no step up. -/
theorem gather_documents (hd : d.Unlinked) {sources : Sources} (h : c.gather d = .ok sources)
    {o : Path} (ho : o ∈ c.documentPaths) :
    (∀ p ∈ sources.files, ¬ Same p o) ∧
      (∀ l, d.locate o = .ok l →
        ((∃ p ∈ sources.files, d.SameFile p o) ↔
          ∃ root ∈ c.src, ∃ more, more ≠ [] ∧ d.landing root ++ more = l ∧
            c.Wants d (root.join ⟨joinNames more⟩) ∧
            ∀ document ∈ c.documentPaths, ¬ Same (root.join ⟨joinNames more⟩) document)) ∧
      ((∀ root ∈ c.src, root.start = o.start ∧ .up ∉ root.components) → .up ∉ o.components →
        ∀ p ∈ sources.files, ¬ d.SameFile p o) := by
  refine ⟨fun p hp => (of_mem_files h hp).2.2 o ho, fun l hl => ⟨?_, ?_⟩, fun hroots hup => ?_⟩
  · rintro ⟨p, hp, l', hpl, hol⟩
    obtain rfl : l' = l := Except.ok.inj (hol.symm.trans hl)
    obtain ⟨hbelow, hwants, hdocuments⟩ := of_mem_files h hp
    obtain ⟨root, hroot, more, hne, rfl, -, -, hlanding⟩ := exists_root_of_below hbelow
    rw [(Disk.resolve_eq_ok hd hpl).1] at hlanding
    exact ⟨root, hroot, more, hne, hlanding.symm, hwants, hdocuments⟩
  · rintro ⟨root, hroot, more, hne, rfl, hwants, hdocuments⟩
    obtain ⟨node, hnode⟩ := Disk.locate_eq_ok hl
    have hmore : ∀ name ∈ more, IsSegment name := fun name hname =>
      Disk.isSegment_of_node? hnode name (List.mem_append_right _ hname)
    obtain ⟨paths, hwalk⟩ :=
      Discovery.exists_find_iff.1 ⟨_, gather_eq_ok_iff.1 h .header⟩ root hroot
    obtain ⟨m, hm, -⟩ := Disk.isDir_eq_true_iff.1 (Discovery.walkRoot_eq_ok_iff.1 hwalk).1
    have hroot' : d.landing root = m := (Disk.resolve_eq_ok hd hm).1
    have hbelow : Discovery.Below d c.src (root.join ⟨joinNames more⟩) :=
      ⟨root, hroot, m, more, hm, hne, by rw [← hroot', hnode]; rfl, rfl⟩
    obtain ⟨q, hq, hsame⟩ := exists_same_of_wants h hbelow hwants hdocuments
    obtain ⟨kind, hkind⟩ := (of_mem_files h hq).2.1
    obtain ⟨m', -, hm', -⟩ := Disk.isFile_eq_true_iff.1 (Discovery.accepts_eq_true_iff.1 hkind).1
    refine ⟨q, hq, _, ?_, hl⟩
    rw [hm', ← (Disk.resolve_eq_ok hd hm').1, ← Disk.landing_of_same hsame,
      Disk.landing_joinNames hmore hne]
  · rintro p hp ⟨l, hpl, hol⟩
    obtain ⟨hbelow, -, hdocuments⟩ := of_mem_files h hp
    obtain ⟨root, hroot, more, -, -, hstart, hcomponents, -⟩ := exists_root_of_below hbelow
    obtain ⟨hroot', hnot⟩ := hroots root hroot
    have hnot' : .up ∉ p.components := by simpa [hcomponents] using hnot
    have hlanding : d.landing p = d.landing o := by
      rw [(Disk.resolve_eq_ok hd hpl).1, (Disk.resolve_eq_ok hd hol).1]
    exact hdocuments o ho (Disk.same_of_landing_eq (hstart.trans hroot') hnot' hup hlanding)

/-- A disk with a document of an earlier run beside a source. -/
def laterDisk : Disk :=
  ((Disk.empty.put ["src"] .dir).put ["src", "a.c"] (.file [])).put ["src", "concat.h"] (.file [])

/-- A configuration that writes its documents to its source root. -/
def innerConfig : Config := { src := ["src"], dest := "src" }

theorem laterDisk_unlinked : laterDisk.Unlinked :=
  ((Disk.unlinked_empty.put ["src"] (by simp)).put ["src", "a.c"] (by simp)).put
    ["src", "concat.h"] (by simp)

theorem gather_documents_inner :
    innerConfig.gather laterDisk = .ok ⟨[], ["src/a.c"]⟩ ∧
      ∀ p ∈ (Sources.mk [] ["src/a.c"]).files, ¬ laterDisk.SameFile p "src/concat.h" := by
  have h : innerConfig.gather laterDisk = .ok ⟨[], ["src/a.c"]⟩ := by decide +kernel
  have ho : (⟨"src/concat.h"⟩ : Path) ∈ innerConfig.documentPaths := by decide
  exact ⟨h, (gather_documents laterDisk_unlinked h ho).2.2 (by decide) (by decide)⟩

/-- With a dot before the destination the document is taken in. -/
theorem gather_document_of_dot :
    let c : Config := { innerConfig with dest := "./src" }
    laterDisk.Unlinked ∧ c.gather laterDisk = .ok ⟨["src/concat.h"], ["src/a.c"]⟩ ∧
      (c.outputs c.dest).header = "./src/concat.h" ∧
      laterDisk.SameFile "src/concat.h" "./src/concat.h" :=
  ⟨laterDisk_unlinked, by decide +kernel, by decide +kernel,
    ⟨["src", "concat.h"], by decide +kernel, by decide +kernel⟩⟩

end Config

end Amalgam
