import Mathlib
import Amalgam.Build
import Amalgam.Proofs.Classification.Texts
import Amalgam.Proofs.Discovery.Found

/-!
# What a build gives

A build succeeds when the configuration can be run, its sources are found, each of them can be read
and taken apart, and no two headers claim one place. The files of the source document that have no
place stand there in the order in which they were found.

Main results:

* `classify_eq_ok_iff`, `build_eq_ok_iff`: the steps of a build that succeeds.
* `loadAll_eq_ok`: what the files of a build are.
* `pairwise_of_classify`: the order of the files without a place.
-/

namespace Amalgam

open Classification

variable {c : Config} {d : Disk}

/-! ## Files on a disk -/

/-- The text of the file that a path leads to; one that cannot be read counts as empty. -/
def Disk.text (d : Disk) (path : Path) : NamedText :=
  ⟨path, String.ofList (Text.Utf8.decodeLossy ((d.read path).toOption.getD []))⟩

/-- A file that can be loaded is what its text gives. -/
theorem SourceFile.load_eq_ok {path : Path} {kind : Kind} {f : SourceFile}
    (h : load d path kind = .ok f) : f = (d.text path).file kind := by
  obtain ⟨bytes, hread, hparse⟩ := bind_eq_ok_iff.1 h
  have hbytes : d.read path = .ok bytes := mapError_eq_ok_iff.1 hread
  refine NamedText.eq_file_of_parse_eq_ok ?_
  simpa [NamedText.parse, Disk.text, hbytes, Except.toOption] using hparse

theorem SourceFile.loadAll_eq_ok {kind : Kind} {paths : List Path} {files : List SourceFile}
    (h : loadAll d kind paths = .ok files) :
    files = paths.map fun path => (d.text path).file kind :=
  map_of_mapM_eq_ok (fun _ _ => load_eq_ok) h

/-! ## The steps of a build -/

namespace Config

theorem classify_eq_ok_iff {classification : Classification} :
    c.classify d = .ok classification ↔
      c.validate = .ok () ∧ ∃ sources, c.gather d = .ok sources ∧
        ∃ headers, SourceFile.loadAll d .header sources.headers = .ok headers ∧
          ∃ implementations,
            SourceFile.loadAll d .implementation sources.implementations = .ok implementations ∧
              ofFiles headers implementations = .ok classification := by
  rw [classify]
  simp only [bind_eq_ok_iff]
  exact ⟨fun ⟨_, hv, h⟩ => ⟨hv, h⟩, fun ⟨hv, h⟩ => ⟨(), hv, h⟩⟩

theorem build_eq_ok_iff {built : Built} :
    c.build d = .ok built ↔
      ∃ classification, c.classify d = .ok classification ∧ built = c.assemble classification := by
  rw [build]
  cases c.classify d <;> simp [Except.map, eq_comm]

/-! ## The files without a place -/

theorem pairwise_members {paths : List Path} (h : paths.Pairwise Path.Before) (kind : Kind)
    (g : Group) :
    ((g.members (paths.map fun path => (d.text path).file kind)).map SourceFile.path).Pairwise
      Path.Before := by
  have hpaths : (paths.map fun path => (d.text path).file kind).map SourceFile.path = paths := by
    rw [List.map_map]
    exact List.map_id paths
  rw [← hpaths] at h
  exact h.sublist (List.filter_sublist.map SourceFile.path)

/-- The headers without a place and the implementations stand in the order of their paths. -/
theorem pairwise_of_classify {classification : Classification}
    (h : c.classify d = .ok classification) :
    (classification.unranked.map SourceFile.path).Pairwise Path.Before ∧
      (classification.implementations.map SourceFile.path).Pairwise Path.Before := by
  obtain ⟨-, sources, hgather, headers, hheaders, implementations, himplementations, hof⟩ :=
    classify_eq_ok_iff.1 h
  have hfound := gather_eq_ok_iff.1 hgather
  have hsorts := sorts_ofFiles hof
  obtain rfl := SourceFile.loadAll_eq_ok hheaders
  obtain rfl := SourceFile.loadAll_eq_ok himplementations
  have hnone : Group.unplaced.members
      (sources.implementations.map fun path => (d.text path).file .implementation) = [] := by
    simp [Group.members, NamedText.group_implementation]
  have hnone' : Group.implementation.members
      (sources.headers.map fun path => (d.text path).file .header) = [] := by
    simp [Group.members, SourceFile.group_eq_implementation_iff, NamedText.file]
  rw [hsorts.unranked, hsorts.implementations, Group.members_append, Group.members_append, hnone,
    hnone', List.append_nil, List.nil_append]
  exact ⟨pairwise_members (Discovery.pairwise_of_find (hfound .header)) .header _,
    pairwise_members (Discovery.pairwise_of_find (hfound .implementation)) .implementation _⟩

end Config

end Amalgam
