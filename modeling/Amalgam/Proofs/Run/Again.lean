import Mathlib
import Amalgam.Proofs.Discovery.Covered
import Amalgam.Proofs.Run.Built
import Amalgam.Proofs.Run.Effect

/-!
# Running again

A run puts directories on the way of its destination and two files in it, and rejects just these two
files. So on a disk without links the disk that it leaves shows the same sources, a build on it gives
the same, and a second run writes what is there already.

Main results:

* `exists_delivered`: what a run that succeeds has done.
* `Delivered.listable`, `Delivered.file_iff`: what that changes for a search.
* `build_of_delivered`: a build does not see it.
* `write_of_delivered`, `prepare_of_delivered`: a second run finds everything in its place.
* `run_again`: so running twice is the same as running once.
-/

namespace Amalgam

open Amalgam.Path Disk

/-! ## What a run that succeeds has done -/

variable {c : Config} {d e : Disk} {L l r : Location} {files : List (String × List UInt8)}

theorem covers_of_prepare (hd : d.Unlinked) {dest : Path} (h : prepare d dest = ⟨e, .ok ()⟩) :
    e.Covers d := by
  rcases prepare_eq_ok h with ⟨-, rfl⟩ | hmade
  · exact (Grown.refl e dest).covers
  · have hgrown := (makeDirs_grown hd dest).1
    rw [hmade] at hgrown
    exact hgrown.covers

/-- A run that succeeds has built, and has put both documents where the destination leads; every
directory that was there is there still. -/
theorem exists_delivered (hd : d.Unlinked) {report : Report} (h : (c.run d).result = .ok report) :
    ∃ built, c.build d = .ok built ∧ report = ⟨c.outputs c.dest, built.summary⟩ ∧
      Delivered d (c.run d).disk c.dest [c.headerFile built, c.sourceFile built] ∧
      (c.run d).disk.Covers d := by
  obtain ⟨built, ready, half, hbuild, hreport, hready, hhalf, hwhole⟩ := Config.run_eq_ok h
  obtain ⟨⟨hplain, hslash⟩, hplain', hslash'⟩ := plain_names (validate_of_build hbuild)
  have hhalf := stored_of_write hhalf
  have hwhole := stored_of_write hwhole
  have hheader := (delivered_of_prepare hd hready).store hd hplain hslash (by simp) hhalf
  have hboth := hheader.store hd hplain' hslash' (by simpa using headerName_ne_sourceName c) hwhole
  rw [← c.headerFile_eq, ← c.sourceFile_eq] at hboth
  exact ⟨built, hbuild, hreport, hboth,
    hwhole.covers.trans (hhalf.covers.trans (covers_of_prepare hd hready))⟩

/-! ## What a search sees -/

section Delivered

variable (hL : ∀ name ∈ L, IsSegment name) (h : Delivered d e (ofLocation L) files)

include hL h

theorem Delivered.holds_ofLocation {f : String × List UInt8} (hf : f ∈ files) :
    e.node? (L ++ [f.1]) = some (.file f.2) := by
  have hholds := h.holds f hf
  rwa [landing_ofLocation hL] at hholds

/-- The path of a file that has been put spells out its location, and is not too long. -/
theorem Delivered.place {f : String × List UInt8} (hf : f ∈ files) :
    (ofLocation L).join ⟨f.1⟩ = ofLocation (L ++ [f.1]) ∧ Fits (L ++ [f.1]) := by
  have hname : IsSegment f.1 := isSegment_of_node? (h.holds_ofLocation hL hf) f.1 (by simp)
  have hjoin := join_ofLocation_name hname hL
  have hleads := h.leads f hf
  rw [hjoin] at hleads
  exact ⟨hjoin, (resolve_eq_ok_iff.1 hleads).1.2.1⟩

/-- Elsewhere the disk has gained at most directories on the way of the destination. -/
theorem Delivered.rest_ofLocation (hl : ∀ f ∈ files, l ≠ L ++ [f.1]) :
    e.node? l = d.node? l ∨ l <+: L ∧ d.node? l = none ∧ e.node? l = some .dir := by
  rcases h.rest l (by simpa only [landing_ofLocation hL] using hl) with heq | ⟨hpasses, hnodes⟩
  · exact .inl heq
  · exact .inr ⟨prefix_of_passes hL hpasses, hnodes⟩

/-- Elsewhere the same files are there. -/
theorem Delivered.file_iff (hl : ∀ f ∈ files, l ≠ L ++ [f.1]) {bytes : List UInt8} :
    e.node? l = some (.file bytes) ↔ d.node? l = some (.file bytes) := by
  rcases h.rest_ofLocation hL hl with heq | ⟨-, hnone, hdir⟩
  · rw [heq]
  · simp [hnone, hdir]

/-- What could be walked can be walked, if something has been put. -/
theorem Delivered.listable (hfiles : files ≠ []) (hc : e.Covers d)
    (hr : Discovery.Listable d r) : Discovery.Listable e r := by
  refine ⟨hc.dir r hr.dir, fun m hm => ?_⟩
  have hother : ∀ f ∈ files, r ++ m ≠ L ++ [f.1] := by
    intro f hf heq
    rw [heq, h.holds_ofLocation hL hf] at hm
    cases hm
  rcases h.rest_ofLocation hL hother with heq | ⟨hway, -, -⟩
  · exact hr.fits m (heq ▸ hm)
  · -- a directory on the way is spelled no longer than a file that has been put
    obtain ⟨f, hf⟩ := List.exists_mem_of_ne_nil files hfiles
    exact fits_of_begins (hway.trans (List.prefix_append L _))
      (isSegment_of_node? (h.holds_ofLocation hL hf)) (h.place hL hf).2

end Delivered

/-! ## What a build sees -/

section Documents

variable {built : Built} (hL : ∀ name ∈ L, IsSegment name) (hdest : c.dest = ofLocation L)
  (h : Delivered d e (ofLocation L) [c.headerFile built, c.sourceFile built])

include hL hdest h

/-- What is not rejected is no document. -/
theorem ne_of_kept (hl : (ofLocation l).isIn c.rejects.files = false) :
    ∀ f ∈ [c.headerFile built, c.sourceFile built], l ≠ L ++ [f.1] := by
  rintro f hf rfl
  have hmem : c.dest.join ⟨f.1⟩ ∈ c.rejects.files := by
    refine List.mem_append_right _ ?_
    rcases List.mem_cons.1 hf with rfl | hf
    · exact List.mem_cons_self
    · obtain rfl := List.mem_singleton.1 hf
      exact List.mem_cons_of_mem _ List.mem_cons_self
  rw [hdest, (h.place hL hf).1] at hmem
  rw [isIn, List.any_eq_false] at hl
  exact hl _ hmem (by simpa using Same.refl _)

/-- A search takes the same files as before. -/
theorem takes_of_delivered {roots : List Path} {ending : String} :
    Discovery.Takes d roots c.rejects ending l ↔ Discovery.Takes e roots c.rejects ending l := by
  constructor
  · intro htakes
    obtain ⟨bytes, hnode⟩ := htakes.file
    have hl := ne_of_kept hL hdest h htakes.kept
    exact { htakes with file := ⟨bytes, (h.file_iff hL hl).2 hnode⟩ }
  · intro htakes
    obtain ⟨bytes, hnode⟩ := htakes.file
    have hl := ne_of_kept hL hdest h htakes.kept
    exact { htakes with file := ⟨bytes, (h.file_iff hL hl).1 hnode⟩ }

variable (hd : d.Unlinked) (hc : c.IsResolved) (hcovers : e.Covers d)

include hd hc hcovers

/-- The same sources are found. -/
theorem gather_of_delivered {sources : Sources} (hgather : c.gather d = .ok sources) :
    c.gather e = .ok sources := by
  refine Config.gather_eq_ok_iff.2 fun kind => ?_
  have hfind := Config.gather_eq_ok_iff.1 hgather kind
  refine Discovery.find_eq_ok_of_takes hd (h.unlinked hd) hc.src hc.src (fun r hr hroot => ?_)
    (fun l => takes_of_delivered hL hdest h) hfind
  exact h.listable hL (List.cons_ne_nil _ _) hcovers (Discovery.listable_of_find hd hfind hr hroot)

omit hcovers in
/-- The sources are read as before. -/
theorem loadAll_of_delivered {sources : Sources} (hgather : c.gather d = .ok sources) (kind : Kind) :
    SourceFile.loadAll e kind (sources.ofKind kind) = SourceFile.loadAll d kind (sources.ofKind kind) := by
  refine mapM_congr fun p hp => ?_
  have hfound := Discovery.of_mem_find (Config.gather_eq_ok_iff.1 hgather kind) hp
  obtain ⟨l, rfl, htakes⟩ := (Discovery.below_and_accepts_iff hd hc.src).1 hfound
  obtain ⟨bytes, hnode⟩ := htakes.file
  have hnode' := (h.file_iff hL (ne_of_kept hL hdest h htakes.kept)).2 hnode
  rw [SourceFile.load, SourceFile.load, read_ofLocation hnode htakes.fits,
    read_ofLocation hnode' htakes.fits]

/-- A build gives the same. -/
theorem build_of_delivered (hbuild : c.build d = .ok built) : c.build e = .ok built := by
  obtain ⟨classification, hclassify, hassemble⟩ := Config.build_eq_ok_iff.1 hbuild
  obtain ⟨hvalidate, sources, hgather, headers, hheaders, implementations, himplementations, hof⟩ :=
    Config.classify_eq_ok_iff.1 hclassify
  have hload := loadAll_of_delivered hL hdest h hd hc hgather
  exact Config.build_eq_ok_iff.2 ⟨classification, Config.classify_eq_ok_iff.2
    ⟨hvalidate, sources, gather_of_delivered hL hdest h hd hc hcovers hgather, headers,
      (hload .header).trans hheaders, implementations,
      (hload .implementation).trans himplementations, hof⟩, hassemble⟩

end Documents

/-! ## What a second run does -/

section Second

variable (hL : ∀ name ∈ L, IsSegment name) (h : Delivered d e (ofLocation L) files)

include hL h

/-- The destination is a directory. -/
theorem isDir_of_delivered (hd : d.Unlinked) (hfiles : files ≠ []) :
    e.isDir (ofLocation L) = true := by
  obtain ⟨f, hf⟩ := List.exists_mem_of_ne_nil files hfiles
  have hholds := h.holds_ofLocation hL hf
  exact (isDir_ofLocation_iff (h.unlinked hd) hL).2
    ⟨fits_of_begins (List.prefix_append L _) (isSegment_of_node? hholds) (h.place hL hf).2,
      dir_of_append hholds (List.cons_ne_nil _ _)⟩

/-- The destination is there already. -/
theorem prepare_of_delivered (hd : d.Unlinked) (hfiles : files ≠ []) :
    prepare e (ofLocation L) = ⟨e, .ok ()⟩ := by
  rw [prepare, if_pos (isDir_of_delivered hL h hd hfiles)]

/-- What has been put is put again without a change. -/
theorem write_of_delivered {f : String × List UInt8} (hf : f ∈ files) :
    e.write ((ofLocation L).join ⟨f.1⟩) f.2 = ⟨e, none⟩ := by
  obtain ⟨hjoin, hfits⟩ := h.place hL hf
  have hroom := h.keeps.hasRoom_iff.2 (h.room f hf)
  rw [landing_ofLocation hL] at hroom
  rw [hjoin]
  exact write_ofLocation_self (h.holds_ofLocation hL hf) hfits hroom

end Second

/-- On a disk without links running a resolved configuration twice is the same as running it once. When
a run has succeeded, a build on the disk that it leaves gives what a build on the disk before gives,
and a second run succeeds, reports the same and leaves the disk as the first one left it. -/
theorem run_again (hd : d.Unlinked) (hc : c.IsResolved) {report : Report}
    (h : (c.run d).result = .ok report) :
    (∃ built, c.build d = .ok built ∧ c.build (c.run d).disk = .ok built) ∧
      c.run (c.run d).disk = ⟨(c.run d).disk, .ok report⟩ := by
  obtain ⟨built, hbuild, hreport, hdelivered, hcovers⟩ := exists_delivered hd h
  generalize (c.run d).disk = after at hdelivered hcovers ⊢
  obtain ⟨L, hL, hdest⟩ := hc.dest
  rw [hdest] at hdelivered
  have hagain := build_of_delivered hL hdest hdelivered hd hc hcovers hbuild
  refine ⟨⟨built, hbuild, hagain⟩, ?_⟩
  have hprepare : prepare after c.dest = ⟨after, .ok ()⟩ :=
    hdest ▸ prepare_of_delivered hL hdelivered hd (List.cons_ne_nil _ _)
  have hwrite : ∀ f ∈ [c.headerFile built, c.sourceFile built],
      after.write (c.dest.join ⟨f.1⟩) f.2 = ⟨after, none⟩ :=
    fun f hf => hdest ▸ write_of_delivered hL hdelivered hf
  have hheader : writeLines after (c.outputs c.dest).header built.documents.header = ⟨after, .ok ()⟩ := by
    have h := hwrite (c.headerFile built) List.mem_cons_self
    rw [c.headerFile_eq] at h
    exact congrArg (Halfway.effect · _) h
  have hsource : writeLines after (c.outputs c.dest).source built.documents.source = ⟨after, .ok ()⟩ := by
    have h := hwrite (c.sourceFile built) (List.mem_cons_of_mem _ List.mem_cons_self)
    rw [c.sourceFile_eq] at h
    exact congrArg (Halfway.effect · _) h
  rw [Config.run, hagain, hreport]
  simp only [writeDocuments, hprepare, andThen_ok, hheader, hsource]

/-- A disk with one implementation below the source root. -/
def treeDisk : Disk :=
  (Disk.empty.put ["src"] .dir).put ["src", "a.c"] (.file (Text.Utf8.encode "int a;\n".toList))

/-- A configuration whose destination is yet to be made below the source root. -/
def treeConfig : Config := { src := ["/src"], dest := "/src/gen/out" }

theorem treeDisk_unlinked : treeDisk.Unlinked :=
  (unlinked_empty.put ["src"] (by simp)).put ["src", "a.c"] (by simp)

theorem run_again_tree :
    let report : Report :=
      ⟨⟨"/src/gen/out/concat.h", "/src/gen/out/concat.c"⟩, ⟨⟨0, 0, 0, 1⟩, []⟩⟩
    (treeConfig.run treeDisk).result = .ok report ∧
      treeConfig.run (treeConfig.run treeDisk).disk = ⟨(treeConfig.run treeDisk).disk, .ok report⟩ := by
  have hresult : (treeConfig.run treeDisk).result =
      .ok ⟨⟨"/src/gen/out/concat.h", "/src/gen/out/concat.c"⟩, ⟨⟨0, 0, 0, 1⟩, []⟩⟩ := by
    decide +kernel
  have hresolved : treeConfig.IsResolved := ⟨treeConfig, treeDisk, "/", by decide +kernel⟩
  exact ⟨hresult, (run_again treeDisk_unlinked hresolved hresult).2⟩

end Amalgam
