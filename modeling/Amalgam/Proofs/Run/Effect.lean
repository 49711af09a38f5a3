import Mathlib
import Amalgam.Build
import Amalgam.Proofs.Disk.Growth
import Amalgam.Proofs.Document.Bytes
import Amalgam.Proofs.Steps

/-!
# What a run changes

A run first builds, which changes nothing, then makes the destination, and then writes the header
document and the source document. So a run that stops has done a first part of this and nothing else:
directories stand on the way of the destination where there was nothing, the documents written stand
below it whole, a document that could not be written to its end stands there in part or not at all,
and all the rest of the disk is as it was.

Main results:

* `run_course`, `run_eq_ok`: the ways in which a run can go, and the one that succeeds.
* `Delivered.store`, `Delivered.interrupt`: what writing one more document does, to its end or not.
* `run_effect`: what a run has changed when it ends, however it ends.
-/

namespace Amalgam

open Disk

/-! ## Failures of a build -/

/-- Whether a failure comes from changing the disk. -/
def Failure.OfChange : Failure → Prop
  | .makeDir .. | .write .. => True
  | _ => False

theorem failsOnly_validate (c : Config) : FailsOnly (¬ ·.OfChange) c.validate := by
  rw [Config.validate]
  split
  · exact .error id
  · split
    · exact .error id
    · split
      · exact .error id
      · exact .ok ()

theorem failsOnly_find (d : Disk) (roots : List Path) (rejects : Rejects) (ending : String) :
    FailsOnly (¬ ·.OfChange) (Discovery.find d roots rejects ending) := by
  refine (FailsOnly.mapM (fun root => FailsOnly.map ?_ _) roots).bind fun walks => .ok _
  rw [Discovery.walkRoot]
  split
  · exact .mapError fun _ => id
  · exact .error id

theorem failsOnly_load (d : Disk) (path : Path) (kind : Kind) :
    FailsOnly (¬ ·.OfChange) (SourceFile.load d path kind) :=
  (FailsOnly.mapError fun _ => id).bind fun _ =>
    (FailsOnly.mapError fun _ => id).bind fun _ => .ok _

theorem failsOnly_ofFiles (headers implementations : List SourceFile) :
    FailsOnly (¬ ·.OfChange) (Classification.ofFiles headers implementations) := by
  refine FailsOnly.foldlM (fun c f failure h => ?_) _ _
  obtain ⟨-, mark, first, -, -, rfl⟩ := Classification.add_eq_error.1 h
  exact id

/-- A build does not fail for a change of the disk, since it makes none. -/
theorem failsOnly_build (c : Config) (d : Disk) : FailsOnly (¬ ·.OfChange) (c.build d) := by
  refine FailsOnly.map ?_ c.assemble
  refine (failsOnly_validate c).bind fun _ => ?_
  have hgather : FailsOnly (¬ ·.OfChange) (c.gather d) :=
    (failsOnly_find d _ _ _).bind fun _ => (failsOnly_find d _ _ _).bind fun _ => .ok _
  have hload (kind : Kind) (paths : List Path) :
      FailsOnly (¬ ·.OfChange) (SourceFile.loadAll d kind paths) :=
    FailsOnly.mapM (failsOnly_load d · kind) paths
  refine hgather.bind fun _ => (hload _ _).bind fun headers => (hload _ _).bind fun implementations => ?_
  exact failsOnly_ofFiles headers implementations

/-! ## The ways in which a run can go -/

theorem andThen_ok {α β : Type} (d : Disk) (a : α) (next : Disk → α → Effect β) :
    (Effect.mk d (.ok a)).andThen next = next d a := rfl

/-- A chain of effects has a result when both of its parts have. -/
theorem exists_of_andThen_eq_ok {α β : Type} {effect : Effect α} {next : Disk → α → Effect β}
    {b : β} (h : (effect.andThen next).result = .ok b) :
    ∃ a, effect.result = .ok a ∧ (next effect.disk a).result = .ok b := by
  rw [Effect.andThen] at h
  split at h
  · next a ha => exact ⟨a, ha, h⟩
  · cases h

/-- Where documents have been written, they are at the outputs of the configuration. -/
theorem outputs_of_writeDocuments {c : Config} {d : Disk} {dest : Path} {documents : Documents}
    {outputs : Outputs} (h : (writeDocuments d dest documents c).result = .ok outputs) :
    outputs = c.outputs dest := by
  obtain ⟨_, -, h⟩ := exists_of_andThen_eq_ok h
  obtain ⟨_, -, h⟩ := exists_of_andThen_eq_ok h
  obtain ⟨_, -, h⟩ := exists_of_andThen_eq_ok h
  exact (Except.ok.inj h).symm

section Course

variable (c : Config) (d : Disk)

/-- How far a run goes, and what it leaves behind there. -/
inductive Config.Course : Effect Report → Prop
  | unbuilt {failure} : c.build d = .error failure → Course ⟨d, .error failure⟩
  | unprepared {built made fault} : c.build d = .ok built → d.isDir c.dest = false →
      d.makeDirs c.dest = ⟨made, some fault⟩ → Course ⟨made, .error (.makeDir c.dest fault)⟩
  | noHeader {built ready torn fault} : c.build d = .ok built → prepare d c.dest = ⟨ready, .ok ()⟩ →
      ready.write (c.outputs c.dest).header (bytesOf built.documents.header) = ⟨torn, some fault⟩ →
      Course ⟨torn, .error (.write (c.outputs c.dest).header fault)⟩
  | noSource {built ready half torn fault} : c.build d = .ok built →
      prepare d c.dest = ⟨ready, .ok ()⟩ →
      ready.write (c.outputs c.dest).header (bytesOf built.documents.header) = ⟨half, none⟩ →
      half.write (c.outputs c.dest).source (bytesOf built.documents.source) = ⟨torn, some fault⟩ →
      Course ⟨torn, .error (.write (c.outputs c.dest).source fault)⟩
  | done {built ready half whole} : c.build d = .ok built → prepare d c.dest = ⟨ready, .ok ()⟩ →
      ready.write (c.outputs c.dest).header (bytesOf built.documents.header) = ⟨half, none⟩ →
      half.write (c.outputs c.dest).source (bytesOf built.documents.source) = ⟨whole, none⟩ →
      Course ⟨whole, .ok ⟨c.outputs c.dest, built.summary⟩⟩

theorem effect_none (disk : Disk) (failure : Fault → Failure) :
    (Halfway.mk disk none).effect failure = ⟨disk, .ok ()⟩ := rfl

theorem effect_some (disk : Disk) (fault : Fault) (failure : Fault → Failure) :
    (Halfway.mk disk (some fault)).effect failure = ⟨disk, .error (failure fault)⟩ := rfl

theorem prepare_cases (dest : Path) :
    (∃ ready, prepare d dest = ⟨ready, .ok ()⟩) ∨
      ∃ made fault, d.isDir dest = false ∧ d.makeDirs dest = ⟨made, some fault⟩ ∧
        prepare d dest = ⟨made, .error (.makeDir dest fault)⟩ := by
  rw [prepare]
  split
  · exact .inl ⟨d, rfl⟩
  · next hdir =>
    obtain ⟨made, fault?⟩ := d.makeDirs dest
    cases fault? with
    | none => exact .inl ⟨made, effect_none made _⟩
    | some fault => exact .inr ⟨made, fault, by simpa using hdir, rfl, effect_some made fault _⟩

/-- A destination that is there has been there or has been made. -/
theorem prepare_eq_ok {d ready : Disk} {dest : Path} (h : prepare d dest = ⟨ready, .ok ()⟩) :
    d.isDir dest = true ∧ ready = d ∨ d.makeDirs dest = ⟨ready, none⟩ := by
  rw [prepare] at h
  split at h
  · next hdir => exact .inl ⟨hdir, (congrArg Effect.disk h).symm⟩
  · generalize d.makeDirs dest = halfway at h ⊢
    obtain ⟨made, fault?⟩ := halfway
    cases fault? with
    | none => exact .inr (congrArg (Halfway.mk · none) (congrArg Effect.disk h))
    | some fault => cases congrArg Effect.result h

theorem writeLines_cases (path : Path) (lines : List String) :
    (∃ e, d.write path (bytesOf lines) = ⟨e, none⟩ ∧ writeLines d path lines = ⟨e, .ok ()⟩) ∨
      ∃ torn fault, d.write path (bytesOf lines) = ⟨torn, some fault⟩ ∧
        writeLines d path lines = ⟨torn, .error (.write path fault)⟩ := by
  rw [writeLines]
  obtain ⟨e, fault?⟩ := d.write path (bytesOf lines)
  cases fault? with
  | none => exact .inl ⟨e, rfl, effect_none e _⟩
  | some fault => exact .inr ⟨e, fault, rfl, effect_some e fault _⟩

/-- Every run takes one of these courses. -/
theorem Config.run_course : c.Course d (c.run d) := by
  rw [run]
  cases hbuild : c.build d with
  | error failure => exact .unbuilt hbuild
  | ok built =>
    simp only [writeDocuments]
    rcases prepare_cases d c.dest with ⟨ready, hready⟩ | ⟨made, fault, hdir, hfault, hunready⟩
    · rw [hready, andThen_ok]
      rcases writeLines_cases ready (c.outputs c.dest).header built.documents.header with
        ⟨half, hhalf, hheader⟩ | ⟨torn, fault, hfault, hheader⟩
      · rw [hheader, andThen_ok]
        rcases writeLines_cases half (c.outputs c.dest).source built.documents.source with
          ⟨whole, hwhole, hsource⟩ | ⟨torn, fault, hfault, hsource⟩
        · rw [hsource]
          exact .done hbuild hready hhalf hwhole
        · rw [hsource]
          exact .noSource hbuild hready hhalf hfault
      · rw [hheader]
        exact .noHeader hbuild hready hfault
    · rw [hunready]
      exact .unprepared hbuild hdir hfault

end Course

/-- A run that succeeds has built, has made the destination, and has written both documents. -/
theorem Config.run_eq_ok {c : Config} {d : Disk} {report : Report}
    (h : (c.run d).result = .ok report) :
    ∃ (built : Built) (ready half : Disk), c.build d = .ok built ∧
      report = ⟨c.outputs c.dest, built.summary⟩ ∧ prepare d c.dest = ⟨ready, .ok ()⟩ ∧
      ready.write (c.outputs c.dest).header (bytesOf built.documents.header) = ⟨half, none⟩ ∧
      half.write (c.outputs c.dest).source (bytesOf built.documents.source) =
        ⟨(c.run d).disk, none⟩ := by
  have course := c.run_course d
  generalize c.run d = effect at course h ⊢
  cases course with
  | unbuilt _ | unprepared _ _ _ | noHeader _ _ _ | noSource _ _ _ _ => cases h
  | done hbuild hready hhalf hwhole =>
    exact ⟨_, _, _, hbuild, (Except.ok.inj h).symm, hready, hhalf, hwhole⟩

/-! ## What has been changed -/

/-- Whether a disk is an earlier one with a destination made and files put where it leads, each under
its name and with its bytes alone, for which there was room, and with nothing else changed. -/
structure Delivered (before after : Disk) (dest : Path) (files : List (String × List UInt8)) :
    Prop where
  keeps : after.Keeps before
  paved : after.Paved dest
  holds : ∀ f ∈ files, after.node? (before.landing dest ++ [f.1]) = some (.file f.2)
  leads : ∀ f ∈ files, after.locate (dest.join ⟨f.1⟩) = .ok (before.landing dest ++ [f.1])
  room : ∀ f ∈ files, before.HasRoom (before.landing dest ++ [f.1]) f.2.length
  rest : ∀ l, (∀ f ∈ files, l ≠ before.landing dest ++ [f.1]) →
    after.node? l = before.node? l ∨
      before.Passes dest l ∧ before.node? l = none ∧ after.node? l = some .dir

/-- Whether files have been put so, and of one more file a first part only, or nothing. -/
def Interrupted (before after : Disk) (dest : Path) (files : List (String × List UInt8))
    (file : String × List UInt8) : Prop :=
  Delivered before after dest files ∨
    ∃ held, held <+: file.2 ∧ held ≠ file.2 ∧
      Delivered before after dest (files ++ [(file.1, held)])

section Delivered

variable {before after e : Disk} {dest : Path} {files : List (String × List UInt8)}

/-- A destination that has been made, with nothing in it yet. -/
theorem Disk.Grown.delivered (h : before.Grown after dest) (hpaved : after.Paved dest) :
    Delivered before after dest [] :=
  ⟨h.keeps, hpaved, by simp, by simp, by simp, fun l _ => h.node l⟩

theorem Delivered.cwd (h : Delivered before after dest files) : after.cwd = before.cwd := h.keeps.cwd

theorem Delivered.unlinked (h : Delivered before after dest files) (hb : before.Unlinked) :
    after.Unlinked := by
  intro l target hlink
  by_cases hl : ∀ f ∈ files, l ≠ before.landing dest ++ [f.1]
  · rcases h.rest l hl with heq | ⟨-, -, hdir⟩
    · exact hb l target (heq.symm.trans hlink)
    · simp [hdir] at hlink
  · obtain ⟨f, hf, rfl⟩ : ∃ f ∈ files, l = before.landing dest ++ [f.1] := by simpa using hl
    simp [h.holds f hf] at hlink

/-- Storing one more file puts it beside the others and keeps all the rest. -/
theorem Delivered.store (h : Delivered before after dest files) (hb : before.Unlinked)
    {name : String} (hplain : Path.IsPlain name) (hslash : '/' ∉ name.toList)
    (hnew : ∀ f ∈ files, f.1 ≠ name) {bytes : List UInt8}
    (hstored : after.Stored (dest.join ⟨name⟩) bytes e) :
    Delivered before e dest (files ++ [(name, bytes)]) := by
  obtain ⟨location, hresolve, hfree, hroom, rfl⟩ := stored_iff.1 hstored
  have ha := h.unlinked hb
  have hunlinked : (after.put location (.file bytes)).Unlinked := ha.put location (by simp)
  have hcovers := covers_put hfree bytes
  have hlocation : location = before.landing dest ++ [name] := by
    rw [← (resolve_eq_ok ha hresolve).1, landing_join hplain hslash, landing_of_cwd h.cwd]
  have hnode := node?_put (.file bytes) hfree
  have hself : (after.put location (.file bytes)).node? location = some (.file bytes) := by
    rw [hnode, if_pos rfl]
  have hother : ∀ f ∈ files, (after.put location (.file bytes)).node? (before.landing dest ++ [f.1]) =
      some (.file f.2) := by
    intro f hf
    rw [hnode, if_neg, h.holds f hf]
    rw [hlocation]
    simpa using hnew f hf
  refine ⟨(keeps_put after location _).trans h.keeps, h.paved.of_covers hcovers, fun f hf => ?_,
    fun f hf => ?_, fun f hf => ?_, fun l hl => ?_⟩
  · rcases List.mem_append.1 hf with hf | hf
    · exact hother f hf
    · obtain rfl := List.mem_singleton.1 hf
      exact hlocation ▸ hself
  · rcases List.mem_append.1 hf with hf | hf
    · exact locate_of_resolve ha hunlinked hcovers (by decide) (by simp [hother f hf]) (h.leads f hf)
    · obtain rfl := List.mem_singleton.1 hf
      rw [← hlocation]
      exact locate_of_resolve ha hunlinked hcovers (by decide) (by simp [hself]) hresolve
  · rcases List.mem_append.1 hf with hf | hf
    · exact h.room f hf
    · obtain rfl := List.mem_singleton.1 hf
      rw [← hlocation]
      exact h.keeps.hasRoom_iff.1 hroom
  · have hne : l ≠ location := by
      rw [hlocation]
      exact hl (name, bytes) (by simp)
    rw [hnode, if_neg hne]
    exact h.rest l fun f hf => hl f (List.mem_append_left _ hf)

/-- Writing one more file that is stopped leaves of it a first part or nothing. -/
theorem Delivered.interrupt (h : Delivered before after dest files) (hb : before.Unlinked)
    {name : String} (hplain : Path.IsPlain name) (hslash : '/' ∉ name.toList)
    (hnew : ∀ f ∈ files, f.1 ≠ name) {bytes : List UInt8} {fault : Fault}
    (hw : after.write (dest.join ⟨name⟩) bytes = ⟨e, some fault⟩) :
    Interrupted before e dest files (name, bytes) := by
  have writing := after.writing_write (dest.join ⟨name⟩) bytes
  rw [hw] at writing
  cases writing with
  | closed hopen => exact .inl h
  | broken hpart hless hstored =>
    exact .inr ⟨_, hpart, hless, h.store hb hplain hslash hnew hstored⟩

/-- A destination is made with nothing in it yet. -/
theorem delivered_of_prepare (hb : before.Unlinked) {ready : Disk}
    (h : prepare before dest = ⟨ready, .ok ()⟩) : Delivered before ready dest [] := by
  rcases prepare_eq_ok h with ⟨hdir, rfl⟩ | hmade
  · exact (Grown.refl ready dest).delivered (paved_of_isDir hb hdir)
  · have hgrown := makeDirs_grown hb dest
    rw [hmade] at hgrown
    exact hgrown.1.delivered (hgrown.2 rfl)

end Delivered

/-! ## The documents -/

section Documents

variable {c : Config}

/-- A name that does not end in a dot is a plain one. -/
theorem isPlain_of_getLast? {name : String} (last : Char) (h : name.toList.getLast? = some last)
    (hlast : last ≠ '.') : Path.IsPlain name := by
  refine ⟨?_, ?_, ?_⟩ <;> rintro rfl <;> simp at h
  · exact hlast h.symm
  · exact hlast h.symm

/-- The names of the documents of a configuration that can be run. -/
theorem plain_names (h : c.validate = .ok ()) :
    (Path.IsPlain c.headerName ∧ '/' ∉ c.headerName.toList) ∧
      Path.IsPlain c.sourceName ∧ '/' ∉ c.sourceName.toList := by
  have hslash := (Config.validate_eq_ok_iff.1 h).2.2.1
  refine ⟨⟨isPlain_of_getLast? 'h' ?_ (by decide), ?_⟩,
    isPlain_of_getLast? 'c' ?_ (by decide), ?_⟩
  all_goals simp [Config.headerName, Config.sourceName, hslash]

theorem headerName_ne_sourceName (c : Config) : c.headerName ≠ c.sourceName := by
  intro h
  simpa [Config.headerName, Config.sourceName] using congrArg String.toList h

theorem getLast?_join {p q : Path} {last : Char} (h : q.spelling.toList.getLast? = some last) :
    (p.join q).spelling.toList.getLast? = some last := by
  rw [Path.join]
  split
  · exact h
  · split <;> simp [List.getLast?_append, List.getLast?_cons, h]

theorem header_ne_source (c : Config) : (c.outputs c.dest).header ≠ (c.outputs c.dest).source := by
  intro h
  have hheader : (c.outputs c.dest).header.spelling.toList.getLast? = some 'h' :=
    getLast?_join (by simp [Config.headerName])
  have hsource : (c.outputs c.dest).source.spelling.toList.getLast? = some 'c' :=
    getLast?_join (by simp [Config.sourceName])
  rw [h, hsource] at hheader
  exact absurd hheader (by decide)

theorem validate_of_build {d : Disk} {built : Built} (h : c.build d = .ok built) :
    c.validate = .ok () := by
  rw [Config.build] at h
  cases hc : c.classify d with
  | error e => simp [hc, Except.map] at h
  | ok classification =>
    obtain ⟨_, hv, -⟩ := bind_eq_ok_iff.1 hc
    exact hv

/-- The header document under its name: its lines, each followed by one line feed. -/
def Config.headerFile (c : Config) (built : Built) : String × List UInt8 :=
  (c.headerName, built.documents.header.flatMap fun line => line.toUTF8.data.toList ++ [10])

/-- The source document under its name: its lines, each followed by one line feed. -/
def Config.sourceFile (c : Config) (built : Built) : String × List UInt8 :=
  (c.sourceName, built.documents.source.flatMap fun line => line.toUTF8.data.toList ++ [10])

theorem Config.headerFile_eq (c : Config) (built : Built) :
    c.headerFile built = (c.headerName, bytesOf built.documents.header) := by
  rw [bytesOf_eq]
  rfl

theorem Config.sourceFile_eq (c : Config) (built : Built) :
    c.sourceFile built = (c.sourceName, bytesOf built.documents.source) := by
  rw [bytesOf_eq]
  rfl

end Documents

/-! ## The whole -/

/-- What a run has changed on a disk without links when it ends, however it ends. The two documents
have different names. A run that succeeds has put both where the destination leads, as a build on the
disk before gives them, line by line. One that could not write a document has put those before it, of
this one a first part or nothing, and nothing else; one that could not make the destination has at most
made directories on its way; and one that failed earlier has changed nothing. -/
theorem run_effect (c : Config) {d : Disk} (hd : d.Unlinked) :
    c.headerName ≠ c.sourceName ∧ (c.outputs c.dest).header ≠ (c.outputs c.dest).source ∧
      match (c.run d).result with
      | .ok report =>
        ∃ built, c.build d = .ok built ∧ report = ⟨c.outputs c.dest, built.summary⟩ ∧
          Delivered d (c.run d).disk c.dest [c.headerFile built, c.sourceFile built]
      | .error (.write path _) =>
        ∃ built, c.build d = .ok built ∧
          (path = (c.outputs c.dest).header ∧
              Interrupted d (c.run d).disk c.dest [] (c.headerFile built) ∨
            path = (c.outputs c.dest).source ∧
              Interrupted d (c.run d).disk c.dest [c.headerFile built] (c.sourceFile built))
      | .error (.makeDir path _) => path = c.dest ∧ d.Grown (c.run d).disk c.dest
      | .error _ => (c.run d).disk = d := by
  refine ⟨headerName_ne_sourceName c, header_ne_source c, ?_⟩
  have course := c.run_course d
  generalize c.run d = effect at course ⊢
  cases course with
  | @unbuilt failure hbuild =>
    have hother := failsOnly_build c d failure hbuild
    cases failure with
    | makeDir path fault | write path fault => exact (hother trivial).elim
    | _ => rfl
  | unprepared hbuild hdir hmade =>
    have hgrown := (makeDirs_grown hd c.dest).1
    rw [hmade] at hgrown
    exact ⟨rfl, hgrown⟩
  | noHeader hbuild hready hfault =>
    obtain ⟨⟨hplain, hslash⟩, -⟩ := plain_names (validate_of_build hbuild)
    have hheader := (delivered_of_prepare hd hready).interrupt hd hplain hslash (by simp) hfault
    exact ⟨_, hbuild, .inl ⟨rfl, c.headerFile_eq _ ▸ hheader⟩⟩
  | noSource hbuild hready hhalf hfault =>
    obtain ⟨⟨hplain, hslash⟩, hplain', hslash'⟩ := plain_names (validate_of_build hbuild)
    have hheader := (delivered_of_prepare hd hready).store hd hplain hslash (by simp)
      (stored_of_write hhalf)
    have hsource := hheader.interrupt hd hplain' hslash'
      (by simpa using headerName_ne_sourceName c) hfault
    rw [← c.headerFile_eq, ← c.sourceFile_eq] at hsource
    exact ⟨_, hbuild, .inr ⟨rfl, hsource⟩⟩
  | done hbuild hready hhalf hwhole =>
    obtain ⟨⟨hplain, hslash⟩, hplain', hslash'⟩ := plain_names (validate_of_build hbuild)
    have hheader := (delivered_of_prepare hd hready).store hd hplain hslash (by simp)
      (stored_of_write hhalf)
    have hboth := hheader.store hd hplain' hslash'
      (by simpa using headerName_ne_sourceName c) (stored_of_write hwhole)
    rw [← c.headerFile_eq, ← c.sourceFile_eq] at hboth
    exact ⟨_, hbuild, rfl, hboth⟩

/-- A disk with one header and no destination. -/
def freshDisk : Disk :=
  (Disk.empty.put ["src"] .dir).put ["src", "a.h"] (.file (Text.Utf8.encode "int a;\n".toList))

/-- A configuration whose destination is yet to be made. -/
def freshConfig : Config := { src := ["/src"], dest := "/out/c" }

theorem freshDisk_unlinked : freshDisk.Unlinked :=
  (unlinked_empty.put ["src"] (by simp)).put ["src", "a.h"] (by simp)

/-- The same disk where the source document finds room for three bytes only. -/
def fullDisk : Disk := freshDisk.limit ["out", "c", "concat.c"] ⟨3, .noSpace⟩

theorem fullDisk_unlinked : fullDisk.Unlinked := freshDisk_unlinked

/-- A run that succeeds, and one that is stopped while it writes the source document. -/
theorem run_effect_fresh :
    ((freshConfig.run freshDisk).result =
        .ok ⟨⟨"/out/c/concat.h", "/out/c/concat.c"⟩, ⟨⟨0, 0, 1, 0⟩, []⟩⟩ ∧
      ∃ built, freshConfig.build freshDisk = .ok built ∧
        built.documents.header = ["/* Generated by cconcat. Do not edit by hand. */", ""] ∧
        Delivered freshDisk (freshConfig.run freshDisk).disk "/out/c"
          [("concat.h", "/* Generated by cconcat. Do not edit by hand. */\n\n".toUTF8.data.toList),
            freshConfig.sourceFile built]) ∧
    (freshConfig.run fullDisk).result = .error (.write "/out/c/concat.c" .noSpace) ∧
      (freshConfig.run fullDisk).disk.node? ["out", "c", "concat.c"] =
        some (.file "/* ".toUTF8.data.toList) ∧
      ∃ built, freshConfig.build fullDisk = .ok built ∧
        Interrupted fullDisk (freshConfig.run fullDisk).disk "/out/c" [freshConfig.headerFile built]
          (freshConfig.sourceFile built) := by
  constructor
  · have hresult : (freshConfig.run freshDisk).result =
        .ok ⟨⟨"/out/c/concat.h", "/out/c/concat.c"⟩, ⟨⟨0, 0, 1, 0⟩, []⟩⟩ := by
      decide +kernel
    obtain ⟨-, -, heffect⟩ := run_effect freshConfig freshDisk_unlinked
    rw [hresult] at heffect
    obtain ⟨built, hbuild, -, hdelivered⟩ := heffect
    have hheader : built.documents.header = ["/* Generated by cconcat. Do not edit by hand. */", ""] := by
      have hdocument : (freshConfig.build freshDisk).toOption.map (fun b => b.documents.header) =
          some ["/* Generated by cconcat. Do not edit by hand. */", ""] := by
        decide +kernel
      rw [hbuild] at hdocument
      exact Option.some.inj hdocument
    refine ⟨hresult, built, hbuild, hheader, ?_⟩
    have hfile : freshConfig.headerFile built =
        ("concat.h", "/* Generated by cconcat. Do not edit by hand. */\n\n".toUTF8.data.toList) := by
      rw [Config.headerFile, hheader]
      decide +kernel
    exact hfile ▸ hdelivered
  · have hresult : (freshConfig.run fullDisk).result = .error (.write "/out/c/concat.c" .noSpace) := by
      decide +kernel
    obtain ⟨-, -, heffect⟩ := run_effect freshConfig fullDisk_unlinked
    rw [hresult] at heffect
    obtain ⟨built, hbuild, ⟨hpath, -⟩ | ⟨-, hinterrupted⟩⟩ := heffect
    · exact absurd hpath (by decide +kernel)
    · exact ⟨hresult, by decide +kernel, built, hbuild, hinterrupted⟩

end Amalgam
