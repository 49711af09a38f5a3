import Mathlib
import Amalgam.Command.Run
import Amalgam.Proofs.Config.Lexical
import Amalgam.Proofs.Steps

/-!
# The configuration that a request means

A request is put over the settings of at most one file. What the request gives is seen from the
current directory, what the file gives from the directory that holds the file, and all paths are
resolved once more at the end, which on a disk without links moves none of them. What a settings file
gives is up to the decoder; all this holds of every one.

Main results:

* `effective_prevailing`: where each part of the configuration comes from, and which files cannot
  change it.
* `effective_dest_unset`: the destination when neither the request nor the settings give one.
-/

namespace Amalgam.Command

open Amalgam.Path

/-- The path under which a request looks for its settings. -/
def Request.settingsPath (r : Request) (cwd : Path) : Path :=
  cwd.join (r.config.getD Settings.defaultName)

/-- Which settings a request starts from, as a decoder gives them, and the directory from which they
are seen. -/
inductive Request.Uses (r : Request) (decode : Settings.Decoder) (d : Disk) (cwd : Path) :
    Settings → Path → Prop
  /-- Those in the file that the request names or, if it names none, in the default file. -/
  | file {s : Settings} {l : Location} (enabled : r.noConfig = false)
      (found : d.locate (r.settingsPath cwd) = .ok l)
      (holds : Settings.read decode d (r.settingsPath cwd) = .ok s) :
      Uses r decode d cwd s (ofLocation l.dropLast)
  /-- None, when files are disabled, or when none is named and the default one is not there. -/
  | none (unused : r.noConfig = true ∨
      r.config = Option.none ∧ d.isFile (cwd.join Settings.defaultName) = false) :
      Uses r decode d cwd {} cwd.normalize

/-- A request uses one thing only: the settings and the directory from which they are seen are
determined. -/
theorem Request.Uses.unique {r : Request} {decode : Settings.Decoder} {d : Disk}
    {cwd dir dir' : Path} {s s' : Settings} (h : r.Uses decode d cwd s dir)
    (h' : r.Uses decode d cwd s' dir') : s = s' ∧ dir = dir' := by
  have hfile : ∀ {t : Settings}, r.noConfig = false →
      Settings.read decode d (r.settingsPath cwd) = .ok t →
      ¬ (r.noConfig = true ∨
        r.config = Option.none ∧ d.isFile (cwd.join Settings.defaultName) = false) := by
    rintro t henabled hread (hno | ⟨hconfig, hthere⟩)
    · simp [henabled] at hno
    · have hused := Settings.isFile_of_read hread
      rw [Request.settingsPath, hconfig, Option.getD_none, hthere] at hused
      cases hused
  cases h with
  | file enabled found holds =>
    cases h' with
    | file _ found' holds' =>
      obtain rfl := Except.ok.inj (found.symm.trans found')
      exact ⟨Except.ok.inj (holds.symm.trans holds'), rfl⟩
    | none unused => exact absurd unused (hfile enabled holds)
  | none unused =>
    cases h' with
    | file enabled _ holds => exact absurd unused (hfile enabled holds)
    | none _ => exact ⟨rfl, rfl⟩

/-- The list that is given, seen from the current directory, or else the one that is configured, seen
from the directory of the settings. -/
def prevailing (cwd dir : Path) (given : List Path) (configured : Option (List Path)) : List Path :=
  if given = [] then (configured.getD []).map dir.lexical else given.map cwd.lexical

/-- What a request comes to when it is put over settings that are seen from a directory. -/
def Request.over (r : Request) (cwd dir : Path) (s : Settings) : Config where
  src := prevailing cwd dir r.src s.src
  rejectDir := prevailing cwd dir r.rejectDir s.rejectDir
  rejectFile := prevailing cwd dir r.rejectFile s.rejectFile
  dest := ((r.dest.map cwd.lexical).or (s.dest.map dir.lexical)).getD dir.normalize
  target := (r.target.or s.target).getD "concat"

section Unlinked

variable {d e : Disk} (hd : d.Unlinked) {cwd : Path} (hcwd : cwd.isAbsolute = true) {r : Request}

include hd hcwd

/-! ## What a request comes to -/

/-- A list that was resolved against the directory of the settings stays when it is resolved again. -/
theorem map_absolutize_orElse {dir : Path} (hdir : dir.isAbsolute = true) (given : List Path)
    (configured : Option (List Path)) :
    (orElse given ((configured.getD []).map dir.lexical)).map (Config.absolutize d cwd) =
      prevailing cwd dir given configured := by
  rw [orElse, prevailing]
  split
  · rw [List.map_map]
    refine List.map_congr_left fun p _ => ?_
    rw [Function.comp_apply, Config.absolutize_lexical hd hcwd hdir]
  · rw [Config.absolutize_eq_lexical hd hcwd]

/-- A request over settings that were resolved against their directory, resolved again. -/
theorem resolvePaths_overrides {dir : Path} (hdir : dir.isAbsolute = true) (s : Settings) :
    (r.overrides (s.config.resolvePaths d dir)).resolvePaths d cwd = r.over cwd dir s := by
  have hdest : Config.absolutize d cwd (r.dest.getD (dir.lexical (s.dest.getD ⟨"."⟩))) =
      ((r.dest.map cwd.lexical).or (s.dest.map dir.lexical)).getD dir.normalize := by
    cases r.dest with
    | some dest => exact congrFun (Config.absolutize_eq_lexical hd hcwd) dest
    | none =>
      refine (Config.absolutize_lexical hd hcwd hdir _).trans ?_
      cases s.dest with
      | some dest => rfl
      | none => exact lexical_here hdir
  have htarget : r.target.getD (s.target.getD "concat") = (r.target.or s.target).getD "concat" := by
    cases r.target <;> rfl
  simp only [Request.overrides, Settings.config, Config.resolvePaths, Request.over,
    Config.absolutize_eq_lexical hd hdir, map_absolutize_orElse hd hcwd hdir, hdest, htarget]

/-- A request over no settings at all. -/
theorem resolvePaths_overrides_default :
    (r.overrides {}).resolvePaths d cwd = r.over cwd cwd {} := by
  have hlist : ∀ given : List Path, (orElse given []).map cwd.lexical = prevailing cwd cwd given none := by
    intro given
    rw [orElse, prevailing]
    split <;> rfl
  have hdest : cwd.lexical (r.dest.getD ⟨"."⟩) = ((r.dest.map cwd.lexical).or none).getD cwd.normalize := by
    cases r.dest with
    | some dest => rfl
    | none => exact lexical_here hcwd
  have htarget : r.target.getD "concat" = (r.target.or none).getD "concat" := by
    cases r.target <;> rfl
  simp only [Request.overrides, Config.resolvePaths, Request.over,
    Config.absolutize_eq_lexical hd hcwd, hlist, hdest, htarget, Option.map_none]

omit hd hcwd in
/-- Only the place of the directory matters, not its spelling. -/
theorem over_congr {dir dir' : Path} (h : dir.isAbsolute = true) (h' : dir'.isAbsolute = true)
    (heq : dir.normalize = dir'.normalize) (s : Settings) : r.over cwd dir s = r.over cwd dir' s := by
  simp only [Request.over, prevailing, lexical_congr h h' heq, heq]

/-- What a configuration that a request means has come from. -/
theorem effective_eq_ok {decode : Settings.Decoder} {c : Config}
    (h : r.effective decode d cwd = .ok c) :
    ∃ s dir, r.Uses decode d cwd s dir ∧ dir.IsSpelledOut ∧ c = r.over cwd dir s := by
  rw [Request.effective, Request.base] at h
  cases hfind : r.settingsFile d cwd with
  | error stopped =>
    rw [hfind] at h
    cases h
  | ok path? =>
    have hused := mapError_eq_ok_iff.1 hfind
    rw [hfind] at h
    cases path? with
    | none =>
      have hspelled : cwd.normalize.IsSpelledOut := isSpelledOut_normalize hcwd
      obtain rfl : (r.overrides {}).resolvePaths d cwd = c := Except.ok.inj h
      refine ⟨{}, cwd.normalize, .none (Settings.find?_eq_ok_none_iff.1 hused), hspelled, ?_⟩
      rw [resolvePaths_overrides_default hd hcwd]
      exact over_congr hcwd hspelled.isAbsolute hspelled.normalize_eq.symm {}
    | some path =>
      obtain ⟨henabled, rfl, hfile⟩ :
          r.noConfig = false ∧ path = r.settingsPath cwd ∧ d.isFile path = true :=
        Settings.find?_eq_ok_some_iff.1 hused
      obtain ⟨l, bytes, hlocate, hnode⟩ := Disk.isFile_eq_true_iff.1 hfile
      have habs : (r.settingsPath cwd).isAbsolute = true := isAbsolute_join_of_isAbsolute hcwd _
      obtain ⟨dir, hparent, hdir, hnormal⟩ := Disk.parent?_of_locate hd habs hlocate hnode
      have hspelled : (ofLocation l.dropLast).IsSpelledOut :=
        ⟨_, fun name hname => Disk.isSegment_of_node? hnode name ((List.dropLast_prefix l).mem hname),
          rfl⟩
      cases hread : Settings.read decode d (r.settingsPath cwd) with
      | error failure =>
        have hload : Settings.load decode d (r.settingsPath cwd) = .error failure := by
          rw [Settings.load, hread]
          rfl
        simp [bind, Except.bind, within, hload, Except.mapError, Except.map] at h
      | ok s =>
        have hload : Settings.load decode d (r.settingsPath cwd) =
            .ok (s.config.resolvePaths d dir) := by
          rw [Settings.load_of_parse hread, Settings.seenFrom, hparent]
        simp only [bind, Except.bind, within, hload, Except.mapError, Except.map] at h
        obtain rfl := Except.ok.inj h
        refine ⟨s, _, .file henabled hlocate hread, hspelled, ?_⟩
        rw [resolvePaths_overrides hd hcwd hdir]
        exact over_congr hdir hspelled.isAbsolute (hnormal.trans hspelled.normalize_eq.symm) s

/-! ## What a request can tell of a disk -/

/-- What a request means depends on what is found under its settings path and on nothing else. -/
theorem effective_congr (decode : Settings.Decoder) (he : e.Unlinked)
    (h : r.noConfig = false → e.stat? (r.settingsPath cwd) = d.stat? (r.settingsPath cwd)) :
    r.effective decode e cwd = r.effective decode d cwd := by
  have hfind : r.settingsFile e cwd = r.settingsFile d cwd := by
    rw [Request.settingsFile, Request.settingsFile]
    cases hno : r.noConfig with
    | true => rw [Settings.find?_of_disabled, Settings.find?_of_disabled]
    | false =>
      have hfile : e.isFile (r.settingsPath cwd) = d.isFile (r.settingsPath cwd) := by
        rw [Disk.isFile, Disk.isFile, h hno]
      rw [Request.settingsPath] at hfile
      cases hconfig : r.config with
      | none | some _ =>
        rw [hconfig] at hfile
        simp only [Option.getD_none, Option.getD_some] at hfile
        simp only [Settings.find?, hfile]
  have hbase : r.base decode e cwd = r.base decode d cwd := by
    rw [Request.base, Request.base, hfind]
    cases hused : r.settingsFile d cwd with
    | error stopped => simp only [bind, Except.bind]
    | ok path? =>
      cases path? with
      | none => simp only [bind, Except.bind]
      | some path =>
        obtain ⟨henabled, rfl, hfile⟩ :
            r.noConfig = false ∧ path = r.settingsPath cwd ∧ d.isFile path = true :=
          Settings.find?_eq_ok_some_iff.1 (mapError_eq_ok_iff.1 hused)
        have habs : (r.settingsPath cwd).isAbsolute = true := isAbsolute_join_of_isAbsolute hcwd _
        have hload : Settings.load decode e (r.settingsPath cwd) =
            Settings.load decode d (r.settingsPath cwd) :=
          Settings.load_congr decode hd he habs hfile (h henabled)
        simp only [bind, Except.bind, hload]
  have hresolve : (fun c => (r.overrides c).resolvePaths e cwd) =
      fun c => (r.overrides c).resolvePaths d cwd :=
    funext fun c => Config.resolvePaths_congr hd hcwd he _
  rw [Request.effective, Request.effective, hbase, hresolve]

/-- A file elsewhere is found alike when a place that it is not below changes. -/
theorem stat?_congr_of_ne (he : e.Unlinked) {l : Location} (hsame : ∀ m, m ≠ l → e.node? m = d.node? m)
    {file : Path} (hne : d.landing (cwd.join file) ≠ l)
    (hdir : d.Passes (cwd.join file) l → (e.node? l = some .dir ↔ d.node? l = some .dir)) :
    e.stat? (cwd.join file) = d.stat? (cwd.join file) := by
  have habs := isAbsolute_join_of_isAbsolute hcwd file
  by_cases hpass : d.Passes (cwd.join file) l
  · by_cases hd_dir : d.node? l = some .dir
    · refine Disk.stat?_congr hd he habs fun m _ => ?_
      by_cases hm : m = l
      · rw [hm, hd_dir, (hdir hpass).2 hd_dir]
      · exact hsame m hm
    · -- neither disk lets the path through
      have he_dir : e.node? l ≠ some .dir := fun h => hd_dir ((hdir hpass).1 h)
      have he_pass : e.Passes (cwd.join file) l := by
        rwa [Disk.Passes, Disk.base_of_isAbsolute habs] at hpass ⊢
      have he_ne : e.landing (cwd.join file) ≠ l := by
        rwa [Disk.landing_of_isAbsolute habs] at hne ⊢
      rw [Disk.stat?_eq_none_of_passes hd hpass hne hd_dir,
        Disk.stat?_eq_none_of_passes he he_pass he_ne he_dir]
  · exact Disk.stat?_congr hd he habs fun m hm => hsame m fun heq => hpass (heq ▸ hm)

end Unlinked

/-! ## Where the configuration comes from -/

/-- Where each part of the configuration comes from. With files disabled it does not depend on the
disk at all, and with a file named it does not depend on a default file that is another one. -/
theorem effective_prevailing (decode : Settings.Decoder) {d : Disk} (hd : d.Unlinked) {cwd : Path}
    (hcwd : cwd.isAbsolute = true) (r : Request) :
    (∀ c, r.effective decode d cwd = .ok c → ∃ s dir, r.Uses decode d cwd s dir ∧
        c.src = prevailing cwd dir r.src s.src ∧
        c.rejectDir = prevailing cwd dir r.rejectDir s.rejectDir ∧
        c.rejectFile = prevailing cwd dir r.rejectFile s.rejectFile ∧
        (∀ dest ∈ (r.dest.map cwd.lexical).or (s.dest.map dir.lexical), c.dest = dest) ∧
        ∀ target ∈ r.target.or s.target, c.target = target) ∧
      (r.noConfig = true →
        ∀ e : Disk, e.Unlinked → r.effective decode e cwd = r.effective decode d cwd) ∧
      ∀ file default, r.config = some file → d.landing (cwd.join Settings.defaultName) = default →
        d.landing (cwd.join file) ≠ default →
          ∀ e : Disk, e.Unlinked → (∀ l, l ≠ default → e.node? l = d.node? l) →
            (d.Passes (cwd.join file) default →
              (e.node? default = some .dir ↔ d.node? default = some .dir)) →
            r.effective decode e cwd = r.effective decode d cwd := by
  refine ⟨fun c hc => ?_, fun hno e he => ?_, fun file default hfile _ hne e he hsame hdir => ?_⟩
  · obtain ⟨s, dir, huses, -, rfl⟩ := effective_eq_ok hd hcwd hc
    refine ⟨s, dir, huses, rfl, rfl, rfl, fun dest hdest => ?_, fun target htarget => ?_⟩
    · rw [Request.over, Option.mem_def.1 hdest, Option.getD_some]
    · rw [Request.over, Option.mem_def.1 htarget, Option.getD_some]
  · exact effective_congr hd hcwd decode he fun h => absurd hno (by simp [h])
  · refine effective_congr hd hcwd decode he fun _ => ?_
    rw [Request.settingsPath, hfile, Option.getD_some]
    exact stat?_congr_of_ne hd hcwd he hsame hne hdir

/-- A disk with settings that give no destination, away from the root. -/
def confDisk : Disk :=
  (Disk.empty.put ["conf"] .dir).put ["conf", "c.toml"]
    (.file (Text.Utf8.encode "src = [\"../lib\"]\ntarget = \"all\"\n".toList))

theorem confDisk_unlinked : confDisk.Unlinked :=
  (Disk.unlinked_empty.put ["conf"] (by simp)).put ["conf", "c.toml"] (by simp)

/-- The same disk with a default file in the current directory. -/
def defaultDisk : Disk :=
  confDisk.put ["cconcat.toml"] (.file (Text.Utf8.encode "target = \"other\"\n".toList))

/-- A request that names the settings file and gives a list and a destination of its own. -/
def confRequest : Request :=
  { rejectFile := ["gen/../x.h"], dest := some "out", config := some "conf/c.toml" }

theorem effective_prevailing_conf :
    confRequest.effective Toml.table? confDisk "/" = .ok ⟨["/lib"], [], ["/x.h"], "/out", "all"⟩ ∧
      (∃ s dir, confRequest.Uses Toml.table? confDisk "/" s dir ∧
        (["/lib"] : List Path) = prevailing "/" dir [] s.src) ∧
      confRequest.effective Toml.table? defaultDisk "/" =
        confRequest.effective Toml.table? confDisk "/" := by
  have hok : confRequest.effective Toml.table? confDisk "/" =
      .ok ⟨["/lib"], [], ["/x.h"], "/out", "all"⟩ := by
    decide +kernel
  have hfree : confDisk.Free ["cconcat.toml"] := by decide +kernel
  have hroot : (Path.mk "/").isAbsolute = true := rfl
  obtain ⟨hparts, -, hother⟩ := effective_prevailing Toml.table? confDisk_unlinked hroot confRequest
  obtain ⟨s, dir, huses, hsrc, -⟩ := hparts _ hok
  refine ⟨hok, ⟨s, dir, huses, hsrc⟩, ?_⟩
  refine hother "conf/c.toml" ["cconcat.toml"] rfl (by decide +kernel) (by decide +kernel) defaultDisk
    (confDisk_unlinked.put _ (by simp)) (fun l hl => ?_) fun _ => ?_
  · rw [defaultDisk, Disk.node?_put _ hfree, if_neg hl]
  · decide +kernel

/-! ## The destination -/

/-- Without a destination, given or configured, the documents go to the directory from which the
settings are seen. That is the current one unless a file is named that lies elsewhere. -/
theorem effective_dest_unset {decode : Settings.Decoder} {d : Disk} (hd : d.Unlinked) {cwd : Path}
    (hcwd : cwd.isAbsolute = true) {r : Request} (hr : r.dest = none) {c : Config}
    (hc : r.effective decode d cwd = .ok c)
    {s : Settings} {dir : Path} (huses : r.Uses decode d cwd s dir) (hs : s.dest = none) :
    c.dest = dir ∧
      (c.dest = cwd.normalize ↔ r.noConfig = true ∨ r.config = none ∨
        ∃ l, d.locate (r.settingsPath cwd) = .ok l ∧ l.dropLast = d.landing cwd) := by
  obtain ⟨s', dir', huses', hdir, rfl⟩ := effective_eq_ok hd hcwd hc
  obtain ⟨rfl, rfl⟩ := huses.unique huses'
  have hdest : (r.over cwd dir s).dest = dir := by
    rw [Request.over, hr, hs]
    exact hdir.normalize_eq
  refine ⟨hdest, ?_⟩
  rw [hdest]
  cases huses with
  | none unused => exact iff_of_true rfl (unused.imp id fun h => .inl h.1)
  | @file _ l enabled found holds =>
    obtain ⟨node, hnode⟩ := Disk.locate_eq_ok found
    have hl : ∀ name ∈ l.dropLast, IsSegment name := fun name hname =>
      Disk.isSegment_of_node? hnode name ((List.dropLast_prefix l).mem hname)
    have hland : ∀ name ∈ d.landing cwd, IsSegment name := by
      rw [Disk.landing_of_isAbsolute hcwd]
      exact fun name hname => isSegment_of_name_mem_components (name_mem_of_mem_normalNames hname)
    have hplace : ofLocation l.dropLast = cwd.normalize ↔ l.dropLast = d.landing cwd := by
      rw [← Disk.ofLocation_landing hcwd d, ← same_ofLocation_iff hl hland]
      exact (IsSpelledOut.same_iff_eq ⟨_, hl, rfl⟩ ⟨_, hland, rfl⟩).symm
    rw [hplace]
    constructor
    · exact fun h => .inr (.inr ⟨l, found, h⟩)
    · rintro (hno | hnone | ⟨m, hm, h⟩)
      · simp [enabled] at hno
      · -- the default file lies in the current directory
        have hdefault : d.landing (cwd.join Settings.defaultName) = d.landing cwd ++ ["cconcat.toml"] :=
          Disk.landing_join ⟨by decide, by decide, by decide⟩ (by decide)
        rw [Request.settingsPath, hnone, Option.getD_none] at found
        rw [← (Disk.resolve_eq_ok hd found).1, hdefault, List.dropLast_concat]
      · obtain rfl : l = m := Except.ok.inj (found.symm.trans hm)
        exact h

/-- A request that names the settings file and nothing else. -/
def plainRequest : Request := { config := some "conf/c.toml" }

theorem effective_dest_unset_conf :
    plainRequest.effective Toml.table? confDisk "/" = .ok ⟨["/lib"], [], [], "/conf", "all"⟩ ∧
      plainRequest.Uses Toml.table? confDisk "/" { src := some ["../lib"], target := some "all" }
        "/conf" ∧
        ((⟨"/conf"⟩ : Path) = Path.normalize "/" ↔
          plainRequest.noConfig = true ∨ plainRequest.config = none ∨
            ∃ l, confDisk.locate (plainRequest.settingsPath "/") = .ok l ∧
              l.dropLast = confDisk.landing "/") := by
  have hok : plainRequest.effective Toml.table? confDisk "/" =
      .ok ⟨["/lib"], [], [], "/conf", "all"⟩ := by
    decide +kernel
  have huses : plainRequest.Uses Toml.table? confDisk "/" { src := some ["../lib"], target := some "all" }
      "/conf" :=
    .file (l := ["conf", "c.toml"]) rfl (by decide +kernel) (by decide +kernel)
  exact ⟨hok, huses, (effective_dest_unset confDisk_unlinked rfl rfl hok huses rfl).2⟩

/-- Settings that give no destination, in a file elsewhere, send the documents there. -/
theorem effective_dest_of_file_elsewhere :
    confDisk.Unlinked ∧ plainRequest.dest = none ∧
      (Settings.read Toml.table? confDisk (plainRequest.settingsPath "/")).map Settings.dest =
        .ok none ∧
      (plainRequest.effective Toml.table? confDisk "/").map Config.dest = .ok "/conf" ∧
      (⟨"/conf"⟩ : Path) ≠ Path.normalize "/" :=
  ⟨confDisk_unlinked, rfl, by decide +kernel, by decide +kernel, by decide +kernel⟩

end Amalgam.Command
