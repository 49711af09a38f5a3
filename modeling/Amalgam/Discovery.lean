import Amalgam.Config.Basic
import Amalgam.Disk.Walk
import Amalgam.SourceFile

/-!
# Discovery

The files to be merged: those below the source roots whose names end as headers or implementations
do, without what the configuration leaves out and without the documents that a run writes. A file whose
name is no text does not end as anything and is passed over.

Main results:

* `accepts_eq_true_iff`: which of the paths on a walk are taken.
* `find_eq`, `find_of_walk`: what is found when every root can be walked.
-/

namespace Amalgam

/-- What to leave out. -/
structure Rejects where
  /-- Directories whose own files are left out. -/
  dirs : List Path
  files : List Path

namespace Discovery

/-- Why a path on a walk is not taken, or that it is. -/
inductive Verdict where
  /-- No file, or one whose name ends otherwise. -/
  | passed
  | inRejectedDir
  | rejected
  | taken
deriving DecidableEq

/-- Whether the name at the end of a path ends as asked. -/
def endsAs (ending : String) (path : Path) : Bool :=
  path.fileName?.any fun name => ending.toList.isSuffixOf name.toList

/-- Whether a path lies directly in a rejected directory. -/
def inRejectedDir (rejects : Rejects) (path : Path) : Bool :=
  path.parent?.any fun parent => parent.isIn rejects.dirs

/-- The verdict on one path of a walk. -/
def judge (d : Disk) (rejects : Rejects) (ending : String) (path : Path) : Verdict :=
  if ¬ d.isFile path ∨ ¬ endsAs ending path then .passed
  else if inRejectedDir rejects path then .inRejectedDir
  else if path.isIn rejects.files then .rejected
  else .taken

/-- Whether a path of a walk is taken. -/
def accepts (d : Disk) (rejects : Rejects) (ending : String) (path : Path) : Bool :=
  judge d rejects ending path = .taken

/-- A path is taken when it leads to a file, its name ends as asked, and neither its parent nor the
path itself is rejected. -/
theorem accepts_eq_true_iff {d : Disk} {rejects : Rejects} {ending : String} {path : Path} :
    accepts d rejects ending path = true ↔
      d.isFile path = true ∧
        endsAs ending path = true ∧ inRejectedDir rejects path = false ∧
        path.isIn rejects.files = false := by
  simp only [accepts, judge]
  split
  · simp; grind
  · split
    · simp_all
    · split <;> simp_all

/-- The paths of a walk from one source root. -/
def walkRoot (d : Disk) (root : Path) : Except Failure (List Path) :=
  if d.isDir root then (d.walk root).mapError fun fault => .walk fault.1 fault.2
  else .error (.noSourceDir root)

/-- What a walk passes: a path, or a file whose name is no text. -/
inductive Entry where
  | path (path : Path)
  | stray (file : Disk.Stray)

/-- All that is passed from one source root. -/
def entries (d : Disk) (root : Path) : Except Failure (List Entry) :=
  (walkRoot d root).map fun paths => paths.map .path ++ (d.strayFiles root).map .stray

/-- The path of an entry that is taken; a name that is no text does not end as asked. -/
def taken? (d : Disk) (rejects : Rejects) (ending : String) : Entry → Option Path
  | .path path => if accepts d rejects ending path then some path else none
  | .stray _ => none

/-- The files below the roots whose names end as asked, each once under the first spelling found, in
the order of their spelling (`find_files`). -/
def find (d : Disk) (roots : List Path) (rejects : Rejects) (ending : String) :
    Except Failure (List Path) := do
  let walks ← roots.mapM (entries d)
  return Path.sortBySpelling (Path.distinct (walks.flatten.filterMap (taken? d rejects ending)))

theorem filterMap_taken?_path (d : Disk) (rejects : Rejects) (ending : String) (paths : List Path) :
    (paths.map Entry.path).filterMap (taken? d rejects ending) =
      paths.filter (accepts d rejects ending) := by
  rw [List.filterMap_map, ← List.filterMap_eq_filter]
  rfl

theorem filterMap_taken?_stray (d : Disk) (rejects : Rejects) (ending : String)
    (files : List Disk.Stray) :
    (files.map Entry.stray).filterMap (taken? d rejects ending) = [] := by
  simp [taken?]

/-- What is taken of all entries is what is accepted of the paths among them. -/
theorem mapM_entries (d : Disk) (roots : List Path) (rejects : Rejects) (ending : String) :
    (roots.mapM (entries d)).map (fun walks =>
      walks.flatten.filterMap (taken? d rejects ending)) =
        (roots.mapM (walkRoot d)).map fun walks =>
          walks.flatten.filter (accepts d rejects ending) := by
  induction roots with
  | nil => rfl
  | cons root rest ih =>
    rw [List.mapM_cons, List.mapM_cons, entries]
    cases walkRoot d root with
    | error failure => rfl
    | ok paths =>
      simp only [Except.map, bind, Except.bind, pure, Except.pure] at ih ⊢
      generalize rest.mapM (entries d) = passed at ih ⊢
      generalize rest.mapM (walkRoot d) = walks at ih ⊢
      cases passed with
      | error failure => cases walks <;> simp_all
      | ok passed =>
        cases walks with
        | error failure => simp at ih
        | ok walks =>
          rw [Except.ok.injEq] at ih
          simp only [List.flatten_cons, List.filterMap_append, List.filter_append,
            filterMap_taken?_path, filterMap_taken?_stray, List.append_nil, ih]

/-- A search goes by the paths of its walks. -/
theorem find_eq (d : Disk) (roots : List Path) (rejects : Rejects) (ending : String) :
    find d roots rejects ending =
      (roots.mapM (walkRoot d)).map fun walks =>
        Path.sortBySpelling (Path.distinct (walks.flatten.filter (accepts d rejects ending))) := by
  have h := congrArg (Except.map fun taken => Path.sortBySpelling (Path.distinct taken))
    (mapM_entries d roots rejects ending)
  rw [find]
  generalize roots.mapM (entries d) = passed at h ⊢
  generalize roots.mapM (walkRoot d) = walks at h ⊢
  cases passed <;> cases walks <;> exact h

/-- What is found when every root can be walked. -/
theorem find_of_walk {d : Disk} {roots : List Path} {rejects : Rejects} {ending : String}
    {walks : List (List Path)} (h : roots.mapM (walkRoot d) = .ok walks) :
    find d roots rejects ending =
      .ok (Path.sortBySpelling (Path.distinct
        (walks.flatten.filter (accepts d rejects ending)))) := by
  rw [find_eq, h]
  rfl

end Discovery

/-- The files to be merged (`SourceSet`). -/
structure Sources where
  headers : List Path
  implementations : List Path
deriving DecidableEq

/-- What a run leaves out: what the configuration rejects and the two documents it writes. -/
def Config.rejects (c : Config) : Rejects where
  dirs := c.rejectDir
  files := c.rejectFile ++ [c.dest.join ⟨c.headerName⟩, c.dest.join ⟨c.sourceName⟩]

/-- The files to be merged by a run (`gather_sources`). -/
def Config.gather (c : Config) (d : Disk) : Except Failure Sources := do
  let headers ← Discovery.find d c.src c.rejects Kind.header.ending
  let implementations ← Discovery.find d c.src c.rejects Kind.implementation.ending
  return { headers, implementations }

end Amalgam
