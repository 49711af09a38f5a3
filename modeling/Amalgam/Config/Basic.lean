import Amalgam.Disk.Resolve
import Amalgam.Failure
import Amalgam.Path.Normal

/-!
# Configurations

What a run is about: the source roots, what to leave out, where the documents go, and their name.
Paths are resolved against a base: one that leads somewhere is replaced by the path free of links
and dots, any other is normalised by its spelling.

Main results:

* `validate_eq_ok_iff`: which configurations can be run.
* `absolutize_of_canonical?`, `absolutize_of_canonical?_eq_none`: the two ways to resolve a path.
-/

namespace Amalgam

/-- What a run is about. -/
structure Config where
  src : List Path := []
  /-- Directories whose own files are left out. -/
  rejectDir : List Path := []
  rejectFile : List Path := []
  dest : Path := ⟨"."⟩
  /-- The name of both documents without their ending. -/
  target : String := "concat"
deriving DecidableEq

namespace Config

/-- The file name of the header document (`header_file_name`). -/
def headerName (c : Config) : String := c.target ++ ".h"

/-- The file name of the source document (`source_file_name`). -/
def sourceName (c : Config) : String := c.target ++ ".c"

/-- Checks that there is a source root and that the target is a plain name (`validate`). -/
def validate (c : Config) : Except Failure Unit :=
  if c.src = [] then .error (.config .noSource)
  else if Text.trim c.target.toList = [] then .error (.config .emptyTarget)
  else if '/' ∈ c.target.toList ∨ '\\' ∈ c.target.toList then
    .error (.config (.separatorInTarget c.target))
  else .ok ()

/-- Which configurations can be run. -/
theorem validate_eq_ok_iff {c : Config} :
    c.validate = .ok () ↔
      c.src ≠ [] ∧ Text.trim c.target.toList ≠ [] ∧ '/' ∉ c.target.toList ∧
        '\\' ∉ c.target.toList := by
  rw [validate]
  split
  · simp_all
  · split
    · simp_all
    · split <;> grind

/-! ## Resolving paths -/

/-- The path seen from a base, free of links and dots where it leads somewhere, and otherwise
normalised by its spelling (`absolutize`). -/
def absolutize (d : Disk) (base path : Path) : Path :=
  (d.canonical? (base.join path)).getD (base.join path).normalize

theorem absolutize_of_canonical? {d : Disk} {base path found : Path}
    (h : d.canonical? (base.join path) = some found) : absolutize d base path = found := by
  simp [absolutize, h]

theorem absolutize_of_canonical?_eq_none {d : Disk} {base path : Path}
    (h : d.canonical? (base.join path) = none) :
    absolutize d base path = (base.join path).normalize := by
  simp [absolutize, h]

/-- The configuration with every path resolved against a base (`resolve_paths`). -/
def resolvePaths (c : Config) (d : Disk) (base : Path) : Config :=
  { c with
    src := c.src.map (absolutize d base)
    rejectDir := c.rejectDir.map (absolutize d base)
    rejectFile := c.rejectFile.map (absolutize d base)
    dest := absolutize d base c.dest }

end Config

end Amalgam
