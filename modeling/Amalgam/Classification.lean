import Amalgam.Include.Set
import Amalgam.SourceFile
import Std.Data.ExtTreeMap

/-!
# Classification

Files are sorted into four groups: headers with a rank, headers with an expose number, headers with
neither, and implementations. A place in a series goes to the first header that claims it; a later
claim fails and leaves everything as it was. Each group keeps the directives of its files.

Main results:

* `add_eq_error`: adding fails exactly for a header whose place is taken.
-/

namespace Amalgam

open Amalgam.Include

/-- A mark on a file that cannot have one: an implementation is never placed (`ClassifyWarning`). -/
structure MisplacedMark where
  path : Path
  mark : Mark
deriving DecidableEq

/-- The wording of the warning about a misplaced mark. -/
def MisplacedMark.message (m : MisplacedMark) : String :=
  m.mark.series.word ++ " " ++ toString m.mark.number ++ " in implementation file '" ++
    m.path.spelling ++ "' is ignored; rank directives only apply to headers"

/-- The mark that places a file: its rank before its expose number. -/
def SourceFile.mark? (f : SourceFile) : Option Mark :=
  match f.rank, f.exposeRank with
  | some n, _ => some ⟨.rank, n⟩
  | none, some n => some ⟨.expose, n⟩
  | none, none => none

/-- Files sorted into groups. -/
structure Classification where
  ranked : Std.ExtTreeMap Nat SourceFile
  exposed : Std.ExtTreeMap Nat SourceFile
  unranked : List SourceFile
  implementations : List SourceFile
  rankedIncludes : IncludeSet
  exposedIncludes : IncludeSet
  unrankedIncludes : IncludeSet
  implementationIncludes : IncludeSet
  warnings : List MisplacedMark

namespace Classification

/-- No files. -/
def empty : Classification where
  ranked := ∅
  exposed := ∅
  unranked := []
  implementations := []
  rankedIncludes := ∅
  exposedIncludes := ∅
  unrankedIncludes := ∅
  implementationIncludes := ∅
  warnings := []

/-- The header that holds a place. -/
def holder? (c : Classification) (mark : Mark) : Option SourceFile :=
  match mark.series with
  | .rank => c.ranked[mark.number]?
  | .expose => c.exposed[mark.number]?

/-- The classification with a header in a free place, or without a place. -/
def place (c : Classification) (f : SourceFile) : Option Mark → Classification
  | some ⟨.rank, n⟩ =>
    { c with ranked := c.ranked.insert n f, rankedIncludes := c.rankedIncludes.addAll f.includes }
  | some ⟨.expose, n⟩ =>
    { c with exposed := c.exposed.insert n f, exposedIncludes := c.exposedIncludes.addAll f.includes }
  | none =>
    { c with
      unranked := c.unranked ++ [f]
      unrankedIncludes := c.unrankedIncludes.addAll f.includes }

/-- The classification with one more header, unless its place is taken (`add_header`). -/
def addHeader (c : Classification) (f : SourceFile) : Except Failure Classification :=
  match f.mark? with
  | none => .ok (c.place f none)
  | some mark =>
    match c.holder? mark with
    | some first => .error (.duplicate mark first.path f.path)
    | none => .ok (c.place f (some mark))

/-- The classification with one more implementation; a mark on it only gives a warning
(`add_implementation`). -/
def addImplementation (c : Classification) (f : SourceFile) : Classification :=
  { c with
    implementations := c.implementations ++ [f]
    implementationIncludes := c.implementationIncludes.addAll f.includes
    warnings := c.warnings ++ (f.mark?.map fun mark => ⟨f.path, mark⟩).toList }

/-- The classification with one more file (`add`). That a refused call leaves everything as it was is
shown of `Classifier`, which writes step by step. -/
def add (c : Classification) (f : SourceFile) : Except Failure Classification :=
  match f.kind with
  | .header => c.addHeader f
  | .implementation => .ok (c.addImplementation f)

/-- Adding fails exactly for a header whose place is taken. -/
theorem add_eq_error {c : Classification} {f : SourceFile} {failure : Failure} :
    c.add f = .error failure ↔
      f.kind = .header ∧ ∃ mark first, f.mark? = some mark ∧ c.holder? mark = some first ∧
        failure = .duplicate mark first.path f.path := by
  rw [add]
  split
  · next hk =>
    rw [addHeader]
    split
    · next hm => simp [hm]
    · next mark hm =>
      split
      · next first hf => simp [hk, hm, hf, eq_comm]
      · next hf => simp [hm, hf]
  · next hk => simp [hk]

/-- The classification with more files, up to the first that fails. -/
def addAll (c : Classification) (files : List SourceFile) : Except Failure Classification :=
  files.foldlM add c

theorem addAll_append (c : Classification) (files more : List SourceFile) :
    c.addAll (files ++ more) = c.addAll files >>= fun d => d.addAll more :=
  List.foldlM_append

/-- The classification of headers and then implementations (`classify`). -/
def ofFiles (headers implementations : List SourceFile) : Except Failure Classification :=
  empty.addAll (headers ++ implementations)

/-- The directives of all files that are not exposed (`internal_includes`). -/
def internalIncludes (c : Classification) : IncludeSet :=
  (c.rankedIncludes.merge c.unrankedIncludes).merge c.implementationIncludes

/-- How many files there are in each group. -/
structure Counts where
  ranked : Nat
  exposed : Nat
  unranked : Nat
  implementations : Nat
deriving DecidableEq

/-- How many files there are in all (`total_files`). -/
def Counts.total (n : Counts) : Nat := n.ranked + n.exposed + n.unranked + n.implementations

/-- How many files there are in each group. -/
def counts (c : Classification) : Counts where
  ranked := c.ranked.size
  exposed := c.exposed.size
  unranked := c.unranked.length
  implementations := c.implementations.length

end Classification

end Amalgam
