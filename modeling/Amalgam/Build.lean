import Amalgam.Discovery
import Amalgam.Disk.Edit
import Amalgam.Document
import Amalgam.Text.Utf8

/-!
# Building and running

A build discovers, reads and sorts the files of a configuration and assembles the two documents; it
changes nothing. A run writes what a build gives, the header document first.

Main results:

* `bytesOf_append`: the bytes of a document are those of its lines, each with a line feed.
-/

namespace Amalgam

/-! ## Reading -/

/-- Reads a file from the disk and takes it apart; bytes that are no text are replaced (`load`). -/
def SourceFile.load (d : Disk) (path : Path) (kind : Kind) : Except Failure SourceFile := do
  let bytes ← (d.read path).mapError (.read path)
  SourceFile.parse path kind (String.ofList (Text.Utf8.decodeLossy bytes))

theorem SourceFile.load_of_read {d : Disk} {path : Path} {bytes : List UInt8}
    (h : d.read path = .ok bytes) (kind : Kind) :
    load d path kind = parse path kind (String.ofList (Text.Utf8.decodeLossy bytes)) := by
  have hread : (d.read path).mapError (Failure.read path) = .ok bytes := by
    rw [h]
    rfl
  simp only [load, hread, bind, Except.bind]

/-- Reads several files of one kind (`load_all`). -/
def SourceFile.loadAll (d : Disk) (kind : Kind) (paths : List Path) :
    Except Failure (List SourceFile) :=
  paths.mapM fun path => SourceFile.load d path kind

/-! ## Writing -/

/-- The bytes of a document: every line with a line feed after it. -/
def bytesOf (lines : List String) : List UInt8 :=
  Text.Utf8.encode (lines.flatMap fun line => line.toList ++ ['\n'])

theorem bytesOf_append (lines more : List String) :
    bytesOf (lines ++ more) = bytesOf lines ++ bytesOf more := by
  simp [bytesOf, Text.Utf8.encode, List.flatMap_append]

/-- Where the two documents were written (`OutputPaths`). -/
structure Outputs where
  header : Path
  source : Path
deriving DecidableEq

/-- Where a configuration puts its documents, seen from a directory. -/
def Config.outputs (c : Config) (dest : Path) : Outputs where
  header := dest.join ⟨c.headerName⟩
  source := dest.join ⟨c.sourceName⟩

/-- What an operation that may fail halfway leaves behind. -/
structure Effect (α : Type) where
  disk : Disk
  result : Except Failure α

/-- What an operation on a disk that may have stopped halfway leaves behind, its fault as a failure. -/
def Disk.Halfway.effect (halfway : Disk.Halfway) (failure : Fault → Failure) : Effect Unit where
  disk := halfway.disk
  result :=
    match halfway.fault? with
    | none => .ok ()
    | some fault => .error (failure fault)

/-- The disk with a directory at the destination. -/
def prepare (d : Disk) (dest : Path) : Effect Unit :=
  if d.isDir dest then ⟨d, .ok ()⟩ else (d.makeDirs dest).effect (.makeDir dest)

/-- Goes on from an effect, if it had a result. -/
def Effect.andThen {α β : Type} (effect : Effect α) (next : Disk → α → Effect β) : Effect β :=
  match effect.result with
  | .ok a => next effect.disk a
  | .error failure => ⟨effect.disk, .error failure⟩

/-- Writes a document (`write_lines`). Opening the file empties it, so a fault after that leaves a first
part of the document, perhaps none of it. -/
def writeLines (d : Disk) (path : Path) (lines : List String) : Effect Unit :=
  (d.write path (bytesOf lines)).effect (.write path)

/-- Writes both documents into a directory, the header document first (`write_documents`). -/
def writeDocuments (d : Disk) (dest : Path) (documents : Documents) (c : Config) : Effect Outputs :=
  let outputs := c.outputs dest
  (prepare d dest).andThen fun d _ =>
    (writeLines d outputs.header documents.header).andThen fun d _ =>
      (writeLines d outputs.source documents.source).andThen fun d _ => ⟨d, .ok outputs⟩

/-! ## The whole -/

/-- What went into the documents (`RunSummary`). -/
structure Summary where
  counts : Classification.Counts
  warnings : List MisplacedMark
deriving DecidableEq

/-- What a build gives. -/
structure Built where
  documents : Documents
  summary : Summary
deriving DecidableEq

/-- The classification of all files of a configuration. -/
def Config.classify (c : Config) (d : Disk) : Except Failure Classification := do
  c.validate
  let sources ← c.gather d
  let headers ← SourceFile.loadAll d .header sources.headers
  let implementations ← SourceFile.loadAll d .implementation sources.implementations
  Classification.ofFiles headers implementations

/-- The documents of a classification, and what went into them (`assemble`). -/
def Config.assemble (c : Config) (classification : Classification) : Built where
  documents := Documents.of classification c.headerName
  summary := ⟨classification.counts, classification.warnings⟩

/-- Discovers, reads, sorts and assembles; nothing is written (`build`). -/
def Config.build (c : Config) (d : Disk) : Except Failure Built :=
  (c.classify d).map c.assemble

/-- What a run reports (`RunReport`). -/
structure Report where
  outputs : Outputs
  summary : Summary
deriving DecidableEq

/-- Builds, and writes both documents (`run`). -/
def Config.run (c : Config) (d : Disk) : Effect Report :=
  match c.build d with
  | .error failure => ⟨d, .error failure⟩
  | .ok built =>
    (writeDocuments d c.dest built.documents c).andThen fun d outputs =>
      ⟨d, .ok ⟨outputs, built.summary⟩⟩

end Amalgam
