import Amalgam.Build
import Amalgam.Journal.Event

/-!
# The journal of a build and a run

What discovery, reading, sorting, assembling and writing tell. Each step tells of itself up to the
failure that stops it, and a step that is not reached tells nothing.
-/

namespace Amalgam

/-- Whether a step failed. -/
def failed {α : Type} : Except Failure α → Bool
  | .error _ => true
  | .ok _ => false

/-- What is told after a step, if it succeeded. -/
def afterStep {α : Type} (step : Except Failure α) (tell : α → Journal) : Journal :=
  match step with
  | .ok a => tell a
  | .error _ => []

namespace Journal

/-! ## Discovery -/

/-- What is told about one path of a walk. -/
def ofVerdict (path : Path) : Discovery.Verdict → Journal
  | .passed => []
  | .inRejectedDir =>
    [Part.discovery.tell .trace ("Skipping file in rejected directory: " ++ path.spelling)]
  | .rejected => [Part.discovery.tell .trace ("Skipping rejected file: " ++ path.spelling)]
  | .taken => [Part.discovery.tell .trace ("Including: " ++ path.spelling)]

/-- What is told about one source root. -/
def ofRoot (d : Disk) (rejects : Rejects) (ending : String) (root : Path) : Journal :=
  if d.isDir root then
    Part.discovery.tell .info ("Walking source directory: " ++ root.spelling) ::
      (d.reached root).flatMap fun path =>
        ofVerdict path (Discovery.judge d rejects ending path)
  else []

/-- What is told while files of one kind are looked for. -/
def ofFind (d : Disk) (c : Config) (kind : Kind) : Journal :=
  upTo (fun root => failed (Discovery.walkRoot d root)) (ofRoot d c.rejects kind.ending) c.src

/-- What is told when all files are found. -/
def ofSources (s : Sources) : Journal :=
  [Part.discovery.tell .info ("Discovery complete. Found " ++ toString s.headers.length ++
    " header(s) and " ++ toString s.implementations.length ++ " implementation file(s).")]

/-- What is told while the files are looked for. -/
def ofGather (d : Disk) (c : Config) : Journal :=
  Part.discovery.tell .debug
      ("Starting source discovery under " ++ toString c.src.length ++ " root(s)...") ::
    (ofFind d c .header ++
      afterStep (Discovery.find d c.src c.rejects Kind.header.ending) fun _ =>
        ofFind d c .implementation ++ afterStep (c.gather d) ofSources)

/-! ## Reading -/

/-- The text for a number that may be missing. -/
def optional : Option Nat → String
  | none => "None"
  | some n => "Some(" ++ toString n ++ ")"

/-- What is told about a file that was taken apart. -/
def ofFile (f : SourceFile) : Journal :=
  [Part.sourceFile.tell .trace (f.path.spelling ++ ": rank=" ++ optional f.rank ++ " expose=" ++
    optional f.exposeRank ++ " includes=" ++ toString f.includes.length)]

/-- What is told about bytes that were read. -/
def ofBytes (path : Path) (bytes : List UInt8) : Journal :=
  if Text.Utf8.isWellFormed bytes then []
  else [Part.sourceFile.tell .warn
    (path.spelling ++ " is not valid UTF-8; invalid bytes were replaced with U+FFFD")]

/-- What is told while a file is read and taken apart. -/
def ofLoad (d : Disk) (kind : Kind) (path : Path) : Journal :=
  Part.sourceFile.tell .debug ("Parsing " ++ path.spelling) ::
    ((d.read path).toOption.elim [] (ofBytes path) ++ afterStep (SourceFile.load d path kind) ofFile)

/-- What is told while files of one kind are read. -/
def ofLoadAll (d : Disk) (kind : Kind) (paths : List Path) : Journal :=
  upTo (fun path => failed (SourceFile.load d path kind)) (ofLoad d kind) paths

/-! ## Sorting and assembling -/

/-- What is told about a header that was placed. -/
def ofPlaced (f : SourceFile) : Journal :=
  let text :=
    match f.mark? with
    | some ⟨.rank, n⟩ => "Ranked header " ++ toString n ++ " -> " ++ f.path.spelling
    | some ⟨.expose, n⟩ => "Exposed header " ++ toString n ++ " -> " ++ f.path.spelling
    | none => "Unranked header " ++ f.path.spelling
  [Part.classification.tell .debug text]

/-- What is told about a file that was sorted. -/
def ofAdded (f : SourceFile) : Journal :=
  match f.kind with
  | .header => ofPlaced f
  | .implementation =>
    (f.mark?.map fun mark =>
      Part.classification.tell .debug (MisplacedMark.mk f.path mark).message).toList

/-- What is told while files are sorted. -/
def ofAddAll : Classification → List SourceFile → Journal
  | _, [] => []
  | c, f :: rest => afterStep (c.add f) fun c => ofAdded f ++ ofAddAll c rest

/-- What is told when all files are sorted. -/
def ofCounts (n : Classification.Counts) : Journal :=
  [Part.classification.tell .info ("Classified " ++ toString n.ranked ++ " ranked, " ++
    toString n.exposed ++ " exposed, " ++ toString n.unranked ++ " unranked header(s) and " ++
    toString n.implementations ++ " implementation file(s).")]

/-- What is told about a header in its place in a document. -/
def ofPlace (document : String) (place : Nat × SourceFile) : Event :=
  Part.document.tell .trace (document ++ " document: rank " ++ toString place.1 ++ " from " ++
    place.2.path.spelling)

/-- What is told about a document. -/
def ofDocument (document : String) (places : List (Nat × SourceFile)) (lines : List String) :
    Journal :=
  places.map (ofPlace document) ++
    [Part.document.tell .debug
      ("Assembled " ++ document ++ " document (" ++ toString lines.length ++ " lines).")]

/-- What is told while the documents are assembled. -/
def ofAssemble (c : Classification) (documents : Documents) : Journal :=
  ofDocument "header" c.exposed.toList documents.header ++
    ofDocument "source" c.ranked.toList documents.source

/-! ## The whole -/

/-- What is told when the files are known. -/
def ofReading (d : Disk) (s : Sources) : Journal :=
  Part.build.tell .debug ("Parsing " ++ toString s.headers.length ++ " header(s)...") ::
    (ofLoadAll d .header s.headers ++
      afterStep (SourceFile.loadAll d .header s.headers) fun headers =>
        Part.build.tell .debug
            ("Parsing " ++ toString s.implementations.length ++ " implementation file(s)...") ::
          (ofLoadAll d .implementation s.implementations ++
            afterStep (SourceFile.loadAll d .implementation s.implementations)
              fun implementations => ofAddAll .empty (headers ++ implementations)))

/-- What is told during a build. -/
def ofBuild (d : Disk) (c : Config) : Journal :=
  afterStep c.validate fun _ =>
    ofGather d c ++
      afterStep (c.gather d) fun sources =>
        ofReading d sources ++
          afterStep (c.classify d) fun classification =>
            ofCounts classification.counts ++
              ofAssemble classification (c.assemble classification).documents

/-- What is told when a destination is there. -/
def ofPrepare (d : Disk) (dest : Path) : Journal :=
  if d.isDir dest then []
  else [Part.writing.tell .info ("Created destination directory " ++ dest.spelling)]

/-- What is told when a document is written. -/
def ofWrite (path : Path) (lines : List String) : Journal :=
  [Part.writing.tell .debug ("Wrote " ++ toString lines.length ++ " lines to " ++ path.spelling)]

/-- What is told while both documents are written. -/
def ofWriteDocuments (d : Disk) (dest : Path) (documents : Documents) (c : Config) : Journal :=
  let outputs := c.outputs dest
  let ready := prepare d dest
  let header := writeLines ready.disk outputs.header documents.header
  let source := writeLines header.disk outputs.source documents.source
  afterStep ready.result fun _ => ofPrepare d dest ++
    afterStep header.result fun _ => ofWrite outputs.header documents.header ++
      afterStep source.result fun _ => ofWrite outputs.source documents.source ++
        [Part.writing.tell .info
          ("Wrote " ++ outputs.header.spelling ++ " and " ++ outputs.source.spelling)]

/-- What is told during a run. -/
def ofRun (d : Disk) (c : Config) : Journal :=
  ofBuild d c ++ afterStep (c.build d) fun built => ofWriteDocuments d c.dest built.documents c

end Journal

end Amalgam
