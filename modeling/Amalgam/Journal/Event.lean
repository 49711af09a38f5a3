import Amalgam.Text.Pieces

/-!
# Events

What a run tells about itself while it goes on. Every event has a level; how much is shown is decided
by the least important level that is still shown.
-/

namespace Amalgam

/-- How important an event is. -/
inductive Level where
  | warn
  | info
  | debug
  | trace
deriving DecidableEq

namespace Level

/-- The place of a level; the most important level comes first. -/
def rank : Level → Nat
  | warn => 1
  | info => 2
  | debug => 3
  | trace => 4

/-- The word for a level. -/
def word : Level → String
  | warn => "WARN"
  | info => "INFO"
  | debug => "DEBUG"
  | trace => "TRACE"

/-- The word for a level, as wide as the widest. -/
def column (level : Level) : String :=
  level.word ++ String.ofList (List.replicate (5 - level.word.length) ' ')

end Level

/-- The part of the program that tells an event. -/
inductive Part where
  | program
  | command
  | config
  | discovery
  | sourceFile
  | classification
  | document
  | build
  | writing
deriving DecidableEq

/-- The name of a part in a journal. -/
def Part.name : Part → String
  | .program => "cconcat"
  | .command => "cconcat::commands::concat"
  | .config => "cconcat_core::config"
  | .discovery => "cconcat_core::gather"
  | .sourceFile => "cconcat_core::directive"
  | .classification => "cconcat_core::classify"
  | .document => "cconcat_core::merge"
  | .build => "cconcat_core::pipeline"
  | .writing => "cconcat_core::writer"

/-- Something that a part of the program tells. -/
structure Event where
  part : Part
  level : Level
  text : String
deriving DecidableEq

/-- Events in the order in which they happen. -/
abbrev Journal := List Event

/-- The event that a part tells at a level. -/
def Part.tell (part : Part) (level : Level) (text : String) : Event := ⟨part, level, text⟩

namespace Journal

/-- The events that are shown when the given level is the least important one that is; none when
there is no such level. -/
def shown (journal : Journal) (least : Option Level) : Journal :=
  journal.filter fun event => least.any fun level => event.level.rank ≤ level.rank

/-- What is told about each item in turn, up to and including the first that fails. -/
def upTo {α : Type} (fails : α → Bool) (tell : α → Journal) : List α → Journal
  | [] => []
  | a :: rest => tell a ++ if fails a then [] else upTo fails tell rest

end Journal

end Amalgam
