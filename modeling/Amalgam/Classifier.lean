import Amalgam.Classification

/-!
# Classifying call by call

A classifier is a classification that calls change. A call gives it one more file and may fail, and
whatever a call wrote before it failed stays written. So the order of the steps counts: a header
claims its place first, and only then are its directives written and the header itself.

Main results:

* `call_add`: a call leaves what adding the file gives, and a failed call leaves what was there.
-/

namespace Amalgam

/-- Steps on a classification; what they wrote before a failure stays written. -/
abbrev Classifier := ExceptT Failure (StateM Classification)

namespace Classifier

/-- What steps answer, and the classification that they leave. -/
def call (steps : Classifier Unit) (c : Classification) : Except Failure Unit × Classification :=
  steps.run.run c

/-- Fails when another header holds the place. -/
def claim (f : SourceFile) (mark : Mark) : Classifier Unit := do
  match (← get).holder? mark with
  | some first => throw (.duplicate mark first.path f.path)
  | none => return ()

/-- Writes the directives of a header into the set that belongs to its place. -/
def collect (f : SourceFile) (place : Option Mark) : Classifier Unit :=
  modify fun c =>
    match place with
    | some ⟨.rank, _⟩ => { c with rankedIncludes := c.rankedIncludes.addAll f.includes }
    | some ⟨.expose, _⟩ => { c with exposedIncludes := c.exposedIncludes.addAll f.includes }
    | none => { c with unrankedIncludes := c.unrankedIncludes.addAll f.includes }

/-- Writes a header at its place. -/
def settle (f : SourceFile) (place : Option Mark) : Classifier Unit :=
  modify fun c =>
    match place with
    | some ⟨.rank, n⟩ => { c with ranked := c.ranked.insert n f }
    | some ⟨.expose, n⟩ => { c with exposed := c.exposed.insert n f }
    | none => { c with unranked := c.unranked ++ [f] }

/-- Adds a header, unless its place is taken (`add_header`). -/
def addHeader (f : SourceFile) : Classifier Unit := do
  if let some mark := f.mark? then claim f mark
  collect f f.mark?
  settle f f.mark?

/-- Adds an implementation; a mark on it only gives a warning (`add_implementation`). -/
def addImplementation (f : SourceFile) : Classifier Unit := do
  if let some mark := f.mark? then
    modify fun c => { c with warnings := c.warnings ++ [⟨f.path, mark⟩] }
  modify fun c => { c with implementationIncludes := c.implementationIncludes.addAll f.includes }
  modify fun c => { c with implementations := c.implementations ++ [f] }

/-- Adds a file (`add`). -/
def add (f : SourceFile) : Classifier Unit :=
  match f.kind with
  | .header => addHeader f
  | .implementation => addImplementation f

/-! ## What a call leaves -/

/-- Steps go on from what the steps before them left, unless those failed. -/
theorem call_bind (first : Classifier Unit) (next : Unit → Classifier Unit) (c : Classification) :
    (first >>= next).call c =
      match first.call c with
      | (.ok _, d) => (next ()).call d
      | (.error failure, d) => (.error failure, d) := by
  unfold call
  rw [ExceptT.run_bind, StateT.run_bind]
  rcases first.run.run c with ⟨_ | _, d⟩ <;> rfl

theorem call_claim (f : SourceFile) (mark : Mark) (c : Classification) :
    (claim f mark).call c =
      match c.holder? mark with
      | some first => (.error (.duplicate mark first.path f.path), c)
      | none => (.ok (), c) := by
  have hget : (claim f mark).call c =
      ((match c.holder? mark with
        | some first => throw (.duplicate mark first.path f.path)
        | none => return () : Classifier Unit)).call c := rfl
  rw [hget]
  cases c.holder? mark <;> rfl

/-- What a call on `c` answers and leaves, by what adding the file to `c` gives. -/
def leaving (c : Classification) :
    Except Failure Classification → Except Failure Unit × Classification
  | .ok d => (.ok (), d)
  | .error failure => (.error failure, c)

theorem call_addImplementation (f : SourceFile) (c : Classification) :
    (addImplementation f).call c = (.ok (), c.addImplementation f) := by
  unfold addImplementation Classification.addImplementation
  cases f.mark? with
  | none => simp only [Option.map_none, Option.toList_none, List.append_nil]; rfl
  | some mark => rfl

/-- A header whose place is taken is refused before anything is written. -/
theorem call_addHeader (f : SourceFile) (c : Classification) :
    (addHeader f).call c = leaving c (c.addHeader f) := by
  unfold addHeader Classification.addHeader
  cases f.mark? with
  | none => rfl
  | some mark =>
    dsimp only
    rw [call_bind, call_claim]
    cases c.holder? mark with
    | none => rcases mark with ⟨_ | _, n⟩ <;> rfl
    | some first => rfl

/-- A call leaves what adding the file gives, and a failed call leaves what was there. -/
theorem call_add (f : SourceFile) (c : Classification) : (add f).call c = leaving c (c.add f) := by
  rw [add, Classification.add]
  cases f.kind with
  | header => exact call_addHeader f c
  | implementation => exact call_addImplementation f c

end Classifier

end Amalgam
