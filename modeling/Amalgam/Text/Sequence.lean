/-!
# Control sequences

Text for a terminal carries controls and sequences that the terminal obeys and does not show. The
text is read character by character: an escape character opens a sequence, and what follows decides
how the sequence ends. A blank control inside a sequence is shown and interrupts it, so that what
follows is shown as plain text up to the next character that is not, where the sequence goes on.

Main results:

* `visible_append`: what is shown of a longer text is found by going on from where its start ended.
* `closed_of_no_escape`: only an escape character opens a sequence.
-/

namespace Amalgam.Text.Sequence

/-- What is being read. -/
inductive Mode where
  /-- Text that is shown. -/
  | plain
  /-- What follows an escape character. -/
  | escape
  /-- A sequence of an escape character and several more, of which the last ends it. -/
  | escapeLong
  /-- A control sequence, which a letter ends. -/
  | control
  /-- A command for the terminal itself, which a bell ends. -/
  | command
  /-- The start of a string for a device. -/
  | device
  /-- The parameters of a string for a device. -/
  | deviceParameters
  /-- What may stand between the parameters and the string for a device. -/
  | deviceLong
  /-- A string that is not shown, which a string terminator ends. -/
  | string
deriving DecidableEq

/-- Whether the code point of the character lies between two bounds, both included. -/
def between (low high : Nat) (c : Char) : Bool := low ≤ c.toNat && c.toNat ≤ high

/-- Whether the character is one of the controls that move to another place in the text. -/
def isBlankControl (c : Char) : Bool := c = '\t' || c = '\n' || c = '\x0c' || c = '\r'

/-- Whether the character is shown in plain text: it is no control, or a blank one. -/
def isShown (c : Char) : Bool :=
  isBlankControl c || between 0x20 0x7E c || 0x80 ≤ c.toNat

/-- The byte of a string terminator. -/
def terminator : UInt8 := 0x9C

/-- What is read after an escape character and one more. -/
def afterEscape (c : Char) : Mode :=
  if between 0x20 0x2F c then .escapeLong
  else if c = '[' then .control
  else if c = ']' then .command
  else if c = 'P' then .device
  else if c = 'X' || c = '^' || c = '_' then .string
  else if between 0x30 0x7E c then .plain
  else .escape

namespace Mode

/-- What is read after one more character that is not shown. -/
def next (mode : Mode) (c : Char) : Mode :=
  if c = '\x18' || c = '\x1a' then .plain
  else if c = '\x1b' then .escape
  else
    match mode with
    | .plain => .plain
    | .escape => afterEscape c
    | .escapeLong => if between 0x30 0x7E c then .plain else .escapeLong
    | .control => if between 0x40 0x7E c then .plain else .control
    | .command => if c = '\x07' then .plain else .command
    | .device =>
      if between 0x20 0x2F c then .deviceLong
      else if between 0x30 0x3F c then .deviceParameters
      else if between 0x40 0x7E c then .string
      else .device
    | .deviceParameters =>
      if between 0x20 0x2F c then .deviceLong
      else if between 0x3C 0x7E c then .string
      else .deviceParameters
    | .deviceLong => if between 0x30 0x7E c then .string else .deviceLong
    | .string => if terminator ∈ String.utf8EncodeChar c then .plain else .string

/-- Whether a character is shown where it is read: inside a sequence only a blank control is, inside
a string or a command nothing. -/
def shows (mode : Mode) (c : Char) : Bool :=
  match mode with
  | .plain => isShown c
  | .escape | .escapeLong | .control => isBlankControl c
  | .command | .device | .deviceParameters | .deviceLong | .string => false

end Mode

/-- What is being read, and whether a blank control has interrupted it. -/
structure State where
  mode : Mode
  interrupted : Bool
deriving DecidableEq

/-- At the start of a text nothing is open. -/
def State.start : State := ⟨.plain, false⟩

/-- Whether a character is shown. -/
def State.shows (s : State) (c : Char) : Bool :=
  if s.interrupted then isShown c else s.mode.shows c

/-- The state after one more character. A shown character outside ASCII ends what was interrupted. -/
def State.next (s : State) (c : Char) : State :=
  if s.shows c then
    if 0x80 ≤ c.toNat then .start else ⟨s.mode, s.mode ≠ .plain⟩
  else ⟨s.mode.next c, false⟩

/-- The characters that are shown, read from a state on. -/
def visible (s : State) : List Char → List Char
  | [] => []
  | c :: rest =>
    if s.shows c then c :: visible (s.next c) rest else visible (s.next c) rest

/-- The text without what a terminal does not show. -/
def strip (text : String) : String := String.ofList (visible .start text.toList)

theorem visible_append (s : State) (text more : List Char) :
    visible s (text ++ more) = visible s text ++ visible (text.foldl State.next s) more := by
  induction text generalizing s with
  | nil => rfl
  | cons c rest ih =>
    simp only [List.cons_append, visible, List.foldl_cons, ih]
    split <;> rfl

/-! ## Closed texts -/

/-- Whether nothing is open after a text, so that what follows it is shown as it would be alone. -/
def Closed (text : List Char) : Prop := text.foldl State.next .start = .start

instance (text : List Char) : Decidable (Closed text) := inferInstanceAs (Decidable (_ = _))

theorem Closed.append {text more : List Char} (h : Closed text) (hmore : Closed more) :
    Closed (text ++ more) := by
  rw [Closed, List.foldl_append, h, hmore]

/-- Behind a closed text everything is shown as it would be alone. -/
theorem Closed.strip_append {text : String} (h : Closed text.toList) (more : String) :
    strip (text ++ more) = strip text ++ strip more := by
  rw [strip, String.toList_append, visible_append, h, String.ofList_append]
  rfl

theorem next_start {c : Char} (h : c ≠ '\x1b') : State.next .start c = .start := by
  rw [State.next]
  split
  · split <;> rfl
  · simp [State.start, Mode.next, h]

/-- Only an escape character opens a sequence. -/
theorem closed_of_no_escape {text : List Char} (h : '\x1b' ∉ text) : Closed text := by
  induction text with
  | nil => rfl
  | cons c rest ih =>
    rw [List.mem_cons, not_or] at h
    rw [Closed, List.foldl_cons, next_start (Ne.symm h.1)]
    exact ih h.2

end Amalgam.Text.Sequence
