import Amalgam.Toml.Text

/-!
# Flat TOML tables

A table of keys whose values are texts or lists of texts, with comments and empty lines between. A
document with any other value, with a nested table or with a key of several parts is no such table.

`table?` describes the library that decodes settings files, as far as settings need it. It is one
`Settings.Decoder`; what the program does with a decoded table holds of every decoder.
-/

namespace Amalgam.Toml

/-- What a key can stand for. -/
inductive Value where
  | text (s : String)
  | list (items : List String)
deriving DecidableEq

/-- A table: its keys with their values, in the order of the document. -/
abbrev Table := List (String × Value)

/-- Whether the character is a blank inside a line. -/
def isLineBlank (c : Char) : Bool := c = ' ' || c = '\t'

/-- The text after the blanks at its front. -/
def skipLineBlanks (s : List Char) : List Char := s.dropWhile isLineBlank

/-! ## Lists -/

/-- Skips blanks, line breaks and comments; `comment` says that a comment is being read. -/
def skipGap : Bool → List Char → Option (List Char)
  | _, '\n' :: rest => skipGap false rest
  | _, '\r' :: '\n' :: rest => skipGap false rest
  | true, c :: rest => if isCommentChar c then skipGap true rest else none
  | true, [] => none
  | false, '#' :: rest => skipGap true rest
  | false, c :: rest => if isLineBlank c then skipGap false rest else some (c :: rest)
  | false, [] => some []

/-- Reads the items of a list after its opening bracket, `count` of them at most. -/
def items? : Nat → List Char → Option (List String × List Char)
  | 0, _ => none
  | count + 1, s => do
    match ← skipGap false s with
    | ']' :: rest => return ([], rest)
    | s =>
      let (item, rest) ← text? s
      match ← skipGap false rest with
      | ',' :: rest =>
        let (items, rest) ← items? count rest
        return (String.ofList item :: items, rest)
      | ']' :: rest => return ([String.ofList item], rest)
      | _ => none

/-! ## Entries -/

/-- Reads a value. -/
def value? (s : List Char) : Option (Value × List Char) :=
  match s with
  | '[' :: rest => (items? s.length rest).map fun (items, rest) => (.list items, rest)
  | s => (text? s).map fun (text, rest) => (.text (String.ofList text), rest)

/-- Whether a bare key may hold the character. -/
def isBareKeyChar (c : Char) : Bool := c.isAlphanum || c = '_' || c = '-'

/-- Reads a key of one part. -/
def key? (s : List Char) : Option (String × List Char) :=
  match s with
  | '"' :: rest => (basic rest).map fun (key, rest) => (String.ofList key, rest)
  | '\'' :: rest => (literal rest).map fun (key, rest) => (String.ofList key, rest)
  | s =>
    let key := s.takeWhile isBareKeyChar
    if key = [] then none else some (String.ofList key, s.drop key.length)

/-- Reads the rest of a line on which nothing but a comment may stand. -/
def lineEnd? (s : List Char) : Option (List Char) :=
  let s :=
    match skipLineBlanks s with
    | '#' :: rest => rest.dropWhile isCommentChar
    | s => s
  match s with
  | [] => some []
  | '\n' :: rest => some rest
  | '\r' :: '\n' :: rest => some rest
  | _ => none

/-- Reads a key, its value and the rest of their line. -/
def entry? (s : List Char) : Option ((String × Value) × List Char) := do
  let (key, s) ← key? s
  match skipLineBlanks s with
  | '=' :: s =>
    let (value, s) ← value? (skipLineBlanks s)
    let rest ← lineEnd? s
    return ((key, value), rest)
  | _ => none

/-- Reads lines, `count` of them at most. -/
def entries? : Nat → List Char → Option Table
  | _, [] => some []
  | 0, _ => none
  | count + 1, s =>
    match lineEnd? s with
    | some rest => entries? count rest
    | none => do
      let (entry, rest) ← entry? (skipLineBlanks s)
      let more ← entries? count rest
      return entry :: more

/-- The document without a byte order mark at its front. -/
def dropOrderMark : List Char → List Char
  | '\uFEFF' :: rest => rest
  | s => s

/-- The table that a document writes, if it is a flat one with no key twice. -/
def table? (document : List Char) : Option Table := do
  let table ← entries? document.length (dropOrderMark document)
  if (table.map Prod.fst).Nodup then some table else none

end Amalgam.Toml
