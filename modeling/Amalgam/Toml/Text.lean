/-!
# Texts in TOML

The four forms of a text: basic and literal, each on one line or on several. Basic texts know
escapes, literal ones do not. A line break inside a text counts as one line feed, and one right after
an opening triple mark counts as none.

This describes the library that decodes settings files, with `Toml.table?`. No property of the program
rests on it: what uses a decoder takes it as a parameter.
-/

namespace Amalgam.Toml

/-- Whether the code point is outside ASCII. -/
def isWide (c : Char) : Bool := 0x80 ≤ c.toNat

/-- Whether a comment may hold the character: a tab, a printable ASCII character, or a wide one. -/
def isCommentChar (c : Char) : Bool :=
  c = '\t' || (0x20 ≤ c.toNat && c.toNat ≤ 0x7E) || isWide c

/-- Whether a literal text may hold the character. -/
def isLiteralChar (c : Char) : Bool := isCommentChar c && c ≠ '\''

/-- Whether a basic text may hold the character as it stands. -/
def isBasicChar (c : Char) : Bool := isCommentChar c && c ≠ '"' && c ≠ '\\'

/-! ## Escapes -/

/-- The value of a hexadecimal digit. -/
def hexValue? (c : Char) : Option Nat :=
  if '0' ≤ c ∧ c ≤ '9' then some (c.toNat - '0'.toNat)
  else if 'a' ≤ c ∧ c ≤ 'f' then some (c.toNat - 'a'.toNat + 10)
  else if 'A' ≤ c ∧ c ≤ 'F' then some (c.toNat - 'A'.toNat + 10)
  else none

/-- The character whose code point the hexadecimal digits write, if it is one. -/
def hexChar? (digits : List Char) : Option Char := do
  let values ← digits.mapM hexValue?
  let n := values.foldl (fun n v => 16 * n + v) 0
  if n.isValidChar then some (Char.ofNat n) else none

/-- The character that a one-letter escape stands for. -/
def escaped? : Char → Option Char
  | 'b' => some '\x08'
  | 't' => some '\t'
  | 'n' => some '\n'
  | 'f' => some '\x0c'
  | 'r' => some '\r'
  | '"' => some '"'
  | '\\' => some '\\'
  | _ => none

/-- A text that has been read, and what stands after it. -/
abbrev Read := Option (List Char × List Char)

/-- Puts a character, if there is one, in front of what has been read. -/
def withChar (c : Option Char) (read : Read) : Read := do
  let c ← c
  let (s, rest) ← read
  return (c :: s, rest)

/-! ## Texts on one line -/

/-- Reads a basic text after its opening mark. -/
def basic : List Char → Read
  | [] => none
  | '"' :: rest => some ([], rest)
  | '\\' :: 'u' :: a :: b :: c :: d :: rest => withChar (hexChar? [a, b, c, d]) (basic rest)
  | '\\' :: 'U' :: a :: b :: c :: d :: e :: f :: g :: h :: rest =>
    withChar (hexChar? [a, b, c, d, e, f, g, h]) (basic rest)
  | '\\' :: c :: rest => withChar (escaped? c) (basic rest)
  | c :: rest => withChar (if isBasicChar c then some c else none) (basic rest)

/-- Reads a literal text after its opening mark. -/
def literal : List Char → Read
  | [] => none
  | '\'' :: rest => some ([], rest)
  | c :: rest => withChar (if isLiteralChar c then some c else none) (literal rest)

/-! ## Texts on several lines -/

/-- Whether only blanks stand before the end of the line. -/
def endsLine (s : List Char) : Bool :=
  match s.dropWhile fun c => c = ' ' || c = '\t' with
  | '\n' :: _ => true
  | '\r' :: '\n' :: _ => true
  | _ => false

/-- Reads a basic text of several lines after its opening marks; `skipping` says that a backslash
ended a line, so that blanks and line breaks count as none. Up to two marks may stand right before
the closing ones. -/
def multiBasic : Bool → List Char → Read
  | _, [] => none
  | _, '"' :: '"' :: '"' :: '"' :: '"' :: rest => some (['"', '"'], rest)
  | _, '"' :: '"' :: '"' :: '"' :: rest => some (['"'], rest)
  | _, '"' :: '"' :: '"' :: rest => some ([], rest)
  | skipping, '\r' :: '\n' :: rest =>
    if skipping then multiBasic true rest else withChar (some '\n') (multiBasic false rest)
  | skipping, '\n' :: rest =>
    if skipping then multiBasic true rest else withChar (some '\n') (multiBasic false rest)
  | _, '\\' :: 'u' :: a :: b :: c :: d :: rest =>
    withChar (hexChar? [a, b, c, d]) (multiBasic false rest)
  | _, '\\' :: 'U' :: a :: b :: c :: d :: e :: f :: g :: h :: rest =>
    withChar (hexChar? [a, b, c, d, e, f, g, h]) (multiBasic false rest)
  | _, '\\' :: c :: rest =>
    if endsLine (c :: rest) then multiBasic true (c :: rest)
    else withChar (escaped? c) (multiBasic false rest)
  | skipping, c :: rest =>
    if skipping && (c = ' ' || c = '\t') then multiBasic true rest
    else withChar (if isBasicChar c || c = '"' then some c else none) (multiBasic false rest)

/-- Reads a literal text of several lines after its opening marks. -/
def multiLiteral : List Char → Read
  | [] => none
  | '\'' :: '\'' :: '\'' :: '\'' :: '\'' :: rest => some (['\'', '\''], rest)
  | '\'' :: '\'' :: '\'' :: '\'' :: rest => some (['\''], rest)
  | '\'' :: '\'' :: '\'' :: rest => some ([], rest)
  | '\r' :: '\n' :: rest => withChar (some '\n') (multiLiteral rest)
  | '\n' :: rest => withChar (some '\n') (multiLiteral rest)
  | c :: rest => withChar (if isCommentChar c then some c else none) (multiLiteral rest)

/-- The text without a line break at its front. -/
def dropBreak : List Char → List Char
  | '\n' :: rest => rest
  | '\r' :: '\n' :: rest => rest
  | s => s

/-- Reads a text in any of the four forms. -/
def text? : List Char → Read
  | '"' :: '"' :: '"' :: rest => multiBasic false (dropBreak rest)
  | '\'' :: '\'' :: '\'' :: rest => multiLiteral (dropBreak rest)
  | '"' :: rest => basic rest
  | '\'' :: rest => literal rest
  | _ => none

end Amalgam.Toml
