import ScriptSessions.Json.Basic
import ScriptSessions.Text.Hex
import ScriptSessions.Text.Search

set_option autoImplicit false

/-! # The tokens of JSON

`Token.scan` cuts a text into tokens and drops the space between them. A string is scanned in
two steps: its body is a list of *pieces*, each a character that stands for itself or a
16-bit unit given by an escape, and the pieces spell a text if the units pair up to
characters (`spell?`).
-/

namespace ScriptSessions.Json

open Text

/-- A token of a JSON text. -/
inductive Token where
  | openBrace
  | closeBrace
  | openBracket
  | closeBracket
  | colon
  | comma
  | null
  | bool (b : Bool)
  | natural (n : Nat)
  | otherNumber
  /-- A string, if its escapes spell a text. -/
  | string (s : Option String)
deriving DecidableEq, Repr, Inhabited

/-- The characters that may stand between tokens. -/
def isSpace (c : Char) : Bool := c == ' ' || c == '\t' || c == '\n' || c == '\r'

/-! ## Strings -/

/-- A piece of the body of a string. -/
inductive Piece where
  | char (c : Char)
  | unit (n : Nat)
deriving DecidableEq, Repr, Inhabited

/-- The character that stands after a backslash for another one. -/
def shortEscape? : Char → Option Char
  | '"' => some '"'
  | '\\' => some '\\'
  | '/' => some '/'
  | 'b' => some '\x08'
  | 'f' => some '\x0c'
  | 'n' => some '\n'
  | 'r' => some '\r'
  | 't' => some '\t'
  | _ => none

/-- The pieces up to the closing quote, and what stands after it. -/
def stringBody? : List Char → Option (List Piece × List Char)
  | [] => none
  | '"' :: rest => some ([], rest)
  | '\\' :: 'u' :: a :: b :: c :: d :: rest =>
    match hexValues? [a, b, c, d], stringBody? rest with
    | some ds, some (pieces, after) => some (.unit (ofHexDigits ds) :: pieces, after)
    | _, _ => none
  | '\\' :: e :: rest =>
    match shortEscape? e, stringBody? rest with
    | some c, some (pieces, after) => some (.char c :: pieces, after)
    | _, _ => none
  | c :: rest =>
    if c.toNat < 0x20 then none
    else (stringBody? rest).map fun p => (.char c :: p.1, p.2)

/-- Whether a unit is the first half of a surrogate pair. -/
def isLeading (n : Nat) : Bool := 0xD800 ≤ n && n < 0xDC00

/-- Whether a unit is the second half of a surrogate pair. -/
def isTrailing (n : Nat) : Bool := 0xDC00 ≤ n && n < 0xE000

/-- The text that pieces spell. The two halves of a surrogate pair must stand together. -/
def spell? : List Piece → Option (List Char)
  | [] => some []
  | .char c :: rest => (spell? rest).map (c :: ·)
  | .unit n :: rest =>
    if isTrailing n then none
    else if isLeading n then
      match rest with
      | .unit m :: rest =>
        if isTrailing m then
          (spell? rest).map (Char.ofNat (0x10000 + (n - 0xD800) * 0x400 + (m - 0xDC00)) :: ·)
        else none
      | _ => none
    else (spell? rest).map (Char.ofNat n :: ·)

/-- The string token of a body. -/
def Token.ofPieces (pieces : List Piece) : Token :=
  .string ((spell? pieces).map String.ofList)

/-! ## Numbers -/

/-- Drops one or more decimal digits. -/
def skipDigits? (s : List Char) : Option (List Char) :=
  match s with
  | c :: rest => if c.isDigit then some (rest.dropWhile Char.isDigit) else none
  | [] => none

/-- Drops an exponent after its letter. -/
def skipExponent? : List Char → Option (List Char)
  | '+' :: rest => skipDigits? rest
  | '-' :: rest => skipDigits? rest
  | s => skipDigits? s

/-- Drops a fraction and an exponent if they stand here. -/
def skipFraction? (s : List Char) : Option (List Char) := do
  let s ← match s with
    | '.' :: rest => skipDigits? rest
    | s => some s
  match s with
  | 'e' :: rest => skipExponent? rest
  | 'E' :: rest => skipExponent? rest
  | s => some s

/-- Whether a text goes on with a fraction or an exponent. -/
def continuesNumber (s : List Char) : Bool :=
  match s with
  | c :: _ => c == '.' || c == 'e' || c == 'E'
  | [] => false

/-- The number token at the beginning of a text. A leading zero stands alone. -/
def number? (s : List Char) : Option (Token × List Char) :=
  let negative := s.head? == some '-'
  let unsigned := if negative then s.drop 1 else s
  let digits := unsigned.takeWhile Char.isDigit
  let after := unsigned.dropWhile Char.isDigit
  if digits = [] ∨ (digits.head? = some '0' ∧ digits.length > 1) then none
  else if negative || continuesNumber after then (skipFraction? after).map (.otherNumber, ·)
  else some (.natural (Nat.ofDigitChars 10 digits 0), after)

/-! ## Scanning -/

/-- The token at the beginning of a text, and what stands after it. -/
def Token.next? (s : List Char) : Option (Token × List Char) :=
  match s with
  | '{' :: rest => some (.openBrace, rest)
  | '}' :: rest => some (.closeBrace, rest)
  | '[' :: rest => some (.openBracket, rest)
  | ']' :: rest => some (.closeBracket, rest)
  | ':' :: rest => some (.colon, rest)
  | ',' :: rest => some (.comma, rest)
  | '"' :: rest => (stringBody? rest).map fun p => (.ofPieces p.1, p.2)
  | 'n' :: rest => (dropPrefix? "ull".toList rest).map (.null, ·)
  | 't' :: rest => (dropPrefix? "rue".toList rest).map (.bool true, ·)
  | 'f' :: rest => (dropPrefix? "alse".toList rest).map (.bool false, ·)
  | s => number? s

/-- The tokens of a text, found with at most `fuel` looks at it. -/
def Token.scanWithin : Nat → List Char → Option (List Token)
  | _, [] => some []
  | 0, _ :: _ => none
  | fuel + 1, c :: rest =>
    if isSpace c then scanWithin fuel rest
    else
      match next? (c :: rest) with
      | none => none
      | some (t, after) => (scanWithin fuel after).map (t :: ·)

/-- The tokens of a text. Every look at the text takes away a character. -/
def Token.scan (s : List Char) : Option (List Token) := scanWithin s.length s

end ScriptSessions.Json
