import ScriptSessions.Text.Hex

set_option autoImplicit false

/-! # TOML strings

There are four forms of strings: between double quotes a backslash escapes the character
after it, between single quotes every character stands for itself, and each of the two may
also stand between three quotes and then go over several lines. Controls other than the tab
must be escaped.

A string that begins with three quotes ends with three; up to two more quotes directly before
the closing ones belong to the string.
-/

namespace ScriptSessions.Toml

open Text

/-- The characters that stand for themselves on a line of a string or of a comment. -/
def isPlain (c : Char) : Bool := c == '\t' || (' ' ≤ c && c != '\x7f')

/-- Spaces within a line. -/
def isLineSpace (c : Char) : Bool := c == ' ' || c == '\t'

/-- Whether a line ends here: at a newline, or at a carriage return before a newline. The
first character of the two is given by itself. -/
def endsLine (c : Char) (rest : List Char) : Bool :=
  c == '\n' || (c == '\r' && rest.head? == some '\n')

/-! ## Escapes -/

/-- The character that a letter after a backslash stands for. -/
def shortEscape? : Char → Option Char
  | 'b' => some '\x08'
  | 't' => some '\t'
  | 'n' => some '\n'
  | 'f' => some '\x0c'
  | 'r' => some '\r'
  | 'e' => some '\x1b'
  | '"' => some '"'
  | '\\' => some '\\'
  | _ => none

/-- How many digits follow a letter that begins the number of a character. -/
def escapeWidth? : Char → Option Nat
  | 'x' => some 2
  | 'u' => some 4
  | 'U' => some 8
  | _ => none

/-- The character with a given number. -/
def charOfNat? (n : Nat) : Option Char := if n.isValidChar then some (Char.ofNat n) else none

/-- What the characters before this one have begun. -/
inductive Escape where
  | nothing
  /-- A backslash stands before. -/
  | begun
  /-- The number of a character is being read: so many digits are left. -/
  | digits (left value : Nat)
  /-- A backslash at the end of a line stands before, and the line has not ended. -/
  | lineRest
  /-- A backslash at the end of a line stands before, and the line has ended. -/
  | nextLine
deriving DecidableEq, Repr, Inhabited

/-- What a character does after a backslash: it stands for a character, or it begins the
number of one. -/
def afterBackslash? (c : Char) : Option (Sum Char Escape) :=
  match shortEscape? c with
  | some d => some (.inl d)
  | none => (escapeWidth? c).map fun width => .inr (.digits width 0)

/-- What a digit does in the number of a character. -/
def afterDigit? (left value : Nat) (c : Char) : Option (Sum Char Escape) :=
  match hexValue? c with
  | none => none
  | some d =>
    let value := 16 * value + d.val
    if left ≤ 1 then (charOfNat? value).map .inl else some (.inr (.digits (left - 1) value))

/-- Puts a character before the body of a string. -/
def prepend (c : Char) : Option (List Char × List Char) → Option (List Char × List Char)
  | none => none
  | some (body, after) => some (c :: body, after)

/-! ## Strings on one line -/

/-- The rest of a string in double quotes, and what stands after it. -/
def basicBody? : Escape → List Char → Option (List Char × List Char)
  | _, [] => none
  | .begun, c :: rest =>
    match afterBackslash? c with
    | none => none
    | some (.inl d) => prepend d (basicBody? .nothing rest)
    | some (.inr escape) => basicBody? escape rest
  | .digits left value, c :: rest =>
    match afterDigit? left value c with
    | none => none
    | some (.inl d) => prepend d (basicBody? .nothing rest)
    | some (.inr escape) => basicBody? escape rest
  | _, c :: rest =>
    if c = '"' then some ([], rest)
    else if c = '\\' then basicBody? .begun rest
    else if isPlain c then prepend c (basicBody? .nothing rest)
    else none

/-- The rest of a string in single quotes, and what stands after it. -/
def literalBody? (s : List Char) : Option (List Char × List Char) :=
  let isBody (c : Char) : Bool := isPlain c && c != '\''
  match s.dropWhile isBody with
  | '\'' :: after => some (s.takeWhile isBody, after)
  | _ => none

/-! ## Strings on several lines -/

/-- The closing quotes of a string on several lines, after the first three of a run. -/
def closing (quote : Char) (s : List Char) : List Char × List Char :=
  let extra := (s.takeWhile (· == quote)).take 2
  (extra, s.drop extra.length)

/-- A line end directly after the opening quotes does not belong to the string. -/
def dropFirstLineEnd : List Char → List Char
  | '\n' :: rest => rest
  | '\r' :: '\n' :: rest => rest
  | s => s

/-- The rest of a string in three double quotes, and what stands after it. A backslash at the
end of a line takes away the line end and all spaces and line ends after it. -/
def longBasicBody? : Escape → List Char → Option (List Char × List Char)
  | _, [] => none
  | .begun, c :: rest =>
    if isLineSpace c then longBasicBody? .lineRest rest
    else if c = '\n' then longBasicBody? .nextLine rest
    else if endsLine c rest then longBasicBody? .lineRest rest
    else
      match afterBackslash? c with
      | none => none
      | some (.inl d) => prepend d (longBasicBody? .nothing rest)
      | some (.inr escape) => longBasicBody? escape rest
  | .digits left value, c :: rest =>
    match afterDigit? left value c with
    | none => none
    | some (.inl d) => prepend d (longBasicBody? .nothing rest)
    | some (.inr escape) => longBasicBody? escape rest
  | .lineRest, c :: rest =>
    if c = '\n' then longBasicBody? .nextLine rest
    else if isLineSpace c || endsLine c rest then longBasicBody? .lineRest rest
    else none
  | escape, c :: rest =>
    if escape = .nextLine ∧ (isLineSpace c || endsLine c rest) then
      longBasicBody? .nextLine rest
    else if c = '"' then
      if rest.take 2 = ['"', '"'] then some (closing '"' (rest.drop 2))
      else prepend c (longBasicBody? .nothing rest)
    else if c = '\\' then longBasicBody? .begun rest
    else if isPlain c || endsLine c rest then prepend c (longBasicBody? .nothing rest)
    else none

/-- The rest of a string in three single quotes, and what stands after it. -/
def longLiteralBody? : List Char → Option (List Char × List Char)
  | [] => none
  | c :: rest =>
    if c = '\'' ∧ rest.take 2 = ['\'', '\''] then some (closing '\'' (rest.drop 2))
    else if isPlain c || endsLine c rest then prepend c (longLiteralBody? rest)
    else none

/-! ## Any string -/

/-- Reads a string of any form, and gives back what stands after it. -/
def string? (s : List Char) : Option (List Char × List Char) :=
  match s with
  | '"' :: '"' :: '"' :: rest => longBasicBody? .nothing (dropFirstLineEnd rest)
  | '"' :: rest => basicBody? .nothing rest
  | '\'' :: '\'' :: '\'' :: rest => longLiteralBody? (dropFirstLineEnd rest)
  | '\'' :: rest => literalBody? rest
  | _ => none

end ScriptSessions.Toml
