import ScriptSessions.Text.Hex

set_option autoImplicit false

/-! # Writing TOML

A string is written in the form that needs the fewest escapes. Between double quotes, tabs
and controls must be escaped in any case, and also quotes and backslashes; so a text with one
of these two is put between single quotes if it can stand there, else between three double
quotes or three single ones if it can stand there. Only then it is escaped. A text with
several lines always stands between three quotes. An array of two or more strings has one of
them on each line.
-/

namespace ScriptSessions.Toml

open Text

/-! ## Choosing a form -/

/-- Whether a character is a control other than tab and newline. -/
def isControl (c : Char) : Bool := (c < ' ' && c != '\t' && c != '\n') || c == '\x7f'

/-- The length of the longest run of a character. -/
def longestRun (c : Char) (s : List Char) : Nat :=
  (s.foldl (fun (best, current) d =>
    if d = c then (max best (current + 1), current + 1) else (best, 0)) (0, 0)).1

/-- The forms in which a string can be written. -/
inductive StringForm where
  /-- Between double quotes. -/
  | basic
  /-- Between single quotes. -/
  | literal
  /-- Between three double quotes. -/
  | longBasic
  /-- Between three single quotes. -/
  | longLiteral
deriving DecidableEq, Repr, Inhabited

/-- The form in which a string is written. -/
def StringForm.choose (s : List Char) : StringForm :=
  if s.any isControl then if '\n' ∈ s then .longBasic else .basic
  else if '\\' ∉ s ∧ '"' ∉ s ∧ '\n' ∉ s then .basic
  else if '\'' ∉ s ∧ '\n' ∉ s then .literal
  else if '\\' ∉ s ∧ longestRun '"' s ≤ 2 then .longBasic
  else if longestRun '\'' s ≤ 2 then .longLiteral
  else if '\n' ∈ s then .longBasic
  else .basic

/-! ## Escapes -/

/-- The digits of the number of a character in an escape: large ones, and at least four. -/
def escapeDigits (c : Char) : List Char :=
  (toHexDigits 4 c.toNat).map fun d => (hexDigit d).toUpper

/-- A character between double quotes, other than a quote and a newline. -/
def escapeChar (c : Char) : List Char :=
  match c with
  | '\\' => ['\\', '\\']
  | '\x08' => ['\\', 'b']
  | '\t' => ['\\', 't']
  | '\x0c' => ['\\', 'f']
  | '\r' => ['\\', 'r']
  | c => if isControl c then ['\\', 'u'] ++ escapeDigits c else [c]

/-- A character between double quotes. -/
def escapeShort (c : Char) : List Char :=
  match c with
  | '"' => ['\\', '"']
  | '\n' => ['\\', 'n']
  | c => escapeChar c

/-- The characters between three double quotes, after a run of so many double quotes. Every
third quote of a run is escaped. -/
def escapeLong : Nat → List Char → List Char
  | _, [] => []
  | run, '"' :: rest =>
    if run = 2 then '\\' :: '"' :: escapeLong 0 rest else '"' :: escapeLong (run + 1) rest
  | _, c :: rest => escapeChar c ++ escapeLong 0 rest

/-! ## Strings and arrays -/

/-- The opening of a string on several lines takes a line end of its own. -/
def longOpening (quotes s : List Char) : List Char :=
  if '\n' ∈ s then quotes ++ ['\n'] else quotes

/-- Three double quotes. -/
def threeDouble : List Char := ['"', '"', '"']

/-- Three single quotes. -/
def threeSingle : List Char := ['\'', '\'', '\'']

/-- A string as it is written in a given form. -/
def renderStringAs (form : StringForm) (s : List Char) : List Char :=
  match form with
  | .basic => '"' :: s.flatMap escapeShort ++ ['"']
  | .literal => '\'' :: s ++ ['\'']
  | .longBasic => longOpening threeDouble s ++ escapeLong 0 s ++ threeDouble
  | .longLiteral => longOpening threeSingle s ++ s ++ threeSingle

/-- A string as it is written. -/
def renderString (s : String) : List Char :=
  renderStringAs (.choose s.toList) s.toList

/-- An item of an array that goes over several lines. -/
def renderElement (s : String) : List Char :=
  List.replicate 4 ' ' ++ renderString s ++ [',', '\n']

/-- An array of strings as it is written. -/
def renderStrings : List String → List Char
  | [] => ['[', ']']
  | [s] => '[' :: renderString s ++ [']']
  | ss => '[' :: '\n' :: ss.flatMap renderElement ++ [']']

/-- A truth value as it is written. -/
def renderBool (b : Bool) : List Char := if b then "true".toList else "false".toList

/-! ## Settings -/

/-- The value of a setting. -/
inductive Setting where
  | string (s : String)
  | strings (ss : List String)
  | bool (b : Bool)
  | natural (n : Nat)
deriving DecidableEq, Repr, Inhabited

/-- The value of a setting as it is written. -/
def Setting.render : Setting → List Char
  | .string s => renderString s
  | .strings ss => renderStrings ss
  | .bool b => renderBool b
  | .natural n => Nat.toDigits 10 n

/-- A setting on a line of its own. -/
def renderEntry (entry : String × Setting) : List Char :=
  entry.1.toList ++ [' ', '=', ' '] ++ entry.2.render ++ ['\n']

/-- Settings one after another. -/
def renderEntries (entries : List (String × Setting)) : List Char := entries.flatMap renderEntry

/-- A header with an empty line before it. -/
def renderHeader (name : String) : List Char := '\n' :: '[' :: name.toList ++ [']', '\n']

end ScriptSessions.Toml
