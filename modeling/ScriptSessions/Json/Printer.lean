import ScriptSessions.Json.Basic
import ScriptSessions.Text.Hex

set_option autoImplicit false

/-! # Writing JSON

Values are written for people: every item and every member stands on a line of its own, two
spaces further in than what contains it, and empty arrays and objects stay on one line. In a
string a quote, a backslash and the controls are escaped, and everything else stands for
itself.
-/

namespace ScriptSessions.Json

open Text

/-- A character as it is written in a string. -/
def escapeChar (c : Char) : List Char :=
  match c with
  | '"' => ['\\', '"']
  | '\\' => ['\\', '\\']
  | '\x08' => ['\\', 'b']
  | '\x0c' => ['\\', 'f']
  | '\n' => ['\\', 'n']
  | '\r' => ['\\', 'r']
  | '\t' => ['\\', 't']
  | c =>
    if c.toNat < 0x20 then ['\\', 'u'] ++ (toHexDigits 4 c.toNat).map hexDigit else [c]

/-- A string as it is written. -/
def renderString (s : String) : List Char := '"' :: s.toList.flatMap escapeChar ++ ['"']

/-- A new line at the given depth. -/
def newLine (depth : Nat) : List Char := '\n' :: List.replicate (2 * depth) ' '

mutual

/-- A value as it is written at the given depth. What cannot be kept of a value is written as
`null`. -/
def renderAt (depth : Nat) : Json → List Char
  | .null => "null".toList
  | .bool true => "true".toList
  | .bool false => "false".toList
  | .natural n => Nat.toDigits 10 n
  | .otherNumber => "null".toList
  | .string s => renderString s
  | .brokenString => "null".toList
  | .array [] => "[]".toList
  | .array (item :: items) =>
    '[' :: newLine (depth + 1) ++ renderAt (depth + 1) item ++ renderItems (depth + 1) items ++
      newLine depth ++ [']']
  | .object [] => ['{', '}']
  | .object (member :: members) =>
    '{' :: newLine (depth + 1) ++ renderMember (depth + 1) member ++
      renderMembers (depth + 1) members ++ newLine depth ++ ['}']

/-- Further items of an array. -/
def renderItems (depth : Nat) : List Json → List Char
  | [] => []
  | item :: items =>
    ',' :: newLine depth ++ renderAt depth item ++ renderItems depth items

/-- A member of an object. -/
def renderMember (depth : Nat) : Option String × Json → List Char
  | (name, j) => renderString (name.getD "") ++ [':', ' '] ++ renderAt depth j

/-- Further members of an object. -/
def renderMembers (depth : Nat) : List (Option String × Json) → List Char
  | [] => []
  | member :: members =>
    ',' :: newLine depth ++ renderMember depth member ++ renderMembers depth members

end

/-- A value as it is written. -/
def render (j : Json) : String := String.ofList (renderAt 0 j)

end ScriptSessions.Json
