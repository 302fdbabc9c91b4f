import ScriptSessions.Text.Blank
import ScriptSessions.Text.Lines
import ScriptSessions.Text.Search

set_option autoImplicit false

/-! # Directives

A script names the libraries and scripts it needs in directives:

    #r "LOCATION"
    #load "PATH"

A directive stands on a line of its own beginning: blanks, the keyword, at least one blank,
and a value in double quotes that holds no double quote. What follows the closing quote on
the line does not matter. A line holds at most one directive.
-/

namespace ScriptSessions

/-- What a directive asks for. -/
inductive DirectiveKind where
  /-- A compiled library. -/
  | reference
  /-- Another script. -/
  | load
deriving DecidableEq, Repr, Inhabited

/-- The keyword of a directive. -/
def DirectiveKind.keyword : DirectiveKind → List Char
  | .reference => ['#', 'r']
  | .load => ['#', 'l', 'o', 'a', 'd']

/-- A directive of a script. -/
structure Directive where
  kind : DirectiveKind
  value : String
  /-- The line of the directive, counted from zero. -/
  line : Nat
deriving DecidableEq, Repr, Inhabited

namespace Directive

/-- The value of a directive that asks for a library. -/
def referenceValue? (d : Directive) : Option String :=
  match d.kind with
  | .reference => some d.value
  | .load => none

open Text

/-- Reads the value of a directive after its keyword: blanks and a quoted text. -/
def value? : List Char → Option (List Char)
  | [] => none
  | c :: rest =>
    if isBlank c then
      match rest.dropWhile isBlank with
      | '"' :: quoted =>
        if '"' ∈ quoted then some (quoted.takeWhile (· != '"')) else none
      | _ => none
    else none

/-- The kind and the value of the directive on a line. -/
def ofLine? (line : List Char) : Option (DirectiveKind × List Char) :=
  let cs := line.dropWhile isBlank
  match dropPrefix? (DirectiveKind.keyword .reference) cs with
  | some rest => (value? rest).map (.reference, ·)
  | none =>
    match dropPrefix? (DirectiveKind.keyword .load) cs with
    | some rest => (value? rest).map (.load, ·)
    | none => none

/-- The directives on the lines of a text whose first line has the given number. -/
def ofLines (first : Nat) : List (List Char) → List Directive
  | [] => []
  | line :: rest =>
    match ofLine? line with
    | none => ofLines (first + 1) rest
    | some (kind, value) => ⟨kind, String.ofList value, first⟩ :: ofLines (first + 1) rest

/-- The directives of a text, in order. -/
def scan (text : String) : List Directive := ofLines 0 (lines text.toList)

end Directive

end ScriptSessions
