import ScriptSessions.Json.Token

set_option autoImplicit false

/-! # Reading JSON

A value is read from the tokens of a text, and the text must hold nothing but that value.
The readers of values, of the items of an array and of the members of an object call each
other; a bound on their depth is the number of tokens.
-/

namespace ScriptSessions.Json

mutual

/-- Reads a value. -/
def value? : Nat → List Token → Option (Json × List Token)
  | 0, _ => none
  | fuel + 1, tokens =>
    match tokens with
    | .null :: rest => some (.null, rest)
    | .bool b :: rest => some (.bool b, rest)
    | .natural n :: rest => some (.natural n, rest)
    | .otherNumber :: rest => some (.otherNumber, rest)
    | .string (some s) :: rest => some (.string s, rest)
    | .string none :: rest => some (.brokenString, rest)
    | .openBracket :: .closeBracket :: rest => some (.array [], rest)
    | .openBracket :: rest => (items? fuel rest).map fun p => (.array p.1, p.2)
    | .openBrace :: .closeBrace :: rest => some (.object [], rest)
    | .openBrace :: rest => (members? fuel rest).map fun p => (.object p.1, p.2)
    | _ => none

/-- Reads one or more items up to the closing bracket. -/
def items? : Nat → List Token → Option (List Json × List Token)
  | 0, _ => none
  | fuel + 1, tokens =>
    match value? fuel tokens with
    | some (item, .closeBracket :: rest) => some ([item], rest)
    | some (item, .comma :: rest) => (items? fuel rest).map fun p => (item :: p.1, p.2)
    | _ => none

/-- Reads one or more members up to the closing brace. -/
def members? : Nat → List Token → Option (List (Option String × Json) × List Token)
  | 0, _ => none
  | fuel + 1, tokens =>
    match tokens with
    | .string name :: .colon :: rest =>
      match value? fuel rest with
      | some (j, .closeBrace :: rest) => some ([(name, j)], rest)
      | some (j, .comma :: rest) => (members? fuel rest).map fun p => ((name, j) :: p.1, p.2)
      | _ => none
    | _ => none

end

/-- The value that a text holds, and nothing else. -/
def ofText? (s : String) : Option Json := do
  let tokens ← Token.scan s.toList
  match value? (tokens.length + 1) tokens with
  | some (j, []) => some j
  | _ => none

end ScriptSessions.Json
