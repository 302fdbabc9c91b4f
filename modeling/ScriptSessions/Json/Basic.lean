set_option autoImplicit false

/-! # JSON values

The values of JSON as far as a record of this library can hold them. Numbers are kept only
when they are written as natural numbers; the others are known to be numbers and no more. In
the same way a string is kept only if its escapes spell a text: an escape may stand for one
half of a surrogate pair, and such a half alone is no character.

A record is written as an object with a member per field. The readers at the end are what the
records of the library are read with (`fields?`).
-/

namespace ScriptSessions

/-- A JSON value. -/
inductive Json where
  | null
  | bool (b : Bool)
  /-- A number written with digits only. -/
  | natural (n : Nat)
  /-- A number with a sign, a fraction or an exponent. -/
  | otherNumber
  | string (s : String)
  /-- A string with an escape that stands for no character. -/
  | brokenString
  | array (items : List Json)
  /-- The members of an object in order. A name is missing if it is broken. -/
  | object (members : List (Option String × Json))

namespace Json

instance : Inhabited Json := ⟨null⟩

/-- An object whose members have the given names. -/
def ofMembers (members : List (String × Json)) : Json :=
  .object (members.map fun m => (some m.1, m.2))

/-- A value that may be missing. -/
def ofOption {α : Type} (write : α → Json) : Option α → Json
  | none => .null
  | some a => write a

/-! ## Reading simple values -/

/-- The text of a string. -/
def string? : Json → Option String
  | .string s => some s
  | _ => none

/-- A truth value. -/
def bool? : Json → Option Bool
  | .bool b => some b
  | _ => none

/-- A natural number below a bound. -/
def naturalBelow? (bound : Nat) : Json → Option Nat
  | .natural n => if n < bound then some n else none
  | _ => none

/-- A 64-bit word. -/
def word64? (j : Json) : Option UInt64 := (j.naturalBelow? UInt64.size).map UInt64.ofNat

/-- A byte. -/
def byte? (j : Json) : Option UInt8 := (j.naturalBelow? UInt8.size).map UInt8.ofNat

/-- A value that may be `null`. -/
def option? {α : Type} (read : Json → Option α) : Json → Option (Option α)
  | .null => some none
  | j => (read j).map some

/-- The items of an array. -/
def list? {α : Type} (read : Json → Option α) : Json → Option (List α)
  | .array items => items.mapM read
  | _ => none

/-! ## Reading records -/

/-- The members of a record by the names of its fields. Members with other names do not
count, but every name must be readable, and no field may be given twice. -/
def membersFor? (names : List String) (members : List (Option String × Json)) :
    Option (List (Option Json)) := do
  let members ← members.mapM fun m => m.1.map (·, m.2)
  names.mapM fun name =>
    match members.filter (·.1 == name) with
    | [] => some none
    | [m] => some (some m.2)
    | _ => none

/-- The fields of a record with the given field names. A record is an object, or an array
that gives all fields in order. -/
def fields? (names : List String) : Json → Option (List (Option Json))
  | .object members => membersFor? names members
  | .array items => if items.length = names.length then some (items.map some) else none
  | _ => none

/-- The fields of a record whose fields all have defaults. The array form may end early. -/
def defaultedFields? (names : List String) : Json → Option (List (Option Json))
  | .object members => membersFor? names members
  | .array items =>
    if items.length ≤ names.length then
      some (items.map some ++ List.replicate (names.length - items.length) none)
    else none
  | _ => none

/-- A field that must be given. -/
def required? {α : Type} (read : Json → Option α) (field : Option Json) : Option α :=
  field.bind read

/-- A field that takes a default if it is not given. -/
def orDefault? {α : Type} (read : Json → Option α) (default : α) : Option Json → Option α
  | none => some default
  | some j => read j

/-- A field without a value if it is not given or `null`. -/
def optional? {α : Type} (read : Json → Option α) : Option Json → Option (Option α)
  | none => some none
  | some j => option? read j

end Json

end ScriptSessions
