import ScriptSessions.Text.Hex

set_option autoImplicit false

/-! # Session identifiers

A session is identified by a UUID: thirty-two hexadecimal digits, written in five groups of
8, 4, 4, 4 and 12 that are joined by hyphens. Four spellings are read: the thirty-two digits
alone, the hyphenated form, the hyphenated form in braces, and the hyphenated form after
`urn:uuid:`. Digits of either case are read and small ones are written.
-/

namespace ScriptSessions

/-- A UUID, as its thirty-two hexadecimal digits. -/
structure Uuid where
  digits : List (Fin 16)
  length_digits : digits.length = 32
deriving DecidableEq

namespace Uuid

/-- The UUID whose digits are all zero. -/
def nil : Uuid := ⟨Text.toHexDigits 32 0, Text.length_toHexDigits 32 0⟩

instance : Inhabited Uuid := ⟨nil⟩

/-- The UUID of a list of digits, if there are thirty-two of them. -/
def ofDigits? (ds : List (Fin 16)) : Option Uuid :=
  if h : ds.length = 32 then some ⟨ds, h⟩ else none

/-! ## Writing -/

/-- The hyphenated form. -/
def toText (u : Uuid) : String :=
  let cs := u.digits.map Text.hexDigit
  String.ofList (cs.take 8 ++ '-' :: ((cs.drop 8).take 4) ++ '-' :: ((cs.drop 12).take 4) ++
    '-' :: ((cs.drop 16).take 4) ++ '-' :: cs.drop 20)

instance : ToString Uuid := ⟨toText⟩

/-! ## Reading -/

/-- Reads thirty-two digits without hyphens. -/
def ofPlain? (cs : List Char) : Option Uuid := (Text.hexValues? cs).bind ofDigits?

/-- Reads the hyphenated form: thirty-six characters with hyphens after the digits 8, 12,
16 and 20. -/
def ofHyphenated? (cs : List Char) : Option Uuid :=
  if cs.length = 36 ∧ cs[8]? = some '-' ∧ cs[13]? = some '-' ∧ cs[18]? = some '-' ∧
      cs[23]? = some '-' then
    ofPlain? (cs.take 8 ++ (cs.drop 9).take 4 ++ (cs.drop 14).take 4 ++ (cs.drop 19).take 4 ++
      cs.drop 24)
  else none

/-- Reads any of the four spellings. -/
def ofText? (s : String) : Option Uuid :=
  match s.toList with
  | '{' :: rest => if rest.getLast? = some '}' then ofHyphenated? rest.dropLast else none
  | 'u' :: 'r' :: 'n' :: ':' :: 'u' :: 'u' :: 'i' :: 'd' :: ':' :: rest => ofHyphenated? rest
  | cs => if cs.length = 32 then ofPlain? cs else ofHyphenated? cs

end Uuid

end ScriptSessions
