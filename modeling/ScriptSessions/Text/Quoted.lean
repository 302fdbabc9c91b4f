import ScriptSessions.Text.Hex
import ScriptSessions.Text.Invisible

set_option autoImplicit false

/-! # Quoted texts

Where a text is shown to a person who must be able to tell it apart from any other, it stands
in double quotes. A quote and a backslash have a backslash before them, four controls have
short forms, and every other character that does not show by itself is given by its code
point as in `\u{200b}`.
-/

namespace ScriptSessions.Text

/-- The digits of a number in base sixteen, without leading zeros. -/
def hexDigits (n : Nat) : List Char := Nat.toDigits 16 n

/-- A character as it stands between quotes. -/
def quoteChar (c : Char) : List Char :=
  match c with
  | '"' => ['\\', '"']
  | '\\' => ['\\', '\\']
  | '\x00' => ['\\', '0']
  | '\t' => ['\\', 't']
  | '\n' => ['\\', 'n']
  | '\r' => ['\\', 'r']
  | c => if isInvisible c then ['\\', 'u', '{'] ++ hexDigits c.toNat ++ ['}'] else [c]

/-- A text in quotes. -/
def quoted (s : String) : String :=
  String.ofList ('"' :: s.toList.flatMap quoteChar ++ ['"'])

end ScriptSessions.Text
