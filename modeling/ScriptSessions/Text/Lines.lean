set_option autoImplicit false

/-! # Lines

A line ends at a newline, and a carriage return directly before that newline belongs to the
line end and not to the line. A newline at the very end of a text opens no further line.
-/

namespace ScriptSessions.Text

/-- The lines of a text, without their ends. -/
def lines : List Char → List (List Char)
  | [] => []
  | '\n' :: rest => [] :: lines rest
  | '\r' :: '\n' :: rest => [] :: lines rest
  | c :: rest =>
    match lines rest with
    | [] => [[c]]
    | line :: others => (c :: line) :: others

end ScriptSessions.Text
