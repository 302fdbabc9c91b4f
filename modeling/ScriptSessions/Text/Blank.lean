set_option autoImplicit false

/-! # Blanks and words

The characters that count as white space in a script, in a location and in a documentation
text are those with the Unicode property `White_Space`. A text is *trimmed* by dropping the
blanks at both ends, and its *words* are the maximal runs of characters that are not blank.
Joining the words by single spaces is the normal form of a text in which only the words
matter (`normalizeBlanks`).
-/

namespace ScriptSessions.Text

/-- The characters with the Unicode property `White_Space`. -/
def isBlank (c : Char) : Bool :=
  let n := c.toNat
  (0x09 ≤ n && n ≤ 0x0D) || n == 0x20 || n == 0x85 || n == 0xA0 || n == 0x1680 ||
    (0x2000 ≤ n && n ≤ 0x200A) || n == 0x2028 || n == 0x2029 || n == 0x202F || n == 0x205F ||
    n == 0x3000

/-! ## Trimming -/

/-- A list of characters without the blanks at its end. -/
def trimRight (cs : List Char) : List Char := (cs.reverse.dropWhile isBlank).reverse

/-- A list of characters without the blanks at its two ends. -/
def trimList (cs : List Char) : List Char := trimRight (cs.dropWhile isBlank)

/-- A text without the blanks at its two ends. -/
def trim (s : String) : String := String.ofList (trimList s.toList)

/-! ## Words -/

/-- The maximal runs of characters that are not blank, in order. -/
def words : List Char → List (List Char)
  | [] => []
  | c :: rest =>
    if isBlank c then words rest
    else match rest, words rest with
      | d :: _, w :: ws => if isBlank d then [c] :: w :: ws else (c :: w) :: ws
      | _, ws => [c] :: ws

/-- The words of a text with one space between neighbours. -/
def normalizeBlanks (cs : List Char) : List Char := [' '].intercalate (words cs)

end ScriptSessions.Text
