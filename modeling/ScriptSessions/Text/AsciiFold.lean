set_option autoImplicit false

/-! # Comparing names without regard to ASCII case

Assembly names and file extensions are compared ignoring the case of the letters `A` to `Z`
only: every other character stands for itself.
-/

namespace ScriptSessions.Text

/-- A text with its ASCII capital letters made small. -/
def foldAscii (s : String) : String := String.ofList (s.toList.map Char.toLower)

/-- Whether two texts agree up to the case of ASCII letters. -/
def sameFolded (s t : String) : Bool := foldAscii s == foldAscii t

theorem sameFolded_iff {s t : String} : sameFolded s t = true ↔ foldAscii s = foldAscii t := by
  simp [sameFolded]

end ScriptSessions.Text
