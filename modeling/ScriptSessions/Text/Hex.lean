set_option autoImplicit false

/-! # Hexadecimal digits

Sixteen digits, written `0` to `9` and `a` to `f`; both cases of a letter are read.
-/

namespace ScriptSessions.Text

/-- The small hexadecimal digit of a value below sixteen. -/
def hexDigit (d : Fin 16) : Char :=
  if d.val < 10 then Char.ofNat (48 + d.val) else Char.ofNat (87 + d.val)

/-- The value of a hexadecimal digit of either case. -/
def hexValue? (c : Char) : Option (Fin 16) :=
  if '0' ≤ c ∧ c ≤ '9' then some (Fin.ofNat 16 (c.toNat - 48))
  else if 'a' ≤ c ∧ c ≤ 'f' then some (Fin.ofNat 16 (c.toNat - 87))
  else if 'A' ≤ c ∧ c ≤ 'F' then some (Fin.ofNat 16 (c.toNat - 55))
  else none

@[simp] theorem hexValue?_hexDigit (d : Fin 16) : hexValue? (hexDigit d) = some d := by
  revert d; decide

/-- The values of a list of hexadecimal digits, if all of its characters are digits. -/
def hexValues? (cs : List Char) : Option (List (Fin 16)) := cs.mapM hexValue?

/-- The number that a list of digits denotes, most significant digit first. -/
def ofHexDigits (ds : List (Fin 16)) : Nat := ds.foldl (fun n d => 16 * n + d.val) 0

/-- The `width` low hexadecimal digits of a number, most significant first. -/
def toHexDigits (width : Nat) (n : Nat) : List (Fin 16) :=
  (List.range width).reverse.map fun i => Fin.ofNat 16 (n >>> (4 * i))

@[simp] theorem length_toHexDigits (width n : Nat) : (toHexDigits width n).length = width := by
  simp [toHexDigits]

end ScriptSessions.Text
