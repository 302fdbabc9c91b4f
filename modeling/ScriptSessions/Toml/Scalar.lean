import ScriptSessions.Text.Hex
import ScriptSessions.Toml.Basic

set_option autoImplicit false

/-! # TOML numbers, truth values and points in time

These items are written without quotes, as a run of letters, digits and a few signs.
`scalar?` says what a run stands for. Underscores may stand between two digits. An integer
must fit into 128 bits, as a signed or as an unsigned number, and a number with a fraction
must not be so large that it is nearer to `2 ^ 1024` than to any number of 53 bits below it.
-/

namespace ScriptSessions.Toml

open Text

/-! ## Digits -/

/-- The digits of a run in which single underscores may stand between digits. -/
def digits? (isDigit : Char → Bool) : List Char → Option (List Char)
  | [] => none
  | [c] => if isDigit c then some [c] else none
  | c :: '_' :: rest => if isDigit c then (digits? isDigit rest).map (c :: ·) else none
  | c :: rest => if isDigit c then (digits? isDigit rest).map (c :: ·) else none

/-- The value of a hexadecimal digit, zero for any other character. -/
def digitValue (c : Char) : Nat := ((hexValue? c).map Fin.val).getD 0

/-- The number that digits denote in a base up to sixteen. -/
def ofDigits (base : Nat) (digits : List Char) : Nat :=
  digits.foldl (fun n c => base * n + digitValue c) 0

/-- The number that decimal digits denote. -/
def ofDecimal (digits : List Char) : Nat := Nat.ofDigitChars 10 digits 0

/-- Whether a character is a digit in a base up to sixteen. -/
def isDigitBelow (base : Nat) (c : Char) : Bool :=
  match hexValue? c with
  | none => false
  | some d => d.val < base

/-- The decimal digits of a run, of which the first is zero only if it is the only one. -/
def decimal? (s : List Char) : Option (List Char) :=
  match digits? Char.isDigit s with
  | some ('0' :: _ :: _) => none
  | result => result

/-- A run without its sign, and whether the sign is negative. -/
def splitSign : List Char → Bool × List Char
  | '+' :: rest => (false, rest)
  | '-' :: rest => (true, rest)
  | s => (false, s)

/-! ## Numbers -/

/-- An integer in the base that its letter tells. -/
def basedInteger? (base : Nat) (s : List Char) : Option Int :=
  (digits? (isDigitBelow base) s).map fun ds => (ofDigits base ds : Int)

/-- An integer in decimal digits with or without a sign. -/
def decimalInteger? (s : List Char) : Option Int :=
  let (negative, body) := splitSign s
  (decimal? body).map fun ds =>
    if negative then -(ofDecimal ds : Int) else (ofDecimal ds : Int)

/-- How far a signed number of 128 bits goes below zero. -/
def signedLimit : Nat := 1 <<< 127

/-- The least number that is too large for an unsigned number of 128 bits. -/
def unsignedLimit : Nat := 1 <<< 128

/-- An integer that fits into 128 bits. -/
def integer? (s : List Char) : Option Int :=
  let read := match s with
    | '0' :: 'x' :: rest => basedInteger? 16 rest
    | '0' :: 'o' :: rest => basedInteger? 8 rest
    | '0' :: 'b' :: rest => basedInteger? 2 rest
    | s => decimalInteger? s
  read.filter fun n => -(signedLimit : Int) ≤ n && n < (unsignedLimit : Int)

/-- The least number that is nearer to `2 ^ 1024` than to any number of 53 bits below it, or
as near to both. -/
def floatLimit : Nat := (1 <<< 1024) - (1 <<< 970)

/-- Whether the number with the given digits, times a power of ten, is too large. -/
def exceedsFloat (digits : List Char) (exponent : Int) : Bool :=
  let digits := digits.dropWhile (· == '0')
  let magnitude : Int := digits.length + exponent
  if digits = [] ∨ magnitude < 309 then false
  else if magnitude > 309 then true
  else if exponent ≥ 0 then floatLimit ≤ ofDecimal digits * Nat.pow 10 exponent.toNat
  else floatLimit * Nat.pow 10 (-exponent).toNat ≤ ofDecimal digits

/-- Whether a character may stand in a run of decimal digits. -/
def isDigitOrUnderscore (c : Char) : Bool := c.isDigit || c == '_'

/-- The exponent after its letter. -/
def exponent? (s : List Char) : Option Int :=
  let (negative, body) := splitSign s
  (digits? Char.isDigit body).map fun ds =>
    if negative then -(ofDecimal ds : Int) else (ofDecimal ds : Int)

/-- The exponent of a number, zero at the end of the run. -/
def exponentPart? : List Char → Option Int
  | [] => some 0
  | 'e' :: rest => exponent? rest
  | 'E' :: rest => exponent? rest
  | _ => none

/-- The digits after the point, and the exponent. At least one of them is there. -/
def fractionPart? : List Char → Option (List Char × Int)
  | [] => none
  | '.' :: rest => do
    let fraction ← digits? Char.isDigit (rest.takeWhile isDigitOrUnderscore)
    let exponent ← exponentPart? (rest.dropWhile isDigitOrUnderscore)
    some (fraction, exponent)
  | s => (exponentPart? s).map ([], ·)

/-- Whether a run is a number with a fraction or an exponent, or one that is infinite or
none. -/
def isFloat (s : List Char) : Bool :=
  let (_, body) := splitSign s
  if body = "inf".toList ∨ body = "nan".toList then true
  else
    match decimal? (body.takeWhile isDigitOrUnderscore),
        fractionPart? (body.dropWhile isDigitOrUnderscore) with
    | some whole, some (fraction, exponent) =>
      !exceedsFloat (whole ++ fraction) (exponent - fraction.length)
    | _, _ => false

/-! ## Points in time -/

/-- A number of two digits. -/
def twoDigits? (a b : Char) : Option Nat :=
  if a.isDigit && b.isDigit then some (ofDecimal [a, b]) else none

/-- The number of days in a month. -/
def daysIn (year month : Nat) : Nat :=
  if month = 2 then
    if year % 4 = 0 ∧ (year % 100 ≠ 0 ∨ year % 400 = 0) then 29 else 28
  else if month = 4 ∨ month = 6 ∨ month = 9 ∨ month = 11 then 30
  else 31

/-- Reads a date such as `1979-05-27`, and gives back what stands after it. -/
def date? : List Char → Option (List Char)
  | y₁ :: y₂ :: y₃ :: y₄ :: '-' :: m₁ :: m₂ :: '-' :: d₁ :: d₂ :: rest => do
    let century ← twoDigits? y₁ y₂
    let year ← twoDigits? y₃ y₄
    let month ← twoDigits? m₁ m₂
    let day ← twoDigits? d₁ d₂
    if 1 ≤ month ∧ month ≤ 12 ∧ 1 ≤ day ∧ day ≤ daysIn (100 * century + year) month then
      some rest
    else none
  | _ => none

/-- Reads the seconds of a time of day, if they are given. -/
def seconds? : List Char → Option (List Char)
  | ':' :: a :: b :: rest => do
    let seconds ← twoDigits? a b
    if seconds > 60 then none
    else
      match rest with
      | '.' :: fraction =>
        if (fraction.takeWhile Char.isDigit).isEmpty then none
        else some (fraction.dropWhile Char.isDigit)
      | rest => some rest
  | ':' :: _ => none
  | s => some s

/-- Reads the hours and minutes of a time of day or of an offset. -/
def clock? : List Char → Option (List Char)
  | h₁ :: h₂ :: ':' :: m₁ :: m₂ :: rest => do
    let hour ← twoDigits? h₁ h₂
    let minute ← twoDigits? m₁ m₂
    if hour ≤ 23 ∧ minute ≤ 59 then some rest else none
  | _ => none

/-- Reads a time of day such as `07:32:00.5`. -/
def time? (s : List Char) : Option (List Char) := (clock? s).bind seconds?

/-- Whether a run is an offset from universal time, or empty. -/
def isOffset : List Char → Bool
  | [] => true
  | ['Z'] => true
  | ['z'] => true
  | '+' :: rest => clock? rest == some []
  | '-' :: rest => clock? rest == some []
  | _ => false

/-- Whether a character may stand between a date and a time of day. -/
def joinsTime (c : Char) : Bool := c == 'T' || c == 't' || c == ' '

/-- Whether a run is a date, a time of day, or a date with a time of day after it and
possibly an offset. -/
def isMoment (s : List Char) : Bool :=
  match date? s with
  | none => time? s == some []
  | some [] => true
  | some (c :: rest) =>
    joinsTime c &&
      match time? rest with
      | none => false
      | some after => isOffset after

/-! ## Runs -/

/-- Whether a character may stand in a run. -/
def isRunChar (c : Char) : Bool :=
  c.isAlphanum || c == '_' || c == '+' || c == '-' || c == '.' || c == ':'

/-- The run at the beginning of a text, and what stands after it. A single space belongs to
the run if it stands between a date and a digit. -/
def takeRun (s : List Char) : List Char × List Char :=
  let run := s.takeWhile isRunChar
  match s.dropWhile isRunChar with
  | ' ' :: c :: rest =>
    if date? run == some [] && c.isDigit then
      (run ++ ' ' :: (c :: rest).takeWhile isRunChar, (c :: rest).dropWhile isRunChar)
    else (run, ' ' :: c :: rest)
  | after => (run, after)

/-- What a run stands for. -/
def scalar? (run : List Char) : Option Item :=
  if run = "true".toList then some (.bool true)
  else if run = "false".toList then some (.bool false)
  else
    match integer? run with
    | some n => some (.integer n)
    | none => if isFloat run then some .float else if isMoment run then some .moment else none

end ScriptSessions.Toml
