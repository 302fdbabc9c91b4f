import ScriptSessions.Toml.Scalar
import ScriptSessions.Toml.Strings

set_option autoImplicit false

/-! # Reading TOML

A document is read into statements, line by line, and the statements are carried out one
after another. Items nest by arrays and by tables in braces, to a limited depth; within them
line ends and comments may stand between the parts. The readers that call each other are
given a bound on their depth, which is the length of the text.
-/

namespace ScriptSessions.Toml

/-! ## Between the parts -/

/-- Drops spaces. -/
def skipSpaces (s : List Char) : List Char := s.dropWhile isLineSpace

/-- Drops spaces, line ends and comments. A character that may not stand in a comment is an
error. -/
def skipGap? : Bool → List Char → Option (List Char)
  | _, [] => some []
  | true, c :: rest =>
    if c = '\n' then skipGap? false rest
    else if isPlain c || endsLine c rest then skipGap? true rest
    else none
  | false, c :: rest =>
    if c = '#' then skipGap? true rest
    else if isLineSpace c || endsLine c rest then skipGap? false rest
    else some (c :: rest)

/-- What stands after a text without its comment. -/
def skipComment : List Char → List Char
  | '#' :: rest => rest.dropWhile isPlain
  | s => s

/-- Drops the rest of a line, on which nothing but spaces and a comment may stand. -/
def endOfLine? (s : List Char) : Option (List Char) :=
  match skipComment (skipSpaces s) with
  | [] => some []
  | '\n' :: rest => some rest
  | '\r' :: '\n' :: rest => some rest
  | _ => none

/-! ## Names -/

/-- How deep arrays and tables in braces may nest, and how many names a dotted name may
have. -/
def nestingLimit : Nat := 80

/-- The characters of a name without quotes. -/
def isBareNameChar (c : Char) : Bool := c.isAlphanum || c == '_' || c == '-'

/-- Reads a name: in quotes of one line, or bare. -/
def name? (s : List Char) : Option (String × List Char) :=
  match s with
  | '"' :: rest =>
    if rest.take 2 = ['"', '"'] then none
    else (basicBody? .nothing rest).map fun p => (String.ofList p.1, p.2)
  | '\'' :: rest =>
    if rest.take 2 = ['\'', '\''] then none
    else (literalBody? rest).map fun p => (String.ofList p.1, p.2)
  | s =>
    let name := s.takeWhile isBareNameChar
    if name = [] then none else some (String.ofList name, s.dropWhile isBareNameChar)

/-- Reads a dotted name of at most so many names. -/
def dottedName? : Nat → List Char → Option (DottedName × List Char)
  | 0, _ => none
  | names + 1, s =>
    match name? s with
    | none => none
    | some (name, after) =>
      match skipSpaces after with
      | '.' :: rest =>
        (dottedName? names (skipSpaces rest)).map fun p =>
          (⟨name :: p.1.path, p.1.last⟩, p.2)
      | _ => some (⟨[], name⟩, after)

/-- Reads a dotted name and the equals sign after it. -/
def nameAndEquals? (s : List Char) : Option (DottedName × List Char) :=
  match dottedName? nestingLimit s with
  | none => none
  | some (name, after) =>
    match skipSpaces after with
    | '=' :: rest => some (name, skipSpaces rest)
    | _ => none

/-! ## Items -/

mutual

/-- Reads an item, in which arrays and tables may nest `room` deep. -/
def item? (fuel room : Nat) (s : List Char) : Option (Item × List Char) :=
  match fuel with
  | 0 => none
  | fuel + 1 =>
    match s with
    | '[' :: rest =>
      match room with
      | 0 => none
      | room + 1 =>
        match skipGap? false rest with
        | none => none
        | some (']' :: rest) => some (.array [], rest)
        | some rest => (items? fuel room rest).map fun p => (.array p.1, p.2)
    | '{' :: rest =>
      match room with
      | 0 => none
      | room + 1 =>
        match skipGap? false rest with
        | none => none
        | some ('}' :: rest) => some (.table .inline [], rest)
        | some rest => (entries? fuel room [] rest).map fun p => (.table .inline p.1, p.2)
    | '"' :: _ => (string? s).map fun p => (.string (String.ofList p.1), p.2)
    | '\'' :: _ => (string? s).map fun p => (.string (String.ofList p.1), p.2)
    | s =>
      let (run, after) := takeRun s
      (scalar? run).map (·, after)

/-- Reads one or more items of an array, up to its closing bracket. -/
def items? (fuel room : Nat) (s : List Char) : Option (List Item × List Char) :=
  match fuel with
  | 0 => none
  | fuel + 1 =>
    match item? fuel room s with
    | none => none
    | some (item, after) =>
      match skipGap? false after with
      | some (']' :: rest) => some ([item], rest)
      | some (',' :: rest) =>
        match skipGap? false rest with
        | none => none
        | some (']' :: rest) => some ([item], rest)
        | some rest => (items? fuel room rest).map fun p => (item :: p.1, p.2)
      | _ => none

/-- Reads one or more entries of a table, up to its closing brace, and adds them to those
before. -/
def entries? (fuel room : Nat) (before : Entries) (s : List Char) :
    Option (Entries × List Char) :=
  match fuel with
  | 0 => none
  | fuel + 1 =>
    match nameAndEquals? s with
    | none => none
    | some (name, s) =>
      match item? fuel room s with
      | none => none
      | some (item, after) =>
        match Entries.assign? name.path name.last item before with
        | none => none
        | some table =>
          match skipGap? false after with
          | some ('}' :: rest) => some (table, rest)
          | some (',' :: rest) =>
            match skipGap? false rest with
            | none => none
            | some ('}' :: rest) => some (table, rest)
            | some rest => entries? fuel room table rest
          | _ => none

end

/-! ## Documents -/

/-- Reads the statement that begins here. -/
def statement? (fuel : Nat) (s : List Char) : Option (Statement × List Char) :=
  match s with
  | '[' :: '[' :: rest =>
    match dottedName? nestingLimit (skipSpaces rest) with
    | none => none
    | some (name, after) =>
      match skipSpaces after with
      | ']' :: ']' :: rest => some (.openElement name, rest)
      | _ => none
  | '[' :: rest =>
    match dottedName? nestingLimit (skipSpaces rest) with
    | none => none
    | some (name, after) =>
      match skipSpaces after with
      | ']' :: rest => some (.openTable name, rest)
      | _ => none
  | s =>
    match nameAndEquals? s with
    | none => none
    | some (name, s) => (item? fuel nestingLimit s).map fun p => (.assign name p.1, p.2)

/-- Whether a line holds no statement. -/
def isIdle (s : List Char) : Bool :=
  match s with
  | [] => true
  | c :: rest => c == '#' || endsLine c rest

/-- Reads the statements of a text, at most one on a line. -/
def statements? : Nat → List Char → Option (List Statement)
  | _, [] => some []
  | 0, _ :: _ => none
  | fuel + 1, s =>
    let s := skipSpaces s
    if isIdle s then (endOfLine? s).bind (statements? fuel)
    else
      match statement? (fuel + 1) s with
      | none => none
      | some (statement, after) =>
        match endOfLine? after with
        | none => none
        | some rest => (statements? fuel rest).map (statement :: ·)

/-- A text without the mark of its byte order. -/
def dropByteOrderMark : List Char → List Char
  | '\ufeff' :: rest => rest
  | s => s

/-- The table that a document describes. -/
def ofText? (s : String) : Option Entries :=
  let text := dropByteOrderMark s.toList
  (statements? text.length text).bind ofStatements?

end ScriptSessions.Toml
