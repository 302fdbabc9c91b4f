set_option autoImplicit false

/-! # TOML items and tables

A TOML document is a table: items under names, no name twice. Numbers with a fraction and
points in time are known to be such and no more, because no setting of this library holds
one.

A table remembers how it came to be (`TableKind`), because that decides how it may grow: a
table under its own header and a table written in braces are complete, while a table that was
only passed through on the way to another one may still get a header, and a table made by a
dotted name may get more dotted names.
-/

namespace ScriptSessions.Toml

/-- How a table came to be. -/
inductive TableKind where
  /-- The table has a header. -/
  | header
  /-- The table lies on the way to a header. -/
  | implied
  /-- The table was made by a dotted name. -/
  | dotted
  /-- The table is written in braces. -/
  | inline
deriving DecidableEq, Repr, Inhabited

/-- What can stand under a name. -/
inductive Item where
  | string (s : String)
  | integer (n : Int)
  | bool (b : Bool)
  /-- A number with a fraction or an exponent, or one that is infinite or none. -/
  | float
  /-- A date, a time of day, or both. -/
  | moment
  | array (items : List Item)
  | table (kind : TableKind) (entries : List (String × Item))
  /-- An array of tables with headers of their own. -/
  | tables (elements : List (List (String × Item)))

instance : Inhabited Item := ⟨.bool false⟩

/-- The entries of a table. -/
abbrev Entries := List (String × Item)

namespace Entries

/-- The entries with another item in the place of the first one with a given name. -/
def replace (name : String) (item : Item) : Entries → Entries
  | [] => []
  | (n, i) :: rest => if n = name then (n, item) :: rest else (n, i) :: replace name item rest

/-- Changes the table that is reached from here through a path of names. Tables that are
missing on the way are made. A path of dotted names does not enter a table that has a header,
and no path enters a table in braces. -/
def modify? (dotted : Bool) (change : TableKind → Entries → Option Entries) :
    List String → TableKind → Entries → Option Entries
  | [], kind, entries => change kind entries
  | name :: path, _, entries =>
    match entries.lookup name with
    | none =>
      let kind := if dotted then .dotted else .implied
      (modify? dotted change path kind []).map fun sub => entries ++ [(name, .table kind sub)]
    | some (.table kind sub) =>
      if kind = .inline ∨ (dotted ∧ kind = .header) then none
      else
        (modify? dotted change path kind sub).map fun sub =>
          replace name (.table kind sub) entries
    | some (.tables elements) =>
      match elements.getLast? with
      | none => none
      | some last =>
        (modify? dotted change path .header last).map fun last =>
          replace name (.tables (elements.dropLast ++ [last])) entries
    | some _ => none

/-- Adds an item under a dotted name. The last table on the way must be this one or be made
of dotted names, and must not have the name. -/
def assign? (path : List String) (name : String) (item : Item) (entries : Entries) :
    Option Entries :=
  let add (kind : TableKind) (table : Entries) : Option Entries :=
    if (path ≠ [] ∧ kind ≠ .dotted) ∨ (table.lookup name).isSome then none
    else some (table ++ [(name, item)])
  modify? true add path .header entries

/-- Opens the table of a header. Only a table that is implied so far may stand there. -/
def openTable? (path : List String) (name : String) (entries : Entries) : Option Entries :=
  let add (_ : TableKind) (table : Entries) : Option Entries :=
    match table.lookup name with
    | none => some (table ++ [(name, .table .header [])])
    | some (.table .implied sub) => some (replace name (.table .header sub) table)
    | some _ => none
  modify? false add path .header entries

/-- Opens a further element of an array of tables. -/
def openElement? (path : List String) (name : String) (entries : Entries) : Option Entries :=
  let add (_ : TableKind) (table : Entries) : Option Entries :=
    match table.lookup name with
    | none => some (table ++ [(name, .tables [[]])])
    | some (.tables elements) => some (replace name (.tables (elements ++ [[]])) table)
    | some _ => none
  modify? false add path .header entries

end Entries

/-! ## Statements -/

/-- A dotted name: the names before the last one, and the last one. -/
structure DottedName where
  path : List String
  last : String
deriving DecidableEq, Repr, Inhabited

/-- The names of a dotted name. -/
def DottedName.names (d : DottedName) : List String := d.path ++ [d.last]

/-- A statement of a document. -/
inductive Statement where
  /-- A name and its item. -/
  | assign (name : DottedName) (item : Item)
  /-- The header of a table. -/
  | openTable (name : DottedName)
  /-- The header of an element of an array of tables. -/
  | openElement (name : DottedName)

/-- A document in the making: the table of the last header, and everything so far. -/
structure Draft where
  current : List String := []
  root : Entries := []

/-- Carries out a statement. Names are given to the table of the last header. -/
def Draft.execute? (d : Draft) : Statement → Option Draft
  | .assign name item =>
    (Entries.modify? false (fun _ table => Entries.assign? name.path name.last item table) d.current
      .header d.root).map fun root => { d with root }
  | .openTable name =>
    (Entries.openTable? name.path name.last d.root).map fun root => ⟨name.names, root⟩
  | .openElement name =>
    (Entries.openElement? name.path name.last d.root).map fun root => ⟨name.names, root⟩

/-- The table that the statements of a document describe. -/
def ofStatements? (statements : List Statement) : Option Entries :=
  (statements.foldlM Draft.execute? {}).map Draft.root

end ScriptSessions.Toml
