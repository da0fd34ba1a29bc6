import DeviceTeams.Toml.Value

/-!
# Documents

A document is a list of statements: headers that open a table, headers that add a table to an array
of tables, and assignments to the table opened last. A table is defined by one header at most. It
may exist before as a step on the way to another table; and a table that dotted keys made belongs to
the table in which they stand.
-/
namespace DeviceTeams.Toml

open Reader

inductive Statement where
  | table (path : List String)
  | element (path : List String)
  | assign (path : List String) (value : Value)

/-- How a table came to be. -/
inductive Origin where
  /-- As a step on the way to another header's table. -/
  | implied
  /-- By a dotted key. -/
  | dotted
  /-- By its own header. -/
  | defined
deriving DecidableEq

/-- What a key of a document stands for. -/
inductive Node where
  | value (value : Value)
  | table (origin : Origin) (entries : List (String × Node))
  /-- The tables of an array, the last one first. -/
  | tables (items : List (List (String × Node)))

/-- The entries of a table. -/
abbrev Entries : Type := List (String × Node)

namespace Entries

def put (entries : Entries) (name : String) (node : Node) : Entries :=
  if entries.any (·.1 == name) then
    entries.map fun entry => if entry.1 == name then (name, node) else entry
  else entries ++ [(name, node)]

/-- Changes the table at the end of a header's path. An array of tables stands for its last
table. -/
def updateAt (change : Entries → Option Entries) : List String → Entries → Option Entries
  | [], entries => change entries
  | name :: path, entries =>
    match entries.lookup name with
    | none => (updateAt change path []).map fun inner => entries.put name (.table .implied inner)
    | some (.table origin inner) =>
      (updateAt change path inner).map fun inner => entries.put name (.table origin inner)
    | some (.tables (last :: earlier)) =>
      (updateAt change path last).map fun last => entries.put name (.tables (last :: earlier))
    | some _ => none

/-- Opens the table of a header in its parent. -/
def define (name : String) (entries : Entries) : Option Entries :=
  match entries.lookup name with
  | none => some (entries.put name (.table .defined []))
  | some (.table .implied inner) => some (entries.put name (.table .defined inner))
  | some _ => none

/-- Adds a table to an array of tables in its parent. -/
def extend (name : String) (entries : Entries) : Option Entries :=
  match entries.lookup name with
  | none => some (entries.put name (.tables [[]]))
  | some (.tables items) => some (entries.put name (.tables ([] :: items)))
  | some _ => none

/-- Puts a value at a dotted key. `isOpen` tells whether the table at hand takes entries. -/
def assign (value : Value) (isOpen : Bool) : List String → Entries → Option Entries
  | [], _ => none
  | [name], entries =>
    if !isOpen || entries.any (·.1 == name) then none else some (entries.put name (.value value))
  | name :: path, entries =>
    match entries.lookup name with
    | none => (assign value true path []).map fun inner => entries.put name (.table .dotted inner)
    | some (.table .defined _) => none
    | some (.table origin inner) =>
      (assign value (origin == .dotted) path inner).map fun inner =>
        entries.put name (.table origin inner)
    | some (.tables (last :: earlier)) =>
      (assign value false path last).map fun last => entries.put name (.tables (last :: earlier))
    | some _ => none

end Entries

/-- The table that headers have opened and all entries so far. -/
structure Draft where
  current : List String
  root : Entries

/-- Carries out one statement. -/
def Draft.add (draft : Draft) : Statement → Option Draft
  | .table path => do
    let name ← path.getLast?
    let root ← Entries.updateAt (Entries.define name) path.dropLast draft.root
    pure ⟨path, root⟩
  | .element path => do
    let name ← path.getLast?
    let root ← Entries.updateAt (Entries.extend name) path.dropLast draft.root
    pure ⟨path, root⟩
  | .assign path value => do
    let root ← Entries.updateAt (Entries.assign value true path) draft.current draft.root
    pure { draft with root }

def elementHeader : Reader Statement := do
  word ['[', '[']
  let path ← key
  word [']', ']']
  lineEnd
  pure (.element path)

def tableHeader : Reader Statement := do
  char '['
  let path ← key
  char ']'
  lineEnd
  pure (.table path)

def assignment : Reader Statement := do
  let (path, value) ← assignmentOf value
  lineEnd
  pure (.assign path value)

def line : Reader (Option Statement) := do
  blanks
  match ← peek with
  | some '#' => do comment; newline <|> endOfText; pure none
  | some '[' => some <$> (elementHeader <|> tableHeader)
  | some c =>
    if c == '\n' || c == '\r' then do newline; pure none else some <$> assignment
  | none => failure

def statements : Reader (List Statement) := do
  let _ ← maybe (char '\ufeff')
  let lines ← many line
  blanks
  endOfText
  pure (lines.filterMap id)

/-- The entries of a document; none if the text is not a document. -/
def parse? (text : String) : Option Entries := do
  let (statements, _) ← statements text.toList
  let draft ← statements.foldlM Draft.add ⟨[], []⟩
  pure draft.root

end DeviceTeams.Toml
