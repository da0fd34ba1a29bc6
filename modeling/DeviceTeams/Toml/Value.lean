import DeviceTeams.Toml.Lexeme

/-!
# Values

Strings, numbers, truth values, dates, arrays and inline tables. Arrays may run over several lines,
inline tables may not. In an inline table a dotted key opens tables on its way; it cannot add to a
table that is written out.
-/
namespace DeviceTeams.Toml

open Reader

/-- A value on the right of an equals sign. -/
inductive Value where
  | string (text : String)
  | integer (value : Int)
  | float (value : Float)
  | boolean (value : Bool)
  | date
  | array (items : List Value)
  /-- The entries of a table, and whether dotted keys opened it. -/
  | table (dotted : Bool) (entries : List (String × Value))

namespace Value

/-- Puts a value at a dotted key of an inline table. Tables on the way have to be open: only those
that dotted keys made can be added to. -/
def insert (value : Value) : List String → List (String × Value) → Option (List (String × Value))
  | [], _ => none
  | [name], entries => if entries.any (·.1 == name) then none else some (entries ++ [(name, value)])
  | name :: path, entries =>
    match entries.lookup name with
    | none => (insert value path []).map fun inner => entries ++ [(name, table true inner)]
    | some (table true inner) =>
      (insert value path inner).map fun inner =>
        entries.map fun entry => if entry.1 == name then (name, table true inner) else entry
    | some _ => none

def ofAssignments (assignments : List (List String × Value)) : Option (List (String × Value)) :=
  assignments.foldlM (fun entries (path, value) => value.insert path entries) []

end Value

def boolean : Reader Bool :=
  (do word ['t', 'r', 'u', 'e']; pure true) <|> (do word ['f', 'a', 'l', 's', 'e']; pure false)

/-- Values that hold no others. -/
def scalar : Reader Value :=
  (Value.string <$> string) <|> (Value.boolean <$> boolean) <|> (do dateTime; pure Value.date) <|>
    (Value.float <$> float) <|> (Value.integer <$> integer)

/-- An array of the elements that a reader reads, with an optional comma at the end. -/
def arrayOf (element : Reader Value) : Reader Value := do
  char '['
  let items ← maybe do
    let items ← separated (char ',') do
      gap
      let item ← element
      gap
      pure item
    let _ ← maybe (char ',')
    pure items
  gap
  char ']'
  pure (.array (items.getD []))

/-- A key, an equals sign and a value on one line. -/
def assignmentOf (element : Reader Value) : Reader (List String × Value) := do
  let path ← key
  char '='
  blanks
  let value ← element
  blanks
  pure (path, value)

/-- An inline table of the values that a reader reads, without a comma at the end. -/
def inlineTableOf (element : Reader Value) : Reader Value := do
  char '\x7b'
  let assignments ← maybe (separated (char ',') (assignmentOf element))
  blanks
  char '\x7d'
  match Value.ofAssignments (assignments.getD []) with
  | some entries => pure (.table false entries)
  | none => failure

/-- A value with at most `room` arrays and inline tables inside one another. -/
def valueWithin : Nat → Reader Value
  | 0 => scalar
  | room + 1 => scalar <|> arrayOf (valueWithin room) <|> inlineTableOf (valueWithin room)

def value : Reader Value := valueWithin (nestingLimit - 1)

end DeviceTeams.Toml
