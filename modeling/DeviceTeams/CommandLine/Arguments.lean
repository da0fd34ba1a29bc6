import DeviceTeams.Word

/-!
# Arguments

The program takes options that begin with two dashes. An option that needs a value takes it after an
equals sign or from the next argument, which must not look like an option itself. No option may be
given twice, and nothing else may stand on the line. Asking for help or the version ends the reading
at once, unless something before it was wrong.
-/
namespace DeviceTeams.CommandLine

/-- What the program is told to do. -/
structure Options where
  config : String
  ranks : Nat
  nodes : Nat
  devices : Option Nat
  rows : Nat
  mode : String
  stats : Bool
deriving DecidableEq, Repr

inductive Valued where
  | config
  | ranks
  | nodes
  | devices
  | rows
  | mode
deriving DecidableEq, Repr

inductive Switch where
  | valued (option : Valued)
  | stats
  | help
  | version
deriving DecidableEq, Repr

/-- What the arguments amount to. -/
inductive Request where
  | solve (options : Options)
  | help
  | version
  | misuse
deriving DecidableEq, Repr

def Switch.ofName? (name : String) : Option Switch :=
  if name = "config" then some (.valued .config)
  else if name = "ranks" then some (.valued .ranks)
  else if name = "nodes" then some (.valued .nodes)
  else if name = "devices" then some (.valued .devices)
  else if name = "rows" then some (.valued .rows)
  else if name = "mode" then some (.valued .mode)
  else if name = "stats" then some .stats
  else if name = "help" then some .help
  else if name = "version" then some .version
  else none

/-- A count as it is written: decimal digits, with a plus sign before them or not. -/
def readCount? (text : String) : Option Nat :=
  let digits := match text.toList with
    | '+' :: rest => rest
    | all => all
  if digits.isEmpty || !digits.all Char.isDigit then none
  else
    let value := digits.foldl (fun n c => n * 10 + (c.toNat - '0'.toNat)) 0
    if value < Word.limit then some value else none

/-- Whether a value can be read for an option. -/
def Valued.accepts (option : Valued) (text : String) : Bool :=
  match option with
  | config => !text.isEmpty
  | mode => true
  | ranks | nodes | devices | rows => (readCount? text).isSome

structure Seen where
  values : List (Valued × String)
  stats : Bool
  /-- Nothing but values may follow two dashes on their own. -/
  closed : Bool

/-- Stores the value of an option; nothing if it cannot be read or the option has one. -/
def Seen.add? (seen : Seen) (option : Valued) (text : String) : Option Seen :=
  if option.accepts text && !seen.values.any (·.1 == option) then
    some { seen with values := (option, text) :: seen.values }
  else none

/-- The options that have been read, with standard values for the others; misuse if the settings
file is missing. -/
def Seen.finish (seen : Seen) : Request :=
  let count (option : Valued) : Option Nat := do readCount? (← seen.values.lookup option)
  match seen.values.lookup .config with
  | none => .misuse
  | some config => .solve {
      config
      ranks := (count .ranks).getD 4
      nodes := (count .nodes).getD 1
      devices := count .devices
      rows := (count .rows).getD 64
      mode := (seen.values.lookup .mode).getD "hDDI"
      stats := seen.stats }

inductive Argument where
  /-- Two dashes on their own. -/
  | closing
  | long (name : String) (value : Option String)
  | short (letters : List Char)
  | plain (text : String)
deriving DecidableEq, Repr

/-- Takes an argument apart. A single dash is a plain argument. -/
def Argument.of (text : String) : Argument :=
  match text.toList with
  | ['-', '-'] => closing
  | '-' :: '-' :: rest =>
    let name := rest.takeWhile (· != '=')
    let value := if rest.contains '='
      then some (String.ofList (rest.drop (name.length + 1))) else none
    long (String.ofList name) value
  | '-' :: c :: rest => short (c :: rest)
  | _ => plain text

def shortRequest : List Char → Request
  | 'h' :: _ => .help
  | 'V' :: _ => .version
  | _ => .misuse

def read (seen : Seen) : List String → Request
  | [] => seen.finish
  | text :: rest =>
    if seen.closed then .misuse
    else match Argument.of text with
      | .closing => read { seen with closed := true } rest
      | .short letters => shortRequest letters
      | .plain _ => .misuse
      | .long name value =>
        match Switch.ofName? name, value with
        | some .help, none => .help
        | some .version, none => .version
        | some .stats, none => if seen.stats then .misuse else read { seen with stats := true } rest
        | some (.valued option), some value =>
          match seen.add? option value with
          | some seen => read seen rest
          | none => .misuse
        | some (.valued option), none =>
          match rest with
          | [] => .misuse
          | next :: rest =>
            match Argument.of next with
            | .plain value =>
              match seen.add? option value with
              | some seen => read seen rest
              | none => .misuse
            | _ => .misuse
        | _, _ => .misuse

def parse (arguments : List String) : Request := read ⟨[], false, false⟩ arguments

end DeviceTeams.CommandLine
