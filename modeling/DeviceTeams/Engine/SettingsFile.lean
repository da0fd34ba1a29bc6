import DeviceTeams.Engine.Settings
import DeviceTeams.Toml.Document

/-!
# Settings files

Settings are read from the entry `solver` of a TOML document: a table with the keys `max_iters`,
`tolerance` and `rings`, or an array with the three values in this order. What is missing keeps its
standard value, what is not known is ignored.
-/
namespace DeviceTeams

open Toml

/-- A path as far as reading it is concerned. -/
inductive ConfigFile where
  | missing
  | directory
  /-- A file that is not UTF-8 text. -/
  | undecodable
  | text (content : String)
deriving Repr

namespace ConfigFile

def isFile : ConfigFile → Bool
  | undecodable | text _ => true
  | missing | directory => false

/-- The text of the file at a path, or why it cannot be read. -/
def read (path : String) : ConfigFile → Attempt String
  | missing => .error (ConfigError.unreadable path "No such file or directory (os error 2)")
  | directory => .error (ConfigError.unreadable path "Is a directory (os error 21)")
  | undecodable => .error (ConfigError.unreadable path "stream did not contain valid UTF-8")
  | text content => .ok content

end ConfigFile

namespace Settings

/-- A count: an integer that is not negative. -/
def count? : Value → Option Nat
  | .integer n => if 0 ≤ n then some n.toNat else none
  | _ => none

def real? : Value → Option Float
  | .float x => some x
  | .integer n => some (Float.ofInt n)
  | _ => none

/-- The value to use: what is given if it can be read, the standard one if nothing is given. -/
def orStandard {α β : Type} (standard : β) (read? : α → Option β) : Option α → Option β
  | some given => read? given
  | none => some standard

def ofValues (maxIters tolerance rings : Option Value) : Option (Settings Float) := do
  pure {
    maxIters := ← orStandard standard.maxIters count? maxIters
    tolerance := ← orStandard standard.tolerance real? tolerance
    rings := ← orStandard standard.rings count? rings }

/-- Settings from a table of which only values are looked at. -/
def ofTable (lookup : String → Option Value) : Option (Settings Float) :=
  ofValues (lookup "max_iters") (lookup "tolerance") (lookup "rings")

/-- A node as the value of a setting. A table is none, and no setting reads one. -/
def settingValue : Node → Value
  | .value value => value
  | _ => .table false []

/-- Settings from the entry of a document. A date counts as a table without known keys. -/
def ofNode : Node → Option (Settings Float)
  | .table _ entries => ofTable fun name => (entries.lookup name).map settingValue
  | .value (.table _ entries) => ofTable fun name => entries.lookup name
  | .value (.array items) => ofValues items[0]? items[1]? items[2]?
  | .value .date => some standard
  | _ => none

/-- Settings from the text of a file. -/
def ofToml (text : String) : Attempt (Settings Float) := do
  let read? : Option (Settings Float) := do
    orStandard standard ofNode ((← Toml.parse? text).lookup "solver")
  match read? with
  | none => throw (ConfigError.malformed : Failure)
  | some settings =>
    settings.check
    pure settings

def load (path : String) (file : ConfigFile) : Attempt (Settings Float) := do
  ofToml (← file.read path)

end Settings
end DeviceTeams
