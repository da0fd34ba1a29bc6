/-!
# Reading from a list of characters

A reader takes characters from the front of a text and answers with what they mean, or fails. An
alternative starts again where the failed one started. Repetition stops where nothing more can be
read, and ends because each turn takes at least one character.
-/
namespace DeviceTeams.Toml

/-- A reader of `α`: what it read and the rest of the text. -/
abbrev Reader : Type → Type := StateT (List Char) Option

namespace Reader

def one (accept : Char → Bool) : Reader Char
  | [] => none
  | c :: rest => if accept c then some (c, rest) else none

def char (c : Char) : Reader Unit := do
  let _ ← one (· == c)

def word : List Char → Reader Unit
  | [] => pure ()
  | c :: rest => do
    char c
    word rest

/-- As many characters of a class as there are. -/
def run (accept : Char → Bool) : Reader (List Char) := fun text =>
  some (text.takeWhile accept, text.dropWhile accept)

def peek : Reader (Option Char) := fun text => some (text.head?, text)

/-- Fails unless the condition holds. -/
def require (condition : Bool) : Reader Unit := if condition then pure () else failure

/-- What the reader reads, if it can. -/
def maybe {α : Type} (reader : Reader α) : Reader (Option α) := fun text =>
  match reader text with
  | some (value, rest) => some (some value, rest)
  | none => some (none, text)

/-- Reads again and again, at most as often as the fuel says. -/
def repeatUpTo {α : Type} (reader : Reader α) : Nat → Reader (List α)
  | 0 => pure []
  | fuel + 1 => fun text =>
    match reader text with
    | none => some ([], text)
    | some (value, rest) =>
      if rest.length < text.length then
        (repeatUpTo reader fuel rest).map fun (values, rest) => (value :: values, rest)
      else some ([], text)

/-- Reads as often as it can. -/
def many {α : Type} (reader : Reader α) : Reader (List α) := fun text =>
  repeatUpTo reader text.length text

/-- At least one, with separators between them. -/
def separated {α : Type} (separator : Reader Unit) (reader : Reader α) : Reader (List α) := do
  let first ← reader
  let rest ← many do
    separator
    reader
  pure (first :: rest)

end Reader
end DeviceTeams.Toml
