import DeviceTeams.Text.Visibility

/-!
# Text as it is shown inside messages

Quoted strings, lists of numbers and half-open ranges. In a quoted string every character that a
reader could not see, or could not tell from its neighbours, is spelled out.
-/
namespace DeviceTeams.Text

/-- A character inside double quotes. -/
def escaped (c : Char) : List Char :=
  if c = '"' then ['\\', '"']
  else if c = '\\' then ['\\', '\\']
  else if c = '\n' then ['\\', 'n']
  else if c = '\t' then ['\\', 't']
  else if c = '\r' then ['\\', 'r']
  else if c = '\x00' then ['\\', '0']
  else if isVisible c then [c]
  else ['\\', 'u', '\x7b'] ++ Nat.toDigits 16 c.toNat ++ ['\x7d']

/-- A string in double quotes. -/
def quoted (text : String) : String :=
  String.ofList ('"' :: text.toList.flatMap escaped ++ ['"'])

def bracketed (numbers : List Nat) : String :=
  "[" ++ ", ".intercalate (numbers.map toString) ++ "]"

def halfOpen (start stop : Nat) : String := toString start ++ ".." ++ toString stop

end DeviceTeams.Text
