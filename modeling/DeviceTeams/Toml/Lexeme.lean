import DeviceTeams.Toml.Reader

/-!
# Blanks, keys, strings, numbers and dates

The smallest parts of a document. Every class of characters and every number form is that of TOML
1.0: digits may be grouped by single underscores, decimal numbers have no leading zeros, and control
characters stand nowhere but as line ends and tabs.
-/
namespace DeviceTeams.Toml

open Reader

def isBlank (c : Char) : Bool := c == ' ' || c == '\t'

def isDigit (c : Char) : Bool := '0' ≤ c && c ≤ '9'

def digitValue (c : Char) : Nat :=
  if isDigit c then c.toNat - '0'.toNat
  else if 'a' ≤ c && c ≤ 'f' then c.toNat - 'a'.toNat + 10
  else if 'A' ≤ c && c ≤ 'F' then c.toNat - 'A'.toNat + 10
  else 16

def isDigitOf (base : Nat) (c : Char) : Bool := digitValue c < base

def isBareKey (c : Char) : Bool :=
  isDigit c || ('a' ≤ c && c ≤ 'z') || ('A' ≤ c && c ≤ 'Z') || c == '-' || c == '_'

/-- Characters that may stand for themselves: the tab and everything that is not a control
character. -/
def isPlain (c : Char) : Bool := c == '\t' || (' ' ≤ c && c.toNat ≠ 0x7f)

/-! ## Blanks -/

def blanks : Reader Unit := do
  let _ ← run isBlank

/-- A line end, which is a line feed that a carriage return may precede. -/
def newline : Reader Unit := char '\n' <|> word ['\r', '\n']

def endOfText : Reader Unit
  | [] => some ((), [])
  | _ :: _ => none

def comment : Reader Unit := do
  char '#'
  let _ ← run isPlain

/-- Blanks, a comment and the end of the line. -/
def lineEnd : Reader Unit := do
  blanks
  let _ ← maybe comment
  newline <|> endOfText

/-- Blanks, comments and line ends between the elements of an array. -/
def gap : Reader Unit := do
  let _ ← many ((do let _ ← one isBlank) <|> newline <|> comment)

/-! ## Strings -/

def numberOf (base : Nat) (digits : List Char) : Nat :=
  digits.foldl (fun n c => n * base + digitValue c) 0

/-- Exactly `count` digits of a base. -/
def digits (base : Nat) : Nat → Reader (List Char)
  | 0 => pure []
  | count + 1 => do
    let first ← one (isDigitOf base)
    let rest ← digits base count
    pure (first :: rest)

/-- The character with a code of `count` hexadecimal digits. -/
def codePoint (count : Nat) : Reader Char := do
  let code := numberOf 16 (← digits 16 count)
  require (code.isValidChar)
  pure (Char.ofNat code)

/-- What follows a backslash. -/
def escape : Reader Char := do
  match ← one fun _ => true with
  | 'b' => pure '\x08'
  | 't' => pure '\t'
  | 'n' => pure '\n'
  | 'f' => pure '\x0c'
  | 'r' => pure '\r'
  | '"' => pure '"'
  | '\\' => pure '\\'
  | 'u' => codePoint 4
  | 'U' => codePoint 8
  | _ => failure

/-- One character of a basic string. -/
def basicChar : Reader Char :=
  one (fun c => isPlain c && c != '"' && c != '\\') <|> do
    char '\\'
    escape

/-- A string in double quotes, on one line. -/
def basicString : Reader String := do
  char '"'
  let text ← many basicChar
  char '"'
  pure (String.ofList text)

/-- A string in single quotes, on one line and without escapes. -/
def literalString : Reader String := do
  char '\''
  let text ← run fun c => isPlain c && c != '\''
  char '\''
  pure (String.ofList text)

/-- A backslash before a line end, which skips all blanks and line ends that follow. -/
def lineContinuation : Reader (List Char) := do
  char '\\'
  blanks
  newline
  let _ ← many ((do let _ ← one isBlank) <|> newline)
  pure []

def lineFeed : Reader (List Char) := do
  newline
  pure ['\n']

/-- The quotes at the end of a string of several lines. The last three close it, up to two before
them belong to the text. -/
def closing (quote : Char) : Reader (List Char) := do
  let quotes ← run (· == quote)
  require (3 ≤ quotes.length && quotes.length ≤ 5)
  pure (quotes.drop 3)

/-- One or two quotes inside a string of several lines. -/
def innerQuotes (quote : Char) : Reader (List Char) := do
  let quotes ← run (· == quote)
  require (1 ≤ quotes.length && quotes.length ≤ 2)
  pure quotes

/-- A string between triple quotes, made of the given pieces. A line end right after the opening is
skipped. -/
def longString (quote : Char) (piece : Reader (List Char)) : Reader String := do
  word [quote, quote, quote]
  let _ ← maybe newline
  let pieces ← many (innerQuotes quote <|> lineFeed <|> piece)
  let last ← closing quote
  pure (String.ofList (pieces.flatten ++ last))

def longBasicString : Reader String :=
  longString '"' ((do pure [← basicChar]) <|> lineContinuation)

def longLiteralString : Reader String :=
  longString '\'' do pure [← one fun c => isPlain c && c != '\'']

def string : Reader String :=
  longBasicString <|> basicString <|> longLiteralString <|> literalString

/-! ## Keys -/

def bareKey : Reader String := do
  let text ← run isBareKey
  require !text.isEmpty
  pure (String.ofList text)

def simpleKey : Reader String := basicString <|> literalString <|> bareKey

/-- How deep keys and values may be nested. -/
def nestingLimit : Nat := 80

/-- Simple keys with dots between them. -/
def key : Reader (List String) := do
  let parts ← separated (char '.') do
    blanks
    let part ← simpleKey
    blanks
    pure part
  require (parts.length < nestingLimit)
  pure parts

/-! ## Numbers -/

/-- Digits of a base with single underscores between them. -/
def groupedDigits (base : Nat) : Reader (List Char) := do
  let text ← run fun c => isDigitOf base c || c == '_'
  require (text.head?.any (· != '_') && text.getLast?.any (· != '_'))
  require ((text.zip text.tail).all fun (a, b) => a != '_' || b != '_')
  pure (text.filter (· != '_'))

def sign : Reader Bool := do
  pure ((← maybe (one fun c => c == '+' || c == '-')) == some '-')

/-- Decimal digits without leading zeros. -/
def wholeDigits : Reader (List Char) :=
  (do char '0'; pure ['0']) <|> groupedDigits 10

/-- A whole number of 64 bits with a sign. -/
def signedWord (negative : Bool) (size : Nat) : Reader Int := do
  let value : Int := if negative then -(size : Int) else size
  require (-0x8000000000000000 ≤ value && value < 0x8000000000000000)
  pure value

def basedInteger (mark : Char) (base : Nat) : Reader Int := do
  word ['0', mark]
  signedWord false (numberOf base (← groupedDigits base))

def decimalInteger : Reader Int := do
  let negative ← sign
  signedWord negative (numberOf 10 (← wholeDigits))

def integer : Reader Int :=
  basedInteger 'x' 16 <|> basedInteger 'o' 8 <|> basedInteger 'b' 2 <|> decimalInteger

/-- The double nearest to `mantissa * 10 ^ exponent`. A mantissa of that many digits decides
beforehand about exponents far outside the range of doubles. -/
def nearestDouble (mantissa : Nat) (exponent : Int) : Float :=
  let place : Int := (Nat.toDigits 10 mantissa).length + exponent
  if mantissa = 0 ∨ place < -400 then 0.0
  else if 400 < place then 1.0 / 0.0
  else Float.ofScientific mantissa (exponent < 0) exponent.natAbs

/-- The power of ten that follows the digits. -/
def exponentPart : Reader Int := do
  let _ ← one fun c => c == 'e' || c == 'E'
  let negative ← sign
  let size := numberOf 10 (← groupedDigits 10)
  pure (if negative then -(size : Int) else size)

def fractionPart : Reader (List Char) := do
  char '.'
  groupedDigits 10

/-- A number with a fraction, a power of ten, or both. One that is too large is no number, unless it
is negative. -/
def decimalFloat : Reader Float := do
  let negative ← sign
  let whole ← wholeDigits
  let fraction ← maybe fractionPart
  let exponent ← maybe exponentPart
  require (fraction.isSome || exponent.isSome)
  let decimals := fraction.getD []
  let size := nearestDouble (numberOf 10 (whole ++ decimals)) (exponent.getD 0 - decimals.length)
  require (negative || size.isFinite)
  pure (if negative then -size else size)

def specialFloat : Reader Float := do
  let negative ← sign
  let size ← (do word ['i', 'n', 'f']; pure (1.0 / 0.0)) <|>
    (do word ['n', 'a', 'n']; pure (0.0 / 0.0))
  pure (if negative then -size else size)

def float : Reader Float := decimalFloat <|> specialFloat

/-! ## Dates and times -/

/-- A number of exactly `count` digits within bounds. -/
def field (count least most : Nat) : Reader Nat := do
  let value := numberOf 10 (← digits 10 count)
  require (least ≤ value && value ≤ most)
  pure value

def daysIn (year month : Nat) : Nat :=
  if month = 2 then
    if year % 4 = 0 ∧ (year % 100 ≠ 0 ∨ year % 400 = 0) then 29 else 28
  else if month = 4 ∨ month = 6 ∨ month = 9 ∨ month = 11 then 30
  else 31

def date : Reader Unit := do
  let year ← field 4 0 9999
  char '-'
  let month ← field 2 1 12
  char '-'
  let _ ← field 2 1 (daysIn year month)

def time : Reader Unit := do
  let _ ← field 2 0 23
  char ':'
  let _ ← field 2 0 59
  char ':'
  let _ ← field 2 0 60
  let _ ← maybe do
    char '.'
    let decimals ← run isDigit
    require !decimals.isEmpty

def offset : Reader Unit :=
  (do let _ ← one fun c => c == 'Z' || c == 'z') <|> do
    let _ ← one fun c => c == '+' || c == '-'
    let _ ← field 2 0 23
    char ':'
    let _ ← field 2 0 59

/-- A date, a time, or both with an offset from universal time. -/
def dateTime : Reader Unit :=
  (do
    date
    let _ ← maybe do
      let _ ← one fun c => c == 'T' || c == 't' || c == ' '
      time
      let _ ← maybe offset) <|> time

end DeviceTeams.Toml
