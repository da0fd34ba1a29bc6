/-!
# Decimal text of binary fractions

A finite double is a sign and a dyadic number `mantissa * 2 ^ exponent`. Two texts of it are written
here, both in exact integer arithmetic: the positional one with the fewest digits that still read
back as the same double, and the scientific one with a fixed number of digits, rounded with ties to
the even digit.
-/
namespace DeviceTeams.Text

/-- The positive real `mantissa * 2 ^ exponent`. -/
structure Dyadic where
  mantissa : Nat
  exponent : Int
deriving Repr, DecidableEq

/-- What the bits of a double stand for. -/
inductive Reading where
  | notANumber
  | infinite (negative : Bool)
  | zero (negative : Bool)
  | finite (negative : Bool) (size : Dyadic)
deriving Repr, DecidableEq

/-- Reads sign, exponent and fraction fields. -/
def Reading.ofBits (bits : Nat) : Reading :=
  let negative := bits >>> 63 == 1
  let field : Nat := bits >>> 52 % 0x800
  let fraction : Nat := bits % 0x10000000000000
  if field = 2047 then if fraction = 0 then .infinite negative else .notANumber
  else if field = 0 then
    if fraction = 0 then .zero negative else .finite negative ⟨fraction, -1074⟩
  else .finite negative ⟨0x10000000000000 + fraction, (field : Int) - 1075⟩

def Reading.ofFloat (x : Float) : Reading := .ofBits x.toBits.toNat

namespace Dyadic

/-- Numerator and denominator of `x / 10 ^ place`. -/
def scaled (x : Dyadic) (place : Int) : Nat × Nat :=
  (x.mantissa * Nat.pow 2 x.exponent.toNat * Nat.pow 10 (-place).toNat,
    Nat.pow 2 (-x.exponent).toNat * Nat.pow 10 place.toNat)

/-- Whether `digits * 10 ^ place` rounds to the double `x`. The interval of reals that do reaches
half-way to the two neighbours, and contains its ends when the mantissa is even. -/
def readsBack (x : Dyadic) (digits : Nat) (place : Int) : Bool :=
  let low := if x.mantissa = 0x10000000000000 ∧ x.exponent ≠ -1074
    then 4 * x.mantissa - 1 else 4 * x.mantissa - 2
  let bound (quarters : Nat) : Nat × Nat := scaled ⟨quarters, x.exponent - 2⟩ place
  let (lowNumerator, lowDenominator) := bound low
  let (highNumerator, highDenominator) := bound (4 * x.mantissa + 2)
  if x.mantissa % 2 = 0 then
    lowNumerator ≤ digits * lowDenominator && digits * highDenominator ≤ highNumerator
  else
    lowNumerator < digits * lowDenominator && digits * highDenominator < highNumerator

/-- The point of the grid of multiples of `10 ^ place` that is nearest to `x` among the neighbours
of `x` that read back as `x`. -/
def gridPoint? (x : Dyadic) (place : Int) : Option Nat :=
  let (numerator, denominator) := x.scaled place
  let below := numerator / denominator
  let belowFits := x.readsBack below place
  let aboveFits := x.readsBack (below + 1) place
  if belowFits && (!aboveFits || 2 * (numerator % denominator) < denominator) then some below
  else if aboveFits then some (below + 1)
  else none

/-- Looks for the coarsest decimal grid with a point that reads back, from the given place
downward. -/
def coarsest (x : Dyadic) (place : Int) : Nat → Nat × Int
  | 0 => (0, place)
  | fuel + 1 =>
    match x.gridPoint? place with
    | some digits => (digits, place)
    | none => x.coarsest (place - 1) fuel

/-- The fewest digits that read back, as an integer and the place of its last digit. A double is
below `10 ^ 309` and a multiple of `2 ^ -1074`, so the search ends within these places. -/
def shortest (x : Dyadic) : Nat × Int := x.coarsest 309 1400

end Dyadic

/-- Writes `digits * 10 ^ place` positionally, without a trailing point. -/
def positional (digits : Nat) (place : Int) : String :=
  let text := toString digits
  if 0 ≤ place then text ++ "".pushn '0' place.toNat
  else
    let decimals := (-place).toNat
    let padded := ("".pushn '0' (decimals + 1 - text.length) ++ text).toList
    let whole := padded.length - decimals
    String.ofList (padded.take whole) ++ "." ++ String.ofList (padded.drop whole)

def signText (negative : Bool) : String := if negative then "-" else ""

/-- The fewest digits that read back, never with an exponent. -/
def plainReading : Reading → String
  | .notANumber => "NaN"
  | .infinite negative => signText negative ++ "inf"
  | .zero negative => signText negative ++ "0"
  | .finite negative size =>
    let (digits, place) := size.shortest
    signText negative ++ positional digits place

def plain (x : Float) : String := plainReading (.ofFloat x)

/-- The quotient rounded to the nearest integer, a tie going to the even one. -/
def roundedQuotient (numerator denominator : Nat) : Nat :=
  let quotient := numerator / denominator
  let twice := 2 * (numerator % denominator)
  if twice > denominator || (twice == denominator && quotient % 2 == 1) then
    quotient + 1 else quotient

/-- The greatest `place` at most the given one with `10 ^ place ≤ x`. -/
def leadingPlace (x : Dyadic) (place : Int) : Nat → Int
  | 0 => place
  | fuel + 1 =>
    let (numerator, denominator) := x.scaled place
    if denominator ≤ numerator then place else leadingPlace x (place - 1) fuel

/-- One digit, a point, `decimals` digits, and the power of ten. -/
def scientificReading (decimals : Nat) : Reading → String
  | .notANumber => "NaN"
  | .infinite negative => signText negative ++ "inf"
  | .zero negative => signText negative ++ "0." ++ "".pushn '0' decimals ++ "e0"
  | .finite negative size =>
    let place := leadingPlace size 309 1400
    let (numerator, denominator) := size.scaled (place - decimals)
    let digits := roundedQuotient numerator denominator
    let (digits, place) := if digits = Nat.pow 10 (decimals + 1)
      then (Nat.pow 10 decimals, place + 1) else (digits, place)
    let text := (toString digits).toList
    signText negative ++ String.ofList (text.take 1) ++ "." ++ String.ofList (text.drop 1) ++
      "e" ++ toString place

def scientific (decimals : Nat) (x : Float) : String := scientificReading decimals (.ofFloat x)

end DeviceTeams.Text
