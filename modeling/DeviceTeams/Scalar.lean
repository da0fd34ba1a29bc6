import DeviceTeams.Word

/-!
# Scalars

The matrix and solver definitions are written over any type with the operations of `Scalar`: doubles
when they run, an ordered field with square roots when their exact behaviour is studied. No law is
assumed here; a statement that needs one asks for it.
-/
namespace DeviceTeams

/-- The operations that the solver performs on matrix and vector entries. -/
class Scalar (S : Type) extends Add S, Sub S, Mul S, Div S, Neg S where
  zero : S
  one : S
  /-- Where a reduction starts. For doubles it is the negative zero, which leaves every addend as it
  is. -/
  sumStart : S
  /-- Magnitudes below this count as a breakdown of the iteration. -/
  tiny : S
  root : S → S
  magnitude : S → S
  less : S → S → Bool
  isFinite : S → Bool
  ofFloat : Float → S

instance : Scalar Float where
  zero := 0.0
  one := 1.0
  sumStart := -0.0
  tiny := 1e-30
  root := Float.sqrt
  magnitude := Float.abs
  less a b := a < b
  isFinite := Float.isFinite
  ofFloat x := x

def Scalar.total {S : Type} [Scalar S] (terms : List S) : S :=
  terms.foldl (· + ·) Scalar.sumStart

/-- Types of matrix entries: a value for absent entries and an addition that may leave the type's
range. -/
class Entry (T : Type) where
  absent : T
  add : T → T → Attempt T

instance {S : Type} [Scalar S] : Entry S where
  absent := Scalar.zero
  add a b := .ok (a + b)

/-- Signed words as matrix entries. -/
instance : Entry Int where
  absent := 0
  add := Word.addSigned

end DeviceTeams
