import DeviceTeams.Ranks.Group

/-!
# A lead's share of the linear system

The rows of the system are spread over the leads in consecutive intervals. A lead that takes part in
a product puts its part of the vector between zeros, sums the vectors of all leads, and multiplies
its own rows with the sum. The inverse diagonal serves as a preconditioner.
-/
namespace DeviceTeams

/-- The rows of one lead, prepared for the iteration. -/
structure System (S : Type) where
  block : Csr S
  firstRow : Nat
  globalRows : Nat
  inverseDiagonal : List S
deriving Repr

namespace System

variable {S : Type} [Scalar S]

/-- The inverse of a diagonal entry; one where there is none or it is too small. -/
def inverseOf : Option S → S
  | some d => if Scalar.less Scalar.tiny (Scalar.magnitude d) then Scalar.one / d else Scalar.one
  | none => Scalar.one

/-- Prepares the rows from `firstRow` on. -/
def prepare (block : Csr S) (firstRow globalRows : Nat) : Attempt (System S) := do
  let rows ← block.rowSpans
  let diagonal ← (List.range rows.length).mapM fun row => block.get? row (firstRow + row)
  pure { block, firstRow, globalRows, inverseDiagonal := diagonal.map inverseOf }

/-- A vector over all rows that holds `x` at this lead's rows and zeros elsewhere. -/
def place (system : System S) (x : List S) : Attempt (List S) := do
  Word.request system.globalRows 8
  .insist (system.firstRow + x.length ≤ system.globalRows)
  pure (List.replicate system.firstRow Scalar.zero ++ x ++
    List.replicate (system.globalRows - (system.firstRow + x.length)) Scalar.zero)

/-- This lead's rows of the product with the vector whose parts the leads hold. -/
def apply (system : System S) (leads : Group) (x : List S) : Task S (List S) := do
  let placed ← Task.ofAttempt (system.place x)
  let whole ← leads.sumVector placed
  Task.ofAttempt (system.block.spmv whole)

def precondition (system : System S) (x : List S) : List S :=
  x.zipWith (· * ·) system.inverseDiagonal

end System
end DeviceTeams
