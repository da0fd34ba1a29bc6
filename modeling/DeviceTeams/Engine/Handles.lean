import DeviceTeams.Engine.Basic
import DeviceTeams.Engine.BiCgStab

/-!
# Matrices, vectors and solvers of the engine

Each handle is filled step by step: a matrix by an upload, a vector by an upload that may have been
bound to the rows of a matrix before, a solver by a setup that copies the matrix as it is at that
time. A call that comes too early or with the wrong sizes is refused and changes nothing.
-/
namespace DeviceTeams

/-- A matrix of the engine: this lead's rows, once they have been uploaded. -/
structure MatrixHandle (S : Type) where
  leads : Group
  block : Option (Csr S)
  firstRow : Nat
  globalRows : Nat
deriving Repr

/-- A vector of the engine: this lead's entries and the length it is bound to. -/
structure VectorHandle (S : Type) where
  data : List S
  boundLength : Option Nat
deriving Repr

/-- A solver of the engine: the system that was set up and the status of the last solve. -/
structure SolverHandle (S : Type) where
  leads : Group
  settings : Settings S
  system : Option (System S)
  status : Option Status
deriving Repr

variable {S : Type}

namespace MatrixHandle

def create (resources : Resources) : MatrixHandle S := ⟨resources.leads, none, 0, 0⟩

/-- Stores this lead's rows of a square matrix. The partition has to give the rows of every lead. -/
def upload (m : MatrixHandle S) (globalRows : Nat) (block : Csr S) (partition : RowPartition) :
    Attempt (MatrixHandle S) := do
  unless block.ncols = globalRows do throw (EngineError.notSquare globalRows block.ncols : Failure)
  unless partition.totalRows = globalRows ∧ partition.teams = m.leads.size do
    throw (EngineError.partition partition.offsets globalRows m.leads.size : Failure)
  let rows ← partition.range m.leads.rank
  unless rows.length =
    block.nrows do throw (EngineError.blockRows block.nrows rows.length : Failure)
  pure { m with block := some block, firstRow := rows.start, globalRows }

end MatrixHandle

namespace VectorHandle

def create : VectorHandle S := ⟨[], none⟩

def bind (v : VectorHandle S) (m : MatrixHandle S) : Attempt (VectorHandle S) :=
  match m.block with
  | some block => .ok { v with boundLength := some block.nrows }
  | none => .error EngineError.bindBeforeUpload

def upload (v : VectorHandle S) (data : List S) : Attempt (VectorHandle S) :=
  match v.boundLength with
  | some length =>
    if length = data.length then .ok { v with data }
    else .error (EngineError.uploadLength data.length length)
  | none => .ok { v with data }

def download (v : VectorHandle S) (length : Nat) : Attempt (List S) :=
  if length = v.data.length then .ok v.data
  else .error (EngineError.downloadLength v.data.length length)

end VectorHandle

namespace SolverHandle

def create (resources : Resources) (settings : Settings S) : SolverHandle S :=
  ⟨resources.leads, settings, none, none⟩

def setup [Scalar S] (s : SolverHandle S) (m : MatrixHandle S) : Attempt (SolverHandle S) := do
  match m.block with
  | none => throw (EngineError.setupBeforeUpload : Failure)
  | some block =>
    let system ← System.prepare block m.firstRow m.globalRows
    pure { s with system := some system, status := none }

/-- Refuses to solve without a system or with vectors that do not fit it. -/
def checkSolve (s : SolverHandle S) (rhs x : VectorHandle S) : Attempt (System S) :=
  match s.system with
  | none => .error EngineError.solveBeforeSetup
  | some system =>
    let rows := system.block.nrows
    if rhs.data.length = rows ∧ x.data.length = rows then .ok system
    else .error (EngineError.solveLengths rhs.data.length x.data.length rows)

/-- Solves with the leads, from the guess that `x` holds. The outcome comes with the solver and the
solution as the solve leaves them. -/
def solve [Scalar S] (s : SolverHandle S) (rhs x : VectorHandle S) :
    Program S (Attempt Unit × SolverHandle S × VectorHandle S) := do
  match s.checkSolve rhs x with
  | .error cause => pure (.error cause, s, x)
  | .ok system =>
    let (outcome, data) ← (BiCgStab.solve system s.leads s.settings rhs.data).start x.data
    match outcome with
    | .ok (status, _) => pure (.ok (), { s with status := some status }, { x with data })
    | .error cause => pure (.error cause, s, { x with data })

def lastStatus (s : SolverHandle S) : Attempt Status :=
  match s.status with
  | some status => .ok status
  | none => .error EngineError.statusBeforeSolve

end SolverHandle
end DeviceTeams
