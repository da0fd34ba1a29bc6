import DeviceTeams.Engine.Context
import DeviceTeams.Engine.Handles
import DeviceTeams.Engine.SettingsFile
import DeviceTeams.Solver.Stats
import DeviceTeams.Teams.Hierarchy
import DeviceTeams.Teams.Merge
import DeviceTeams.Teams.VectorLayout

/-!
# Solver instances

An instance is initialized over a group of ranks, is given a matrix whose rows the ranks share,
solves systems with it, and is finalized. All ranks of the group do the same steps together. The
engine is called by the leads of the teams only, and what a lead finds out is passed on to its team
before anyone relies on it.
-/
namespace DeviceTeams

/-- How many devices a node offers. -/
inductive DeviceRequest where
  /-- The visible accelerators in device modes, a device for each process in host modes. -/
  | automatic
  | exactly (count : Nat)
deriving DecidableEq, Repr

/-- What the lead of a team holds of the engine. -/
structure LeadHandles (S : Type) where
  settings : Settings S
  matrix : MatrixHandle S
  rhs : VectorHandle S
  solution : VectorHandle S
  solver : SolverHandle S
  rings : Nat
deriving Repr

structure Instance (S : Type) where
  hierarchy : Hierarchy
  lead : Option (LeadHandles S)
  /-- The layout of the matrix that was set last. -/
  layout : Option VectorLayout
deriving Repr

structure TeamSolver (S : Type) where
  state : Option (Instance S)
  stats : Stats
deriving Repr

/-- A solver instance and the engine context that it uses. -/
structure Attached (S : Type) where
  context : Context
  solver : TeamSolver S
deriving Repr

namespace TeamSolver

variable {S : Type}

def create : TeamSolver S := ⟨none, .empty⟩

def isInitialized (s : TeamSolver S) : Bool := s.state.isSome

def deviceCount (s : TeamSolver S) : Option Nat := s.state.map (·.hierarchy.deviceCount)

/-- The ring count of the settings, on leads only. -/
def rings (s : TeamSolver S) : Option Nat := do
  (← (← s.state).lead).rings

def hierarchy (s : TeamSolver S) : Option Hierarchy := s.state.map (·.hierarchy)

/-- Counts a finished phase. The ranks run without a clock, so a phase takes no time. -/
def finishPhase (s : TeamSolver S) (name : String) : TeamSolver S :=
  { s with stats := s.stats.addPhase name 0 }

end TeamSolver

/-- The number of devices of a node, from the request and what the engine sees. -/
def resolveDevices (visible : Nat) (mode : Mode) (request : DeviceRequest) (node : Group) :
    Attempt Nat := do
  let count := match request with
    | .exactly count => count
    | .automatic => if mode.isDevice then visible else node.size
  if count = 0 then throw (ConfigError.noAccelerators (← node.nodeName) : Failure)
  pure count

namespace Attached

variable {S : Type}

/-- Work on an attached solver instance. -/
abbrev Step (S : Type) : Type → Type := Work S (Attached S)

/-- Work on the context alone. -/
def onContext {α : Type} (work : Work S Context α) : Step S α := ExceptT.mk fun state => do
  let (outcome, context) ← work.start state.context
  pure (outcome, { state with context })

def modifySolver (change : TeamSolver S → TeamSolver S) : Step S Unit :=
  modify fun state => { state with solver := change state.solver }

def modifyContext (change : Context → Context) : Step S Unit :=
  modify fun state => { state with context := change state.context }

def finish (name : String) : Step S Unit := modifySolver (·.finishPhase name)

/-- The instance; refused if it has not been initialized. -/
def initialized : Step S (Instance S) := do
  match (← get).solver.state with
  | some inst => pure inst
  | none => throw (TopologyError.notInitialized : Failure)

def modifyLead (change : LeadHandles S → LeadHandles S) : Step S Unit :=
  modifySolver fun solver =>
    { solver with state := solver.state.map fun inst => { inst with lead := inst.lead.map change } }

/-- The group of the leads, which every lead belongs to. -/
def leadsOf (hierarchy : Hierarchy) : Attempt Group :=
  match hierarchy.solver with
  | some leads => .ok leads
  | none => .error TopologyError.noSolverGroup

/-! ## Initialization -/

/-- Reads the settings, joins the users of the engine and creates the handles of a lead. -/
def openLead [Scalar S] (path : String) (file : ConfigFile) (hierarchy : Hierarchy) :
    Step S (LeadHandles S) := do
  let leads ← Work.ofAttempt (leadsOf hierarchy)
  let settings : Settings S ← Work.ofAttempt (Settings.toScalar <$> Settings.load path file)
  let resources ← onContext (Context.acquire leads)
  pure {
    settings
    matrix := .create resources
    rhs := .create
    solution := .create
    solver := .create resources settings
    rings := settings.rings }

/-- Opens the lead of a team; a rank that leads no team opens nothing. If that is refused the
instance is no longer counted. -/
def openIfLead [Scalar S] (path : String) (file : ConfigFile) (hierarchy : Hierarchy) :
    Step S (Option (LeadHandles S)) := do
  if hierarchy.isLead then
    try some <$> openLead path file hierarchy
    catch
      | .aborted => throw .aborted
      | cause => do
        modifyContext Context.unregister
        throw cause
  else pure none

/-- Builds the groups over a group of ranks and opens the engine on the leads. -/
def establish [Scalar S] (group : Group) (mode path : String) (file : ConfigFile)
    (devices : DeviceRequest) :
    Step S Unit := do
  if (← get).solver.isInitialized then throw (TopologyError.alreadyInitialized : Failure)
  let mode ← Work.ofAttempt (Mode.ofTag mode)
  unless file.isFile do throw (ConfigError.missing path : Failure)
  let visible := (← get).context.engine.visible
  let hierarchy ← Work.ofTask (Hierarchy.build group (resolveDevices visible mode devices))
  finish "set mode"
  finish "build topology"
  modifyContext Context.register
  let lead ← openIfLead path file hierarchy
  finish "engine init"
  modifySolver fun solver => { solver with state := some { hierarchy, lead, layout := none } }

/-! ## Setting the matrix -/

/-- Checks that each member's rows start where the rows of the member before it end. -/
def checkStarts (starts counts : List Nat) : Attempt Unit :=
  (List.range (starts.length - 1)).forM fun before => do
    let member := before + 1
    let start ← .ofOption starts[member]?
    let expected ← Word.add (← .ofOption starts[before]?) (← .ofOption counts[before]?)
    unless start = expected do throw (TopologyError.memberStart member start expected : Failure)

/-- Checks that the rows of a team are consecutive in team order. All members come to the same
verdict. -/
def checkTeamRows (team : Group) (matrix : RowShare S) (counts : List Nat) : Task S Unit := do
  let starts : List Nat ← team.allGather .word64 matrix.rowStart
  Task.ofAttempt (checkStarts starts counts)

/-- Uploads the stacked rows of a team and prepares the other handles for them. -/
def prepareHandles [Scalar S] (handles : LeadHandles S) (globalRows : Nat) (block : Csr S)
    (partition : RowPartition) : Step S Unit := do
  let uploaded ← Work.ofAttempt (handles.matrix.upload globalRows block partition)
  modifyLead fun handles => { handles with matrix := uploaded }
  let solver ← Work.ofAttempt (handles.solver.setup uploaded)
  modifyLead fun handles => { handles with solver }
  let solution ← Work.ofAttempt (handles.solution.bind uploaded)
  modifyLead fun handles => { handles with solution }
  let rhs ← Work.ofAttempt (handles.rhs.bind uploaded)
  modifyLead fun handles => { handles with rhs }

/-- Uploads the rows of a team. Every lead learns whether the rows of all teams follow the order of
the leads before any of them uploads. -/
def uploadTeam [Scalar S] (hierarchy : Hierarchy) (handles : LeadHandles S) (matrix : RowShare S)
    (block : Option (Csr S)) : Step S Unit := do
  let some block := block | throw (TopologyError.noMergedBlock : Failure)
  let leads ← Work.ofAttempt (leadsOf hierarchy)
  let counts : List Nat ← Work.ofTask (leads.allGather .word64 block.nrows)
  let partition ← Work.ofAttempt (RowPartition.ofCounts counts)
  let rows ← Work.ofAttempt (partition.range leads.rank)
  let misplaced := rows.start ≠ matrix.rowStart ∨ partition.totalRows ≠ matrix.globalRows
  let count ← Work.ofTask (leads.sumCounts (if misplaced then 1 else 0))
  if 0 < count then
    throw (TopologyError.teamsMisplaced partition.offsets matrix.rowStart matrix.globalRows :
      Failure)
  prepareHandles handles matrix.globalRows block partition

/-- The outcome of work that may be refused; aborted work stays aborted. -/
def attempt {α : Type} (work : Step S α) : Step S (Attempt α) := do
  try Except.ok <$> work
  catch
    | .aborted => throw .aborted
    | cause => pure (.error cause)

/-- Refuses the matrix on all ranks if the rows of some team are not in order. The ranks of that
team learn why. -/
def checkOrder (hierarchy : Hierarchy) (matrix : RowShare S) (counts : List Nat) : Step S Unit := do
  let order ← attempt (Work.ofTask (checkTeamRows hierarchy.team matrix counts))
  let misordered ← Work.ofTask (hierarchy.global.sumCounts (if order.toBool then 0 else 1))
  Work.ofAttempt order
  if 0 < misordered then throw (TopologyError.otherTeamsMisordered misordered : Failure)

/-- Uploads the rows of a team on its lead and tells the team whether the engine has taken them. -/
def uploadRows [Scalar S] (inst : Instance S) (matrix : RowShare S) (block : Option (Csr S)) :
    Step S Unit := do
  let upload ← match inst.lead with
    | some handles => attempt (uploadTeam inst.hierarchy handles matrix block)
    | none => pure (.ok ())
  let verdict : List Nat ← Work.ofTask
    (inst.hierarchy.team.broadcast .word64 0 [if upload.toBool then 0 else 1])
  Work.ofAttempt upload
  unless verdict = [0] do throw (TopologyError.rejectedByLead : Failure)

/-- Keeps the layout of the matrix and counts it. -/
def recordMatrix (layout : VectorLayout) : Step S Unit := do
  modifySolver fun solver =>
    { solver with state := solver.state.map fun inst => { inst with layout := some layout } }
  let uploads ← Work.ofAttempt (Word.countUp (← get).solver.stats.matrixUploads)
  modifySolver fun solver => { solver with stats := { solver.stats with matrixUploads := uploads } }
  finish "set matrix"

/-- Merges the rows of every team on its lead and uploads them to the engine. -/
def setMatrix [Scalar S] (matrix : RowShare S) : Step S Unit := do
  let inst ← initialized
  let block ← Work.ofAttempt matrix.localBlock
  let merged ← Work.ofTask (mergeTeam inst.hierarchy.team block)
  checkOrder inst.hierarchy matrix merged.rows.counts
  uploadRows inst matrix merged.block
  recordMatrix ⟨merged.rows, inst.hierarchy.team.rank⟩

/-! ## Solving -/

/-- Reported when the engine ends a solve without success. -/
def unsuccessful (status : Status) (hierarchy : Hierarchy) : Event where
  severity := .warning
  message := "solver engine failed to solve the system"
  fields := [("code", toString status.code), ("node", hierarchy.nodeName),
    ("device", toString hierarchy.device)]

/-- Solves for a team's vectors on its lead, and answers with the status and the team's solution. -/
def solveTeam [Scalar S] (hierarchy : Hierarchy) (handles : LeadHandles S) (x b : List S) :
    Step S (Status × List S) := do
  let solution ← Work.ofAttempt (handles.solution.upload x)
  modifyLead fun handles => { handles with solution }
  let rhs ← Work.ofAttempt (handles.rhs.upload b)
  modifyLead fun handles => { handles with rhs }
  let (outcome, solver, solution) ← ExceptT.lift (StateT.lift (handles.solver.solve rhs solution))
  modifyLead fun handles => { handles with solver, solution }
  Work.ofAttempt outcome
  let status ← Work.ofAttempt solver.lastStatus
  unless status.isSuccess do Work.note (unsuccessful status hierarchy)
  let data ← Work.ofAttempt (solution.download x.length)
  pure (status, data)

/-- Refuses vectors of the wrong length on all ranks. -/
def checkVectors (hierarchy : Hierarchy) (layout : VectorLayout) (x b : List S) : Step S Unit := do
  let expected ← Work.ofAttempt layout.localLength
  let fits := x.length = expected ∧ b.length = expected
  let mismatches ← Work.ofTask (hierarchy.global.sumCounts (if fits then 0 else 1))
  if 0 < mismatches then
    throw (DimensionError.vectors mismatches x.length b.length expected : Failure)

/-- The status and the solution of a team, on its lead. -/
def solveOnLead [Scalar S] (inst : Instance S) (teamX teamB : Option (List S)) :
    Step S (Status × Option (List S)) :=
  match inst.lead, teamX, teamB with
  | some handles, some x, some b => do
    let (status, solution) ← solveTeam inst.hierarchy handles x b
    pure (status, some solution)
  | _, teamX, _ => pure (.success, teamX)

def recordSolve (status : Status) : Step S Unit := do
  let stats := (← get).solver.stats
  let solves ← Work.ofAttempt (Word.countUp stats.solves)
  modifySolver fun solver => { solver with stats := { solver.stats with solves } }
  unless status.isSuccess do
    let failedSolves ← Work.ofAttempt (Word.countUp stats.failedSolves)
    modifySolver fun solver => { solver with stats := { solver.stats with failedSolves } }
  finish "solve"

/-- Solves for the right-hand side `b` with the guess `x`. The answer holds the status, which is the
same on all ranks, and this rank's part of the solution. -/
def solve [Scalar S] (x b : List S) : Step S (Status × List S) := do
  let inst ← initialized
  let some layout := inst.layout | throw (TopologyError.noMatrix : Failure)
  checkVectors inst.hierarchy layout x b
  let team := inst.hierarchy.team
  let teamX ← Work.ofTask (layout.gather team x)
  let teamB ← Work.ofTask (layout.gather team b)
  let (status, teamX) ← solveOnLead inst teamX teamB
  let code : List Int ← Work.ofTask (team.broadcast .int64 0 [status.code])
  let own ← Work.ofTask (layout.scatter team teamX x.length)
  let status ← Work.ofAttempt (.ofOption (code.head?.map Status.ofCode))
  recordSolve status
  pure (status, own)

/-! ## The end of an instance -/

/-- Reported when there is nothing to finalize. -/
def nothingToFinalize : Event where
  severity := .warning
  message := "finalize called on a solver instance that has not been initialized"
  fields := []

/-- Gives up the handles and the groups. The last instance of a process that holds the engine shuts
it down. -/
def finalize : Step S Unit := do
  match (← get).solver.state with
  | none => Work.note nothingToFinalize
  | some inst =>
    modifySolver fun solver => { solver with state := none }
    if inst.lead.isSome then
      let _ ← onContext Context.release
    modifyContext Context.unregister

/-- Reported when an instance is dropped and cannot be finalized. -/
def dropFailed (cause : Error) : Event where
  severity := .error
  message := "finalize on drop failed"
  fields := [("e", cause.message)]

/-- Drops an instance. One that is still initialized is finalized first. -/
def drop : Step S Unit := do
  if (← get).solver.isInitialized then
    match ← attempt finalize with
    | .error (.refused cause) => Work.note (dropFailed cause)
    | _ => pure ()

end Attached
end DeviceTeams
