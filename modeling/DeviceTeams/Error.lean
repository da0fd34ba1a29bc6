import DeviceTeams.Text.Decimal
import DeviceTeams.Text.Quoted

/-!
# Causes of failure

An operation ends in one of three ways: with a value, refused with a cause that the caller can act
on, or aborted. Aborting is what an arithmetic overflow, an index outside its list or a broken
agreement between ranks leads to; it has no cause to show. The wording of every cause is fixed here,
once.
-/
namespace DeviceTeams

open Text

inductive ConfigError where
  | unsupportedMode (text : String)
  | noDevices
  | unreadable (path reason : String)
  | malformed
  | tolerance (value : Float)
  | missing (path : String)
  | noAccelerators (node : String)
  | deviceQuery (reason : String)

/-- Ranks that do not form the layout an operation needs. -/
inductive TopologyError where
  | rankOutside (rank processes : Nat)
  | deviceTooLarge (device : Nat)
  | noTeamGroup
  | alreadyInitialized
  | notInitialized
  | otherTeamsMisordered (processes : Nat)
  | rejectedByLead
  | noMatrix
  | noSolverGroup
  | noMergedBlock
  | memberStart (member start expected : Nat)
  | teamsMisplaced (offsets : List Nat) (start rows : Nat)
  | layoutMismatch (holders leads : Nat)

inductive DimensionError where
  | teamVector (found expected : Nat)
  | noTeamVector
  | localVector (found expected : Nat)
  | vectors (processes x b rows : Nat)

/-- Matrix blocks that break the storage rules. -/
inductive MatrixError where
  | pointerCount (found rows : Nat)
  | firstPointer
  | columnCount (columns values : Nat)
  | lastPointer (pointer entries : Nat)
  | pointerDecreases (row : Nat)
  | columnOutside (column row columns : Nat)
  | columnsNotAscending (row : Nat)
  | blockRows (diagonal offDiagonal : Nat)
  | rowsOutside (start stop rows : Nat)
  | columnsOutside (start stop columns : Nat)
  | columnMapLength (columns entries : Nat)
  | columnMapNotAscending
  | columnMapEntry (column : Nat)
  | entryOutside (row column start stop columns : Nat)
  | gatheredPointers (found expected : Nat)
  | emptyMember (member : Nat)
  | memberFirstPointer (member : Nat) (first : Int)
  | memberDecreases (member : Nat) (previous next : Int)
  | negativeColumn (column : Int)
  | indexTooLarge (index : Nat)

/-- Engine calls that came too early, too late or with the wrong sizes. -/
inductive EngineError where
  | stillReferenced
  | alreadyStarted
  | notRunning
  | resourcesBeforeStartup
  | notSquare (rows columns : Nat)
  | partition (offsets : List Nat) (rows teams : Nat)
  | blockRows (found assigned : Nat)
  | setupBeforeUpload
  | bindBeforeUpload
  | uploadLength (found bound : Nat)
  | downloadLength (stored asked : Nat)
  | solveBeforeSetup
  | solveLengths (rhs x rows : Nat)
  | statusBeforeSolve

/-- A cause of refusal. -/
inductive Error where
  | config (cause : ConfigError)
  | topology (cause : TopologyError)
  | dimension (cause : DimensionError)
  | matrix (cause : MatrixError)
  | engine (cause : EngineError)

/-- How an operation can fail. -/
inductive Failure where
  | refused (cause : Error)
  | aborted

/-- The outcome of an operation: a value or a failure. -/
abbrev Attempt (α : Type) : Type := Except Failure α

def Attempt.abort {α : Type} : Attempt α := .error .aborted

/-- Aborts unless the condition holds. -/
def Attempt.insist (condition : Bool) : Attempt Unit := if condition then .ok () else .abort

/-- The value, if there is one; aborts otherwise. -/
def Attempt.ofOption {α : Type} : Option α → Attempt α
  | some value => .ok value
  | none => .abort

instance : Coe ConfigError Failure := ⟨fun cause => .refused (.config cause)⟩
instance : Coe TopologyError Failure := ⟨fun cause => .refused (.topology cause)⟩
instance : Coe DimensionError Failure := ⟨fun cause => .refused (.dimension cause)⟩
instance : Coe MatrixError Failure := ⟨fun cause => .refused (.matrix cause)⟩
instance : Coe EngineError Failure := ⟨fun cause => .refused (.engine cause)⟩

def ConfigError.message : ConfigError → String
  | unsupportedMode text => s!"mode {quoted text} not supported"
  | noDevices => "no devices to assign processes to"
  | unreadable path reason => s!"cannot read solver config {path}: {reason}"
  | malformed => "invalid solver config"
  | tolerance value => s!"solver tolerance must be positive, got {plain value}"
  | missing path => s!"solver config {path} does not exist"
  | noAccelerators node => s!"no accelerator devices on node {node}"
  | deviceQuery reason => reason

def TopologyError.message : TopologyError → String
  | rankOutside rank processes =>
    s!"local rank {rank} out of range for {processes} node-local processes"
  | deviceTooLarge device => s!"device index {device} too large"
  | noTeamGroup => "device team split returned no group"
  | alreadyInitialized => "this solver instance has already been initialized"
  | notInitialized => "solver instance has not been initialized"
  | otherTeamsMisordered processes =>
    s!"rows of {processes} process(es) in other teams do not follow team order"
  | rejectedByLead => "team lead rejected the team's rows"
  | noMatrix => "solve called before set_matrix"
  | noSolverGroup => "team lead without a solver group"
  | noMergedBlock => "team lead received no merged block"
  | memberStart member start expected =>
    s!"team member {member} starts at row {start}, expected {expected}"
  | teamsMisplaced offsets start rows =>
    s!"team rows do not follow solver-group order: partition {bracketed offsets}, " ++
      s!"this team starts at row {start}, matrix has {rows} rows"
  | layoutMismatch holders leads =>
    "engine resources are shared only by instances with the same device layout " ++
      s!"({holders} of {leads} leads already hold resources)"

def DimensionError.message : DimensionError → String
  | teamVector found expected => s!"team vector has {found} entries, layout expects {expected}"
  | noTeamVector => "team lead has no vector to scatter"
  | localVector found expected => s!"local vector has {found} entries, layout expects {expected}"
  | vectors processes x b rows =>
    s!"vector lengths disagree with the matrix rows on {processes} process(es) " ++
      s!"(here: x = {x}, b = {b}, rows = {rows})"

def MatrixError.message : MatrixError → String
  | pointerCount found rows => s!"row pointer length {found} does not match {rows} rows"
  | firstPointer => "row pointer must start at 0"
  | columnCount columns values => s!"{columns} column indices for {values} values"
  | lastPointer pointer entries => s!"last row pointer {pointer} does not match nnz {entries}"
  | pointerDecreases row => s!"row pointer decreases at row {row}"
  | columnOutside column row columns =>
    s!"column {column} out of range in row {row} (ncols = {columns})"
  | columnsNotAscending row => s!"column indices of row {row} are not strictly ascending"
  | blockRows diagonal offDiagonal =>
    s!"diagonal block has {diagonal} rows, off-diagonal block has {offDiagonal}"
  | rowsOutside start stop rows => s!"rows {halfOpen start stop} exceed global row count {rows}"
  | columnsOutside start stop columns =>
    s!"column partition {halfOpen start stop} exceeds global column count {columns}"
  | columnMapLength columns entries =>
    s!"off-diagonal block has {columns} columns but the column map has {entries} entries"
  | columnMapNotAscending => "column map is not strictly ascending"
  | columnMapEntry column =>
    s!"column map entry {column} lies inside the diagonal range or past the last column"
  | entryOutside row column start stop columns =>
    s!"entry ({row}, {column}) outside rows {halfOpen start stop} or past column {columns}"
  | gatheredPointers found expected =>
    s!"gathered {found} row pointers, segment table expects {expected}"
  | emptyMember member => s!"member {member} sent an empty row-pointer array"
  | memberFirstPointer member first =>
    s!"row pointers of member {member} start at {first}, expected 0"
  | memberDecreases member previous next =>
    s!"row pointers of member {member} decrease ({previous} -> {next})"
  | negativeColumn column => s!"negative column index {column} in team block"
  | indexTooLarge index => s!"index {index} does not fit in 64 bits"

def EngineError.message : EngineError → String
  | stillReferenced => "engine resources still referenced at teardown"
  | alreadyStarted => "engine already started"
  | notRunning => "engine is not running"
  | resourcesBeforeStartup => "resources requested before startup"
  | notSquare rows columns => s!"matrix is not square: {rows} rows, {columns} columns"
  | partition offsets rows teams =>
    s!"partition table {bracketed offsets} does not describe {rows} rows over {teams} teams"
  | blockRows found assigned => s!"team block has {found} rows, partition assigns {assigned}"
  | setupBeforeUpload => "setup before matrix upload"
  | bindBeforeUpload => "bind before matrix upload"
  | uploadLength found bound =>
    s!"vector upload of {found} entries into a vector bound to {bound} rows"
  | downloadLength stored asked => s!"download of {stored} entries into a buffer of {asked}"
  | solveBeforeSetup => "solve before setup"
  | solveLengths rhs x rows => s!"solve with rhs of {rhs} and x of {x} entries for {rows} rows"
  | statusBeforeSolve => "status requested before solve"

/-- The full text of a cause: its area and its message. -/
def Error.message : Error → String
  | config cause => "Configuration error: " ++ cause.message
  | topology cause => "Topology error: " ++ cause.message
  | dimension cause => "Dimension error: " ++ cause.message
  | matrix cause => "Matrix error: " ++ cause.message
  | engine cause => "Engine error: " ++ cause.message

end DeviceTeams
