import DeviceTeams.Layout.Blocks
import DeviceTeams.Solver.Instance

/-!
# Commands and answers of a session

A session drives the library by commands over named objects. Every rank of a world carries out its
own list of commands and holds its own objects. A command names the objects it works on and the name
under which it stores what it makes.
-/
namespace DeviceTeams.Session

/-- The ways to give a rank its share of a matrix. -/
inductive MatrixSource (S : Type) where
  | triplets (globalRows globalCols : Nat) (rows cols : Span) (entries : List (Triplet S))
  | blocks (share : RowShare S)

def MatrixSource.make {S : Type} [Scalar S] : MatrixSource S → Attempt (RowShare S)
  | triplets globalRows globalCols rows cols entries =>
    RowShare.ofTriplets globalRows globalCols rows cols entries
  | blocks share => share.assemble

/-- How the device count of a node is found out. -/
inductive DeviceSource where
  | perProcess
  | fixed (count : Nat)
  | failing (reason : String)
deriving Repr

def DeviceSource.count (source : DeviceSource) (node : Group) : Attempt Nat :=
  match source with
  | perProcess => .ok node.size
  | fixed count => .ok count
  | failing reason => .error (ConfigError.deviceQuery reason)

inductive GroupCommand (S : Type) where
  | info
  | barrier
  | duplicate (as : String)
  | splitByNode (as : String)
  | split (color : Option Nat) (key : Nat) (as : String)
  | allGather (kind : Element) (value : kind.Carrier S)
  | sum (value : S)
  | sumCounts (value : Nat)
  | sumVector (values : List S)
  | broadcast (kind : Element) (root : Nat) (values : List (kind.Carrier S))
  | gather (kind : Element) (counts : List Nat) (values : List (kind.Carrier S))
  | scatter (kind : Element) (counts : List Nat)
      (values : Option (List (kind.Carrier S))) (length : Nat)
  | partition (rows : Nat)
  | layout (length : Nat) (as : String)
  | layoutGather (layout : String) (values : List S)
  | layoutScatter (layout : String) (values : Option (List S)) (length : Nat)
  | merge (block : Csr S)
  | topology (devices : DeviceSource) (as : String)
  | initSolver (solver mode path : String) (file : ConfigFile) (devices : DeviceRequest)

/-- The engine that a command works on: one of the session's own, or that of a context. -/
inductive EngineName where
  | own (name : String)
  | ofContext (name : String)

inductive EngineCommand (S : Type) where
  | startup
  | shutdown
  | state
  | loadConfig (path : String) (file : ConfigFile) (as : String)
  | createResources (config group as : String)
  | createMatrix (resources mode as : String)
  | createVector (resources mode as : String)
  | createSolver (resources mode config as : String)
  | uploadMatrix (matrix : String) (globalRows : Nat) (block : Csr S) (counts : List Nat)
  | setup (solver matrix : String)
  | bindVector (vector matrix : String)
  | uploadVector (vector : String) (values : List S)
  | downloadVector (vector : String) (length : Nat)
  | solve (solver rhs x : String)
  | status (solver : String)
  | destroyConfig (name : String)
  | destroyResources (name : String)
  | destroyMatrix (name : String)
  | destroyVector (name : String)
  | destroySolver (name : String)

inductive Command (S : Type) where
  | onGroup (group : String) (command : GroupCommand S)
  | forget (name : String)
  | layoutFrom (counts : List Nat) (rank : Nat) (as : String)
  | newContext (visible : Nat) (as : String)
  | newSolver (context as : String)
  | setMatrix (solver : String) (matrix : MatrixSource S)
  | solve (solver : String) (x b : List S)
  | finalize (solver : String)
  | dropSolver (solver : String)
  | solverState (solver : String)
  | contextState (context : String)
  | newEngine (visible : Nat) (as : String)
  | onEngine (engine : EngineName) (command : EngineCommand S)

inductive Answer (S : Type) where
  | nothing
  | member (group : Group) (name : String) (node : Nat)
  | group (group : Group)
  | elements (kind : Element) (values : List (kind.Carrier S))
  | scalar (value : S)
  | count (value : Nat)
  | partition (table : RowPartition) (mine : Span)
  | lengths (own team : Nat)
  | inner (outcome : Attempt (Nat × Nat))
  | merged (merge : TeamMerge S)
  | hierarchy (hierarchy : Hierarchy)
  | solution (status : Status) (x : List S)
  | solver (solver : TeamSolver S) (instances : Nat)
  | context (context : Context)
  | engine (engine : Engine)
  | settings (settings : Settings S)
  | status (status : Status)

inductive Report (S : Type) where
  | skipped
  | carriedOut (outcome : Attempt (Answer S)) (events : List Event)

end DeviceTeams.Session
