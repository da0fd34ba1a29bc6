import DeviceTeams.CommandLine.Arguments
import DeviceTeams.Layout.Blocks
import DeviceTeams.Solver.Instance

/-!
# A run of the program

The program solves the linear system of the one-dimensional Laplacian, two on the diagonal and minus
one beside it, for a right-hand side of ones. Every rank owns a block of rows. The first rank
reports how the solve ended and how large the residual of the solution is.
-/
namespace DeviceTeams.CommandLine

structure Report (S : Type) where
  status : Status
  residual : S
  stats : Stats
deriving Repr

variable {S : Type} [Scalar S]

/-- The entries of one row of the Laplacian with `n` rows. -/
def laplacianRow (n row : Nat) : List (Triplet S) :=
  (if 0 < row then [⟨row, row - 1, -Scalar.one⟩] else []) ++
  [⟨row, row, Scalar.one + Scalar.one⟩] ++
  (if row + 1 < n then [⟨row, row + 1, -Scalar.one⟩] else [])

def laplacianRows (n : Nat) (rows : Span) : Attempt (List (Triplet S)) := do
  Word.request (← Word.mul 3 rows.length) 24
  pure ((List.range' rows.start rows.length).flatMap (laplacianRow n))

/-- The square of what is left of the equation of one row, for a right-hand side of one. -/
def squaredDefect (entries : List (Triplet S)) (x : Array S) (row : Nat) : Attempt S := do
  let terms ← (entries.filter (·.row == row)).mapM fun entry => do
    pure (entry.value * (← .ofOption x[entry.column]?))
  let defect := Scalar.one - Scalar.total terms
  pure (defect * defect)

def residual (group : Group) (n : Nat) (rows : Span) (entries : List (Triplet S)) (x : List S) :
    Task S S := do
  let before := List.replicate rows.start (Scalar.zero : S)
  let after := List.replicate (n - rows.stop) (Scalar.zero : S)
  let whole ← group.sumVector (before ++ x ++ after)
  let squares ← Task.ofAttempt do
    let all := whole.toArray
    (List.range' rows.start rows.length).mapM (squaredDefect entries all)
  pure (Scalar.root (← group.sum (squares.foldl (· + ·) Scalar.zero)))

/-- One rank's share of the run. The first rank answers with the report. -/
def runRank (options : Options) (file : ConfigFile) (group : Group) :
    Attached.Step S (Option (Report S)) := do
  let request := match options.devices with
    | some count => DeviceRequest.exactly count
    | none => DeviceRequest.automatic
  Attached.establish group options.mode options.config file request
  let rows ← Work.ofAttempt (blockSpan options.rows group.size group.rank)
  let entries ← Work.ofAttempt (laplacianRows options.rows rows)
  let share ← Work.ofAttempt (RowShare.ofTriplets options.rows options.rows rows rows entries)
  Attached.setMatrix share
  let ones := List.replicate rows.length (Scalar.one : S)
  let zeros := List.replicate rows.length (Scalar.zero : S)
  let (status, x) ← Attached.solve zeros ones
  let norm ← Work.ofTask (residual group options.rows rows entries x)
  let stats := (← get).solver.stats
  Attached.finalize
  pure (if group.isRoot then some ⟨status, norm, stats⟩ else none)

/-- The ranks of a run, each with a context of its own. Without a device count a node has one
accelerator. -/
def runAll (options : Options) (file : ConfigFile) : List (Option (Attempt (Option (Report S)))) :=
  let nodes := contiguousNodes options.ranks options.nodes
  let context := Context.ofEngine (.seeing (options.devices.getD 1))
  let programs := (List.range nodes.length).map fun rank => do
    let (outcome, _) ← (runRank options file (Group.world nodes rank)).start ⟨context, .create⟩
    pure outcome
  (World.start programs).run.results

/-- What a run leaves behind: its exit code, and the lines it writes. -/
structure Output where
  exit : Nat
  stdout : List String
  stderr : List String
deriving DecidableEq, Repr

/-- How a run writes down times. -/
structure Clock where
  /-- Seconds for the report line. -/
  elapsed : String
  /-- Nanoseconds in a right-aligned column. -/
  column : Nat → String
  /-- Nanoseconds since the start. -/
  total : Nat

/-- Seconds with three decimals. -/
def seconds (nanos : Nat) : String :=
  let millis := toString ((nanos + 500000) / 1000000)
  let padded := ("".pushn '0' (4 - millis.length) ++ millis).toList
  String.ofList (padded.take (padded.length - 3)) ++ "." ++
    String.ofList (padded.drop (padded.length - 3)) ++ "s"

def Clock.after (nanos : Nat) : Clock where
  elapsed := seconds nanos
  column phase := "".pushn ' ' (9 - (seconds phase).length) ++ seconds phase
  total := nanos

def Report.line (options : Options) (clock : Clock) (report : Report Float) : String :=
  s!"rows={options.rows} ranks={options.ranks} status={report.status.name} " ++
    s!"residual={Text.scientific 3 report.residual} time={clock.elapsed}"

def failureLine (rank : Nat) (cause : Error) : String := s!"Error on rank {rank}: {cause.message}"

def abortedExit : Nat := 101

/-- The output of a run whose ranks have ended in the given way. -/
def summarize (options : Options) (clock : Clock)
    (outcomes : List (Option (Attempt (Option (Report Float))))) : Output :=
  let reports := outcomes.filterMap fun
    | some (.ok report) => report
    | _ => none
  let failures := outcomes.zipIdx.filterMap fun
    | (some (.error (.refused cause)), rank) => some (failureLine rank cause)
    | _ => none
  let finished := outcomes.all fun
    | some (.ok _) | some (.error (.refused _)) => true
    | _ => false
  let tables := if options.stats then
      reports.flatMap fun report => report.stats.table clock.column clock.total
    else []
  if finished then
    ⟨if failures.isEmpty then 0 else 1, reports.map (·.line options clock), tables ++ failures⟩
  else ⟨abortedExit, [], tables⟩

def versionLine : String := "teamsolve 0.1.0"

def helpLines : List String := [
  "Solve a 1-D Laplacian through device teams of simulated ranks",
  "",
  "Usage: teamsolve [OPTIONS] --config <CONFIG>",
  "",
  "Options:",
  "      --config <CONFIG>    Solver config file (TOML)",
  "      --ranks <RANKS>      Number of simulated ranks [default: 4]",
  "      --nodes <NODES>      Number of simulated nodes the ranks are spread over [default: 1]",
  "      --devices <DEVICES>  Devices per node (default: visible devices, or node size in host modes)",
  "      --rows <ROWS>        Global number of unknowns [default: 64]",
  "      --mode <MODE>        Engine mode (dDDI or hDDI) [default: hDDI]",
  "      --stats              Print performance stats to stderr",
  "  -h, --help               Print help",
  "  -V, --version            Print version"]

/-- What has come of a request: lines to write, or a run whose ranks have ended. -/
inductive Result where
  | written (output : Output)
  | ran (options : Options) (outcomes : List (Option (Attempt (Option (Report Float)))))

/-- Carries out a request. `file` tells what is at a path. -/
def execute (request : Request) (file : String → ConfigFile) : Result :=
  match request with
  | .misuse => .written ⟨2, [], ["error: the arguments are not understood", "",
      "Usage: teamsolve [OPTIONS] --config <CONFIG>", "", "For more information, try '--help'."]⟩
  | .help => .written ⟨0, helpLines, []⟩
  | .version => .written ⟨0, [versionLine], []⟩
  | .solve options =>
    if options.ranks = 0 ∨ options.rows = 0 then
      .written ⟨1, [], ["Error: --ranks and --rows must be positive"]⟩
    else .ran options (runAll options (file options.config))

def Result.output (result : Result) (clock : Clock) : Output :=
  match result with
  | written output => output
  | ran options outcomes => summarize options clock outcomes

end DeviceTeams.CommandLine
