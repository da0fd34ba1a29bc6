import DeviceTeams.Session.Store

/-!
# Running a session

A rank carries out its commands one after the other. After a command that was refused or aborted it
goes on with the next one, and what that command had changed before stays changed. A command on an
object that the rank does not hold does nothing.
-/
namespace DeviceTeams.Session

variable {S : Type}

/-- A command's work on the objects of its rank. -/
abbrev Act (S : Type) : Type → Type := Work S (Objects S)

/-- Goes on with an object; does nothing if there is none. -/
def holding {α : Type} (object : Option α) (act : α → Act S (Answer S)) : Act S (Answer S) :=
  match object with
  | some value => act value
  | none => pure .nothing

def onSolver (name : String) (step : Attached.Step S (Answer S)) : Act S (Answer S) := do
  holding ((← get).attached? name) fun (number, state) => ExceptT.mk fun objects => do
    let (outcome, state) ← step.start state
    pure (outcome, objects.putAttached name number state)

/-- Drops a solver instance, if there is one of that name. -/
def releaseSolver (name : String) : Act S Unit := do
  let _ ← onSolver name do
    Attached.drop
    pure .nothing
  modify fun objects => { objects with solvers := objects.solvers.without name }

def engine? (objects : Objects S) : EngineName → Option Engine
  | .own name => objects.engines.get? name
  | .ofContext name => (objects.context? name).map (·.2.engine)

def putEngine (objects : Objects S) (engine : EngineName) (state : Engine) : Objects S :=
  match engine with
  | .own name => { objects with engines := objects.engines.put name state }
  | .ofContext name =>
    match objects.context? name with
    | some (number, context) => objects.putContext number { context with engine := state }
    | none => objects

/-- Asks for room for the values that a command is to receive. Nothing is sent before it is
there. -/
def makeRoom (kind : Element) (length : Nat) : Act S Unit :=
  Work.ofAttempt (Word.request length kind.width)

def keepGroup (name : String) (group : Group) : Act S (Answer S) := do
  modify fun objects => { objects with groups := objects.groups.put name group }
  pure (.group group)

section
variable [Scalar S]

def GroupCommand.act (group : Group) : GroupCommand S → Act S (Answer S)
  | info => do
    pure (.member group (← Work.ofAttempt group.nodeName) (← Work.ofAttempt group.node))
  | barrier => do
    Work.ofTask group.barrier
    pure .nothing
  | duplicate as => do keepGroup as (← Work.ofTask group.duplicate)
  | splitByNode as => do keepGroup as (← Work.ofTask group.splitByNode)
  | split color key as => do
    match ← Work.ofTask (group.split color key) with
    | some part => keepGroup as part
    | none =>
      modify fun objects => { objects with groups := objects.groups.without as }
      pure .nothing
  | allGather kind value => do pure (.elements kind (← Work.ofTask (group.allGather kind value)))
  | sum value => do pure (.scalar (← Work.ofTask (group.sum value)))
  | sumCounts value => do pure (.count (← Work.ofTask (group.sumCounts value)))
  | sumVector values => do pure (.elements .real (← Work.ofTask (group.sumVector values)))
  | broadcast kind root values =>
    do pure (.elements kind (← Work.ofTask (group.broadcast kind root values)))
  | gather kind counts values => do
    let table ← Work.ofAttempt (SegmentTable.ofCounts counts)
    match ← Work.ofTask (group.gather kind values table) with
    | some all => pure (.elements kind all)
    | none => pure .nothing
  | scatter kind counts values length => do
    let table ← Work.ofAttempt (SegmentTable.ofCounts counts)
    makeRoom kind length
    pure (.elements kind (← Work.ofTask (group.scatter kind values table length)))
  | partition rows => do
    let counts : List Nat ← Work.ofTask (group.allGather .word64 rows)
    let table ← Work.ofAttempt (RowPartition.ofCounts counts)
    pure (.partition table (← Work.ofAttempt (table.range group.rank)))
  | layout length as => do
    let layout ← Work.ofTask (VectorLayout.exchangeLengths group length)
    modify fun objects => { objects with layouts := objects.layouts.put as layout }
    pure (.lengths (← Work.ofAttempt layout.localLength) layout.teamLength)
  | layoutGather name values => do
    holding ((← get).layouts.get? name) fun layout => do
      match ← Work.ofTask (layout.gather group values) with
      | some all => pure (.elements .real all)
      | none => pure .nothing
  | layoutScatter name values length => do
    holding ((← get).layouts.get? name) fun layout => do
      makeRoom .real length
      let blank : List S := List.replicate length Scalar.zero
      let (outcome, buffer) ← ExceptT.lift
        (StateT.lift ((layout.scatterInto group values).start blank))
      Work.ofAttempt outcome
      pure (.elements .real buffer)
  | merge block => do pure (.merged (← Work.ofTask (mergeTeam group block)))
  | topology devices as => do
    let hierarchy ← Work.ofTask (Hierarchy.build group devices.count)
    modify fun objects => { objects with hierarchies := objects.hierarchies.put as hierarchy }
    pure (.hierarchy hierarchy)
  | initSolver solver mode path file devices =>
    onSolver solver do
      Attached.establish group mode path file devices
      pure .nothing

def EngineCommand.act (name : EngineName) (engine : Engine) : EngineCommand S → Act S (Answer S)
  | startup => do
    let started ← Work.ofAttempt engine.startup
    modify fun objects => putEngine objects name started
    pure .nothing
  | shutdown => do
    let stopped ← Work.ofAttempt engine.shutdown
    modify fun objects => putEngine objects name stopped
    pure .nothing
  | state => pure (.engine engine)
  | loadConfig path file as => do
    let settings : Settings S ← Work.ofAttempt (Settings.toScalar <$> Settings.load path file)
    modify fun objects => { objects with configs := objects.configs.put as settings }
    pure (.settings settings)
  | createResources config group as => do
    holding ((← get).configs.get? config) fun _ => do
      holding ((← get).group? group) fun leads => do
        let made ← Work.ofTask (engine.createResources leads)
        modify fun objects => { objects with resources := objects.resources.put as made }
        pure .nothing
  | createMatrix resources mode as => do
    holding ((← get).resources.get? resources) fun shared => do
      let _ ← Work.ofAttempt (Mode.ofTag mode)
      modify fun objects => { objects with matrices := objects.matrices.put as (.create shared) }
      pure .nothing
  | createVector resources mode as => do
    holding ((← get).resources.get? resources) fun _ => do
      let _ ← Work.ofAttempt (Mode.ofTag mode)
      modify fun objects => { objects with vectors := objects.vectors.put as .create }
      pure .nothing
  | createSolver resources mode config as => do
    holding ((← get).resources.get? resources) fun shared => do
      holding ((← get).configs.get? config) fun settings => do
        let _ ← Work.ofAttempt (Mode.ofTag mode)
        modify fun objects =>
          { objects with engineSolvers := objects.engineSolvers.put as (.create shared settings) }
        pure .nothing
  | uploadMatrix matrix globalRows block counts => do
    holding ((← get).matrices.get? matrix) fun handle => do
      let partition ← Work.ofAttempt (RowPartition.ofCounts counts)
      let handle ← Work.ofAttempt (handle.upload globalRows block partition)
      modify fun objects => { objects with matrices := objects.matrices.put matrix handle }
      pure .nothing
  | setup solver matrix => do
    holding ((← get).engineSolvers.get? solver) fun handle => do
      holding ((← get).matrices.get? matrix) fun uploaded => do
        let handle ← Work.ofAttempt (handle.setup uploaded)
        modify fun objects =>
          { objects with engineSolvers := objects.engineSolvers.put solver handle }
        pure .nothing
  | bindVector vector matrix => do
    holding ((← get).vectors.get? vector) fun handle => do
      holding ((← get).matrices.get? matrix) fun uploaded => do
        let handle ← Work.ofAttempt (handle.bind uploaded)
        modify fun objects => { objects with vectors := objects.vectors.put vector handle }
        pure .nothing
  | uploadVector vector values => do
    holding ((← get).vectors.get? vector) fun handle => do
      let handle ← Work.ofAttempt (handle.upload values)
      modify fun objects => { objects with vectors := objects.vectors.put vector handle }
      pure .nothing
  | downloadVector vector length => do
    holding ((← get).vectors.get? vector) fun handle => do
      makeRoom .real length
      pure (.elements .real (← Work.ofAttempt (handle.download length)))
  | solve solver rhs x => do
    holding ((← get).engineSolvers.get? solver) fun handle => do
      holding ((← get).vectors.get? rhs) fun b => do
        holding ((← get).vectors.get? x) fun guess => do
          let (outcome, handle, solution) ← ExceptT.lift (StateT.lift (handle.solve b guess))
          modify fun objects => { objects with
            engineSolvers := objects.engineSolvers.put solver handle
            vectors := objects.vectors.put x solution }
          Work.ofAttempt outcome
          pure .nothing
  | status solver => do
    holding ((← get).engineSolvers.get? solver) fun handle => do
      pure (.status (← Work.ofAttempt handle.lastStatus))
  | destroyConfig name => do
    modify fun objects => { objects with configs := objects.configs.without name }
    pure .nothing
  | destroyResources name => do
    modify fun objects => { objects with resources := objects.resources.without name }
    pure .nothing
  | destroyMatrix name => do
    modify fun objects => { objects with matrices := objects.matrices.without name }
    pure .nothing
  | destroyVector name => do
    modify fun objects => { objects with vectors := objects.vectors.without name }
    pure .nothing
  | destroySolver name => do
    modify fun objects => { objects with engineSolvers := objects.engineSolvers.without name }
    pure .nothing

def Command.act : Command S → Act S (Answer S)
  | onGroup name command => do
    holding ((← get).group? name) fun group => command.act group
  | forget name => do
    modify fun objects => { objects with
      groups := objects.groups.without name
      hierarchies := objects.hierarchies.without name }
    pure .nothing
  | layoutFrom counts rank as => do
    let table ← Work.ofAttempt (SegmentTable.ofCounts counts)
    let layout : VectorLayout := ⟨table, rank⟩
    modify fun objects => { objects with layouts := objects.layouts.put as layout }
    pure (.inner (layout.localLength.map fun own => (own, layout.teamLength)))
  | newContext visible as => do
    modify fun objects => { objects with
      contexts := objects.contexts.push (.ofEngine (.seeing visible))
      contextNames := objects.contextNames.put as objects.contexts.size }
    pure .nothing
  | newSolver context as => do
    holding ((← get).context? context) fun (number, _) => do
      releaseSolver as
      modify fun objects => { objects with solvers := objects.solvers.put as ⟨number, .create⟩ }
      pure .nothing
  | setMatrix solver matrix => do
    let share ← Work.ofAttempt matrix.make
    onSolver solver do
      Attached.setMatrix share
      pure .nothing
  | solve solver x b =>
    onSolver solver do
      let (status, x) ← Attached.solve x b
      pure (.solution status x)
  | finalize solver =>
    onSolver solver do
      Attached.finalize
      pure .nothing
  | dropSolver solver => do
    releaseSolver solver
    pure .nothing
  | solverState solver => do
    holding ((← get).attached? solver) fun (_, state) =>
      pure (.solver state.solver state.context.instances)
  | contextState context => do
    holding ((← get).context? context) fun (_, state) => pure (.context state)
  | newEngine visible as => do
    modify fun objects => { objects with engines := objects.engines.put as (.seeing visible) }
    pure .nothing
  | onEngine name command => do
    holding (engine? (← get) name) fun engine => command.act name engine

/-- Carries out the commands of one rank; where there is none the rank skips the step. -/
def carryOut : List (Option (Command S)) → Objects S → Program S (List (Report S))
  | [], _ => pure []
  | none :: rest, objects => do
    pure (.skipped :: (← carryOut rest objects))
  | some command :: rest, objects => do
    let ((outcome, objects), events) ← (command.act.start objects).collectEvents
    pure (.carriedOut outcome events :: (← carryOut rest objects))

/-- Runs every rank's commands. The answer lists what each rank has reported; nothing for a rank
that waits forever. `nodes` tells on which node each rank runs. -/
def run (nodes : List Nat) (commands : List (List (Option (Command S)))) :
    List (Option (List (Report S))) :=
  let programs := commands.mapIdx fun rank steps => carryOut steps (.initial (.world nodes rank))
  (World.start programs).run.results

end
end DeviceTeams.Session
