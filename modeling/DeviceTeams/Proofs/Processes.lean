import DeviceTeams.Proofs.Failures
import DeviceTeams.Proofs.Histories

/-!
# Processes with several instances

A process has one engine context and any number of solver instances. Whatever calls the processes of
a world return from, in groups of any kind, the engine of a process runs exactly while the process
holds resources.
-/
namespace DeviceTeams

variable {S : Type}

/-! ## Contexts -/

/-- The engine runs while there are resources, and every user holds one reference to them. -/
structure Context.Steady (visible : Nat) (c : Context) : Prop where
  visible_eq : c.engine.visible = visible
  running_eq : c.engine.running = c.shared.isSome
  users_eq : c.users = c.shared.elim 0 (·.references)

namespace Context

variable {visible : Nat} {c : Context}

theorem Steady.register (steady : c.Steady visible) : c.register.Steady visible :=
  ⟨steady.visible_eq, steady.running_eq, steady.users_eq⟩

theorem Steady.unregister (steady : c.Steady visible) : c.unregister.Steady visible :=
  ⟨steady.visible_eq, steady.running_eq, steady.users_eq⟩

inductive Answers (c : Context) : Attempt Resources → Context → Prop
  | joined {shared : SharedResources} : c.shared = some shared →
      Answers c (.ok shared.resources) c.joined
  | started {resources : Resources} {leads : Nat} : c.shared = none →
      Answers c (.ok resources) (c.opened resources leads)
  | refused {cause : Error} : cause.Other → Answers c (.error (.refused cause)) c
  | aborted {c' : Context} : Answers c (.error .aborted) c'

/-- The engine runs although there are no resources: it has been started from elsewhere. -/
def Occupied (c : Context) : Prop := c.shared = none ∧ c.engine.running = true

theorem Steady.not_occupied (steady : c.Steady visible) : ¬ c.Occupied := by
  rintro ⟨free, runs⟩
  rw [steady.running_eq, free] at runs
  cases runs

/-- A context that holds no resources starts the engine and opens new ones, if all leads do so. An
engine that runs already cannot be started. -/
theorem openResources_answers (free : c.shared = none) (leads : Group) :
    ((Context.openResources (S := S) leads).start c).Always fun ended => c.Answers ended.1 ended.2 ∨
      c.Occupied ∧ ended = (.error EngineError.alreadyStarted, c) := by
  cases stopped : c.engine.running with
  | true =>
    have barred : c.engine.startup = .error EngineError.alreadyStarted := if_pos stopped
    rw [Context.openResources, Work.start_get_bind, barred, Work.start_ofAttempt_bind]
    exact .inr ⟨⟨free, stopped⟩, rfl⟩
  | false =>
    let started : Engine := { c.engine with running := true, startups := c.engine.startups + 1 }
    have startup : c.engine.startup = .ok started := by
      rw [Engine.startup, if_neg (by simp [stopped])]
    -- A running engine does not refuse to create resources.
    have created : (started.createResources leads : Task S Resources).Within fun _ => False :=
      leads.duplicate_within.bind fun _ => Task.within_pure _
    have asked : ∀ task : Task S Resources, task.outcome.run = task.run >>=
      fun outcome => .finished (.ok outcome) :=
      fun _ => map_eq_pure_bind ..
    rw [Context.openResources, Work.start_get_bind, startup, Work.start_ofAttempt_bind,
      Work.following_ok, Work.start_set_bind, Work.start_ofTask_bind, asked, bind_assoc]
    refine Program.Always.bind created fun outcome within => ?_
    rw [Program.finished_bind, Work.following_ok]
    rcases outcome with (cause | _) | resources
    · exact within.elim
    · exact .inl .aborted
    · exact .inl (.started free)

/-- The answer of a context depends on whether it holds resources, whatever the other leads do. -/
theorem acquire_answers (c : Context) (leads : Group) :
    ((Context.acquire (S := S) leads).start c).Always fun ended => c.Answers ended.1 ended.2 ∨
      c.Occupied ∧ ended = (.error EngineError.alreadyStarted, c) := by
  have counts : ∀ count, (leads.sumCounts count : Task S Nat).Within fun _ => False :=
    leads.sumCounts_within
  rw [start_acquire, Work.start_ofTask_bind]
  refine Program.Always.bind (counts _) fun holders within => ?_
  rcases holders with (cause | _) | holders
  · exact within.elim
  · exact .inl .aborted
  · rw [Work.following_ok, Work.start_ofTask_bind]
    refine Program.Always.bind (counts _) fun resized within => ?_
    rcases resized with (cause | _) | resized
    · exact within.elim
    · exact .inl .aborted
    · rw [Work.following_ok, answer]
      split
      · exact .inl (.refused trivial)
      · cases held : c.shared with
        | some shared =>
          have answer : c.Answers (.ok shared.resources) { c with
              users := c.users + 1
              shared := some { shared with references := shared.references + 1 } } := by
            have joins := Answers.joined held
            rwa [joined, held] at joins
          exact .inl answer
        | none => exact openResources_answers held leads

/-- Any answer leaves a steady context steady, unless the request is aborted. -/
theorem Steady.answers (steady : c.Steady visible) {outcome : Attempt Resources} {c' : Context}
    (answers : c.Answers outcome c') : outcome = .error .aborted ∨ c'.Steady visible := by
  cases answers with
  | @joined shared held =>
    refine .inr ⟨steady.visible_eq, ?_, ?_⟩
    · simp [joined, steady.running_eq, held]
    · simp [joined, steady.users_eq, held]
  | started free => exact .inr ⟨steady.visible_eq, rfl, rfl⟩
  | refused other => exact .inr steady
  | aborted => exact .inl rfl

def released (c : Context) : Context where
  engine := if c.users ≤ 1 ∧ c.shared.isSome then
    { c.engine with running := false, shutdowns := c.engine.shutdowns + 1 } else c.engine
  instances := c.instances
  users := c.users - 1
  shared := if c.users ≤ 1 then none
    else c.shared.map fun shared => { shared with references := shared.references - 1 }
  leads := c.leads

/-- The context of a process that has given up its hold while the engine did not run: the engine is
left as it was. -/
def abandoned (c : Context) : Context := { c.released with engine := c.engine }

/-- Giving up a hold on resources is the process' own business. The last user is refused if the
engine does not run. -/
theorem start_release_held {shared : SharedResources} (held : c.shared = some shared)
    (counted : c.users = shared.references) : (release (S := S)).start c = .finished
      (if c.users ≤ 1 ∧ c.engine.running = false then (.error EngineError.notRunning, c.abandoned)
      else (.ok (decide (c.users ≤ 1)), c.released)) := by
  obtain ⟨engine, instances, users, _, leads⟩ := c
  simp only at held counted
  subst held counted
  rw [release, Work.start_modify_bind, Work.start_get_bind]
  by_cases last : shared.references ≤ 1
  · have none_left : shared.references - 1 = 0 := by omega
    cases running : engine.running with
    | false =>
      have refused : engine.shutdown = .error EngineError.notRunning := by
        rw [Engine.shutdown, running]
        rfl
      simp [refused, abandoned, released, last, none_left]
    | true =>
      have stops : engine.shutdown =
          .ok { engine with running := false, shutdowns := engine.shutdowns + 1 } := by
        rw [Engine.shutdown, running]
        rfl
      simp [stops, released, last, none_left]
      rfl
  · have some_left : 0 < shared.references - 1 := by omega
    simp [released, last, some_left]

/-- In a steady context giving up a hold is refused only where there is no hold. -/
theorem Steady.start_release (steady : c.Steady visible) : (release (S := S)).start c = .finished
    (if c.shared.isSome then .ok (decide (c.users ≤ 1)) else .error EngineError.notRunning,
      c.released) := by
  have running := steady.running_eq
  have counted := steady.users_eq
  cases held : c.shared with
  | some shared =>
    rw [held, Option.isSome_some] at running
    rw [held, Option.elim_some] at counted
    rw [start_release_held held counted, if_neg (by simp [running])]
    rfl
  | none =>
    obtain ⟨engine, instances, users, shared, leads⟩ := c
    simp only at running counted held
    subst held
    simp only [Option.elim_none] at counted
    subst counted
    have stopped : engine.shutdown = .error EngineError.notRunning := by
      rw [Engine.shutdown, running]
      rfl
    rw [release, Work.start_modify_bind, Work.start_get_bind]
    simp [stopped, released]

/-- Giving up a hold takes one user and one reference. -/
theorem users_released (counted : c.users = c.shared.elim 0 (·.references)) :
    c.released.users = c.released.shared.elim 0 (·.references) := by
  by_cases last : c.users ≤ 1
  · simp [released, last]
  · cases held : c.shared with
    | none =>
      rw [held, Option.elim_none] at counted
      omega
    | some shared =>
      rw [held, Option.elim_some] at counted
      have users : c.released.users = shared.references - 1 := congrArg (· - 1) counted
      rw [users]
      simp [released, last, held]

theorem Steady.released (steady : c.Steady visible) : c.released.Steady visible := by
  refine ⟨?_, ?_, users_released steady.users_eq⟩
  · simp only [Context.released]
    split <;> exact steady.visible_eq
  · have running := steady.running_eq
    have counted := steady.users_eq
    cases held : c.shared with
    | none =>
      rw [held, Option.elim_none] at counted
      rw [held] at running
      simpa [Context.released, held, counted] using running
    | some shared =>
      rw [held] at running
      by_cases last : c.users ≤ 1
      · simp [Context.released, held, last]
      · simpa [Context.released, held, last] using running

end Context

/-! ## What an instance does to the context -/

variable [Scalar S] {visible : Nat} {a : Attached S}

omit [Scalar S] in
def TeamSolver.holds (s : TeamSolver S) : Bool := (s.state.bind (·.lead)).isSome

/-- What an initialization that is not aborted does: it opens the instance, with a hold on the
engine or without one, or it is refused and leaves everything as it was. -/
inductive Attached.Opens (a : Attached S) : Attempt Unit → Attached S → Prop
  | other {b : Attached S} : ¬ a.solver.isInitialized → b.solver.isInitialized → ¬ b.solver.holds →
      b.context = a.context.register → Opens a (.ok ()) b
  | joined {b : Attached S} {shared : SharedResources} : ¬ a.solver.isInitialized →
      b.solver.isInitialized →
      b.solver.holds → a.context.shared = some shared → b.context = a.context.register.joined →
      Opens a (.ok ()) b
  | started {b : Attached S} {resources : Resources} {leads : Nat} : ¬ a.solver.isInitialized →
      b.solver.isInitialized → b.solver.holds → a.context.shared = none →
      b.context = a.context.register.opened resources leads → Opens a (.ok ()) b
  | refused {b : Attached S} {cause : Error} : cause.Other → b.context = a.context →
      b.solver.state = a.solver.state →
      Opens a (.error (.refused cause)) b
  | aborted {b : Attached S} : Opens a (.error .aborted) b

omit [Scalar S] in
/-- A lead opens the instance as the answer to its request for resources says. -/
theorem Attached.Opens.of_answers {a : Attached S} (created : ¬ a.solver.isInitialized)
    (hierarchy : Hierarchy) (settings : Settings S) {outcome : Attempt Resources}
    {context : Context} (answers : a.registered.context.Answers outcome context) :
    a.Opens (Attached.closed hierarchy (a.registered.answered settings (outcome, context))).1
      (Attached.closed hierarchy (a.registered.answered settings (outcome, context))).2 := by
  cases answers with
  | joined held => exact .joined created rfl rfl held rfl
  | started free => exact .started created rfl rfl free rfl
  | refused other => exact .refused other rfl rfl
  | aborted => exact .aborted

omit [Scalar S] in
/-- A lead that drops the instance it has registered is refused as the cause says. -/
theorem Attached.Opens.of_dropped {a : Attached S} {failure : Failure}
    (other : Attempt.Within Error.Other (.error failure : Attempt Unit)) :
    a.Opens (.error failure) (a.registered.dropped failure) := by
  rcases failure with cause | _
  · exact .refused other rfl rfl
  · exact .aborted

omit [Scalar S] in
/-- A lead that finds the engine started from elsewhere is refused, and everything is left as it
was. -/
structure Attached.Barred (a : Attached S) (outcome : Attempt Unit) (b : Attached S) : Prop where
  free : a.context.shared = none
  runs : a.context.engine.running = true
  outcome_eq : outcome = .error EngineError.alreadyStarted
  context_eq : b.context = a.context
  state_eq : b.solver.state = a.solver.state

namespace Call

omit [Scalar S] in
theorem entry_other (call : Call) (a : Attached S) : (call.entry a).Within Error.Other := by
  have known : (Mode.ofTag call.mode).Within Error.Other := by simp [Mode.ofTag]
  simp only [entry, Attempt.throw_eq, Attempt.error_bind, Attempt.pure_eq, Attempt.within_ite,
    Attempt.within_bind, known]
  simp

omit [Scalar S] in
theorem entry_ok {call : Call} {a : Attached S} {mode : Mode} (entered : call.entry a = .ok mode) :
    ¬ a.solver.isInitialized := by
  intro initialized
  rw [entry, if_pos initialized] at entered
  cases entered

omit [Scalar S] in
theorem count_other (call : Call) (a : Attached S) (node : Group) :
    (call.count a node).Within Error.Other := by
  refine (call.entry_other a).bind fun mode => ?_
  simp [resolveDevices, node.nodeName_within]

theorem settings_other (call : Call) :
    (call.settings : Attempt (Settings S)).Within Error.Other := by
  have read : (call.file.read call.path).Within Error.Other := by
    cases call.file <;> simp [ConfigFile.read]
  refine Attempt.within_map.mpr (read.bind fun text => ?_)
  rw [Settings.ofToml]
  split
  · simp
  · simp [Settings.check]

/-- A rank that has a hierarchy opens an instance, or finds the engine started from elsewhere. -/
theorem opening_opens_or_barred (call : Call) {a : Attached S} (created : ¬ a.solver.isInitialized)
    (hierarchy : Hierarchy) :
    ((call.opening hierarchy).start a).Always fun ended => a.Opens ended.1 ended.2 ∨
    a.Barred ended.1 ended.2 := by
  cases lead : hierarchy.isLead with
  | false =>
    rw [Call.start_opening_other lead]
    exact .inl (.other created rfl (by simp [TeamSolver.holds, Attached.ready]) rfl)
  | true =>
    cases member : hierarchy.solver with
    | none =>
      have opened : (Attached.openLead (S := S) call.path call.file hierarchy).start a.registered =
          .finished (.error TopologyError.noSolverGroup, a.registered) := by
        rw [Attached.openLead, Attached.leadsOf, member, Work.start_ofAttempt_bind,
          Work.following_error]
      rw [Call.start_opening, Attached.openIfLead, if_pos lead, Work.start_tryCatch,
        Work.start_map, opened]
      exact .inl (.of_dropped (Error.other_topology .noSolverGroup))
    | some leads =>
      have readable := call.settings_other (S := S)
      cases loaded : (call.settings : Attempt (Settings S)) with
      | error failure =>
        rw [loaded] at readable
        rw [Call.start_opening_unreadable lead member loaded]
        exact .inl (.of_dropped (by cases failure <;> exact readable))
      | ok settings =>
        rw [Call.start_opening, Attached.start_openIfLead lead member loaded, bind_assoc]
        refine (a.registered.context.acquire_answers leads).bind fun answer answered => ?_
        rw [Program.finished_bind]
        obtain ⟨outcome, context⟩ := answer
        rcases answered with answers | ⟨⟨free, runs⟩, same⟩
        · have opens := Attached.Opens.of_answers created hierarchy settings answers
          cases outcome <;> exact .inl opens
        · cases same
          exact .inr ⟨free, runs, rfl, rfl, rfl⟩

/-- An initialization, whatever the other ranks do. -/
theorem opens_or_barred (call : Call) (a : Attached S) :
    ((call.work).start a).Always fun ended => a.Opens ended.1 ended.2 ∨
    a.Barred ended.1 ended.2 := by
  rw [Call.start_work]
  cases entered : call.entry a with
  | error failure =>
    have other := call.entry_other a
    rw [entered] at other
    rcases failure with cause | _
    · exact .inl (.refused other rfl rfl)
    · exact .inl .aborted
  | ok mode =>
    refine Program.Always.bind (Hierarchy.build_other (call.count_other a) call.group)
      fun outcome within => ?_
    rcases outcome with (cause | _) | hierarchy
    · exact .inl (.refused within rfl rfl)
    · exact .inl .aborted
    · rw [Work.following_ok]
      exact call.opening_opens_or_barred (entry_ok entered) hierarchy

/-- An initialization in a steady context. -/
theorem opens (call : Call) (steady : a.context.Steady visible) :
    ((call.work).start a).Always fun ended => a.Opens ended.1 ended.2 :=
  (call.opens_or_barred a).mono fun _ ended => ended.resolve_right fun barred =>
    steady.not_occupied ⟨barred.free, barred.runs⟩

/-- An initialization leaves a steady context steady. -/
theorem steady (call : Call) (steady : a.context.Steady visible) :
    ((call.work).start a).Always fun ended =>
    ended.1 = .error .aborted ∨ ended.2.context.Steady visible := by
  refine (call.opens steady).mono fun ended opens => ?_
  obtain ⟨outcome, b⟩ := ended
  cases opens with
  | other _ _ _ same => exact .inr (same ▸ steady.register)
  | joined _ _ _ held same =>
    exact .inr (same ▸ (steady.register.answers (.joined held)).resolve_left (by simp))
  | started _ _ _ free same =>
    exact .inr (same ▸ (steady.register.answers (.started free)).resolve_left (by simp))
  | refused _ same _ => exact .inr (same ▸ steady)
  | aborted => exact .inl rfl

end Call

omit [Scalar S] in
/-- Work that keeps the place of an instance keeps its hold on the engine. -/
theorem Attached.Kept.state_eq {b : Attached S} {inst : Instance S}
    (state : a.solver.state = some inst)
    (kept : b.Kept a.context inst.hierarchy (inst.lead.map (·.matrix.leads))) :
    b.context = a.context ∧ b.solver.isInitialized = a.solver.isInitialized ∧
    b.solver.holds = a.solver.holds := by
  obtain ⟨same, inst', state', _, place⟩ := kept
  have held := congrArg Option.isSome place
  rw [Option.isSome_map, Option.isSome_map] at held
  refine ⟨same, ?_, ?_⟩
  · simp [TeamSolver.isInitialized, state, state']
  · simp [TeamSolver.holds, state, state', held]

/-- Setting a matrix or solving does not touch the context, and an instance stays initialized and
keeps its hold on the engine. -/
theorem Use.state_eq (use : Use S) (a : Attached S) : ((use.work).start a).Always fun ended =>
    ended.2.context = a.context ∧ ended.2.solver.isInitialized = a.solver.isInitialized ∧
      ended.2.solver.holds = a.solver.holds := by
  cases state : a.solver.state with
  | some inst =>
    exact (use.keeps a ⟨rfl, inst, state, rfl, rfl⟩).mono fun _ kept => kept.state_eq state
  | none =>
    have refused : ∀ {α : Type} (f : Instance S → Attached.Step S α),
        (Attached.initialized >>= f).start a =
        .finished (.error TopologyError.notInitialized, a) := by
      intro α f
      rw [Attached.initialized, Work.start_bind, Work.start_get_bind, state]
      rfl
    cases use with
    | set matrix =>
      rw [Use.work, Attached.setMatrix, refused]
      exact ⟨rfl, rfl, rfl⟩
    | solve x b =>
      rw [Use.work, Work.start_map, Attached.solve, refused]
      exact ⟨rfl, rfl, rfl⟩

inductive Context.Leaves (c : Context) : Context → Prop
  | same : Leaves c c
  | unregistered : Leaves c c.unregister
  | released : Leaves c c.released
  | closed : Leaves c c.released.unregister

theorem Context.Steady.leaves {c c' : Context} (steady : c.Steady visible) (left : c.Leaves c') :
    c'.Steady visible := by
  cases left with
  | same => exact steady
  | unregistered => exact steady.unregister
  | released => exact steady.released
  | closed => exact steady.released.unregister

omit [Scalar S] in
/-- Finalizing an instance is the process' own business as well. It stops counting the instance only
if it can give up the hold of a lead. -/
theorem Attached.start_finalize_of {inst : Instance S} (found : a.solver.state = some inst)
    {outcome : Attempt Bool} {c : Context} (releases : inst.lead.isSome →
      (Context.release (S := S)).start a.context = .finished (outcome, c)) :
    (Attached.finalize (S := S)).start a = .finished
      (if inst.lead.isSome then
        (outcome.map fun _ => (),
          ⟨if outcome.toBool then c.unregister else c, { a.solver with state := none }⟩)
      else (.ok (), ⟨a.context.unregister, { a.solver with state := none }⟩)) := by
  rw [Attached.finalize, Work.start_get_bind, found]
  simp only [Attached.modifySolver, Work.start_modify_bind]
  by_cases lead : inst.lead.isSome
  · have freed : ∀ solver : TeamSolver S, (Attached.onContext (S := S) Context.release).start
        ⟨a.context, solver⟩ = (Context.release (S := S)).start a.context >>=
        fun answer => .finished (answer.1, ⟨answer.2, solver⟩) :=
      fun _ => rfl
    rw [if_pos lead, if_pos lead, Work.start_bind, freed, releases lead, Program.finished_bind,
      Program.finished_bind]
    cases outcome <;> rfl
  · rw [if_neg lead, if_neg lead]
    rfl

omit [Scalar S] in
theorem Attached.start_finalize (steady : a.context.Steady visible) {inst : Instance S}
    (found : a.solver.state = some inst) : (Attached.finalize (S := S)).start a = .finished
      (if inst.lead.isSome then
        if a.context.shared.isSome then
          (.ok (), ⟨a.context.released.unregister, { a.solver with state := none }⟩)
        else (.error EngineError.notRunning, ⟨a.context.released, { a.solver with state := none }⟩)
      else (.ok (), ⟨a.context.unregister, { a.solver with state := none }⟩)) := by
  rw [Attached.start_finalize_of found fun _ => steady.start_release]
  cases a.context.shared <;> rfl

omit [Scalar S] in
/-- Finalizing an instance gives up what it holds. -/
theorem Attached.finalize_leaves (steady : a.context.Steady visible) :
    ((Attached.finalize (S := S)).start a).Always fun ended =>
      a.context.Leaves ended.2.context := by
  cases found : a.solver.state with
  | none =>
    rw [Attached.finalize, Work.start_get_bind, found]
    exact .same
  | some inst =>
    rw [Attached.start_finalize steady found]
    show a.context.Leaves _
    split
    · split
      · exact .closed
      · exact .released
    · exact .unregistered

/-! ## Processes -/

/-- A process: its engine context and its instances, by number. -/
structure Process (S : Type) where
  context : Context
  instances : Nat → TeamSolver S

inductive Deed (S : Type) where
  | works (use : Use S)
  | closes

def Deed.part : Deed S → Attached.Step S Unit
  | works use => use.work
  | closes => Attached.finalize

theorem Deed.leaves (deed : Deed S) (steady : a.context.Steady visible) :
    ((deed.part).start a).Always fun ended => a.context.Leaves ended.2.context := by
  cases deed with
  | works use => exact (use.state_eq a).mono fun _ same => same.1 ▸ .same
  | closes => exact Attached.finalize_leaves steady

namespace Process

variable {S : Type}

def fresh (visible : Nat) : Process S := ⟨.ofEngine (.seeing visible), fun _ => .create⟩

def attached (p : Process S) (number : Nat) : Attached S := ⟨p.context, p.instances number⟩

def put (p : Process S) (number : Nat) (a : Attached S) : Process S :=
  ⟨a.context, Function.update p.instances number a.solver⟩

/-- The processes of `A` work on one instance each while the others do nothing. -/
def programs (p : Nat → Process S) (A : Finset Nat) (number : Nat → Nat)
    (work : Nat → Attached.Step S Unit) (rank : Nat) : Program S (Attempt Unit × Process S) :=
  if rank ∈ A then
    ((work rank).start ((p rank).attached (number rank))) >>= fun ended =>
      .finished (ended.1, (p rank).put (number rank) ended.2)
  else .finished (.ok (), p rank)

def after (p : Nat → Process S) (A : Finset Nat) (number : Nat → Nat)
    (v : Nat → Attempt Unit × Attached S) (rank : Nat) : Process S :=
  if rank ∈ A then (p rank).put (number rank) (v rank).2 else p rank

def ended (p : Nat → Process S) (A : Finset Nat) (number : Nat → Nat)
    (v : Nat → Attempt Unit × Attached S) (rank : Nat) : Attempt Unit × Process S :=
  (if rank ∈ A then (v rank).1 else .ok (), after p A number v rank)

theorem attached_after (p : Nat → Process S) {A : Finset Nat} (number : Nat → Nat)
    (v : Nat → Attempt Unit × Attached S) {rank : Nat} (inside : rank ∈ A) :
    (after p A number v rank).attached (number rank) = (v rank).2 := by
  rw [after, if_pos inside, put, attached]
  simp only [Function.update_self]

/-- What some of the processes come to does not depend on the order of their steps. -/
theorem endsWith {n : Nat} {p : Nat → Process S} {A : Finset Nat} (within : A ⊆ Finset.range n)
    {number : Nat → Nat} {work : Nat → Attached.Step S Unit} {rounds rounds' : Rounds}
    {v : Nat → Attempt Unit × Attached S} (reach : Reaches A rounds
      (fun rank => (work rank).start ((p rank).attached (number rank))) rounds'
      fun rank => .finished (v rank)) {hubs : Hubs S} (resting : hubs.Resting rounds) :
    (World.ofPrograms n (programs p A number work) hubs).EndsWith
      ((List.range n).map fun rank => some (ended p A number v rank)) := by
  have worked := reach.andThen fun rank left =>
    (.finished (left.1, (p rank).put (number rank) left.2) : Program S (Attempt Unit × Process S))
  have part : Reaches A rounds (programs p A number work) rounds' fun rank =>
    .finished (ended p A number v rank) :=
    worked.congr (fun rank inside => if_pos inside) fun rank inside => by
      rw [ended, after, if_pos inside, if_pos inside]
      rfl
  refine ((part.widen within).congr (fun _ _ => rfl) fun rank _ => ?_).endsWith resting
  by_cases inside : rank ∈ A
  · exact if_pos inside
  · rw [if_neg inside, programs, ended, after, if_neg inside, if_neg inside, if_neg inside]

end Process

/-- The processes of a world after any number of calls from which all of them have returned: the
ranks of a group initialize an instance, each with a request of its own, or ranks use or finalize
instances. -/
inductive History (n : Nat) (visible node : Nat → Nat) : (Nat → Process S) → Prop
  | fresh : History n visible node fun rank => .fresh (visible rank)
  | opened {p : Nat → Process S} {A : Finset Nat} {number : Nat → Nat} {calls : Nat → Call}
      {rounds rounds' : Rounds}
      {v : Nat → Attempt Unit × Attached S} : History n visible node p → A ⊆ Finset.range n →
      Together node A (fun rank => (calls rank).group) →
      (∀ rank ∈ A, ∀ other ∈ A, other ∈ (calls rank).group.hub.ranks) →
      Reaches A rounds
      (fun rank => ((calls rank).work).start ((p rank).attached (number rank))) rounds'
        (fun rank => .finished (v rank)) →
      (∀ rank ∈ A, (v rank).1 ≠ .error .aborted) →
      History n visible node (Process.after p A number v)
  | done {p : Nat → Process S} {A : Finset Nat} {number : Nat → Nat} {deeds : Nat → Deed S}
      {rounds rounds' : Rounds} {v : Nat → Attempt Unit × Attached S} : History n visible node p →
      Reaches A rounds
      (fun rank => ((deeds rank).part).start ((p rank).attached (number rank))) rounds'
        (fun rank => .finished (v rank)) → History n visible node (Process.after p A number v)

omit [Scalar S] in
/-- What is true of all contexts still is after work that leaves it so. -/
theorem Process.after_context {p : Nat → Process S} {A : Finset Nat} {number : Nat → Nat}
    {v : Nat → Attempt Unit × Attached S} (property : Nat → Context → Prop)
    (before : ∀ rank, property rank (p rank).context)
    (left : ∀ rank ∈ A, property rank (v rank).2.context) (rank : Nat) :
    property rank (after p A number v rank).context := by
  rw [after]
  split
  · next inside => exact left rank inside
  · exact before rank

theorem History.steady {n : Nat} {visible node : Nat → Nat} {p : Nat → Process S}
    (history : History n visible node p) (rank : Nat) : (p rank).context.Steady (visible rank) := by
  induction history generalizing rank with
  | fresh => exact ⟨rfl, rfl, rfl⟩
  | @opened p A number calls rounds rounds' v _ _ _ _ reach returned ih =>
    refine Process.after_context (fun rank c => c.Steady (visible rank)) ih
      (fun rank inside => ?_) rank
    exact (reach.always inside
      ((calls rank).steady (a := (p rank).attached (number rank)) (ih rank))).resolve_left
      (returned rank inside)
  | @done p A number deeds rounds rounds' v _ reach ih =>
    refine Process.after_context (fun rank c => c.Steady (visible rank)) ih
      (fun rank inside => ?_) rank
    exact (ih rank).leaves
      (reach.always inside ((deeds rank).leaves (a := (p rank).attached (number rank)) (ih rank)))

end DeviceTeams
