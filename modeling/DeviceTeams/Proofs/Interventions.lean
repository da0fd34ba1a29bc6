import DeviceTeams.Proofs.Lifetimes

/-!
# Instances that stay on the count

The engine of a process can also be started and shut down directly, past the context that counts its
instances. A lead that finds it running cannot initialize an instance, which leaves no trace. A lead
that ends the last instance holding an engine that has been shut down is refused, and the instance
is gone but not taken off the count. No other call leaves the count and the instances apart, so it
is off by the number of such calls.
-/
namespace DeviceTeams.Process

variable {S : Type} [Scalar S] {visible stranded number : Nat} {p : Process S} {act : Act S}
  {events : List Event} {outcome : Attempt Unit} {a : Attached S}

/-- The call ends the only instance that holds the engine, while the engine does not run. -/
structure Strands (p : Process S) (number : Nat) (act : Act S) : Prop where
  ends : act.ends
  only : {other | (p.instances other).holds} = {number}
  stopped : p.context.engine.running = false

def withEngine (p : Process S) (engine : Engine) : Process S :=
  ⟨{ p.context with engine }, p.instances⟩

/-- A process after any number of calls that have returned and of direct startups and shutdowns
between them, and how many of the calls have stranded an instance. -/
inductive Disturbed (visible : Nat) : Nat → Process S → Prop
  | fresh : Disturbed visible 0 (.fresh visible)
  | created {stranded number : Nat} {p : Process S} : Disturbed visible stranded p →
      ¬ (p.instances number).isInitialized →
      Disturbed visible stranded (p.put number ⟨p.context, .create⟩)
  | started {stranded : Nat} {p : Process S} {engine : Engine} : Disturbed visible stranded p →
      p.context.engine.startup = .ok engine → Disturbed visible stranded (p.withEngine engine)
  | stopped {stranded : Nat} {p : Process S} {engine : Engine} : Disturbed visible stranded p →
      p.context.engine.shutdown = .ok engine → Disturbed visible stranded (p.withEngine engine)
  | acted {stranded number : Nat} {p : Process S} {act : Act S} {events : List Event}
      {outcome : Attempt Unit}
      {a : Attached S} : Disturbed visible stranded p → ¬ p.Strands number act →
      ((act.part).start (p.attached number)).Runs events (outcome, a) → outcome ≠ .error .aborted →
      Disturbed visible stranded (p.put number a)
  | strands {stranded number : Nat} {p : Process S} {act : Act S} {events : List Event}
      {outcome : Attempt Unit}
      {a : Attached S} : Disturbed visible stranded p → p.Strands number act →
      ((act.part).start (p.attached number)).Runs events (outcome, a) → outcome ≠ .error .aborted →
      Disturbed visible (stranded + 1) (p.put number a)

/-- How a call ends that strands an instance: finalizing is refused, and dropping reports that. -/
def Refuses (act : Act S) (outcome : Attempt Unit) (events : List Event) : Prop :=
  act = .finalizes ∧ outcome = .error EngineError.notRunning ∧ events = [] ∨
    act = .drops ∧ outcome = .ok () ∧ events = [Attached.dropFailed (.engine .notRunning)]

/-! ## One call -/

namespace Tallied

omit [Scalar S] in
/-- The only instance that holds the engine is its only user. -/
theorem only_iff (tallied : p.Tallied stranded) (holds : (p.instances number).holds) :
    {other | (p.instances other).holds} = {number} ↔ p.context.users ≤ 1 := by
  have users : {other | (p.instances other).holds}.encard = p.context.users := tallied.users
  constructor
  · intro only
    rw [only, Set.encard_singleton] at users
    exact Nat.le_of_eq (by exact_mod_cast users.symm)
  · intro few
    have one : p.context.users = 1 := by
      have some_user := tallied.users_pos holds
      omega
    rw [one] at users
    obtain ⟨other, only⟩ := Set.encard_eq_one.mp users
    rw [only]
    have member : number ∈ {other | (p.instances other).holds} := holds
    rw [only, Set.mem_singleton_iff] at member
    rw [member]

omit [Scalar S] in
/-- A call that ends an instance strands it exactly if its lead is the last user of an engine that
does not run. -/
theorem strands_iff (tallied : p.Tallied stranded) (ends : act.ends) :
    p.Strands number act ↔ (p.attached number).Unbacked := by
  constructor
  · rintro ⟨_, only, stopped⟩
    have member : number ∈ {other | (p.instances other).holds} := only ▸ Set.mem_singleton number
    exact ⟨member, (tallied.only_iff member).mp only, stopped⟩
  · rintro ⟨holds, last, stopped⟩
    exact ⟨ends, (tallied.only_iff holds).mpr last, stopped⟩

omit [Scalar S] in
/-- An instance that is gone without being taken off the count. -/
theorem abandons (tallied : p.Tallied stranded) (initialized : (p.instances number).isInitialized)
    (abandons : (p.attached number).Abandons outcome a) :
    (p.put number a).Tallied (stranded + 1) := by
  obtain ⟨context, solver⟩ := a
  obtain ⟨unbacked, _, closed, same⟩ := abandons
  cases same
  obtain ⟨count, left, total⟩ :=
    tallied.live_put_lost (a := ⟨p.context.abandoned, solver⟩) initialized closed
  refine tallied.released (c := p.context.abandoned) unbacked.holds rfl rfl closed ⟨count, left, ?_⟩
  show p.context.instances = count + (stranded + 1)
  omega

/-- What the end of an instance does to the counts. -/
theorem ends (tallied : p.Tallied stranded) (ends : act.ends)
    (runs : ((act.part).start (p.attached number)).Runs events (outcome, a)) :
    ¬ p.Strands number act ∧ (p.put number a).Tallied stranded ∧ outcome = .ok () ∧
    (act = .drops → events = []) ∨
      p.Strands number act ∧ (p.put number a).Tallied (stranded + 1) ∧
      Refuses act outcome events := by
  rw [tallied.strands_iff ends]
  cases found : (p.instances number).state with
  | none =>
    have closed : ¬ (p.attached number).solver.isInitialized := by
      simp [TeamSolver.isInitialized, attached, found]
    obtain ⟨ok, rfl, silent⟩ := Attached.unchanged_of_ends closed ends runs
    refine .inl ⟨fun unbacked => ?_, tallied.closes (.idle closed), ok, silent⟩
    exact Attached.not_holds_of_closed closed unbacked.holds
  | some inst =>
    have initialized : (p.attached number).solver.isInitialized := by
      simp [TeamSolver.isInitialized, attached, found]
    have backed : (p.attached number).solver.holds → p.context.shared.isSome := fun holds =>
      tallied.isSome_iff.mpr (tallied.users_pos holds)
    obtain ⟨finished, b, finalized, ways⟩ := Attached.finalize_ends tallied.users_eq backed found
    obtain ⟨rfl, succeeds, refuses⟩ := Attached.ended_of_finalize initialized finalized ends runs
    rcases ways with ⟨ok, closes, backs⟩ | abandons
    · obtain ⟨rfl, silent⟩ := succeeds ok
      exact .inl ⟨backs, tallied.closes closes, rfl, fun _ => silent⟩
    · exact .inr ⟨abandons.unbacked, tallied.abandons initialized abandons,
        refuses _ abandons.outcome_eq⟩

/-- What any call that returns does to the counts. -/
theorem acts (tallied : p.Tallied stranded)
    (runs : ((act.part).start (p.attached number)).Runs events (outcome, a))
    (returned : outcome ≠ .error .aborted) :
    ¬ p.Strands number act ∧ (p.put number a).Tallied stranded ∨
      p.Strands number act ∧ (p.put number a).Tallied (stranded + 1) := by
  cases act with
  | initializes call =>
    refine .inl ⟨fun strands => absurd strands.ends Bool.false_ne_true, ?_⟩
    rcases runs.always (call.opens_or_barred (p.attached number)) with opens | barred
    · exact tallied.opens opens returned
    · apply tallied.unchanged barred.context_eq
      · rw [TeamSolver.isInitialized, barred.state_eq]
        rfl
      · rw [TeamSolver.holds, barred.state_eq]
        rfl
  | works use =>
    refine .inl ⟨fun strands => absurd strands.ends Bool.false_ne_true, ?_⟩
    obtain ⟨same, live, holds⟩ := runs.always (use.state_eq (p.attached number))
    exact tallied.unchanged same live holds
  | finalizes | drops =>
    rcases tallied.ends rfl runs with ⟨backed, counts, _⟩ | ⟨strands, counts, _⟩
    · exact .inl ⟨backed, counts⟩
    · exact .inr ⟨strands, counts⟩

end Tallied

/-! ## Any calls -/

theorem Disturbed.tallied (disturbed : p.Disturbed visible stranded) : p.Tallied stranded := by
  -- Calls that strand an instance are counted by the index, so the two cases of `Tallied.acts` part
  -- along the constructors.
  induction disturbed with
  | fresh => exact (Balanced.fresh visible).tallied
  | @created stranded number p _ closed ih =>
    have free := Attached.not_holds_of_closed (a := p.attached number) closed
    exact ih.unchanged rfl (Bool.eq_false_iff.mpr closed).symm (Bool.eq_false_iff.mpr free).symm
  | started _ _ ih | stopped _ _ ih => exact ⟨ih.users_eq, ih.held, ih.users, ih.live⟩
  | acted _ backed runs returned ih =>
    exact ((ih.acts runs returned).resolve_right fun wrong => backed wrong.1).2
  | strands _ strands runs returned ih =>
    exact ((ih.acts runs returned).resolve_left fun wrong => wrong.1 strands).2

/-- A process whose engine is left to its context strands no instance. -/
theorem Lived.disturbed (lived : p.Lived visible) : p.Disturbed visible 0 := by
  induction lived with
  | fresh => exact .fresh
  | created _ closed ih => exact ih.created closed
  | @acted p number act events outcome a lived runs returned ih =>
    -- A context whose engine nobody else touches keeps it running for its users.
    refine ih.acted (fun strands => ?_) runs returned
    have unbacked := (ih.tallied.strands_iff strands.ends).mp strands
    have backed := lived.balanced.isSome_iff.mpr (ih.tallied.users_pos unbacked.holds)
    rw [← lived.balanced.steady.running_eq, strands.stopped] at backed
    cases backed

/-- If the engine of a process is shut down directly while one instance holds it, then finalizing
this instance strands it. -/
theorem Lived.shutdown_strands (lived : p.Lived visible)
    (only : {other | (p.instances other).holds} = {number}) :
    ∃ (engine : Engine) (b : Attached S), p.context.engine.shutdown = .ok engine ∧
      ((Act.finalizes.part).start ((p.withEngine engine).attached number)).Runs []
      (.error EngineError.notRunning, b) ∧
      ¬ b.solver.isInitialized ∧ ((p.withEngine engine).put number b).Disturbed visible 1 := by
  have holds : number ∈ {other | (p.instances other).holds} := only ▸ Set.mem_singleton number
  have held : p.context.shared.isSome :=
    lived.balanced.isSome_iff.mpr (lived.balanced.tallied.users_pos holds)
  have runs : p.context.engine.running = true := lived.balanced.steady.running_eq.trans held
  obtain ⟨engine, shuts, stopped⟩ : ∃ engine, p.context.engine.shutdown = .ok engine ∧
    engine.running = false :=
    ⟨_, if_pos runs, rfl⟩
  have disturbed := lived.disturbed.stopped shuts
  have strands : (p.withEngine engine).Strands number .finalizes := ⟨rfl, only, stopped⟩
  cases found : (p.instances number).state with
  | none =>
    rw [Set.mem_ofPred_eq, TeamSolver.holds, found] at holds
    cases holds
  | some inst =>
    obtain ⟨outcome, b, finalized, ways⟩ :=
      Attached.finalize_ends (a := (p.withEngine engine).attached number)
      disturbed.tallied.users_eq (fun _ => held) found
    have abandons := ways.resolve_left fun closes =>
      closes.2.2 ((disturbed.tallied.strands_iff strands.ends).mp strands)
    rw [abandons.outcome_eq] at finalized
    have ends : ((Act.finalizes.part).start ((p.withEngine engine).attached number)).Runs []
        (.error EngineError.notRunning, b) := by
      rw [Act.part, finalized]
      exact .finished
    exact ⟨engine, b, shuts, ends, abandons.closed, disturbed.strands strands ends fun failure =>
      (by cases failure)⟩

/-- What the count of a process says about its instances, and what becomes of the next one that is
ended. -/
structure Accounted (stranded : Nat) (p : Process S) : Prop where
  /-- The context counts exactly the initialized instances if and only if no call has stranded
  one. -/
  exact_iff : {number | (p.instances number).isInitialized}.encard =
    p.context.instances ↔ stranded = 0
  /-- It counts one instance too many for each call that has. -/
  live : {number | (p.instances number).isInitialized}.encard + stranded = p.context.instances
  /-- A call that ends an instance is refused exactly if it strands the instance. -/
  next : ∀ (number : Nat) (act : Act S) (events : List Event) (outcome : Attempt
    Unit) (a : Attached S),
    ((act.part).start (p.attached number)).Runs events (outcome, a) → act.ends →
    (p.Strands number act → Refuses act outcome events) ∧
    (¬ p.Strands number act → outcome = .ok () ∧ (act = .drops → events = []))

theorem Tallied.accounted (tallied : p.Tallied stranded) : p.Accounted stranded := by
  obtain ⟨count, live, total⟩ := tallied.live
  have counted : {number | (p.instances number).isInitialized}.encard = count := live
  refine ⟨?_, ?_, fun number act events outcome a runs ends => ?_⟩
  · rw [counted, total]
    norm_cast
    omega
  · rw [counted, total]
    norm_cast
  · rcases tallied.ends ends runs with ⟨backed, _, ok, silent⟩ | ⟨strands, _, refuses⟩
    · exact ⟨fun strands => absurd strands backed, fun _ => ⟨ok, silent⟩⟩
    · exact ⟨fun _ => refuses, fun backed => absurd strands backed⟩

/-- Whatever calls a process has returned from, and however its engine was started and shut down in
between, the context counts the initialized instances exactly as long as no call has ended the last
holder of a stopped engine. -/
theorem instances_counted_iff (disturbed : p.Disturbed visible stranded) : p.Accounted stranded :=
  disturbed.tallied.accounted

/-! ## A process on a machine of its own -/

def soleCall : Act Float := .initializes ((Call.plain (Group.world [0] 0) 1).on (Group.world [0] 0))

def soleProcess (a : Attached Float) : Process Float := (Process.fresh 0).put 0 a

theorem soleProcess_lived : ∃ (events : List Event) (a : Attached Float),
    ((soleCall.part).start ((Process.fresh 0).attached 0)).Runs events (.ok (), a) ∧
    (soleProcess a).Lived 0 ∧
    {number | ((soleProcess a).instances number).holds} = {0} ∧
    ∀ number ≠ 0, ¬ ((soleProcess a).instances number).isInitialized := by
  have begun : (Process.fresh 0 : Process Float).Lived 0 := .fresh
  obtain ⟨a, opens⟩ := Lived.initialize_apart (show [0].length + 1 < Word.limit by decide)
    (List.nodup_singleton 0) (by decide) 0 (fun _ _ => begun) (fun _ _ => rfl) (.inl fun _ _ => rfl)
  obtain ⟨⟨events, runs⟩, lived, holds, _⟩ := opens 0 Nat.one_pos
  have own : (soleProcess (a 0)).instances 0 = (a 0).solver := by
    simp only [soleProcess, put, Function.update_self]
  have others : ∀ number ≠ 0, (soleProcess (a 0)).instances number = .create :=
    fun number other => Function.update_of_ne other ..
  refine ⟨events, a 0, runs, lived, Set.ext fun number => ?_, fun number other => ?_⟩
  · show ((soleProcess (a 0)).instances number).holds ↔ number = 0
    by_cases here : number = 0
    · refine iff_of_true ?_ here
      rw [here, own, holds]
    · rw [others number here]
      exact iff_of_false Bool.false_ne_true here
  · rw [others number other]
    exact Bool.false_ne_true

theorem instances_counted_sole : ∃ p : Process Float, p.Disturbed 0 1 ∧ p.Accounted 1 := by
  obtain ⟨_, a, _, lived, only, _⟩ := soleProcess_lived
  obtain ⟨engine, b, _, _, _, disturbed⟩ := lived.shutdown_strands only
  exact ⟨_, disturbed, instances_counted_iff disturbed⟩

/-- The engine is shut down directly and finalizing is refused. Then no instance is initialized any
more, and the context counts one. -/
theorem instances_miscounted_sole :
    ∃ (events : List Event) (a b : Attached Float) (engine : Engine),
    ((soleCall.part).start ((Process.fresh 0).attached 0)).Runs events (.ok (), a) ∧
    a.context.engine.shutdown = .ok engine ∧
    ((Act.finalizes.part).start (((soleProcess a).withEngine engine).attached 0)).Runs []
      (.error EngineError.notRunning, b) ∧
    {number | ((((soleProcess a).withEngine engine).put 0 b).instances
      number).isInitialized}.encard = 0 ∧
    b.context.instances = 1 := by
  obtain ⟨events, a, opens, lived, only, others⟩ := soleProcess_lived
  obtain ⟨engine, b, shuts, ends, closed, disturbed⟩ := lived.shutdown_strands only
  have none_left :
      {number | ((((soleProcess a).withEngine engine).put 0 b).instances
        number).isInitialized}.encard = 0 := by
    refine Set.encard_eq_zero.mpr (Set.eq_empty_iff_forall_notMem.mpr fun number => ?_)
    by_cases here : number = 0
    · subst here
      simpa [put] using closed
    · have same : (((soleProcess a).withEngine engine).put 0 b).instances number =
        (soleProcess a).instances number :=
        Function.update_of_ne here ..
      rw [Set.mem_ofPred_eq, same]
      exact others number here
  refine ⟨events, a, b, engine, opens, shuts, ends, none_left, ?_⟩
  have live := disturbed.tallied.accounted.live
  rw [none_left, zero_add] at live
  exact_mod_cast live.symm

end DeviceTeams.Process
