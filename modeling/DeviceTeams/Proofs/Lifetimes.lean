import DeviceTeams.Proofs.Failures
import DeviceTeams.Proofs.Processes
import Mathlib.Data.Set.Card

/-!
# The engine lives as long as it is used

A process may have any number of instances and call them in any order. Each call changes what the
process holds in one of six ways, whatever the other processes bring to it: it changes nothing, it
initializes an instance with or without a hold on the engine, or it ends an instance with or without
one. The counts of the context are kept along, so the engine runs exactly while an instance holds
it, and none of the failures of its lifetime occurs.
-/
namespace DeviceTeams

variable {S α : Type}

/-! ## Runs of one rank -/

/-- The program can report these events and end with the value. The rank finds its own payload at
its seat; what the others bring is open. -/
inductive Program.Runs : Program S α → List Event → α → Prop
  | finished {value : α} : Runs (.finished value) [] value
  | report {event : Event} {next : Program S α} {events : List Event} {value : α} :
      Runs next events value → Runs (.report event next) (event :: events) value
  | meet {hub : Hub} {seat : Nat} {payload : Payload S} {resume : Round (Payload S) → Program S α}
      {round : Round (Payload S)} {events : List Event} {value : α} :
      round.items[seat]? = some payload → Runs (resume round) events value →
      Runs (.meet hub seat payload resume) events value

theorem Program.Runs.always {program : Program S α} {events : List Event} {value : α}
    (runs : program.Runs events value) {post : α → Prop} (h : program.Always post) :
    post value := by
  induction runs with
  | finished => exact h
  | report _ ih => exact ih h
  | meet own _ ih => exact ih (h _ own)

/-- What a rank comes to among the ranks of a world it can come to. -/
theorem Reaches.runs {A : Finset Nat} {rounds rounds' : Rounds}
    {programs : Nat → Program S α} {v : Nat → α} (h : Reaches A rounds programs rounds' fun rank =>
      .finished (v rank)) {rank : Nat} (inside : rank ∈ A) :
    ∃ events, (programs rank).Runs events (v rank) := by
  have comes : ∀ program : Program S α, program.Always fun value =>
      ∃ events, program.Runs events value := by
    intro program
    induction program with
    | finished value => exact ⟨[], .finished⟩
    | report event next ih => exact ih.mono fun value ⟨events, runs⟩ => ⟨_, .report runs⟩
    | meet hub seat payload resume ih =>
      exact fun round own => (ih round).mono fun value ⟨events, runs⟩ => ⟨events, .meet own runs⟩
  exact h.always inside (comes (programs rank))

/-! ## Calls -/

inductive Act (S : Type) where
  | initializes (call : Call)
  | works (use : Use S)
  | finalizes
  | drops

variable [Scalar S] {visible : Nat}

def Act.part : Act S → Attached.Step S Unit
  | initializes call => call.work
  | works use => use.work
  | finalizes => Attached.finalize
  | drops => Attached.drop

def Act.ends : Act S → Bool
  | finalizes | drops => true
  | initializes _ | works _ => false

/-- What the end of an instance does: nothing if it is not initialized, otherwise it gives up what
it holds. -/
inductive Attached.Closes (a : Attached S) : Attached S → Prop
  | idle : ¬ a.solver.isInitialized → Closes a a
  | other {b : Attached S} : a.solver.isInitialized → ¬ a.solver.holds → ¬ b.solver.isInitialized →
      b.context = a.context.unregister → Closes a b
  | holder {b : Attached S} : a.solver.isInitialized → a.solver.holds → ¬ b.solver.isInitialized →
      b.context = a.context.released.unregister → Closes a b

/-- A lead is the last user of an engine that does not run. -/
structure Attached.Unbacked (a : Attached S) : Prop where
  holds : a.solver.holds
  last : a.context.users ≤ 1
  stopped : a.context.engine.running = false

/-- The end of the instance of such a lead is refused. The instance is gone then, but the context
still counts it. -/
structure Attached.Abandons (a : Attached S) (outcome : Attempt Unit) (b : Attached S) : Prop where
  unbacked : a.Unbacked
  outcome_eq : outcome = .error EngineError.notRunning
  closed : ¬ b.solver.isInitialized
  context_eq : b.context = a.context.abandoned

namespace Attached

variable {a b : Attached S}

omit [Scalar S] in
theorem not_holds_of_closed (closed : ¬ a.solver.isInitialized) : ¬ a.solver.holds := by
  simp only [TeamSolver.isInitialized, Bool.not_eq_true, Option.isSome_eq_false_iff,
    Option.isNone_iff_eq_none] at closed
  simp [TeamSolver.holds, closed]

omit [Scalar S] in
/-- Where a hold on the engine means that there are resources, finalizing an initialized instance
succeeds unless the last user finds the engine shut down. -/
theorem finalize_ends (counted : a.context.users = a.context.shared.elim 0 (·.references))
    (backed : a.solver.holds → a.context.shared.isSome) {inst : Instance S}
    (found : a.solver.state = some inst) :
    ∃ outcome b, (Attached.finalize (S := S)).start a = .finished (outcome, b) ∧
      (outcome = .ok () ∧ a.Closes b ∧ ¬ a.Unbacked ∨ a.Abandons outcome b) := by
  have initialized : a.solver.isInitialized := by simp [TeamSolver.isInitialized, found]
  have holds : a.solver.holds = inst.lead.isSome := by simp [TeamSolver.holds, found]
  by_cases lead : inst.lead.isSome
  · obtain ⟨shared, held⟩ := Option.isSome_iff_exists.mp (backed (holds.trans lead))
    have releases := Context.start_release_held (S := S) held (by rw [counted, held]; rfl)
    by_cases stops : a.context.users ≤ 1 ∧ a.context.engine.running = false
    · rw [if_pos stops] at releases
      have ended := Attached.start_finalize_of found fun _ => releases
      rw [if_pos lead] at ended
      exact ⟨_, _, ended, .inr ⟨⟨holds.trans lead, stops.1, stops.2⟩, rfl, Bool.false_ne_true, rfl⟩⟩
    · rw [if_neg stops] at releases
      have ended := Attached.start_finalize_of found fun _ => releases
      rw [if_pos lead] at ended
      exact ⟨_, _, ended, .inl ⟨rfl, .holder initialized (holds.trans lead) Bool.false_ne_true rfl,
        fun unbacked => stops ⟨unbacked.last, unbacked.stopped⟩⟩⟩
  · have never : inst.lead.isSome → (Context.release (S := S)).start a.context =
      .finished (.ok true, a.context) :=
      fun wrong => absurd wrong lead
    have ended := Attached.start_finalize_of found never
    rw [if_neg lead] at ended
    exact ⟨_, _, ended, .inl ⟨rfl, .other initialized (holds ▸ lead) Bool.false_ne_true rfl,
      fun unbacked => lead (holds ▸ unbacked.holds)⟩⟩

omit [Scalar S] in
/-- In a steady context finalizing an initialized instance succeeds. -/
theorem finalize_closes (steady : a.context.Steady visible)
    (backed : a.solver.holds → a.context.shared.isSome) {inst : Instance S}
    (found : a.solver.state = some inst) :
    ∃ b, (Attached.finalize (S := S)).start a = .finished (.ok (), b) ∧ a.Closes b := by
  obtain ⟨outcome, b, finalized, ⟨rfl, closes, _⟩ | abandons⟩ :=
    finalize_ends steady.users_eq backed found
  · exact ⟨b, finalized, closes⟩
  · have runs := steady.running_eq.trans (backed abandons.unbacked.holds)
    rw [abandons.unbacked.stopped] at runs
    cases runs

/-- Ending an instance that is not initialized changes nothing. -/
theorem unchanged_of_ends (closed : ¬ a.solver.isInitialized) {act : Act S} (ends : act.ends)
    {events : List Event} {outcome : Attempt Unit}
    (runs : ((act.part).start a).Runs events (outcome, b)) :
    outcome = .ok () ∧ b = a ∧ (act = .drops → events = []) := by
  have found : a.solver.state = none := by simpa [TeamSolver.isInitialized] using closed
  cases act with
  | initializes | works => cases ends
  | finalizes =>
    rw [Act.part, Attached.finalize, Work.start_get_bind, found] at runs
    cases runs with
    | report later =>
      cases later
      exact ⟨rfl, rfl, fun drops => (by cases drops)⟩
  | drops =>
    rw [Act.part, Attached.drop, Work.start_get_bind, if_neg closed] at runs
    cases runs
    exact ⟨rfl, rfl, fun _ => rfl⟩

/-- Ending an initialized instance finalizes it; where dropping one is refused this is only
reported. -/
theorem ended_of_finalize (initialized : a.solver.isInitialized) {finished : Attempt Unit}
    {b' : Attached S} (finalized : (Attached.finalize (S := S)).start a = .finished (finished, b'))
    {act : Act S} (ends : act.ends) {events : List Event} {outcome : Attempt Unit}
    (runs : ((act.part).start a).Runs events (outcome, b)) :
    b = b' ∧ (finished = .ok () → outcome = .ok () ∧ events = []) ∧
      ∀ cause, finished = .error (.refused cause) →
        act = .finalizes ∧ outcome = .error (.refused cause) ∧ events = [] ∨
        act = .drops ∧ outcome = .ok () ∧ events = [dropFailed cause] := by
  cases act with
  | initializes | works => cases ends
  | finalizes =>
    rw [Act.part, finalized] at runs
    cases runs
    exact ⟨rfl, fun ok => ⟨ok, rfl⟩, fun cause refused => .inl ⟨rfl, refused, rfl⟩⟩
  | drops =>
    rw [Act.part, Attached.drop, Work.start_get_bind, if_pos initialized, Work.start_bind,
      Attached.attempt, Work.start_tryCatch, Work.start_map, finalized] at runs
    rcases finished with (cause | _) | ⟨⟩
    · cases runs with
      | report later =>
        cases later
        refine ⟨rfl, fun ok => (by cases ok), fun cause' refused => .inr ⟨rfl, rfl, ?_⟩⟩
        cases refused
        rfl
    · cases runs
      exact ⟨rfl, fun ok => (by cases ok), fun _ refused => (by cases refused)⟩
    · cases runs
      exact ⟨rfl, fun _ => ⟨rfl, rfl⟩, fun _ refused => (by cases refused)⟩

/-- Ending an instance succeeds, and dropping one reports nothing. -/
theorem closes_of_ends (steady : a.context.Steady visible)
    (backed : a.solver.holds → a.context.shared.isSome) {act : Act S} (ends : act.ends)
    {events : List Event} {outcome : Attempt Unit}
    (runs : ((act.part).start a).Runs events (outcome, b)) :
    outcome = .ok () ∧ a.Closes b ∧ (act = .drops → events = []) := by
  cases found : a.solver.state with
  | none =>
    have closed : ¬ a.solver.isInitialized := by simp [TeamSolver.isInitialized, found]
    obtain ⟨ok, rfl, silent⟩ := unchanged_of_ends closed ends runs
    exact ⟨ok, .idle closed, silent⟩
  | some inst =>
    have initialized : a.solver.isInitialized := by simp [TeamSolver.isInitialized, found]
    obtain ⟨b', finalized, closes⟩ := finalize_closes steady backed found
    obtain ⟨rfl, succeeds, _⟩ := ended_of_finalize initialized finalized ends runs
    obtain ⟨ok, silent⟩ := succeeds rfl
    exact ⟨ok, closes, fun _ => silent⟩

end Attached

/-- Work on an instance is refused for other causes than the lifetime of the engine. -/
theorem Use.other (use : Use S) : use.work.Within Error.Other := by
  cases use with
  | set matrix => exact Attached.setMatrix_other matrix
  | solve x b => exact (Attached.solve_other x b).map _

/-! ## Giving up a hold -/

namespace Context

variable {c : Context}

omit [Scalar S]

section Counted

variable (counted : c.users = c.shared.elim 0 (·.references))
include counted

theorem isSome_of_user (some_user : 0 < c.users) : c.shared.isSome := by
  cases found : c.shared with
  | none =>
    rw [found, Option.elim_none] at counted
    omega
  | some shared => rfl

/-- What is still shared has references. -/
theorem references_released (shared : SharedResources) (found : c.released.shared = some shared) :
    0 < shared.references := by
  simp only [Context.released] at found
  split at found
  · cases found
  · obtain ⟨before, held, rfl⟩ := Option.map_eq_some_iff.mp found
    rw [held, Option.elim_some] at counted
    show 0 < before.references - 1
    omega

end Counted

namespace Steady

variable (steady : c.Steady visible)
include steady

theorem shutdowns_released (some_user : 0 < c.users) : c.released.engine.shutdowns =
    c.engine.shutdowns + if c.users = 1 ∧ c.released.users = 0 then 1 else 0 := by
  have held := isSome_of_user steady.users_eq some_user
  simp only [Context.released]
  by_cases last : c.users ≤ 1
  · have one : c.users = 1 := by omega
    simp [held, one]
  · have more : c.users ≠ 1 := by omega
    simp [last, more]

theorem startups_released (some_user : 0 < c.users)
    (balance : c.engine.startups = c.engine.shutdowns + if c.engine.running then 1 else 0) :
    c.released.engine.startups = c.released.engine.shutdowns + if c.released.engine.running
    then 1 else 0 := by
  have held := isSome_of_user steady.users_eq some_user
  have runs : c.engine.running = true := steady.running_eq.trans held
  simp only [runs, if_true] at balance
  simp only [Context.released]
  by_cases last : c.users ≤ 1
  · simp [last, held, balance]
  · simp [last, runs, balance]

end Steady
end Context

/-! ## Reachable processes -/

namespace Process

/-- A process after any number of calls that have returned. New instances take numbers at which no
instance is initialized. -/
inductive Lived (visible : Nat) : Process S → Prop
  | fresh : Lived visible (.fresh visible)
  | created {p : Process S} {number : Nat} : Lived visible p →
      ¬ (p.instances number).isInitialized →
      Lived visible (p.put number ⟨p.context, .create⟩)
  | acted {p : Process S} {number : Nat} {act : Act S} {events : List Event}
      {outcome : Attempt Unit} {a : Attached S} :
      Lived visible p → ((act.part).start (p.attached number)).Runs events (outcome, a) →
      outcome ≠ .error .aborted →
      Lived visible (p.put number a)

def among (p : Process S) (q : TeamSolver S → Bool) : Set Nat := {number | q (p.instances number)}

section Counting

variable {p : Process S} {q : TeamSolver S → Bool} {number count : Nat} {a : Attached S}

omit [Scalar S]

theorem among_put_of_eq (same : q a.solver = q (p.instances number)) :
    (p.put number a).among q = p.among q := by
  ext other
  by_cases here : other = number
  · subst here
    simp [among, put, same]
  · simp [among, put, Function.update_of_ne here]

theorem encard_put_gained (before : ¬ q (p.instances number)) (after : q a.solver)
    (counts : (p.among q).encard = count) :
    ((p.put number a).among q).encard = (count + 1 : Nat) := by
  have grown : (p.put number a).among q = insert number (p.among q) := by
    ext other
    by_cases here : other = number
    · subst here
      simp [among, put, after]
    · simp [among, put, here]
  have absent : number ∉ p.among q := before
  rw [grown, Set.encard_insert_of_notMem absent, counts]
  rfl

theorem encard_put_lost (before : q (p.instances number)) (after : ¬ q a.solver)
    (counts : (p.among q).encard = count) :
    ∃ rest, count = rest + 1 ∧ ((p.put number a).among q).encard = rest := by
  have shrunk : (p.put number a).among q = p.among q \ {number} := by
    ext other
    by_cases here : other = number
    · subst here
      simp [among, put, after]
    · simp [among, put, here]
  have one_less : (p.among q \ {number}).encard + 1 = count := by
    rw [Set.encard_sdiff_singleton_add_one (show number ∈ p.among q from before), counts]
  obtain ⟨rest, finite⟩ : ∃ rest : Nat, (p.among q \ {number}).encard = rest := by
    refine ⟨(p.among q \ {number}).encard.toNat, (ENat.natCast_toNat ?_).symm⟩
    rintro infinite
    rw [infinite] at one_less
    exact absurd one_less (by simp)
  refine ⟨rest, ?_, shrunk ▸ finite⟩
  rw [finite] at one_less
  exact_mod_cast one_less.symm

end Counting

/-- The context counts the instances that hold the engine and those that are initialized, and as
many more as have been ended without being taken off the count. -/
structure Tallied (stranded : Nat) (p : Process S) : Prop where
  users_eq : p.context.users = p.context.shared.elim 0 (·.references)
  held : ∀ shared, p.context.shared = some shared → 0 < shared.references
  users : (p.among TeamSolver.holds).encard = p.context.users
  live : ∃ count : Nat, (p.among TeamSolver.isInitialized).encard = count ∧
    p.context.instances = count + stranded

namespace Tallied

variable {p : Process S} {stranded number : Nat} {a : Attached S}

omit [Scalar S]

/-- There are users as long as an instance holds the engine. -/
theorem users_pos (tallied : p.Tallied stranded) (holds : (p.instances number).holds) :
    0 < p.context.users := by
  have some_user : 0 < (p.among TeamSolver.holds).encard := Set.encard_pos.mpr ⟨number, holds⟩
  rw [tallied.users] at some_user
  exact_mod_cast some_user

theorem isSome_iff (tallied : p.Tallied stranded) :
    p.context.shared.isSome ↔ 0 < p.context.users := by
  rw [tallied.users_eq]
  cases found : p.context.shared with
  | none => simp
  | some shared => simpa using tallied.held shared found

/-- An instance that is not initialized does not hold the engine, before or after. -/
theorem users_put_of_free (tallied : p.Tallied stranded) (before : ¬ (p.instances number).holds)
    (after : ¬ a.solver.holds) (same : a.context.users = p.context.users) :
    ((p.put number a).among TeamSolver.holds).encard = (p.put number a).context.users := by
  have alike : a.solver.holds = (p.instances number).holds :=
    (Bool.eq_false_iff.mpr after).trans (Bool.eq_false_iff.mpr before).symm
  rw [among_put_of_eq alike, tallied.users]
  exact congrArg Nat.cast same.symm

theorem live_put_gained (tallied : p.Tallied stranded)
    (before : ¬ (p.instances number).isInitialized) (after : a.solver.isInitialized)
    (counts : a.context.instances = p.context.instances + 1) :
    ∃ count : Nat, ((p.put number a).among TeamSolver.isInitialized).encard = count ∧
      (p.put number a).context.instances = count + stranded := by
  obtain ⟨count, live, total⟩ := tallied.live
  refine ⟨count + 1, encard_put_gained before after live, ?_⟩
  show a.context.instances = count + 1 + stranded
  omega

theorem live_put_lost (tallied : p.Tallied stranded) (before : (p.instances number).isInitialized)
    (after : ¬ a.solver.isInitialized) : ∃ count : Nat,
      ((p.put number a).among TeamSolver.isInitialized).encard = count ∧
      p.context.instances = count + 1 + stranded := by
  obtain ⟨count, live, total⟩ := tallied.live
  obtain ⟨rest, one_more, left⟩ := encard_put_lost before after live
  exact ⟨rest, left, by omega⟩

/-- A call that leaves the context and the instance as they are for others. -/
theorem unchanged (tallied : p.Tallied stranded) (same : a.context = p.context)
    (live : a.solver.isInitialized = (p.instances number).isInitialized)
    (holds : a.solver.holds = (p.instances number).holds) : (p.put number a).Tallied stranded := by
  obtain ⟨context, solver⟩ := a
  cases same
  refine ⟨tallied.users_eq, tallied.held, ?_, ?_⟩
  · rw [among_put_of_eq holds]
    exact tallied.users
  · rw [among_put_of_eq live]
    exact tallied.live

/-- An initialization that returns counts the instance if it opens it. -/
theorem opens (tallied : p.Tallied stranded) {outcome : Attempt Unit}
    (opens : (p.attached number).Opens outcome a) (returned : outcome ≠ .error .aborted) :
    (p.put number a).Tallied stranded := by
  obtain ⟨context, solver⟩ := a
  cases opens with
  | other created live without same =>
    cases same
    exact ⟨tallied.users_eq, tallied.held,
      tallied.users_put_of_free (Attached.not_holds_of_closed created) without rfl,
      tallied.live_put_gained created live rfl⟩
  | @joined _ shared created live holds held same =>
    cases same
    have counted : p.context.users = shared.references := by
      have counted := tallied.users_eq
      rwa [show p.context.shared = some shared from held] at counted
    refine ⟨?_, ?_, encard_put_gained (Attached.not_holds_of_closed created) holds tallied.users,
      tallied.live_put_gained created live rfl⟩
    · show p.context.users + 1 = (p.context.shared.map fun shared =>
        { shared with references := shared.references + 1 }).elim 0 (·.references)
      rw [show p.context.shared = some shared from held, counted]
      rfl
    · intro shared' found
      obtain ⟨before, _, rfl⟩ := Option.map_eq_some_iff.mp found
      exact Nat.succ_pos _
  | @started _ resources leads created live holds none_shared same =>
    cases same
    have no_user : p.context.users = 0 := by
      have counted := tallied.users_eq
      rwa [show p.context.shared = none from none_shared] at counted
    refine ⟨rfl, ?_, ?_, tallied.live_put_gained created live rfl⟩
    · intro shared found
      cases found
      exact Nat.one_pos
    · have gained := encard_put_gained (a := ⟨p.context.register.opened resources leads, solver⟩)
        (Attached.not_holds_of_closed created) holds tallied.users
      rwa [no_user] at gained
  | refused other same state =>
    refine tallied.unchanged same ?_ ?_
    · rw [TeamSolver.isInitialized, state]
      rfl
    · rw [TeamSolver.holds, state]
      rfl
  | aborted => exact absurd rfl returned

/-- A lead that ends its instance gives up its hold. What happens to the engine does not matter for
the counts. -/
theorem released (tallied : p.Tallied stranded) (holds : (p.instances number).holds) {c : Context}
    (users : c.users = p.context.released.users) (shared : c.shared = p.context.released.shared)
    {solver : TeamSolver S} (closed : ¬ solver.isInitialized) {stranded' : Nat}
    (live : ∃ count : Nat, ((p.put number ⟨c, solver⟩).among TeamSolver.isInitialized).encard =
      count ∧
      c.instances = count + stranded') : (p.put number ⟨c, solver⟩).Tallied stranded' := by
  obtain ⟨others, one_more, kept⟩ := encard_put_lost (a := ⟨c, solver⟩) holds
    (Attached.not_holds_of_closed (a := ⟨c, solver⟩) closed) tallied.users
  refine ⟨?_, ?_, ?_, live⟩
  · show c.users = c.shared.elim 0 (·.references)
    rw [users, shared]
    exact Context.users_released tallied.users_eq
  · intro item found
    exact Context.references_released tallied.users_eq item (shared.symm.trans found)
  · show _ = ((c.users : Nat) : ENat)
    rw [users, show p.context.released.users = p.context.users - 1 from rfl, one_more]
    exact kept

/-- An instance that is ended and gives up what it holds is taken off the count. -/
theorem closes (tallied : p.Tallied stranded) (closes : (p.attached number).Closes a) :
    (p.put number a).Tallied stranded := by
  obtain ⟨context, solver⟩ := a
  cases closes with
  | idle closed => exact tallied.unchanged rfl rfl rfl
  | other live without closed same =>
    cases same
    obtain ⟨count, left, total⟩ :=
      tallied.live_put_lost (a := ⟨p.context.unregister, solver⟩) live closed
    refine ⟨tallied.users_eq, tallied.held, tallied.users_put_of_free without
      (Attached.not_holds_of_closed (a := ⟨p.context, solver⟩) closed) rfl, count, left, ?_⟩
    show p.context.instances - 1 = count + stranded
    omega
  | holder live holds closed same =>
    cases same
    obtain ⟨count, left, total⟩ :=
      tallied.live_put_lost (a := ⟨p.context.released.unregister, solver⟩) live closed
    refine tallied.released (c := p.context.released.unregister) holds rfl rfl closed
      ⟨count, left, ?_⟩
    show p.context.instances - 1 = count + stranded
    omega

end Tallied

/-- The counts of the context are those of the instances, and the engine has been started as often
as it was shut down, once more while it runs. -/
structure Balanced (visible : Nat) (p : Process S) : Prop where
  steady : p.context.Steady visible
  held : ∀ shared, p.context.shared = some shared → 0 < shared.references
  live : (p.among TeamSolver.isInitialized).encard = p.context.instances
  users : (p.among TeamSolver.holds).encard = p.context.users
  startups : p.context.engine.startups = p.context.engine.shutdowns +
    if p.context.engine.running then 1 else 0

namespace Balanced

variable {p : Process S} {number : Nat} {a : Attached S}

omit [Scalar S]

theorem fresh (visible : Nat) : (Process.fresh visible : Process S).Balanced visible where
  steady := ⟨rfl, rfl, rfl⟩
  held _ found := nomatch found
  live := Set.encard_eq_zero.mpr (Set.eq_empty_iff_forall_notMem.mpr fun _ => Bool.false_ne_true)
  users := Set.encard_eq_zero.mpr (Set.eq_empty_iff_forall_notMem.mpr fun _ => Bool.false_ne_true)
  startups := rfl

theorem tallied (balanced : p.Balanced visible) : p.Tallied 0 :=
  ⟨balanced.steady.users_eq, balanced.held, balanced.users, _, balanced.live, rfl⟩

theorem of_tallied (tallied : p.Tallied 0) (steady : p.context.Steady visible)
    (startups : p.context.engine.startups = p.context.engine.shutdowns +
      if p.context.engine.running then 1 else 0) :
    p.Balanced visible := by
  obtain ⟨count, live, total⟩ := tallied.live
  exact ⟨steady, tallied.held, by rw [live, total]; rfl, tallied.users, startups⟩

theorem isSome_iff (balanced : p.Balanced visible) :
    p.context.shared.isSome ↔ 0 < p.context.users :=
  balanced.tallied.isSome_iff

/-- A call that leaves the context and the instance as they are for others. -/
theorem unchanged (balanced : p.Balanced visible) (same : a.context = p.context)
    (live : a.solver.isInitialized = (p.instances number).isInitialized)
    (holds : a.solver.holds = (p.instances number).holds) : (p.put number a).Balanced visible := by
  have tallied := balanced.tallied.unchanged same live holds
  obtain ⟨context, solver⟩ := a
  cases same
  exact of_tallied tallied balanced.steady balanced.startups

/-- What an initialization that returns does to the balance. -/
theorem opens (balanced : p.Balanced visible) {outcome : Attempt Unit}
    (opens : (p.attached number).Opens outcome a) (returned : outcome ≠ .error .aborted) :
    (p.put number a).Balanced visible ∧
      a.context.engine.shutdowns = p.context.engine.shutdowns ∧ p.context.users ≤ a.context.users ∧
      ∀ cause, outcome = .error (.refused cause) → cause.Other := by
  have tallied := balanced.tallied.opens opens returned
  obtain ⟨context, solver⟩ := a
  cases opens with
  | other created live without same =>
    cases same
    exact ⟨of_tallied tallied balanced.steady.register balanced.startups, rfl, Nat.le_refl _, nofun⟩
  | @joined _ shared created live holds held same =>
    cases same
    have steady := (balanced.steady.register.answers (.joined held)).resolve_left (by simp)
    exact ⟨of_tallied tallied steady balanced.startups, rfl, Nat.le_succ _, nofun⟩
  | @started _ resources leads created live holds none_shared same =>
    cases same
    have answers : p.context.register.Answers (.ok resources)
      (p.context.register.opened resources leads) :=
      .started none_shared
    have steady := (balanced.steady.register.answers answers).resolve_left (by simp)
    have stopped : p.context.engine.running = false := by
      rw [balanced.steady.running_eq]
      exact congrArg Option.isSome none_shared
    have no_user : p.context.users = 0 := by
      rw [balanced.steady.users_eq]
      exact congrArg
        (fun shared : Option SharedResources => shared.elim 0 (·.references)) none_shared
    have balance := balanced.startups
    rw [stopped] at balance
    exact ⟨of_tallied tallied steady (congrArg (· + 1) balance), rfl,
      no_user ▸ Nat.zero_le _, nofun⟩
  | refused other same state =>
    cases same
    refine ⟨of_tallied tallied balanced.steady balanced.startups, rfl, Nat.le_refl _, ?_⟩
    intro cause found
    cases found
    exact other
  | aborted => exact absurd rfl returned

/-- What the end of an instance does to the balance: the engine is shut down with its last user. -/
theorem closes (balanced : p.Balanced visible) (closes : (p.attached number).Closes a) :
    (p.put number a).Balanced visible ∧ a.context.engine.shutdowns =
      p.context.engine.shutdowns + if p.context.users = 1 ∧ a.context.users = 0 then 1 else 0 := by
  have tallied := balanced.tallied.closes closes
  have none_shut : p.context.engine.shutdowns =
      p.context.engine.shutdowns + if p.context.users = 1 ∧ p.context.users = 0 then 1 else 0 := by
    rw [if_neg (by omega)]
    rfl
  obtain ⟨context, solver⟩ := a
  cases closes with
  | idle closed =>
    exact ⟨of_tallied tallied balanced.steady balanced.startups, none_shut⟩
  | other live without closed same =>
    cases same
    exact ⟨of_tallied tallied balanced.steady.unregister balanced.startups, none_shut⟩
  | holder live holds closed same =>
    cases same
    have some_user := balanced.tallied.users_pos holds
    exact ⟨of_tallied tallied balanced.steady.released.unregister
      (balanced.steady.startups_released some_user balanced.startups),
      balanced.steady.shutdowns_released some_user⟩

end Balanced

/-- What any call does to the balance. -/
theorem Balanced.acts {p : Process S} (balanced : p.Balanced visible) {number : Nat} {act : Act S}
    {events : List Event} {outcome : Attempt Unit} {a : Attached S}
    (runs : ((act.part).start (p.attached number)).Runs events (outcome, a))
    (returned : outcome ≠ .error .aborted) :
    (p.put number a).Balanced visible ∧
      a.context.engine.shutdowns = p.context.engine.shutdowns +
        (if act.ends ∧ p.context.users = 1 ∧ a.context.users = 0 then 1 else 0) ∧
      (∀ cause, outcome = .error (.refused cause) → cause.Other) ∧
      (act = .drops → events = []) := by
  cases act with
  | initializes call =>
    have opens := runs.always (call.opens balanced.steady)
    obtain ⟨after, same, _, other⟩ := balanced.opens opens returned
    refine ⟨after, ?_, other, nofun⟩
    rw [same, if_neg (by simp [Act.ends])]
    rfl
  | works use =>
    obtain ⟨same, live, holds⟩ := runs.always (use.state_eq (p.attached number))
    have within := runs.always (use.other (p.attached number))
    refine ⟨balanced.unchanged same live holds, ?_, ?_, nofun⟩
    · rw [if_neg (by simp [Act.ends])]
      exact congrArg (·.engine.shutdowns) same
    · intro cause found
      cases found
      exact within
  | finalizes | drops =>
    have backed : (p.attached number).solver.holds →
        (p.attached number).context.shared.isSome := fun holds =>
      balanced.isSome_iff.mpr (balanced.tallied.users_pos holds)
    obtain ⟨rfl, closes, silent⟩ := Attached.closes_of_ends balanced.steady backed rfl runs
    obtain ⟨after, shutdowns⟩ := balanced.closes closes
    refine ⟨after, ?_, nofun, silent⟩
    simpa [Act.ends] using shutdowns

theorem Lived.balanced {p : Process S} (lived : p.Lived visible) : p.Balanced visible := by
  induction lived with
  | fresh => exact .fresh visible
  | @created p number _ closed ih =>
    have without := Attached.not_holds_of_closed (a := p.attached number) closed
    exact ih.unchanged rfl (Bool.eq_false_iff.mpr closed).symm (Bool.eq_false_iff.mpr without).symm
  | acted _ runs returned ih => exact (ih.acts runs returned).1

/-! ## Machines of their own -/

def plainAct (nodes : List Nat) (rank : Nat) : Act S :=
  .initializes ((Call.plain (Group.world nodes 0) 1).on (Group.world nodes rank))

/-- Processes on nodes of their own have a machine each. -/
theorem machine_inj {nodes : List Nat} (apart : nodes.Nodup)
    (colors : ∀ id ∈ nodes, id ≤ Group.lastColor) {rank other : Nat} (below : rank < nodes.length)
    (below' : other < nodes.length) (same : machine (fun rank => nodes.getD rank 0) other = machine
      (fun rank => nodes.getD rank 0) rank) :
    other = rank := by
  have color : ∀ rank (below : rank < nodes.length), machine (fun rank => nodes.getD rank 0) rank =
      nodes[rank] := by
    intro rank below
    rw [machine, List.getD_eq_getElem?_getD, List.getElem?_eq_getElem below, Option.getD_some,
      Nat.min_eq_left (colors _ (List.getElem_mem below))]
  rw [color other below', color rank below] at same
  exact apart.getElem_inj_iff.mp same

omit [Scalar S] in
/-- A lead among leads of which none holds resources, or all hold some for as many leads, is
admitted and uses the engine once more. -/
theorem holds_opened {a : Nat → Attached S} {h : Nat → Hierarchy} {settings : Nat → Settings S}
    {new : Nat → Group} {rank : Nat} {ended : Attempt Unit × Attached S}
    (left : ended = opened a h settings new rank) (lead : (h rank).isLead)
    (among : rank ∈ (h rank).leads.hub.ranks)
    (counted : (a rank).context.users = (a rank).context.shared.elim 0 (·.references))
    (fits : (∀ lead ∈ (h rank).leads.hub.ranks, (a lead).context.shared = none) ∨
      ∀ lead ∈ (h rank).leads.hub.ranks, (a lead).context.shared.isSome ∧
        (a lead).context.leads = (h rank).leads.hub.ranks.length) :
    ended.1 = .ok () ∧ ended.2.solver.holds ∧ ended.2.context.users = (a rank).context.users + 1 ∧
      ended.2.context.leads = (h rank).leads.hub.ranks.length := by
  rw [left, opened, if_pos lead]
  rcases fits with free | held
  · have creates : admission (registeredContexts a) (h rank).leads.hub.ranks = .create :=
      (admission_eq_create_iff (List.ne_nil_of_mem among)).mpr free
    have no_user : (a rank).context.users = 0 := by
      rw [counted, free rank among]
      rfl
    rw [Context.admitted, creates, no_user]
    exact ⟨rfl, rfl, rfl, rfl⟩
  · have reuses : admission (registeredContexts a) (h rank).leads.hub.ranks = .reuse :=
      admission_eq_reuse_iff.mpr held
    obtain ⟨shared, found⟩ := Option.isSome_iff_exists.mp (held rank among).1
    have found' : (registeredContexts a rank).shared = some shared := found
    rw [Context.admitted, reuses, found']
    exact ⟨rfl, rfl, rfl, (held rank among).2⟩

/-- Processes that have a machine each and hold no resources, or all hold some for as many leads as
there are processes, initialize a further instance together and are users of the engine once
more. -/
theorem Lived.initialize_apart {nodes : List Nat} (word : nodes.length + 1 < Word.limit)
    (apart : nodes.Nodup) (colors : ∀ id ∈ nodes, id ≤ Group.lastColor) {p : Nat → Process S}
    (number : Nat) (lived : ∀ rank < nodes.length, (p rank).Lived 0)
    (closed : ∀ rank < nodes.length, ((p rank).instances number).state = none)
    (fits : (∀ rank < nodes.length, (p rank).context.shared = none) ∨
      ∀ rank < nodes.length, (p rank).context.shared.isSome ∧
        (p rank).context.leads = nodes.length) :
    ∃ a : Nat → Attached S, ∀ rank < nodes.length, (∃ events,
        (((plainAct nodes rank).part).start ((p rank).attached number)).Runs events
        (.ok (), a rank)) ∧
      ((p rank).put number (a rank)).Lived 0 ∧ (a rank).solver.holds ∧
      (a rank).context.users = (p rank).context.users + 1 ∧
      (a rank).context.leads = nodes.length := by
  have steady := fun rank inside => (lived rank (Finset.mem_range.mp inside)).balanced.steady
  have all : ∀ rank, (Group.world nodes rank).hub.ranks = List.range nodes.length := fun _ => rfl
  obtain ⟨rounds, v, reach, h, new, established⟩ := Call.Feasible.completes (S := S)
    (Call.plain (Group.world nodes 0) 1) (a := fun rank => (p rank).attached number)
    (Together.world nodes) (fun rank inside => (steady rank inside).running_eq)
    (fun rank _ => by rwa [all, List.length_range])
    (fun rank inside => closed rank (Finset.mem_range.mp inside))
    (fun rank inside other inside' _ =>
      (steady other inside').visible_eq.trans (steady rank inside).visible_eq.symm)
    (fun _ _ => Call.feasible_plain (Group.world nodes 0) Nat.one_pos
      (Nat.le_trans (Nat.min_le_left ..) (Nat.le_add_left ..))) fun _ => 0
  obtain ⟨leads, ranks⟩ := established.ranked.alone (fun rank _ => all rank)
    (fun rank inside other among => machine_inj apart colors (Finset.mem_range.mp inside)
      (List.mem_range.mp among))
    fun rank among => Finset.mem_range.mpr (List.mem_range.mp among)
  refine ⟨fun rank => (v rank).2, fun rank below => ?_⟩
  have inside := Finset.mem_range.mpr below
  have among : rank ∈ (h rank).leads.hub.ranks := by rwa [ranks rank inside, List.mem_range]
  have ended := holds_opened (established.left rank inside) (leads rank inside) among
    (steady rank inside).users_eq
    (by simpa only [attached, ranks rank inside, List.mem_range, List.length_range] using fits)
  rw [ranks rank inside, List.length_range] at ended
  obtain ⟨ok, holds, users, counts⟩ := ended
  obtain ⟨events, runs⟩ := reach.runs inside
  rw [show v rank = (.ok (), (v rank).2) from Prod.ext ok rfl] at runs
  have acts : (((plainAct nodes rank).part).start ((p rank).attached number)).Runs events
    (.ok (), (v rank).2) := runs
  have answered : (.ok () : Attempt Unit) ≠ .error .aborted := by simp
  exact ⟨⟨events, acts⟩, .acted (lived rank below) acts answered, holds, users, counts⟩

/-- An instance that holds the engine can be finalized, which takes one user from it. -/
theorem Lived.finalize_holder {p : Process S} (lived : p.Lived visible) (number : Nat)
    (holds : (p.instances number).holds) : ∃ b : Attached S,
      ((Act.finalizes.part).start (p.attached number)).Runs [] (.ok (), b) ∧
      (p.put number b).Lived visible ∧ b.context.users = p.context.users - 1 := by
  have initialized : (p.instances number).isInitialized := by
    by_contra closed
    exact Attached.not_holds_of_closed (a := p.attached number) closed holds
  obtain ⟨inst, found⟩ := Option.isSome_iff_exists.mp initialized
  obtain ⟨b, finalized, closes⟩ :=
    Attached.finalize_closes lived.balanced.steady (a := p.attached number)
    (fun _ => lived.balanced.isSome_iff.mpr (lived.balanced.tallied.users_pos holds)) found
  have ends : ((Act.finalizes.part).start (p.attached number)).Runs [] (.ok (), b) := by
    rw [Act.part, finalized]
    exact .finished
  refine ⟨b, ends, .acted lived ends nofun, ?_⟩
  cases closes with
  | idle closed => exact absurd initialized closed
  | other _ without _ _ => exact absurd holds without
  | holder _ _ _ same =>
    rw [same]
    rfl

/-- What holds of the engine of a process and of any call that the process may make next. -/
structure Governed (p : Process S) : Prop where
  /-- The context counts the initialized instances. -/
  live : {number | (p.instances number).isInitialized}.encard = p.context.instances
  /-- The context counts the instances that hold the handles of a lead. -/
  users : {number | (p.instances number).holds}.encard = p.context.users
  /-- There are shared resources exactly while there are users. -/
  shared_iff : p.context.shared.isSome ↔ 0 < p.context.users
  /-- The engine runs exactly while there are users. -/
  running_iff : p.context.engine.running ↔ 0 < p.context.users
  startups : p.context.engine.startups = p.context.engine.shutdowns +
    if p.context.engine.running then 1 else 0
  /-- A call that returns shuts the engine down exactly if it ends an instance and takes the users
  from one to none. -/
  shutdowns : ∀ (number : Nat) (act : Act S) (events : List Event) (outcome : Attempt
    Unit) (a : Attached S),
    ((act.part).start (p.attached number)).Runs events (outcome, a) → outcome ≠ .error .aborted →
    a.context.engine.shutdowns = p.context.engine.shutdowns +
      if act.ends ∧ p.context.users = 1 ∧ a.context.users = 0 then 1 else 0
  /-- No call is refused because the engine has been started, does not run or has resources in use,
  and none is dropped with such a failure. -/
  refusals : ∀ (number : Nat) (act : Act S) (events : List Event) (outcome : Attempt
    Unit) (a : Attached S),
    ((act.part).start (p.attached number)).Runs events (outcome, a) → outcome ≠ .error .aborted →
    outcome ≠ .error EngineError.alreadyStarted ∧ outcome ≠ .error EngineError.notRunning ∧
      outcome ≠ .error EngineError.stillReferenced ∧ (act = .drops → events = [])

/-- After any calls that have returned, whatever the other processes did meanwhile, the engine of a
process runs for as long as one of the instances of the process holds it. -/
theorem engine_governed {p : Process S} (lived : p.Lived visible) : p.Governed where
  live := lived.balanced.live
  users := lived.balanced.users
  shared_iff := lived.balanced.isSome_iff
  running_iff := lived.balanced.steady.running_eq ▸ lived.balanced.isSome_iff
  startups := lived.balanced.startups
  shutdowns number act events outcome a runs returned := (lived.balanced.acts runs returned).2.1
  refusals number act events outcome a runs returned := by
    obtain ⟨_, _, other, silent⟩ := lived.balanced.acts runs returned
    refine ⟨?_, ?_, ?_, silent⟩
    · rintro rfl
      exact (other _ rfl).1 rfl
    · rintro rfl
      exact (other _ rfl).2.1 rfl
    · rintro rfl
      exact (other _ rfl).2.2 rfl

/-- A process on a machine of its own initializes two instances, which share the engine, and
finalizes one after the other. The engine runs on for the second one and is shut down with it. -/
theorem engine_governed_two : ∃ p q r : Process Float,
    p.Lived 0 ∧ p.Governed ∧ p.context.users = 2 ∧ p.context.engine.running = true ∧
    q.Lived 0 ∧ q.Governed ∧ q.context.users = 1 ∧ q.context.engine.running = true ∧
    q.context.engine.shutdowns = 0 ∧
    r.Lived 0 ∧ r.Governed ∧ r.context.users = 0 ∧ r.context.engine.running = false ∧
    r.context.engine.shutdowns = 1 := by
  have apart : [0].Nodup := List.nodup_singleton 0
  have word : [0].length + 1 < Word.limit := by decide
  have colors : ∀ id ∈ [0], id ≤ Group.lastColor := by decide
  have only : ∀ rank, rank < [0].length → rank = 0 := fun rank below => Nat.lt_one_iff.mp below
  have first_number : 0 < [0].length := Nat.one_pos
  let fresh : Process Float := .fresh 0
  have begun : fresh.Lived 0 := .fresh
  obtain ⟨a, opens⟩ := Lived.initialize_apart word apart colors 0 (fun _ _ => begun)
    (fun _ _ => rfl) (.inl fun _ _ => rfl)
  obtain ⟨⟨events, runs⟩, lived₁, holds, users₁, leads⟩ := opens 0 first_number
  have shut₁ : (a 0).context.engine.shutdowns = 0 := (begun.balanced.acts runs nofun).2.1
  have users₁ : (fresh.put 0 (a 0)).context.users = 1 := users₁
  obtain ⟨b, opens'⟩ := Lived.initialize_apart word apart colors 1 (fun _ _ => lived₁)
    (fun _ _ => rfl)
    (.inr fun _ _ => ⟨lived₁.balanced.isSome_iff.mpr (users₁ ▸ Nat.one_pos), leads⟩)
  obtain ⟨⟨events', runs'⟩, lived₂, holds', users₂, _⟩ := opens' 0 first_number
  have shut₂ : (b 0).context.engine.shutdowns = 0 :=
    ((lived₁.balanced.acts runs' nofun).2.1).trans shut₁
  have users₂ : ((fresh.put 0 (a 0)).put 1 (b 0)).context.users = 2 :=
    users₂.trans (congrArg (· + 1) users₁)
  obtain ⟨c, ends, lived₃, users₃⟩ := lived₂.finalize_holder 0 holds
  have users₃ : (((fresh.put 0 (a 0)).put 1 (b 0)).put 0 c).context.users = 1 :=
    users₃.trans (congrArg (· - 1) users₂)
  have shut₃ : c.context.engine.shutdowns = 0 := by
    rw [(engine_governed lived₂).shutdowns 0 _ _ _ _ ends nofun, users₂]
    exact shut₂
  obtain ⟨d, ends', lived₄, users₄⟩ := lived₃.finalize_holder 1 holds'
  have users₄ : d.context.users = 0 := users₄.trans (congrArg (· - 1) users₃)
  have shut₄ : d.context.engine.shutdowns = 1 := by
    rw [(engine_governed lived₃).shutdowns 1 _ _ _ _ ends' nofun, if_pos ⟨rfl, users₃, users₄⟩]
    exact congrArg (· + 1) shut₃
  have runs₂ := (engine_governed lived₂).running_iff.mpr (users₂ ▸ Nat.two_pos)
  have runs₃ := (engine_governed lived₃).running_iff.mpr (users₃ ▸ Nat.one_pos)
  have stopped : ¬ d.context.engine.running := fun running =>
    absurd ((engine_governed lived₄).running_iff.mp running) (Nat.not_lt.mpr (Nat.le_of_eq users₄))
  exact ⟨_, _, _, lived₂, engine_governed lived₂, users₂, runs₂,
    lived₃, engine_governed lived₃, users₃, runs₃, shut₃,
    lived₄, engine_governed lived₄, users₄, Bool.eq_false_iff.mpr stopped, shut₄⟩

end Process

end DeviceTeams
