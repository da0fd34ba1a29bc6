import DeviceTeams.Proofs.Collectives

/-!
# The exchanges that a program enters

A rank and the others have to agree on the operations that they enter: on the kind of the payloads
and, where vectors travel, on their length. A program can keep a record of its exchanges and hand it
over with its value. Ranks are in unison if they come to their ends through the same exchanges, each
at the meeting point of its own group.
-/
namespace DeviceTeams

variable {S α β σ : Type} {A : Finset Nat} {node : Nat → Nat} {G : Nat → Group}

/-- In a world of `n` ranks where only those of `A` have something to do, they end with these
values, whatever the order of the steps. -/
def EndsAmong (n : Nat) (A : Finset Nat) (hubs : Hubs S) (P : Nat → Program S α) (v : Nat → α) :
    Prop :=
  ∀ idle : Nat → α,
    (World.ofPrograms n
      (fun rank => if rank ∈ A then P rank else .finished (idle rank)) hubs).EndsWith
    ((List.range n).map fun rank => some (if rank ∈ A then v rank else idle rank))

theorem EndsAmong.congr {n : Nat} {hubs : Hubs S} {P P' : Nat → Program S α} {v v' : Nat → α}
    (h : EndsAmong n A hubs P v) (same : ∀ rank ∈ A, P' rank = P rank)
    (ends : ∀ rank ∈ A, v' rank = v rank) :
    EndsAmong n A hubs P' v' := by
  intro idle
  have programs : (fun rank => if rank ∈ A then P' rank else .finished (idle rank)) =
      fun rank => if rank ∈ A then P rank else .finished (idle rank) :=
    funext fun rank => ite_congr rfl (same rank) fun _ => rfl
  have values : (fun rank => some (if rank ∈ A then v' rank else idle rank)) =
      fun rank => some (if rank ∈ A then v rank else idle rank) :=
    funext fun rank => congrArg some (ite_congr rfl (ends rank) fun _ => rfl)
  rw [programs, values]
  exact h idle

/-- The ranks cannot end in two ways. -/
theorem EndsAmong.unique {n : Nat} {hubs : Hubs S} {P : Nat → Program S α} {v v' : Nat → α}
    (h : EndsAmong n A hubs P v) (h' : EndsAmong n A hubs P v') {rank : Nat} (inside : rank ∈ A)
    (below : rank < n) :
    v rank = v' rank := by
  have results := (h v).run.symm.trans (h' v).run
  have own := List.map_inj_left.mp results rank (List.mem_range.mpr below)
  rwa [if_pos inside, if_pos inside, Option.some.injEq] at own

theorem Reaches.endsAmong {n : Nat} {rounds rounds' : Rounds} {P : Nat → Program S α} {v : Nat → α}
    (reach : Reaches A rounds P rounds' fun rank => .finished (v rank))
    (within : A ⊆ Finset.range n) {hubs : Hubs S} (resting : hubs.Resting rounds) :
    EndsAmong n A hubs P v := by
  intro idle
  have own : Reaches A rounds
    (fun rank => if rank ∈ A then P rank else .finished (idle rank)) rounds'
    fun rank => .finished (v rank) := reach.congr (fun rank inside => if_pos inside) fun _ _ => rfl
  have ends :=
    ((Halts.of_finished own).part within fun rank _ outside => if_neg outside).endsWith resting
  simpa only [← apply_ite] using ends

theorem Completes.endsAmong {n : Nat} {P : Nat → Program S α} {post : (Nat → α) → Prop}
    (h : Completes A P post) (within : A ⊆ Finset.range n) {hubs : Hubs S} {rounds : Rounds}
    (resting : hubs.Resting rounds) :
    ∃ v, post v ∧ EndsAmong n A hubs P v := by
  obtain ⟨rounds', v, reach, holds⟩ := h rounds
  exact ⟨v, holds, reach.endsAmong within resting⟩

/-- What the members of a group agree on when they exchange payloads. -/
inductive Payload.Shape where
  | signal
  | choice
  | meetingPoint
  | one (kind : Element)
  | many (kind : Element) (length : Nat)
  | offer (kind : Element) (length : Option Nat)
deriving DecidableEq, Repr

def Payload.shape : Payload S → Payload.Shape
  | signal => .signal
  | choice _ _ => .choice
  | meetingPoint _ => .meetingPoint
  | one kind _ => .one kind
  | many kind values => .many kind values.length
  | offer kind values => .offer kind (values.map List.length)

structure Exchange where
  hub : Hub
  shape : Payload.Shape
deriving DecidableEq, Repr

namespace Program

/-- The same program, with the exchanges that it enters handed over at the end. -/
def recorded : Program S α → Program S (α × List Exchange)
  | finished value => finished (value, [])
  | report event next => report event next.recorded
  | meet hub seat payload resume => meet hub seat payload fun round =>
      (resume round).recorded.andThen fun (value, later) =>
        finished (value, ⟨hub, payload.shape⟩ :: later)

/-- A program that forgets its record is what it was. -/
theorem recorded_forgotten (p : Program S α) :
    (p.recorded >>= fun ended => finished ended.1) = p := by
  induction p with
  | finished value => rfl
  | report event next ih => rw [recorded, report_bind, ih]
  | meet hub seat payload resume ih =>
    rw [recorded, meet_bind]
    congr 1
    funext round
    exact (andThen_assoc ..).trans (ih round)

/-- The record of a sequence is the one of the first part followed by the one of the second part. -/
theorem recorded_bind (p : Program S α) (f : α → Program S β) :
    (p >>= f).recorded = p.recorded >>= fun (value, earlier) =>
      (f value).recorded >>= fun (value, later) => finished (value, earlier ++ later) := by
  induction p with
  | finished value => exact (andThen_finished _).symm
  | report event next ih => rw [report_bind, recorded, ih, recorded, report_bind]
  | meet hub seat payload resume ih =>
    rw [meet_bind, recorded, recorded, meet_bind]
    congr 1
    funext round
    have later := ih round
    show (resume round >>= f).recorded.andThen _ = ((resume round).recorded.andThen _).andThen _
    rw [later, andThen_assoc]
    show (Program.andThen _ _).andThen _ = _
    rw [andThen_assoc]
    congr 1
    funext ended
    exact andThen_assoc ..

inductive Once (hub : Hub) (shape : Payload.Shape) : Program S α → Prop
  | intro (seat : Nat) (payload : Payload S) (value : Round (Payload S) → α)
      (same : payload.shape = shape) :
      Once hub shape (.meet hub seat payload fun round => .finished (value round))

namespace Once

variable {p : Program S α} {hub : Hub} {shape : Payload.Shape}

theorem recorded_eq (once : p.Once hub shape) :
    p.recorded = p >>= fun value => finished (value, [⟨hub, shape⟩]) := by
  obtain ⟨seat, payload, value, rfl⟩ := once
  rfl

theorem map (once : p.Once hub shape) (f : α → β) :
    (p >>= fun value => finished (f value)).Once hub shape := by
  obtain ⟨seat, payload, value, same⟩ := once
  exact ⟨seat, payload, fun round => f (value round), same⟩

end Once
end Program

namespace Group

theorem exchange_once (g : Group) (payload : Payload S) :
    (g.exchange payload).run.Once g.hub payload.shape :=
  ⟨g.rank, payload, Except.ok, rfl⟩

/-- An attempt behind an exchange is no further exchange. -/
theorem once_ofAttempt {T : Task S α} {hub : Hub} {shape : Payload.Shape}
    (once : T.run.Once hub shape) (f : α → Attempt β) :
    (T >>= fun value => Task.ofAttempt (f value)).run.Once hub shape := by
  have later := once.map fun outcome => outcome >>= f
  rw [Task.run_bind]
  convert later using 2
  funext outcome
  cases outcome <;> rfl

theorem sumCounts_once (g : Group) (count : Nat) :
    (g.sumCounts count : Task S Nat).run.Once g.hub (.one .word64) :=
  once_ofAttempt (once_ofAttempt (g.exchange_once (.one .word64 count)) _) _

variable [Scalar S]

theorem sum_once (g : Group) (value : S) : (g.sum value).run.Once g.hub (.one .real) :=
  once_ofAttempt (once_ofAttempt (g.exchange_once (.one .real value)) _) fun values =>
    .ok (Scalar.total values)

theorem sumVector_once (g : Group) (values : List S) :
    (g.sumVector values).run.Once g.hub (.many .real values.length) :=
  once_ofAttempt (g.exchange_once (.many .real values)) _

end Group

/-! ## Ranks that enter the same exchanges -/

/-- The ranks of `A` have entered the same exchanges, each at the meeting point of its own group.
The shapes of these and the values of the ranks are as the condition says. -/
def Recorded (A : Finset Nat) (G : Nat → Group) (post : List Payload.Shape → (Nat → α) → Prop)
    (v : Nat → α × List Exchange) : Prop :=
  ∃ (w : Nat → α) (shapes : List Payload.Shape),
    (∀ rank ∈ A, v rank = (w rank, shapes.map (Exchange.mk (G rank).hub))) ∧ post shapes w

/-- The ranks of `A` come to their ends through the same exchanges, of shapes and with values as the
condition says. -/
def Traced (A : Finset Nat) (G : Nat → Group) (P : Nat → Program S α)
    (post : List Payload.Shape → (Nat → α) → Prop) : Prop :=
  Completes A (fun rank => (P rank).recorded) (Recorded A G post)

namespace Traced

variable {P P' : Nat → Program S α} {post post' : List Payload.Shape → (Nat → α) → Prop}

theorem of_finished {v : Nat → α} (done : ∀ rank ∈ A, P rank = .finished (v rank)) (h : post [] v) :
    Traced A G P post :=
  Completes.of_finished (v := fun rank => (v rank, []))
    (fun rank inside => by rw [done rank inside]; rfl) ⟨v, [], fun _ _ => rfl, h⟩

theorem mono (h : Traced A G P post) (weaker : ∀ shapes v, post shapes v → post' shapes v) :
    Traced A G P post' :=
  Completes.mono h fun _ ⟨w, shapes, values, holds⟩ => ⟨w, shapes, values, weaker shapes w holds⟩

theorem congr (h : Traced A G P post) (same : ∀ rank ∈ A, P' rank = P rank) : Traced A G P' post :=
  Completes.congr h fun rank inside => by rw [same rank inside]

/-- The ranks come to one and the same end with and without a record. -/
theorem reaches (h : Traced A G P post) (rounds : Rounds) :
    ∃ (rounds' : Rounds) (w : Nat → α) (shapes : List Payload.Shape),
      post shapes w ∧ Reaches A rounds P rounds' (fun rank => .finished (w rank)) ∧
        Reaches A rounds (fun rank => (P rank).recorded) rounds' fun rank =>
          .finished (w rank, shapes.map (Exchange.mk (G rank).hub)) := by
  obtain ⟨rounds', v, reach, w, shapes, values, holds⟩ := h rounds
  refine ⟨rounds', w, shapes, holds, ?_, reach.congr (fun _ _ => rfl)
    fun rank inside => by rw [values rank inside]⟩
  refine (reach.andThen fun _ ended => Program.finished ended.1).congr (fun rank _ => ?_)
    fun rank inside => ?_
  · exact (P rank).recorded_forgotten.symm
  · rw [values rank inside]
    rfl

theorem completes (h : Traced A G P post) : Completes A P fun v => ∃ shapes, post shapes v := by
  intro rounds
  obtain ⟨rounds', w, shapes, holds, reach, _⟩ := h.reaches rounds
  exact ⟨rounds', w, reach, shapes, holds⟩

/-- The ranks, among others that have nothing to do, end in whatever order they take their steps. -/
theorem endsAmong {n : Nat} (h : Traced A G P post) (within : A ⊆ Finset.range n) {hubs : Hubs S}
    {rounds : Rounds} (resting : hubs.Resting rounds) :
    ∃ (w : Nat → α) (shapes : List Payload.Shape), post shapes w ∧
      EndsAmong n A hubs P w ∧
      EndsAmong n A hubs (fun rank => (P rank).recorded) fun rank =>
        (w rank, shapes.map (Exchange.mk (G rank).hub)) := by
  obtain ⟨rounds', w, shapes, holds, reach, recorded⟩ := h.reaches rounds
  exact ⟨w, shapes, holds, reach.endsAmong within resting, recorded.endsAmong within resting⟩

/-- The exchanges of a sequence are those of the first part followed by those of the second part. -/
theorem bind {f : Nat → α → Program S β} {post' : List Payload.Shape → (Nat → β) → Prop}
    (h : Traced A G P post) (next : ∀ earlier v, post earlier v →
      Traced A G (fun rank => f rank (v rank)) fun later w => post' (earlier ++ later) w) :
    Traced A G (fun rank => P rank >>= f rank) post' := by
  have rest : ∀ v, Recorded A G post v →
      Completes A (fun rank => (f rank (v rank).1).recorded >>= fun ended =>
      .finished (ended.1, (v rank).2 ++ ended.2)) (Recorded A G post') := by
    rintro v ⟨w, earlier, values, holds⟩
    have later := Completes.map (f := fun rank ended => (ended.1, (v rank).2 ++ ended.2))
      (next earlier w holds)
      fun u ⟨w', shapes, values', holds'⟩ =>
        show Recorded A G post' _ from ⟨w', earlier ++ shapes, fun rank inside => by
        simp only [values rank inside, values' rank inside, List.map_append], holds'⟩
    exact later.congr fun rank inside => by rw [values rank inside]
  exact (Completes.bind (f := fun rank ended => (f rank ended.1).recorded >>= fun later =>
    .finished (later.1, ended.2 ++ later.2)) h rest).congr fun rank _ => Program.recorded_bind ..

/-- Programs that enter one exchange each, all of one shape. -/
theorem of_once {shape : Payload.Shape} {holds : (Nat → α) → Prop} (h : Completes A P holds)
    (once : ∀ rank ∈ A, (P rank).Once (G rank).hub shape) :
    Traced A G P fun shapes v => shapes = [shape] ∧ holds v := by
  refine (Completes.map (f := fun rank value => (value, [Exchange.mk (G rank).hub shape])) h
    fun v same => ?_).congr
    fun rank inside => (once rank inside).recorded_eq
  exact ⟨v, [shape], fun _ _ => rfl, rfl, same⟩

end Traced

/-! ## Tasks that succeed -/

def Through (A : Finset Nat) (G : Nat → Group) (shapes : List Payload.Shape) (T : Nat → Task S α)
    (post : (Nat → α) → Prop) : Prop :=
  Traced A G (fun rank => (T rank).run) fun entered v => entered = shapes ∧
    ∃ w, (∀ rank ∈ A, v rank = .ok (w rank)) ∧ post w

namespace Through

variable {shapes shapes' : List Payload.Shape} {T T' : Nat → Task S α}
  {post post' : (Nat → α) → Prop}

theorem succeeds (h : Through A G shapes T post) : Succeeds A T post :=
  Completes.mono (Traced.completes h) fun _ ⟨_, _, holds⟩ => holds

theorem mono (h : Through A G shapes T post) (weaker : ∀ w, post w → post' w) :
    Through A G shapes T post' :=
  Traced.mono h fun _ _ ⟨same, w, values, holds⟩ => ⟨same, w, values, weaker w holds⟩

theorem congr (h : Through A G shapes T post) (same : ∀ rank ∈ A, T' rank = T rank) :
    Through A G shapes T' post :=
  Traced.congr h fun rank inside => by rw [same rank inside]

theorem ofAttempt {x : Nat → Attempt α} {w : Nat → α} (h : ∀ rank ∈ A, x rank = .ok (w rank))
    (holds : post w) :
    Through A G [] (fun rank => (Task.ofAttempt (x rank) : Task S α)) post :=
  Traced.of_finished (v := x) (fun _ _ => rfl) ⟨rfl, w, h, holds⟩

theorem bind {f : Nat → α → Task S β} {post' : (Nat → β) → Prop} (h : Through A G shapes T post)
    (next : ∀ w, post w → Through A G shapes' (fun rank => f rank (w rank)) post') :
    Through A G (shapes ++ shapes') (fun rank => T rank >>= f rank) post' := by
  have parts : Traced A G (fun rank => (T rank).run >>= Task.following (f rank)) fun entered v =>
      entered = shapes ++ shapes' ∧ ∃ w, (∀ rank ∈ A, v rank = .ok (w rank)) ∧ post' w := by
    refine Traced.bind h fun earlier v holds => ?_
    obtain ⟨rfl, w, values, condition⟩ := holds
    refine Traced.mono (Traced.congr (next w condition) fun rank inside => ?_)
      fun later u ⟨same, ends⟩ => ?_
    · rw [values rank inside, Task.following_ok]
    · exact ⟨congrArg (earlier ++ ·) same, ends⟩
  exact parts.congr fun rank _ => Task.run_bind (T rank) (f rank)

/-- What comes behind tasks that succeed as a part of some work. -/
theorem followedBy {s : Nat → σ} {f : Nat → α → Work S σ β}
    {post' : List Payload.Shape → (Nat → Attempt β × σ) → Prop} (h : Through A G shapes T post)
    (next : ∀ w, post w →
      Traced A G (fun rank => (f rank (w rank)).start (s rank)) fun later v =>
        post' (shapes ++ later) v) :
    Traced A G (fun rank => (Work.ofTask (T rank) >>= f rank).start (s rank)) post' := by
  have parts : Traced A G
      (fun rank => (T rank).run >>= fun outcome => Work.following (f rank) (outcome, s rank))
      post' := by
    refine Traced.bind h fun earlier v holds => ?_
    obtain ⟨rfl, w, values, condition⟩ := holds
    exact (next w condition).congr fun rank inside => by rw [values rank inside, Work.following_ok]
  exact parts.congr fun rank _ => Work.start_ofTask_bind (T rank) (f rank) (s rank)

/-- What comes behind tasks with known values as a part of some work. -/
theorem followedBy_eq {s : Nat → σ} {f : Nat → α → Work S σ β} {v : Nat → α}
    {post' : List Payload.Shape → (Nat → Attempt β × σ) → Prop}
    (h : Through A G shapes T fun w => ∀ rank ∈ A, w rank = v rank)
    (next : Traced A G (fun rank => (f rank (v rank)).start (s rank)) fun later u =>
      post' (shapes ++ later) u) :
    Traced A G (fun rank => (Work.ofTask (T rank) >>= f rank).start (s rank)) post' :=
  h.followedBy fun w same => next.congr fun rank inside => by rw [same rank inside]

end Through

/-- Tasks that succeed and enter one exchange each, all of one shape. -/
theorem Succeeds.through {shape : Payload.Shape} {T : Nat → Task S α} {post : (Nat → α) → Prop}
    (h : Succeeds A T post) (once : ∀ rank ∈ A, (T rank).run.Once (G rank).hub shape) :
    Through A G [shape] T post :=
  Traced.of_once h once

/-- A round of all groups with payloads of one shape. -/
theorem Together.exchange_through (t : Together node A G) {shape : Payload.Shape}
    {payload : Nat → Payload S} (same : ∀ rank ∈ A, (payload rank).shape = shape) :
    Through A G [shape] (fun rank => (G rank).exchange (payload rank)) fun w =>
      ∃ number : Hub → Nat, ∀ rank ∈ A, w rank =
        ⟨number (G rank).hub, (G rank).hub.ranks.map payload⟩ :=
  (t.exchange payload).through fun rank inside =>
    same rank inside ▸ (G rank).exchange_once (payload rank)

/-! ## Unison -/

/-- The ranks of `A` come to their ends through the same exchanges, with values as the condition
says. -/
def Unison (A : Finset Nat) (G : Nat → Group) (P : Nat → Program S α) (post : (Nat → α) → Prop) :
    Prop :=
  Traced A G P fun _ => post

namespace Unison

variable {P P' : Nat → Program S α} {post post' : (Nat → α) → Prop}

theorem of_finished {v : Nat → α} (done : ∀ rank ∈ A, P rank = .finished (v rank)) (h : post v) :
    Unison A G P post :=
  Traced.of_finished done h

theorem mono (h : Unison A G P post) (weaker : ∀ v, post v → post' v) : Unison A G P post' :=
  Traced.mono h fun _ => weaker

theorem congr (h : Unison A G P post) (same : ∀ rank ∈ A, P' rank = P rank) : Unison A G P' post :=
  Traced.congr h same

theorem completes (h : Unison A G P post) : Completes A P post :=
  Completes.mono (Traced.completes h) fun _ ⟨_, holds⟩ => holds

/-- Ranks in unison among others that have nothing to do end in whatever order they take their
steps. -/
theorem endsAmong {n : Nat} (h : Unison A G P post) (within : A ⊆ Finset.range n) {hubs : Hubs S}
    {rounds : Rounds} (resting : hubs.Resting rounds) :
    ∃ (w : Nat → α) (shapes : List Payload.Shape), post w ∧ EndsAmong n A hubs P w ∧
      EndsAmong n A hubs (fun rank => (P rank).recorded) fun rank =>
        (w rank, shapes.map (Exchange.mk (G rank).hub)) :=
  Traced.endsAmong h within resting

theorem bind {f : Nat → α → Program S β} {post' : (Nat → β) → Prop} (h : Unison A G P post)
    (next : ∀ v, post v → Unison A G (fun rank => f rank (v rank)) post') :
    Unison A G (fun rank => P rank >>= f rank) post' :=
  Traced.bind h fun _ => next

/-- The sequence of parts with known values. -/
theorem bind_eq {f : Nat → α → Program S β} {v : Nat → α} {post' : (Nat → β) → Prop}
    (h : Unison A G P fun w => ∀ rank ∈ A, w rank = v rank)
    (next : Unison A G (fun rank => f rank (v rank)) post') :
    Unison A G (fun rank => P rank >>= f rank) post' :=
  h.bind fun w same => next.congr fun rank inside => by rw [same rank inside]

end Unison

end DeviceTeams
