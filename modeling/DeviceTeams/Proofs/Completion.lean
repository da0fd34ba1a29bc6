import DeviceTeams.Proofs.Schedules
import DeviceTeams.Ranks.Work

/-!
# What ranks achieve together

`Reaches` says how far the ranks of a set come with each other, whatever the rest of the world does,
and `Completes` says that all of them come to an end and what is true of their values. Both are
proved along the programs: from the parts of a sequence, from a part of the ranks, or round by
round.
-/
namespace DeviceTeams

open Relation (ReflTransGen)

variable {S α β γ σ : Type} {A B : Finset Nat}

/-- The ranks of `A` come from their programs `P` to the programs `Q`. -/
def Reaches (A : Finset Nat) (rounds : Rounds) (P : Nat → Program S α) (rounds' : Rounds)
    (Q : Nat → Program S α) : Prop :=
  ∃ T, ReflTransGen (Stage.Move A) ⟨rounds, P⟩ ⟨rounds', T⟩ ∧ ∀ rank ∈ A, T rank = Q rank

/-- Only the programs of `A` matter for what `A` can do. -/
theorem Stage.Move.congr {s t : Stage S α} (move : Stage.Move A s t) {P : Nat → Program S α}
    (same : ∀ rank ∈ A, P rank = s.programs rank) :
    ∃ Q, Stage.Move A ⟨s.rounds, P⟩ ⟨t.rounds, Q⟩ ∧ ∀ rank ∈ A, Q rank = t.programs rank := by
  cases move with
  | @report rank event next taking reports =>
    have reports' : P rank = .report event next := (same rank taking).trans reports
    refine ⟨Function.update P rank next, .report taking reports', fun other member => ?_⟩
    by_cases here : other = rank
    · subst here; simp
    · simp only [Function.update_of_ne here, same other member]
  | @meet hub payload resume some_member within gathered =>
    have gathered' : Stage.Gathered ⟨s.rounds, P⟩ hub payload resume := fun seat rank found =>
      (same rank (within rank (List.mem_of_getElem? found))).trans (gathered seat rank found)
    refine ⟨_, .meet some_member within gathered', fun rank member => ?_⟩
    · by_cases belongs : rank ∈ hub.ranks
      · simp only [Stage.meetAt, if_pos belongs]
      · simp only [Stage.meetAt, if_neg belongs, same rank member]

theorem Stage.run_congr {s t : Stage S α} (run : ReflTransGen (Stage.Move A) s t)
    {P : Nat → Program S α} (same : ∀ rank ∈ A, P rank = s.programs rank) :
    ∃ Q, ReflTransGen (Stage.Move A) ⟨s.rounds, P⟩ ⟨t.rounds, Q⟩ ∧
      ∀ rank ∈ A, Q rank = t.programs rank := by
  induction run with
  | refl => exact ⟨P, .refl, same⟩
  | tail _ move ih =>
    obtain ⟨Q, run, agree⟩ := ih
    obtain ⟨Q', move', agree'⟩ := move.congr agree
    exact ⟨Q', run.tail move', agree'⟩

theorem Reaches.refl {rounds : Rounds} {P Q : Nat → Program S α}
    (same : ∀ rank ∈ A, P rank = Q rank) :
    Reaches A rounds P rounds Q := ⟨P, .refl, same⟩

theorem Reaches.congr {rounds rounds' : Rounds} {P P' Q Q' : Nat → Program S α}
    (h : Reaches A rounds P rounds' Q) (start : ∀ rank ∈ A, P' rank = P rank)
    (stop : ∀ rank ∈ A, Q rank = Q' rank) :
    Reaches A rounds P' rounds' Q' := by
  obtain ⟨T, run, agree⟩ := h
  obtain ⟨T', run', agree'⟩ := Stage.run_congr run start
  exact ⟨T', run', fun rank member =>
    (agree' rank member).trans ((agree rank member).trans (stop rank member))⟩

theorem Reaches.trans {rounds rounds' rounds'' : Rounds} {P Q R : Nat → Program S α}
    (first : Reaches A rounds P rounds' Q) (second : Reaches A rounds' Q rounds'' R) :
    Reaches A rounds P rounds'' R := by
  obtain ⟨T, run, agree⟩ := first
  obtain ⟨T', run', agree'⟩ := second.congr agree (fun _ _ => rfl)
  exact ⟨T', run.trans run', agree'⟩

def Stage.andThen (s : Stage S α) (f : Nat → α → Program S β) : Stage S β :=
  ⟨s.rounds, fun rank => s.programs rank >>= f rank⟩

theorem Stage.Move.andThen {s t : Stage S α} (move : Stage.Move A s t) (f : Nat → α → Program S β) :
    Stage.Move A (s.andThen f) (t.andThen f) := by
  cases move with
  | @report rank event next taking reports =>
    have later : (Stage.andThen ⟨s.rounds, Function.update s.programs rank next⟩ f) =
        ⟨(s.andThen f).rounds, Function.update (s.andThen f).programs rank (next >>= f rank)⟩ := by
      ext other
      · rfl
      · by_cases here : other = rank
        · subst here; simp [Stage.andThen]
        · simp [Stage.andThen, Function.update_of_ne here]
    have reports' : (s.andThen f).programs rank = .report event (next >>= f rank) := by
      simp [Stage.andThen, reports]
    rw [later]
    exact .report taking reports'
  | @meet hub payload resume some_member within gathered =>
    have later : (s.meetAt hub payload resume).andThen f =
        (s.andThen f).meetAt hub payload fun rank round => resume rank round >>= f rank := by
      ext rank
      · rfl
      · by_cases belongs : rank ∈ hub.ranks
        · simp [Stage.andThen, Stage.meetAt, belongs]
        · simp [Stage.andThen, Stage.meetAt, belongs]
    rw [later]
    refine .meet some_member within fun seat rank found => ?_
    simp [Stage.andThen, gathered seat rank found]

theorem Reaches.andThen {rounds rounds' : Rounds} {P Q : Nat → Program S α}
    (h : Reaches A rounds P rounds' Q) (f : Nat → α → Program S β) :
    Reaches A rounds (fun rank => P rank >>= f rank) rounds' (fun rank => Q rank >>= f rank) := by
  obtain ⟨T, run, agree⟩ := h
  have run' := run.lift (fun s => s.andThen f) fun _ _ move => Stage.Move.andThen move f
  exact ⟨_, run', fun rank member => by simp only [agree rank member]⟩

/-- What a part of the ranks does among itself leaves the others where they are. -/
theorem Stage.Move.widen {s t : Stage S α} (move : Stage.Move B s t) (part : B ⊆ A) :
    Stage.Move A s t ∧ ∀ rank ∉ B, t.programs rank = s.programs rank := by
  cases move with
  | @report rank event next taking reports =>
    refine ⟨.report (part taking) reports, fun other outside => ?_⟩
    have differ : other ≠ rank := fun same => outside (same ▸ taking)
    exact Function.update_of_ne differ ..
  | meet some_member within gathered =>
    refine ⟨.meet some_member (fun rank member => part (within rank member)) gathered,
      fun other outside => ?_⟩
    exact Stage.meetAt_programs_of_notMem fun member => outside (within other member)

theorem Reaches.widen {rounds rounds' : Rounds} {P Q : Nat → Program S α}
    (h : Reaches B rounds P rounds' Q) (part : B ⊆ A) :
    Reaches A rounds P rounds' fun rank => if rank ∈ B then Q rank else P rank := by
  obtain ⟨T, run, agree⟩ := h
  have wide : ∀ {s t : Stage S α}, ReflTransGen (Stage.Move B) s t →
      ReflTransGen (Stage.Move A) s t ∧ ∀ rank ∉ B, t.programs rank = s.programs rank := by
    intro s t run
    induction run with
    | refl => exact ⟨.refl, fun _ _ => rfl⟩
    | tail _ move ih =>
      obtain ⟨move', still⟩ := move.widen part
      exact ⟨ih.1.tail move', fun rank outside => (still rank outside).trans (ih.2 rank outside)⟩
  obtain ⟨run', still⟩ := wide run
  refine ⟨T, run', fun rank _ => ?_⟩
  by_cases member : rank ∈ B
  · simp only [if_pos member, agree rank member]
  · simp only [if_neg member]
    exact still rank member

/-- Two parts of the ranks go on one after the other. -/
theorem Reaches.both {p : Nat → Prop} [DecidablePred p] {rounds rounds' rounds'' : Rounds}
    {P Q R : Nat → Program S α} (first : Reaches (A.filter p) rounds P rounds' Q)
    (second : Reaches (A.filter fun rank => ¬ p rank) rounds' P rounds'' R) :
    Reaches A rounds P rounds'' fun rank => if p rank then Q rank else R rank := by
  refine (first.widen (Finset.filter_subset ..)).trans
    ((second.congr (fun rank member => ?_) fun _ _ => rfl).widen
    (Finset.filter_subset ..) |>.congr (fun _ _ => rfl) fun rank inside => ?_)
  · exact if_neg fun among => (Finset.mem_filter.mp member).2 (Finset.mem_filter.mp among).2
  · by_cases holds : p rank
    · simp [inside, holds]
    · simp [inside, holds]

/-- Some of the ranks report something. -/
theorem Reaches.reports {rounds : Rounds} {P Q : Nat → Program S α}
    (h : ∀ rank ∈ A, P rank = Q rank ∨ ∃ event, P rank = .report event (Q rank)) :
    Reaches A rounds P rounds Q := by
  have some_ranks : ∀ B ⊆ A, Reaches A rounds P rounds fun rank =>
      if rank ∈ B then Q rank else P rank := by
    intro B
    induction B using Finset.induction_on with
    | empty => exact fun _ => .refl fun rank _ => by simp
    | @insert first B fresh ih =>
      intro subset
      have inside : first ∈ A := subset (Finset.mem_insert_self ..)
      have reach := ih fun other among => subset (Finset.mem_insert_of_mem among)
      rcases h first inside with same | ⟨event, reports⟩
      · refine reach.congr (fun _ _ => rfl) fun rank _ => ?_
        by_cases here : rank = first
        · subst here; simp [same]
        · simp [here]
      · let stage : Stage S α := ⟨rounds, fun rank => if rank ∈ B then Q rank else P rank⟩
        have waits : stage.programs first = .report event (Q first) := (if_neg fresh).trans reports
        refine reach.trans ⟨_, .single (Stage.Move.report (s := stage) inside waits),
          fun rank _ => ?_⟩
        by_cases here : rank = first
        · subst here; simp
        · simp [stage, here]
  exact (some_ranks A (Finset.Subset.refl _)).congr (fun _ _ => rfl) fun rank inside =>
    if_pos inside

theorem Stage.stuck_of_finished {s : Stage S α} {v : Nat → α}
    (done : ∀ rank ∈ A, s.programs rank = .finished (v rank)) : s.Stuck A := by
  intro t move
  cases move with
  | report taking reports =>
    rw [done _ taking] at reports
    cases reports
  | @meet hub payload resume some_member within gathered =>
    obtain ⟨rank, member⟩ := List.exists_mem_of_ne_nil _ some_member
    obtain ⟨seat, waits⟩ := gathered.of_mem member
    rw [done _ (within rank member)] at waits
    cases waits

/-- Where ranks come to on the way to their ends, they can go on to these ends. -/
theorem Reaches.rest {rounds rounds' rounds'' : Rounds} {P Q : Nat → Program S α} {v : Nat → α}
    (first : Reaches A rounds P rounds' Q)
    (all : Reaches A rounds P rounds'' fun rank => .finished (v rank)) :
    Reaches A rounds' Q rounds'' fun rank => .finished (v rank) := by
  obtain ⟨T, run, agree⟩ := first
  obtain ⟨T', run', agree'⟩ := all
  exact Reaches.congr ⟨T', Stage.stuck_of_run run run' (Stage.stuck_of_finished agree'), agree'⟩
    (fun rank member => (agree rank member).symm) (fun _ _ => rfl)

theorem Reaches.eq_of_finished {rounds rounds' : Rounds} {P Q : Nat → Program S α}
    (h : Reaches A rounds P rounds' Q) {rank : Nat} (member : rank ∈ A) {value : α}
    (done : P rank = .finished value) : Q rank = .finished value := by
  obtain ⟨T, run, agree⟩ := h
  have still : ∀ {s t : Stage S α}, ReflTransGen (Stage.Move A) s t →
      s.programs rank = .finished value →
      t.programs rank = .finished value := by
    intro s t run done
    induction run with
    | refl => exact done
    | tail _ move ih =>
      cases move with
      | @report other event next taking reports =>
        have differ : rank ≠ other := by
          rintro rfl
          rw [ih] at reports
          cases reports
        exact (Function.update_of_ne differ ..).trans ih
      | meet some_member within gathered =>
        refine (Stage.meetAt_programs_of_notMem fun belongs => ?_).trans ih
        obtain ⟨seat, waits⟩ := gathered.of_mem belongs
        rw [ih] at waits
        cases waits
  exact (agree rank member).symm.trans (still run done)

theorem Reaches.value_of_finished {rounds rounds' : Rounds} {P : Nat → Program S α} {v : Nat → α}
    (h : Reaches A rounds P rounds' fun rank => .finished (v rank)) {rank : Nat}
    (member : rank ∈ A) {value : α} (done : P rank = .finished value) : v rank = value :=
  Program.finished.inj (h.eq_of_finished member done)

/-- A rank that waits for one that has finished does not come to an end. -/
theorem Reaches.not_waiting {rounds rounds' : Rounds} {P : Nat → Program S α} {v : Nat → α}
    (reach : Reaches A rounds P rounds' fun rank => .finished (v rank)) {stopped : Nat} {value : α}
    (ends : P stopped = .finished value) {rank : Nat} (inside : rank ∈ A) {hub : Hub} {seat : Nat}
    {payload : Payload S} {resume : Round (Payload S) → Program S α}
    (waits : P rank = .meet hub seat payload resume) (belongs : stopped ∈ hub.ranks) : False := by
  obtain ⟨T, run, agree⟩ := reach
  have still : ∀ {s t : Stage S α}, ReflTransGen (Stage.Move A) s t →
      s.programs stopped = .finished value →
      s.programs rank = .meet hub seat payload resume →
      t.programs stopped = .finished value ∧ t.programs rank = .meet hub seat payload resume := by
    intro s t run ends waits
    induction run with
    | refl => exact ⟨ends, waits⟩
    | tail _ move ih =>
      obtain ⟨ends, waits⟩ := ih
      cases move with
      | @report other event next taking reports =>
        have first : stopped ≠ other := by
          rintro rfl
          cases ends.symm.trans reports
        have second : rank ≠ other := by
          rintro rfl
          cases waits.symm.trans reports
        exact ⟨(Function.update_of_ne first ..).trans ends,
          (Function.update_of_ne second ..).trans waits⟩
      | @meet other payload' resume' some_member within gathered =>
        -- The two ranks have no part in a meeting.
        have absent : stopped ∉ other.ranks := fun among => by
          obtain ⟨seat', meets⟩ := gathered.of_mem among
          cases ends.symm.trans meets
        have elsewhere : rank ∉ other.ranks := fun among => by
          obtain ⟨seat', meets⟩ := gathered.of_mem among
          cases waits.symm.trans meets
          exact absent belongs
        exact ⟨(Stage.meetAt_programs_of_notMem absent).trans ends,
          (Stage.meetAt_programs_of_notMem elsewhere).trans waits⟩
  cases (agree rank inside).symm.trans (still run ends waits).2

/-- Ranks that come to their ends are all refused or all let through where the others would wait for
one that is refused. -/
theorem Reaches.all_or_none {x : Nat → Attempt β} {P : Nat → Program S α}
    {rounds rounds' : Rounds} {ends : Nat → α}
    (reach : Reaches A rounds P rounds' fun rank => .finished (ends rank)) (part : B ⊆ A)
    (refused : ∀ rank ∈ B, ∀ failure, x rank = .error failure → ∃ value, P rank = .finished value)
    (waits : ∀ rank ∈ B, ∀ value, x rank = .ok value → ∃ hub seat payload resume,
      P rank = .meet hub seat payload resume ∧ ∀ other ∈ B, other ∈ hub.ranks) :
    (∀ rank ∈ B, ∃ failure, x rank = .error failure) ∨ ∀ rank ∈ B, ∃ value, x rank = .ok value := by
  by_cases all : ∀ rank ∈ B, ∃ value, x rank = .ok value
  · exact .inr all
  · simp only [not_forall] at all
    obtain ⟨stopped, inside, fails⟩ := all
    refine .inl fun rank member => ?_
    cases found : x rank with
    | error failure => exact ⟨failure, rfl⟩
    | ok value =>
      cases found' : x stopped with
      | ok value' => exact absurd ⟨value', found'⟩ fails
      | error failure =>
        obtain ⟨value', ends'⟩ := refused stopped inside failure found'
        obtain ⟨hub, seat, payload, resume, meets, every⟩ := waits rank member value found
        exact (reach.not_waiting ends' (part member) meets (every stopped inside)).elim

/-- Ranks that come to their ends have all been let through, or they end with the states in which
they were refused, where the others would wait for one that is refused. -/
theorem Reaches.ok_or_same {x : Nat → Attempt β} {state : Nat → σ}
    {P : Nat → Program S (Attempt γ × σ)} {rounds rounds' : Rounds} {ends : Nat → Attempt γ × σ}
    (reach : Reaches A rounds P rounds' fun rank => .finished (ends rank))
    (refused : ∀ rank ∈ A, ∀ failure, x rank = .error failure →
      P rank = .finished (.error failure, state rank))
    (waits : ∀ rank ∈ A, ∀ value, x rank = .ok value → ∃ hub seat payload resume,
      P rank = .meet hub seat payload resume ∧ ∀ other ∈ A, other ∈ hub.ranks) :
    (∀ rank ∈ A, ∃ value, x rank = .ok value) ∨ ∀ rank ∈ A, (ends rank).2 = state rank := by
  refine (reach.all_or_none (Finset.Subset.refl A) (fun rank inside failure found =>
    ⟨_, refused rank inside failure found⟩) waits).symm.imp id fun refuses rank inside => ?_
  obtain ⟨failure, found⟩ := refuses rank inside
  rw [reach.value_of_finished inside (refused rank inside failure found)]

/-- The values with which ranks end are determined. -/
theorem Reaches.value_eq {rounds rounds' rounds'' : Rounds} {P : Nat → Program S α} {v w : Nat → α}
    (first : Reaches A rounds P rounds' fun rank => .finished (v rank))
    (second : Reaches A rounds P rounds'' fun rank => .finished (w rank)) {rank : Nat}
    (member : rank ∈ A) :
    v rank = w rank :=
  ((first.rest second).value_of_finished member rfl).symm

/-- What a rank of `A` has come to if it moves no more: a value, or nothing if it waits for a rank
that has finished. -/
inductive Rests (A : Finset Nat) (Q : Nat → Program S α) (rank : Nat) : Option α → Prop
  | finished {value : α} : Q rank = .finished value → Rests A Q rank (some value)
  | waiting {hub : Hub} {seat member : Nat} {payload : Payload S} {resume : Round (Payload S) →
      Program S α} {value : α} :
      Q rank = .meet hub seat payload resume → hub.ranks[seat]? = some rank →
      member ∈ hub.ranks → member ∈ A →
      Q member = .finished value → Rests A Q rank none

theorem Stage.stuck_of_rests {s : Stage S α} {u : Nat → Option α}
    (rests : ∀ rank ∈ A, Rests A s.programs rank (u rank)) : s.Stuck A ∧ s.Seated A := by
  refine ⟨fun t move => ?_, fun rank inside hub seat payload resume waits => ?_⟩
  · cases move with
    | @report rank event next taking reports =>
      have here := rests rank taking
      generalize u rank = left at here
      cases here with
      | finished ends => cases ends.symm.trans reports
      | waiting waits => cases waits.symm.trans reports
    | @meet hub payload resume some_member within gathered =>
      obtain ⟨rank, member⟩ := List.exists_mem_of_ne_nil _ some_member
      obtain ⟨seat, meets⟩ := gathered.of_mem member
      have here := rests rank (within rank member)
      generalize u rank = left at here
      cases here with
      | finished ends => cases ends.symm.trans meets
      | waiting waits own absent inside ends =>
        cases waits.symm.trans meets
        obtain ⟨seat', meets'⟩ := gathered.of_mem absent
        cases ends.symm.trans meets'
  · have here := rests rank inside
    generalize u rank = left at here
    cases here with
    | finished ends => cases ends.symm.trans waits
    | waiting meets own =>
      cases meets.symm.trans waits
      exact own

/-- The ranks of `A` come to where they move no more, each with a value or waiting. -/
def Halts (A : Finset Nat) (rounds : Rounds) (P : Nat → Program S α) (left : Nat → Option α) :
    Prop :=
  ∃ rounds' Q, Reaches A rounds P rounds' Q ∧ ∀ rank ∈ A, Rests A Q rank (left rank)

namespace Halts

variable {rounds rounds' : Rounds} {P Q : Nat → Program S α} {left : Nat → Option α}

theorem of_finished {v : Nat → α}
    (reach : Reaches A rounds P rounds' fun rank => .finished (v rank)) :
    Halts A rounds P fun rank => some (v rank) := ⟨rounds', _, reach, fun _ _ => .finished rfl⟩

theorem after (reach : Reaches A rounds P rounds' Q) (h : Halts A rounds' Q left) :
    Halts A rounds P left := by
  obtain ⟨rounds'', R, reach', rests⟩ := h
  exact ⟨rounds'', R, reach.trans reach', rests⟩

/-- A last step that only computes. -/
theorem map (h : Halts A rounds P left) (f : Nat → α → β) :
    Halts A rounds (fun rank => P rank >>= fun value => .finished (f rank value))
      fun rank => (left rank).map (f rank) := by
  obtain ⟨rounds', Q, reach, rests⟩ := h
  have step : ∀ rank value, Q rank = .finished value →
      (Q rank >>= fun value => .finished (f rank value)) = .finished (f rank value) :=
    fun rank value ends => by
      rw [ends]
      rfl
  let later : Nat → Program S β := fun rank => Q rank >>= fun value => .finished (f rank value)
  refine ⟨rounds', later, reach.andThen fun rank value => .finished (f rank value),
    fun rank inside => ?_⟩
  show Rests A later rank ((left rank).map (f rank))
  have here := rests rank inside
  generalize left rank = value at here ⊢
  cases here with
  | finished ends => exact .finished (step rank _ ends)
  | @waiting hub seat member payload resume value waits own belongs among ends =>
    have waits' : (Q rank >>= fun value => .finished (f rank value)) =
        .meet hub seat payload fun round =>
        resume round >>= fun value => .finished (f rank value) := by
      rw [waits]
      rfl
    exact .waiting waits' own belongs among (step member value ends)

/-- Some of the ranks halt while the others have nothing to do. -/
theorem part {v : Nat → α} (h : Halts B rounds P left) (subset : B ⊆ A)
    (idle : ∀ rank ∈ A, rank ∉ B → P rank = .finished (v rank)) :
    Halts A rounds P fun rank => if rank ∈ B then left rank else some (v rank) := by
  obtain ⟨rounds', Q, reach, rests⟩ := h
  refine ⟨rounds', _, reach.widen subset, fun rank inside => ?_⟩
  by_cases member : rank ∈ B
  · have here := rests rank member
    simp only [if_pos member]
    generalize left rank = value at here
    cases here with
    | finished ends => exact .finished ((if_pos member).trans ends)
    | waiting waits own belongs among ends =>
      exact .waiting ((if_pos member).trans waits) own belongs (subset among)
        ((if_pos among).trans ends)
  · simp only [if_neg member]
    exact .finished ((if_neg member).trans (idle rank inside member))

/-- Ranks of a world that can halt do so in whatever order they take their steps. -/
theorem endsWith {n : Nat} (h : Halts (Finset.range n) rounds P left) {hubs : Hubs S}
    (resting : hubs.Resting rounds) :
    (World.ofPrograms n P hubs).EndsWith ((List.range n).map left) := by
  obtain ⟨rounds', Q, ⟨T, run, agree⟩, rests⟩ := h
  have rests' : ∀ rank ∈ Finset.range n, Rests (Finset.range n) T rank (left rank) := by
    intro rank inside
    have here := rests rank inside
    generalize left rank = value at here ⊢
    cases here with
    | finished ends => exact .finished ((agree rank inside).trans ends)
    | waiting waits own belongs among ends =>
      exact .waiting ((agree rank inside).trans waits) own belongs among
        ((agree _ among).trans ends)
  obtain ⟨stuck, seated⟩ := Stage.stuck_of_rests (s := ⟨rounds', T⟩) rests'
  have ends := World.endsWith_of_stuck resting run stuck seated
  have results : (⟨rounds', T⟩ : Stage S α).results n = (List.range n).map left := by
    refine List.map_congr_left fun rank member => ?_
    show (Seat.ready (T rank)).result? = left rank
    have here := rests' rank (Finset.mem_range.mpr (List.mem_range.mp member))
    generalize left rank = value at here ⊢
    cases here with
    | finished ends => rw [ends]; rfl
    | waiting waits => rw [waits]; rfl
  exact results ▸ ends

end Halts

/-- Ranks of a world that can reach their ends reach them in whatever order they take their
steps. -/
theorem Reaches.endsWith {n : Nat} {rounds rounds' : Rounds} {P : Nat → Program S α} {v : Nat → α}
    (reach : Reaches (Finset.range n) rounds P rounds' fun rank => .finished (v rank))
    {hubs : Hubs S} (resting : hubs.Resting rounds) :
    (World.ofPrograms n P hubs).EndsWith ((List.range n).map fun rank => some (v rank)) :=
  (Halts.of_finished reach).endsWith resting

/-- Whatever rounds their meeting points have seen, the ranks of `A` all come to an end, and their
values are as the condition says. -/
def Completes (A : Finset Nat) (P : Nat → Program S α) (post : (Nat → α) → Prop) : Prop :=
  ∀ rounds, ∃ rounds' v, Reaches A rounds P rounds' (fun rank => .finished (v rank)) ∧ post v

namespace Completes

variable {P P' : Nat → Program S α} {post post' : (Nat → α) → Prop}

theorem of_finished {v : Nat → α} (done : ∀ rank ∈ A, P rank = .finished (v rank)) (h : post v) :
    Completes A P post := fun rounds => ⟨rounds, v, .refl done, h⟩

/-- Ranks that are at their ends, each with a value of its own. -/
theorem each [Nonempty α] (own : Nat → α → Prop)
    (done : ∀ rank ∈ A, ∃ value, P rank = .finished value ∧ own rank value) :
    Completes A P fun v => ∀ rank ∈ A, own rank (v rank) := by
  choose! v ends holds using done
  exact of_finished ends holds

theorem mono (h : Completes A P post) (weaker : ∀ v, post v → post' v) : Completes A P post' := by
  intro rounds
  obtain ⟨rounds', v, reach, holds⟩ := h rounds
  exact ⟨rounds', v, reach, weaker v holds⟩

theorem congr (h : Completes A P post) (same : ∀ rank ∈ A, P' rank = P rank) :
    Completes A P' post := by
  intro rounds
  obtain ⟨rounds', v, reach, holds⟩ := h rounds
  exact ⟨rounds', v, reach.congr same fun _ _ => rfl, holds⟩

theorem reports (h : Completes A P post)
    (same : ∀ rank ∈ A, P' rank = P rank ∨ ∃ event, P' rank = .report event (P rank)) :
    Completes A P' post := by
  intro rounds
  obtain ⟨rounds', v, reach, holds⟩ := h rounds
  exact ⟨rounds', v, (Reaches.reports same).trans reach, holds⟩

theorem bind {f : Nat → α → Program S β} {post' : (Nat → β) → Prop} (h : Completes A P post)
    (next : ∀ v, post v → Completes A (fun rank => f rank (v rank)) post') :
    Completes A (fun rank => P rank >>= f rank) post' := by
  intro rounds
  obtain ⟨rounds', v, reach, holds⟩ := h rounds
  obtain ⟨rounds'', w, reach', holds'⟩ := next v holds rounds'
  exact ⟨rounds'', w, (reach.andThen f).trans reach', holds'⟩

/-- A last step that only computes. -/
theorem map {f : Nat → α → β} {post' : (Nat → β) → Prop} (h : Completes A P post)
    (next : ∀ v, post v → post' fun rank => f rank (v rank)) :
    Completes A (fun rank => P rank >>= fun value => .finished (f rank value)) post' :=
  h.bind fun v holds => .of_finished (v := fun rank => f rank (v rank))
    (fun _ _ => rfl) (next v holds)

/-- The sequence of parts with known values. -/
theorem bind_eq {f : Nat → α → Program S β} {v : Nat → α} {post' : (Nat → β) → Prop}
    (h : Completes A P fun w => ∀ rank ∈ A, w rank = v rank)
    (next : Completes A (fun rank => f rank (v rank)) post') :
    Completes A (fun rank => P rank >>= f rank) post' :=
  h.bind fun w same => next.congr fun rank member => by rw [same rank member]

/-- Some of the ranks do something together while the others have nothing to do. -/
theorem part {w : Nat → α} (h : Completes B P post) (subset : B ⊆ A)
    (idle : ∀ rank ∈ A, rank ∉ B → P rank = .finished (w rank)) :
    Completes A P fun v => ∃ u, post u ∧ (∀ rank ∈ B, v rank = u rank) ∧ ∀ rank ∈ A, rank ∉ B →
    v rank = w rank := by
  intro rounds
  obtain ⟨rounds', u, reach, holds⟩ := h rounds
  refine ⟨rounds', fun rank => if rank ∈ B then u rank else w rank, ?_, u, holds, ?_, ?_⟩
  · refine (reach.widen subset).congr (fun _ _ => rfl) fun rank member => ?_
    by_cases inside : rank ∈ B
    · simp only [if_pos inside]
    · simp only [if_neg inside, idle rank member inside]
  · intro rank member
    exact if_pos member
  · intro rank _ outside
    exact if_neg outside

/-- What ranks have reached together with all values is what they complete. -/
theorem value {rounds rounds' : Rounds} {v : Nat → α} (h : Completes A P post)
    (reach : Reaches A rounds P rounds' fun rank => .finished (v rank)) :
    ∃ w, post w ∧ ∀ rank ∈ A, v rank = w rank := by
  obtain ⟨_, w, reach', holds⟩ := h rounds
  exact ⟨w, holds, fun rank member => reach.value_eq reach' member⟩

/-- If ranks come to their ends through a first part, they go on from its values. -/
theorem rest {f : Nat → α → Program S β} {rounds rounds' : Rounds} {v : Nat → β}
    (h : Completes A P post) (reach : Reaches A rounds (fun rank => P rank >>= f rank) rounds'
      fun rank => .finished (v rank)) :
    ∃ rounds'' w, post w ∧
      Reaches A rounds'' (fun rank => f rank (w rank)) rounds' fun rank => .finished (v rank) := by
  obtain ⟨rounds'', w, reach', holds⟩ := h rounds
  exact ⟨rounds'', w, holds, (reach'.andThen f).rest reach⟩

/-- Ranks of a world that complete their programs do so in whatever order they take their steps. -/
theorem endsWith {n : Nat} (h : Completes (Finset.range n) P post) {hubs : Hubs S} {rounds : Rounds}
    (resting : hubs.Resting rounds) :
    ∃ v, post v ∧
      (World.ofPrograms n P hubs).EndsWith ((List.range n).map fun rank => some (v rank)) := by
  obtain ⟨rounds', v, reach, holds⟩ := h rounds
  exact ⟨v, holds, reach.endsWith resting⟩

/-- Ranks of a world end with the values that they complete their programs with. -/
theorem endsWith_of_eq {n : Nat} {w : Nat → α}
    (h : Completes (Finset.range n) P fun v => ∀ rank ∈ Finset.range n, v rank = w rank)
    {hubs : Hubs S} {rounds : Rounds} (resting : hubs.Resting rounds) :
    (World.ofPrograms n P hubs).EndsWith ((List.range n).map fun rank => some (w rank)) := by
  obtain ⟨v, values, ends⟩ := h.endsWith resting
  have same : (List.range n).map (fun rank => some (v rank)) = (List.range n).map fun rank =>
    some (w rank) :=
    List.map_congr_left fun rank member => by
      rw [values rank (Finset.mem_range.mpr (List.mem_range.mp member))]
  exact same ▸ ends

end Completes

/-! ## Parts of tasks and of work -/

namespace Task

@[simp] theorem run_ofAttempt (outcome : Attempt α) :
    (Task.ofAttempt outcome : Task S α).run = .finished outcome :=
  rfl

/-- What comes behind a task that has ended. -/
def following (f : α → Task S β) : Attempt α → Program S (Attempt β)
  | .ok value => (f value).run
  | .error failure => .finished (.error failure)

@[simp] theorem following_ok (f : α → Task S β) (value : α) :
    following f (.ok value) = (f value).run := rfl

@[simp] theorem following_error (f : α → Task S β) (failure : Failure) :
    following f (.error failure) = .finished (.error failure) := rfl

theorem run_bind (task : Task S α) (f : α → Task S β) :
    (task >>= f).run = task.run >>= following f := by
  rw [ExceptT.run_bind]
  congr 1
  funext outcome
  cases outcome <;> rfl

@[simp] theorem run_pure (value : α) : (pure value : Task S α).run = .finished (.ok value) := rfl

@[simp] theorem run_throw (failure : Failure) :
    (throw failure : Task S α).run = .finished (.error failure) := rfl

@[simp] theorem run_ofAttempt_bind (outcome : Attempt α) (f : α → Task S β) :
    (Task.ofAttempt outcome >>= f).run = following f outcome := by
  rw [run_bind]
  rfl

end Task

namespace Work

def following (f : α → Work S σ β) : Attempt α × σ → Program S (Attempt β × σ)
  | (.ok value, state) => (f value).start state
  | (.error failure, state) => .finished (.error failure, state)

@[simp] theorem following_ok (f : α → Work S σ β) (value : α) (state : σ) :
    following f (.ok value, state) = (f value).start state := rfl

@[simp] theorem following_error (f : α → Work S σ β) (failure : Failure) (state : σ) :
    following f (.error failure, state) = .finished (.error failure, state) := rfl

theorem start_bind (work : Work S σ α) (f : α → Work S σ β) (state : σ) :
    (work >>= f).start state = work.start state >>= following f := by
  rw [start, ExceptT.run_bind, StateT.run_bind]
  congr 1
  funext ended
  obtain ⟨outcome, state'⟩ := ended
  cases outcome <;> rfl

@[simp] theorem start_pure (value : α) (state : σ) :
    (pure value : Work S σ α).start state = .finished (.ok value, state) := rfl

@[simp] theorem start_throw (failure : Failure) (state : σ) :
    (throw failure : Work S σ α).start state = .finished (.error failure, state) := rfl

@[simp] theorem start_ofAttempt (outcome : Attempt α) (state : σ) :
    (ofAttempt outcome : Work S σ α).start state = .finished (outcome, state) := rfl

@[simp] theorem start_get (state : σ) :
    (get : Work S σ σ).start state = .finished (.ok state, state) := rfl

@[simp] theorem start_set (state state' : σ) :
    (set state' : Work S σ PUnit).start state = .finished (.ok ⟨⟩, state') := rfl

@[simp] theorem start_modify (change : σ → σ) (state : σ) :
    (modify change : Work S σ PUnit).start state = .finished (.ok ⟨⟩, change state) := rfl

theorem start_ofTask (task : Task S α) (state : σ) :
    (ofTask task : Work S σ α).start state = task.run >>=
    fun outcome => .finished (outcome, state) := rfl

theorem start_lift (program : Program S α) (state : σ) :
    start (ExceptT.lift (StateT.lift program) : Work S σ α) state =
      program >>= fun value => .finished (.ok value, state) := by
  show (StateT.lift program >>=
    fun value => pure (Except.ok value) : StateT σ (Program S) (Attempt α)).run state = _
  rw [StateT.run_bind]
  show (program >>= fun value => .finished (value, state)) >>= _ = _
  rw [bind_assoc]
  rfl

@[simp] theorem start_ofAttempt_bind (outcome : Attempt α) (f : α → Work S σ β) (state : σ) :
    (ofAttempt outcome >>= f).start state = following f (outcome, state) := by
  rw [start_bind]
  rfl

@[simp] theorem start_get_bind (f : σ → Work S σ β) (state : σ) :
    ((get : Work S σ σ) >>= f).start state = (f state).start state := by
  rw [start_bind]
  rfl

@[simp] theorem start_set_bind (state' : σ) (f : PUnit → Work S σ β) (state : σ) :
    ((set state' : Work S σ PUnit) >>= f).start state = (f ⟨⟩).start state' := by
  rw [start_bind]
  rfl

@[simp] theorem start_modify_bind (change : σ → σ) (f : PUnit → Work S σ β) (state : σ) :
    ((modify change : Work S σ PUnit) >>= f).start state = (f ⟨⟩).start (change state) := by
  rw [start_bind]
  rfl

theorem start_ofTask_bind (task : Task S α) (f : α → Work S σ β) (state : σ) :
    (ofTask task >>= f).start state = task.run >>= fun outcome => following f (outcome, state) := by
  rw [start_bind, start_ofTask, bind_assoc]
  rfl

theorem start_lift_bind (program : Program S α) (f : α → Work S σ β) (state : σ) :
    start ((ExceptT.lift (StateT.lift program) : Work S σ α) >>= f) state =
      program >>= fun value => (f value).start state := by
  rw [start_bind, start_lift, bind_assoc]
  rfl

theorem start_map (work : Work S σ α) (f : α → β) (state : σ) :
    (f <$> work).start state = work.start state >>=
    fun ended => .finished (f <$> ended.1, ended.2) := by
  rw [map_eq_pure_bind, start_bind]
  congr 1
  funext ended
  obtain ⟨outcome, state'⟩ := ended
  cases outcome <;> rfl

theorem start_tryCatch (work : Work S σ α) (handle : Failure → Work S σ α) (state : σ) :
    (tryCatch work handle).start state = work.start state >>= fun
      | (.ok value, state) => .finished (.ok value, state)
      | (.error failure, state) => (handle failure).start state := by
  simp only [start, tryCatch, tryCatchThe, MonadExceptOf.tryCatch, ExceptT.tryCatch, ExceptT.run_mk]
  rw [StateT.run_bind]
  show work.start state >>= _ = _
  congr 1
  funext ended
  obtain ⟨outcome, state'⟩ := ended
  cases outcome <;> rfl

end Work

/-- Ranks that have come through some work with one value go on from it. -/
theorem Reaches.followed {work : Nat → Work S σ α} {a : Nat → σ} {rounds rounds' : Rounds}
    {w : Nat → Attempt α × σ}
    (reach : Reaches A rounds (fun rank => (work rank).start (a rank)) rounds' fun rank =>
      .finished (w rank))
    {value : α} {a' : Nat → σ} (same : ∀ rank ∈ A, w rank = (.ok value, a' rank))
    {f : Nat → α → Work S σ β} {post : (Nat → Attempt β × σ) → Prop}
    (next : Completes A (fun rank => (f rank value).start (a' rank)) post) :
    ∃ rounds'' v, Reaches A rounds (fun rank => (work rank >>= f rank).start (a rank)) rounds''
      (fun rank => .finished (v rank)) ∧ post v := by
  obtain ⟨rounds'', v, later, holds⟩ := next rounds'
  have first := reach.andThen fun rank => Work.following (f rank)
  refine ⟨rounds'', v,
    (first.congr (fun rank _ => Work.start_bind ..) fun rank inside => ?_).trans later, holds⟩
  rw [same rank inside]
  rfl

end DeviceTeams
