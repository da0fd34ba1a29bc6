import DeviceTeams.Ranks.World
import Mathlib.Data.Finset.Basic
import Mathlib.Logic.Function.Basic
import Mathlib.Logic.Relation

/-!
# Ranks in lockstep

A world moves one rank at a time, and the members of a group arrive at their meeting point in any
order. Seen from further away a round is a single move of all its members: it takes place once every
member is ready for it. The moves of a stage commute, so wherever the ranks get stuck, they get
stuck in one and the same stage.
-/
namespace DeviceTeams

variable {S α β : Type}

/-- The ranks of the world that meet at a hub, in the order of their seats. -/
def Hub.ranks : Hub → List Nat
  | world size => List.range size
  | split parent _ members => members.map fun member => parent.ranks.getD member 0

@[simp] theorem Hub.length_ranks (hub : Hub) : hub.ranks.length = hub.size := by
  cases hub <;> simp [ranks, size]

/-- How many rounds each meeting point has seen. -/
abbrev Rounds : Type := Hub → Nat

def Rounds.next (rounds : Rounds) (hub : Hub) : Rounds :=
  Function.update rounds hub (rounds hub + 1)

/-- The rest of every rank's program while no round is under way. -/
@[ext]
structure Stage (S α : Type) where
  rounds : Rounds
  programs : Nat → Program S α

namespace Stage

/-- The stage after a round at a hub, in which each member goes on with the payloads of all of
them. -/
def meetAt (s : Stage S α) (hub : Hub) (payload : Nat → Payload S)
    (resume : Nat → Round (Payload S) → Program S α) : Stage S α where
  rounds := s.rounds.next hub
  programs rank := if rank ∈ hub.ranks then resume rank ⟨s.rounds hub, hub.ranks.map payload⟩
    else s.programs rank

def Gathered (s : Stage S α) (hub : Hub) (payload : Nat → Payload S)
    (resume : Nat → Round (Payload S) → Program S α) : Prop :=
  ∀ seat rank, hub.ranks[seat]? = some rank →
    s.programs rank = .meet hub seat (payload rank) (resume rank)

/-- A rank of `A` reports, or the members of a hub, all of them in `A`, finish a round. -/
inductive Move (A : Finset Nat) : Stage S α → Stage S α → Prop
  | report {s : Stage S α} {rank : Nat} {event : Event} {next : Program S α} :
      rank ∈ A → s.programs rank = .report event next →
      Move A s ⟨s.rounds, Function.update s.programs rank next⟩
  | meet {s : Stage S α} {hub : Hub} {payload : Nat → Payload S}
      {resume : Nat → Round (Payload S) → Program S α} :
      hub.ranks ≠ [] → (∀ rank ∈ hub.ranks, rank ∈ A) → s.Gathered hub payload resume →
      Move A s (s.meetAt hub payload resume)

def Stuck (A : Finset Nat) (s : Stage S α) : Prop := ∀ t, ¬ Move A s t

def Seated (A : Finset Nat) (s : Stage S α) : Prop :=
  ∀ rank ∈ A, ∀ hub seat payload resume, s.programs rank = .meet hub seat payload resume →
    hub.ranks[seat]? = some rank

theorem Gathered.of_mem {s : Stage S α} {hub : Hub} {payload : Nat → Payload S}
    {resume : Nat → Round (Payload S) → Program S α}
    (h : s.Gathered hub payload resume) {rank : Nat} (member : rank ∈ hub.ranks) :
    ∃ seat, s.programs rank = .meet hub seat (payload rank) (resume rank) := by
  obtain ⟨seat, found⟩ := List.mem_iff_getElem?.mp member
  exact ⟨seat, h seat rank found⟩

/-- The programs of the members tell what a round is about. -/
theorem Gathered.meetAt_eq {s : Stage S α} {hub : Hub} {payload payload' : Nat → Payload S}
    {resume resume' : Nat → Round (Payload S) → Program S α} (h : s.Gathered hub payload resume)
    (h' : s.Gathered hub payload' resume') :
    s.meetAt hub payload resume = s.meetAt hub payload' resume' := by
  have same : ∀ rank ∈ hub.ranks, payload rank = payload' rank ∧ resume rank = resume' rank := by
    intro rank member
    obtain ⟨seat, found⟩ := List.mem_iff_getElem?.mp member
    have equal := (h seat rank found).symm.trans (h' seat rank found)
    simp only [Program.meet.injEq, true_and] at equal
    exact equal
  have items : hub.ranks.map payload = hub.ranks.map payload' :=
    List.map_congr_left fun rank member => (same rank member).1
  ext rank
  · rfl
  · by_cases member : rank ∈ hub.ranks
    · simp only [meetAt, if_pos member, items, (same rank member).2]
    · simp only [meetAt, if_neg member]

theorem meetAt_programs_of_notMem {s : Stage S α} {hub : Hub} {payload : Nat → Payload S}
    {resume : Nat → Round (Payload S) → Program S α} {rank : Nat} (h : rank ∉ hub.ranks) :
    (s.meetAt hub payload resume).programs rank = s.programs rank := if_neg h

theorem meetAt_programs_of_mem {s : Stage S α} {hub : Hub} {payload : Nat → Payload S}
    {resume : Nat → Round (Payload S) → Program S α} {rank : Nat} (h : rank ∈ hub.ranks) :
    (s.meetAt hub payload resume).programs rank = resume rank
    ⟨s.rounds hub, hub.ranks.map payload⟩ := if_pos h

theorem meetAt_rounds_of_ne (s : Stage S α) {hub other : Hub} (apart : hub ≠ other)
    (payload : Nat → Payload S) (resume : Nat → Round (Payload S) → Program S α) :
    (s.meetAt hub payload resume).rounds other = s.rounds other :=
  Function.update_of_ne apart.symm ..

/-- A report by one rank and a round of others do not get in each other's way. -/
theorem Move.diamond_report_meet {A : Finset Nat} {s : Stage S α} {rank : Nat} {event : Event}
    {next : Program S α} (taking : rank ∈ A)
    (reports : s.programs rank = .report event next) {hub : Hub} {payload : Nat → Payload S}
    {resume : Nat → Round (Payload S) → Program S α} (some_member : hub.ranks ≠ [])
    (within : ∀ rank ∈ hub.ranks, rank ∈ A) (gathered : s.Gathered hub payload resume) :
    ∃ t, Move A ⟨s.rounds, Function.update s.programs rank next⟩ t ∧
      Move A (s.meetAt hub payload resume) t := by
  have apart : rank ∉ hub.ranks := by
    intro member
    obtain ⟨seat, waits⟩ := gathered.of_mem member
    rw [reports] at waits
    cases waits
  let reported : Stage S α := ⟨s.rounds, Function.update s.programs rank next⟩
  have still : reported.Gathered hub payload resume := by
    intro seat member found
    have other : member ≠ rank := fun same => apart (same ▸ List.mem_of_getElem? found)
    simpa only [reported, Function.update_of_ne other] using gathered seat member found
  refine ⟨reported.meetAt hub payload resume, .meet some_member within still, ?_⟩
  have later : (s.meetAt hub payload resume).programs rank = .report event next :=
    (meetAt_programs_of_notMem apart).trans reports
  have commute : reported.meetAt hub payload resume =
      ⟨(s.meetAt hub payload resume).rounds,
        Function.update (s.meetAt hub payload resume).programs rank next⟩ := by
    ext member
    · rfl
    · by_cases same : member = rank
      · subst same
        simp [meetAt, apart, reported]
      · simp [meetAt, reported, Function.update_of_ne same]
  rw [commute]
  exact .report taking later

/-- Rounds at two hubs do not get in each other's way, since nobody is at both. -/
theorem Move.diamond_meet_meet {A : Finset Nat} {s : Stage S α} {hub hub' : Hub}
    (differ : hub ≠ hub') {payload payload' : Nat → Payload S}
    {resume resume' : Nat → Round (Payload S) → Program S α}
    (gathered : s.Gathered hub payload resume) (some_member : hub'.ranks ≠ [])
    (within : ∀ rank ∈ hub'.ranks, rank ∈ A) (gathered' : s.Gathered hub' payload' resume') :
    Move A (s.meetAt hub payload resume)
    ((s.meetAt hub payload resume).meetAt hub' payload' resume') := by
  refine .meet some_member within fun seat rank found => ?_
  have apart : rank ∉ hub.ranks := by
    intro member
    obtain ⟨other, waits⟩ := gathered.of_mem member
    have same := (gathered' seat rank found).symm.trans waits
    exact differ (Program.meet.inj same).1.symm
  exact (meetAt_programs_of_notMem apart).trans (gathered' seat rank found)

theorem meetAt_comm {s : Stage S α} {hub hub' : Hub} (differ : hub ≠ hub')
    {payload payload' : Nat → Payload S} {resume resume' : Nat → Round (Payload S) → Program S α}
    (gathered : s.Gathered hub payload resume) (gathered' : s.Gathered hub' payload' resume') :
    (s.meetAt hub payload resume).meetAt hub' payload' resume' =
      (s.meetAt hub' payload' resume').meetAt hub payload resume := by
  have apart : ∀ rank ∈ hub.ranks, rank ∉ hub'.ranks := by
    intro rank member member'
    obtain ⟨seat, waits⟩ := gathered.of_mem member
    obtain ⟨seat', waits'⟩ := gathered'.of_mem member'
    exact differ (Program.meet.inj (waits.symm.trans waits')).1
  ext rank
  · simp only [meetAt, Rounds.next, Function.update_of_ne differ, Function.update_of_ne differ.symm]
    exact congrFun (Function.update_comm differ ..) rank
  · by_cases member : rank ∈ hub.ranks
    · simp [meetAt, Rounds.next, member, apart rank member, Function.update_of_ne differ]
    · by_cases member' : rank ∈ hub'.ranks
      · simp [meetAt, Rounds.next, member, member', Function.update_of_ne differ.symm]
      · simp [meetAt, member, member']

/-- Two moves from one stage are the same, or each of them is still possible after the other. -/
theorem Move.diamond {A : Finset Nat} {s s₁ s₂ : Stage S α} (h₁ : Move A s s₁) (h₂ : Move A s s₂) :
    s₁ = s₂ ∨ ∃ t, Move A s₁ t ∧ Move A s₂ t := by
  cases h₁ with
  | @report rank₁ event₁ next₁ taking₁ reports₁ =>
    cases h₂ with
    | @report rank₂ event₂ next₂ taking₂ reports₂ =>
      by_cases same : rank₁ = rank₂
      · subst same
        rw [reports₁] at reports₂
        cases reports₂
        exact .inl rfl
      · have reports' : Function.update s.programs rank₁ next₁ rank₂ = .report event₂ next₂ := by
          simpa only [Function.update_of_ne (Ne.symm same)] using reports₂
        refine .inr ⟨⟨s.rounds,
          Function.update (Function.update s.programs rank₁ next₁) rank₂ next₂⟩,
          .report taking₂ reports', ?_⟩
        · rw [Function.update_comm same]
          exact .report taking₁ (by simpa only [Function.update_of_ne same] using reports₁)
    | meet some_member within gathered =>
      exact .inr (diamond_report_meet taking₁ reports₁ some_member within gathered)
  | @meet hub₁ payload₁ resume₁ some_member₁ within₁ gathered₁ =>
    cases h₂ with
    | report taking reports =>
      obtain ⟨t, first, second⟩ := diamond_report_meet taking reports some_member₁ within₁ gathered₁
      exact .inr ⟨t, second, first⟩
    | @meet hub₂ payload₂ resume₂ some_member₂ within₂ gathered₂ =>
      by_cases same : hub₁ = hub₂
      · subst same
        exact .inl (gathered₁.meetAt_eq gathered₂)
      · refine .inr ⟨_, diamond_meet_meet same gathered₁ some_member₂ within₂ gathered₂, ?_⟩
        rw [meetAt_comm same gathered₁ gathered₂]
        exact diamond_meet_meet (Ne.symm same) gathered₂ some_member₁ within₁ gathered₁

/-- Where the ranks get stuck does not depend on the moves that are made first. -/
theorem Move.stuck_of_step {A : Finset Nat} {s s' t : Stage S α} (first : Move A s s')
    (run : Relation.ReflTransGen (Move A) s t) (stuck : t.Stuck A) :
    Relation.ReflTransGen (Move A) s' t := by
  induction run using Relation.ReflTransGen.head_induction_on generalizing s' with
  | refl => exact absurd first (stuck s')
  | head move rest ih =>
    rcases move.diamond first with same | ⟨u, left, right⟩
    · exact same ▸ rest
    · exact .head right (ih left)

theorem stuck_of_run {A : Finset Nat} {s s' t : Stage S α}
    (first : Relation.ReflTransGen (Move A) s s') (run : Relation.ReflTransGen (Move A) s t)
    (stuck : t.Stuck A) : Relation.ReflTransGen (Move A) s' t := by
  induction first with
  | refl => exact run
  | tail _ move ih => exact move.stuck_of_step ih stuck

/-- A stage that cannot move is the only one in which a run can end. -/
theorem eq_of_stuck {A : Finset Nat} {s t t' : Stage S α} (run : Relation.ReflTransGen (Move A) s t)
    (stuck : t.Stuck A) (run' : Relation.ReflTransGen (Move A) s t') (stuck' : t'.Stuck A) :
    t = t' := by
  have back := stuck_of_run run' run stuck
  rcases back.cases_head with same | ⟨u, move, _⟩
  · exact same.symm
  · exact absurd move (stuck' u)

/-- Ranks are at their own seats on the way to a stage in which they are. -/
theorem Seated.of_move {A : Finset Nat} {s t : Stage S α} (move : Move A s t)
    (seated : t.Seated A) :
    s.Seated A := by
  intro rank taking hub seat payload resume waits
  cases move with
  | @report reporter event next _ reports =>
    by_cases same : rank = reporter
    · subst same
      rw [reports] at waits
      cases waits
    · refine seated rank taking hub seat payload resume ?_
      simpa only [Function.update_of_ne same] using waits
  | @meet hub' payload' resume' _ _ gathered =>
    by_cases member : rank ∈ hub'.ranks
    · obtain ⟨seat', found⟩ := List.mem_iff_getElem?.mp member
      have waits' := gathered seat' rank found
      rw [waits] at waits'
      cases waits'
      exact found
    · exact seated rank taking hub seat payload resume
        ((meetAt_programs_of_notMem member).trans waits)

theorem Seated.of_run {A : Finset Nat} {s t : Stage S α} (run : Relation.ReflTransGen (Move A) s t)
    (seated : t.Seated A) : s.Seated A := by
  induction run using Relation.ReflTransGen.head_induction_on with
  | refl => exact seated
  | head move _ ih => exact .of_move move ih

end Stage
end DeviceTeams
