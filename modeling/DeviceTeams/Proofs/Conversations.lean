import DeviceTeams.Proofs.Divisions
import Mathlib.Algebra.BigOperators.Group.Finset.Basic
import Mathlib.Algebra.Order.BigOperators.Group.Finset

/-!
# Exchanges in groups and in their parts

After a split the ranks go on to meet in their old groups and in the parts of these, in any order
that the members of a group share. No exchange of one group gets in the way of another: every rank
comes to the end of its plan, and from each exchange it has the payloads of the members of that
group alone, in the order of their seats.
-/
namespace DeviceTeams

variable {S α β : Type} {A B : Finset Nat} {node : Nat → Nat} {G H : Nat → Group}
  {color : Nat → Option Nat} {key : Nat → Nat}

/-! ## A part of the ranks goes first -/

/-- Some ranks have come through their first part with known values; then all go on together. -/
theorem Succeeds.advance {T : Nat → Task S α} {E : Nat → Task S β}
    {f : Nat → β → Task S α} {v : Nat → β} {post : (Nat → α) → Prop}
    (first : Succeeds B E fun w => ∀ rank ∈ B, w rank = v rank) (subset : B ⊆ A)
    (begins : ∀ rank ∈ B, T rank = E rank >>= f rank)
    (next : Succeeds A (fun rank => if rank ∈ B then f rank (v rank) else T rank) post) :
    Succeeds A T post := by
  intro rounds
  obtain ⟨rounds', reach⟩ := first.reaches (f := f) rounds
  obtain ⟨rounds'', outcome, reach', holds⟩ := next rounds'
  have start : Reaches B rounds (fun rank => (T rank).run) rounds' fun rank =>
    (f rank (v rank)).run :=
    reach.congr (fun rank inside => by rw [begins rank inside]) fun _ _ => rfl
  refine ⟨rounds'', outcome, (start.widen subset).trans
    (reach'.congr (fun rank _ => ?_) fun _ _ => rfl), holds⟩
  by_cases member : rank ∈ B
  · simp only [if_pos member]
  · simp only [if_neg member]

/-! ## Plans -/

inductive Side where
  | whole
  | part
deriving DecidableEq, Repr

/-- An exchange of a plan; its number tells which payload a rank brings. -/
structure Entrance where
  side : Side
  number : Nat
deriving DecidableEq, Repr

namespace Group

def enter (whole : Group) (part : Option Group) (payload : Entrance → Payload S)
    (entrance : Entrance) :
    Task S (List (Payload S)) :=
  match entrance.side, part with
  | .whole, _ => do pure (← whole.exchange (payload entrance)).items
  | .part, some part => do pure (← part.exchange (payload entrance)).items
  | .part, none => pure []

/-- Splits off a part and enters the exchanges of a plan one after the other. -/
def splitAndMeet (whole : Group) (color : Option Nat) (key : Nat) (payload : Entrance → Payload S)
    (plan : List Entrance) : Task S (Option Group × List (List (Payload S))) := do
  let part ← whole.split color key
  let heard ← plan.mapM (whole.enter part payload)
  pure (part, heard)

end Group

/-- What a rank hears in an exchange: the payloads of the members of its group or of its part. -/
def heardBy (G H : Nat → Group) (color : Nat → Option Nat)
    (payload : Nat → Entrance → Payload S) (rank : Nat) (entrance : Entrance) : List (Payload S) :=
  match entrance.side with
  | .whole => (G rank).hub.ranks.map fun member => payload member entrance
  | .part =>
    if (color rank).isSome then (H rank).hub.ranks.map fun member => payload member entrance else []

/-- The plans of ranks that meet fit: the members of a group plan the same exchanges of the group,
in the same order, and those of a part have one plan. -/
structure Aligned (A : Finset Nat) (G : Nat → Group) (color : Nat → Option Nat)
    (plan : Nat → List Entrance) : Prop where
  wholes : ∀ a ∈ A, ∀ b ∈ A, (G a).hub = (G b).hub →
    (plan a).filter (·.side = .whole) = (plan b).filter (·.side = .whole)
  parts : ∀ a ∈ A, ∀ b ∈ A, (color a).isSome → SamePart G color a b → plan a = plan b

def remaining (B : Finset Nat) (plan : Nat → List Entrance) (rank : Nat) : List Entrance :=
  if rank ∈ B then (plan rank).tail else plan rank

namespace Aligned

variable {plan : Nat → List Entrance} {entrance : Entrance}

/-- Plans go on to fit when a part, or a whole group, has entered an exchange. -/
theorem remaining (aligned : Aligned A G color plan)
    (heads : ∀ rank ∈ B, ∃ rest, plan rank = entrance :: rest)
    (wholes : entrance.side = .whole → ∀ a ∈ A, ∀ b ∈ A, (G a).hub = (G b).hub → (a ∈ B ↔ b ∈ B))
    (parts : ∀ a ∈ A, ∀ b ∈ A, (color a).isSome → SamePart G color a b → (a ∈ B ↔ b ∈ B)) :
    Aligned A G color (DeviceTeams.remaining B plan) := by
  constructor
  · intro a insideA b insideB same
    have before := aligned.wholes a insideA b insideB same
    cases place : entrance.side with
    | whole =>
      have together := wholes place a insideA b insideB same
      by_cases member : a ∈ B
      · obtain ⟨restA, planA⟩ := heads a member
        obtain ⟨restB, planB⟩ := heads b (together.mp member)
        rw [planA, planB, List.filter_cons_of_pos (by simpa using place), List.filter_cons_of_pos
          (by simpa using place)] at before
        rw [DeviceTeams.remaining, DeviceTeams.remaining, if_pos member,
          if_pos (together.mp member), planA, planB]
        exact (List.cons.inj before).2
      · rw [DeviceTeams.remaining, DeviceTeams.remaining, if_neg member, if_neg fun among =>
          member (together.mpr among)]
        exact before
    | part =>
      -- An exchange of a part is none of the group.
      have kept : ∀ rank, (DeviceTeams.remaining B plan rank).filter (·.side = .whole) =
          (plan rank).filter (·.side = .whole) := by
        intro rank
        by_cases member : rank ∈ B
        · obtain ⟨rest, found⟩ := heads rank member
          rw [DeviceTeams.remaining, if_pos member, found, List.tail_cons, List.filter_cons_of_neg
            (by simp [place])]
        · rw [DeviceTeams.remaining, if_neg member]
      rw [kept, kept, before]
  · intro a insideA b insideB chooses same
    have together := parts a insideA b insideB chooses same
    have before := aligned.parts a insideA b insideB chooses same
    by_cases member : a ∈ B
    · rw [DeviceTeams.remaining, DeviceTeams.remaining, if_pos member,
        if_pos (together.mp member), before]
    · rw [DeviceTeams.remaining, DeviceTeams.remaining, if_neg member, if_neg fun among =>
        member (together.mpr among), before]

end Aligned

/-! ## The run of the plans -/

def followPlan (G H : Nat → Group) (color : Nat → Option Nat) (payload : Nat → Entrance → Payload S)
    (plan : Nat → List Entrance) (rank : Nat) : Task S (List (List (Payload S))) :=
  (plan rank).mapM
    ((G rank).enter (if (color rank).isSome then some (H rank) else none) (payload rank))

section

variable {payload : Nat → Entrance → Payload S} {plan : Nat → List Entrance} {entrance : Entrance}

theorem Together.exchange_items (t : Together node B G) (payload : Nat → Payload S) :
    Succeeds B (fun rank => do pure (← (G rank).exchange (payload rank)).items) fun w =>
      ∀ rank ∈ B, w rank = (G rank).hub.ranks.map payload := by
  refine (t.exchange payload).bind fun round brought => ?_
  obtain ⟨number, brought⟩ := brought
  exact .pure (w := fun rank => (round rank).items) fun rank inside =>
    congrArg Round.items (brought rank inside)

/-- One exchange in front of plans that are followed. -/
theorem followPlan_of_remaining (subset : B ⊆ A)
    (heads : ∀ rank ∈ B, ∃ rest, plan rank = entrance :: rest)
    (first : Succeeds B
      (fun rank => (G rank).enter (if (color rank).isSome then some (H rank) else none)
        (payload rank) entrance)
      fun w => ∀ rank ∈ B, w rank = heardBy G H color payload rank entrance)
    (next : Succeeds A (followPlan G H color payload (remaining B plan)) fun w =>
      ∀ rank ∈ A, w rank = (remaining B plan rank).map (heardBy G H color payload rank)) :
    Succeeds A (followPlan G H color payload plan) fun w =>
      ∀ rank ∈ A, w rank = (plan rank).map (heardBy G H color payload rank) := by
  refine first.advance (f := fun rank items => do
    let later ← followPlan G H color payload (remaining B plan) rank
    pure (items :: later)) subset (fun rank member => ?_) ?_
  · obtain ⟨rest, found⟩ := heads rank member
    rw [followPlan, followPlan, remaining, if_pos member, found, List.mapM_cons, List.tail_cons]
  · have ends : Succeeds A (fun rank => do
        let later ← followPlan G H color payload (remaining B plan) rank
        pure (if rank ∈ B then heardBy G H color payload rank entrance :: later else later))
          fun w =>
        ∀ rank ∈ A, w rank = (plan rank).map (heardBy G H color payload rank) := by
      refine next.bind fun heard known => .pure (w := fun rank =>
        if rank ∈ B then heardBy G H color payload rank entrance :: heard rank
        else heard rank) fun rank inside => ?_
      simp only [known rank inside, remaining]
      by_cases member : rank ∈ B
      · obtain ⟨rest, found⟩ := heads rank member
        simp only [if_pos member, found, List.tail_cons, List.map_cons]
      · simp only [if_neg member]
    refine ends.congr fun rank _ => ?_
    by_cases member : rank ∈ B
    · simp only [if_pos member]
    · simp only [if_neg member, bind_pure, followPlan, remaining]

/-- The ranks of `B` have less before them than they had. -/
theorem sum_remaining_lt (subset : B ⊆ A) {rank : Nat} (member : rank ∈ B)
    (heads : ∀ rank ∈ B, ∃ rest, plan rank = entrance :: rest) :
    ∑ rank ∈ A, (remaining B plan rank).length < ∑ rank ∈ A, (plan rank).length := by
  apply Finset.sum_lt_sum
  · intro other _
    rw [remaining]
    split
    · rw [List.length_tail]
      omega
    · exact Nat.le_refl _
  · refine ⟨rank, subset member, ?_⟩
    obtain ⟨rest, found⟩ := heads rank member
    rw [remaining, if_pos member, found, List.tail_cons, List.length_cons]
    exact Nat.lt_succ_self _

/-- A whole group enters an exchange of its own. -/
theorem Together.enter_whole (t : Together node A G) (hub : Hub) (place : entrance.side = .whole) :
    Succeeds (A.filter fun rank => (G rank).hub = hub)
      (fun rank => (G rank).enter (if (color rank).isSome then some (H rank) else none)
        (payload rank) entrance)
      fun w => ∀ rank ∈ A.filter fun rank => (G rank).hub = hub, w rank =
      heardBy G H color payload rank entrance := by
  have group : Together node (A.filter fun rank => (G rank).hub = hub) G :=
    t.filter_const fun rank inside member belongs same => (t.of_mem inside belongs).2.trans same
  refine ((group.exchange_items fun rank => payload rank entrance).congr fun rank _ => ?_).mono
    fun w heard rank inside => ?_
  · simp only [Group.enter, place]
  · rw [heard rank inside, heardBy, place]

/-- A whole part enters an exchange of its own. -/
theorem Divides.enter_part (divides : Divides node A G color key H) (hub : Hub)
    (place : entrance.side = .part) :
    Succeeds ((A.filter fun rank => (color rank).isSome).filter fun rank => (H rank).hub = hub)
      (fun rank => (G rank).enter (if (color rank).isSome then some (H rank) else none)
        (payload rank) entrance)
      fun w => ∀ rank ∈ (A.filter fun rank =>
        (color rank).isSome).filter fun rank => (H rank).hub = hub,
        w rank = heardBy G H color payload rank entrance := by
  have group : Together node ((A.filter fun rank => (color rank).isSome).filter fun rank =>
    (H rank).hub = hub) H :=
    divides.together.filter_const fun rank inside member belongs same =>
      (divides.together.of_mem inside belongs).2.trans same
  have chooses :
      ∀ rank ∈ (A.filter fun rank => (color rank).isSome).filter fun rank => (H rank).hub = hub,
      (color rank).isSome :=
    fun rank inside => (Finset.mem_filter.mp (Finset.mem_filter.mp inside).1).2
  refine ((group.exchange_items fun rank => payload rank entrance).congr fun rank inside => ?_).mono
    fun w heard rank inside => ?_
  · simp only [Group.enter, place, if_pos (chooses rank inside)]
  · simp only [heard rank inside, heardBy, place, if_pos (chooses rank inside)]

/-- The ranks of `B` are next to enter an exchange, all of them the same, and get through it. -/
structure Enters (A : Finset Nat) (G H : Nat → Group) (color : Nat → Option Nat)
    (payload : Nat → Entrance → Payload S) (plan : Nat → List Entrance) (B : Finset Nat)
    (entrance : Entrance) : Prop where
  subset : B ⊆ A
  nonempty : B.Nonempty
  heads : ∀ rank ∈ B, ∃ rest, plan rank = entrance :: rest
  later : Aligned A G color (remaining B plan)
  first : Succeeds B
    (fun rank => (G rank).enter (if (color rank).isSome then some (H rank) else none)
      (payload rank) entrance)
    fun w => ∀ rank ∈ B, w rank = heardBy G H color payload rank entrance

variable {a : Nat} {rest : List Entrance}

/-- A rank that has come to an exchange of its part finds the others of the part there. -/
theorem Aligned.enters_part (aligned : Aligned A G color plan)
    (divides : Divides node A G color key H) (inside : a ∈ A) (chooses : (color a).isSome)
    (found : plan a = entrance :: rest) (place : entrance.side = .part) :
    ∃ B, Enters A G H color payload plan B entrance := by
  let B := (A.filter fun rank => (color rank).isSome).filter fun rank => (H rank).hub = (H a).hub
  have mem : ∀ rank, rank ∈ B ↔ rank ∈ A ∧ (color rank).isSome ∧ (H rank).hub = (H a).hub := by
    intro rank
    simp only [B, Finset.mem_filter, and_assoc]
  have heads : ∀ rank ∈ B, ∃ rest, plan rank = entrance :: rest := by
    intro rank member
    obtain ⟨within, colored, one⟩ := (mem rank).mp member
    have same := (divides.meets_iff rank within a inside colored chooses).mp one
    exact ⟨rest, by rw [aligned.parts rank within a inside colored same, found]⟩
  refine ⟨B, ?_⟩
  constructor
  · exact fun rank member => ((mem rank).mp member).1
  · exact ⟨a, (mem a).mpr ⟨inside, chooses, rfl⟩⟩
  · exact heads
  · apply aligned.remaining heads
    · intro whole
      rw [place] at whole
      cases whole
    · intro first within second within' colored same
      have colored' : (color second).isSome := same.2 ▸ colored
      have one := (divides.meets_iff first within second within' colored colored').mpr same
      rw [mem, mem, one]
      constructor
      · rintro ⟨_, _, meets⟩
        exact ⟨within', colored', meets⟩
      · rintro ⟨_, _, meets⟩
        exact ⟨within, colored, meets⟩
  · exact divides.enter_part (H a).hub place

/-- A rank without a part leaves out the exchanges of parts. -/
theorem Aligned.enters_alone (aligned : Aligned A G color plan) (inside : a ∈ A)
    (left_out : ¬ (color a).isSome) (found : plan a = entrance :: rest)
    (place : entrance.side = .part) :
    Enters A G H color payload plan {a} entrance := by
  have heads : ∀ rank ∈ ({a} : Finset Nat), ∃ rest, plan rank = entrance :: rest := by
    intro rank member
    rw [Finset.mem_singleton.mp member]
    exact ⟨rest, found⟩
  constructor
  · exact Finset.singleton_subset_iff.mpr inside
  · exact Finset.singleton_nonempty a
  · exact heads
  · apply aligned.remaining heads
    · intro whole
      rw [place] at whole
      cases whole
    · intro first _ second _ colored same
      rw [Finset.mem_singleton, Finset.mem_singleton]
      constructor
      · rintro rfl
        exact absurd colored left_out
      · rintro rfl
        exact absurd (same.2 ▸ colored) left_out
  · refine Succeeds.congr (.pure (w := fun _ => []) fun rank member => ?_) fun rank member => ?_
    · rw [Finset.mem_singleton.mp member, heardBy, place]
      simp only [if_neg left_out]
    · rw [Finset.mem_singleton.mp member]
      simp only [Group.enter, place, if_neg left_out]

/-- If nobody has come to an exchange of a part, all members of a group that has exchanges left have
come to the same. -/
theorem Aligned.enters_whole (aligned : Aligned A G color plan)
    (t : Together node A G) (inside : a ∈ A) (found : plan a = entrance :: rest)
    (whole : ∀ rank ∈ A, ∀ first later, plan rank = first :: later → first.side = .whole) :
    Enters A G H color payload plan (A.filter fun rank => (G rank).hub = (G a).hub) entrance := by
  have place := whole a inside entrance rest found
  have heads : ∀ rank ∈ A.filter fun rank => (G rank).hub = (G a).hub, ∃ rest, plan rank =
      entrance :: rest := by
    intro rank member
    obtain ⟨within, same⟩ := Finset.mem_filter.mp member
    have wholes := aligned.wholes rank within a inside same
    rw [found, List.filter_cons_of_pos (by simpa using place)] at wholes
    cases here : plan rank with
    | nil =>
      rw [here, List.filter_nil] at wholes
      cases wholes
    | cons first later =>
      rw [here, List.filter_cons_of_pos (by simpa using whole rank within first later here)]
        at wholes
      exact ⟨later, by rw [(List.cons.inj wholes).1]⟩
  constructor
  · exact Finset.filter_subset ..
  · exact ⟨a, Finset.mem_filter.mpr ⟨inside, rfl⟩⟩
  · exact heads
  · apply aligned.remaining heads
    · intro _ first within second within' same
      simp only [Finset.mem_filter, within, within', true_and, same]
    · intro first within second within' _ same
      simp only [Finset.mem_filter, within, within', true_and, same.1]
  · exact t.enter_whole (G a).hub place

/-- As long as some plan is not at its end, some ranks are next. -/
theorem Aligned.exists_enters (aligned : Aligned A G color plan) (t : Together node A G)
    (divides : Divides node A G color key H) (inside : a ∈ A) (going : plan a ≠ []) :
    ∃ B entrance, Enters A G H color payload plan B entrance := by
  by_cases some_part : ∃ rank ∈ A, ∃ entrance rest, plan rank = entrance :: rest ∧
    entrance.side = .part
  · obtain ⟨rank, within, entrance, rest, found, place⟩ := some_part
    by_cases chooses : (color rank).isSome
    · obtain ⟨B, enters⟩ : ∃ B, Enters A G H color payload plan B entrance :=
        aligned.enters_part divides within chooses found place
      exact ⟨B, entrance, enters⟩
    · exact ⟨{rank}, entrance, aligned.enters_alone within chooses found place⟩
  · obtain ⟨entrance, rest, found⟩ := List.exists_cons_of_ne_nil going
    refine ⟨_, entrance, aligned.enters_whole t inside found fun rank within first later here => ?_⟩
    cases place : first.side with
    | whole => rfl
    | part => exact absurd ⟨rank, within, first, later, here, place⟩ some_part

/-- Ranks with aligned plans come to the end of them and hear what was left in their groups. -/
theorem Aligned.followPlan_succeeds (aligned : Aligned A G color plan) (t : Together node A G)
    (divides : Divides node A G color key H) :
    Succeeds A (followPlan G H color payload plan) fun w =>
      ∀ rank ∈ A, w rank = (plan rank).map (heardBy G H color payload rank) := by
  -- By induction on what is left of all plans.
  induction total : ∑ rank ∈ A, (plan rank).length
    using Nat.strong_induction_on generalizing plan with
  | _ total ih =>
    subst total
    by_cases some_plan : ∃ rank ∈ A, plan rank ≠ []
    · obtain ⟨a, inside, going⟩ := some_plan
      obtain ⟨B, entrance, enters⟩ : ∃ B entrance, Enters A G H color payload plan B entrance :=
        aligned.exists_enters t divides inside going
      obtain ⟨rank, member⟩ := enters.nonempty
      have less := sum_remaining_lt enters.subset member enters.heads
      exact followPlan_of_remaining enters.subset enters.heads enters.first
        (ih _ less enters.later rfl)
    · have ended : ∀ rank ∈ A, plan rank = [] := by
        intro rank within
        by_contra going
        exact some_plan ⟨rank, within, going⟩
      refine Succeeds.congr (.pure (w := fun _ => []) fun rank within => ?_) fun rank within => ?_
      · rw [ended rank within, List.map_nil]
      · rw [followPlan, ended rank within, List.mapM_nil]

end

/-! ## A split and what follows -/

variable {n : Nat}

theorem Together.splitAndMeet (t : Together node A G) (color : Nat → Option Nat) (key : Nat → Nat)
    (payload : Nat → Entrance → Payload S) {plan : Nat → List Entrance}
    (aligned : Aligned A G color plan) :
    Succeeds A (fun rank => (G rank).splitAndMeet (color rank) (key rank) (payload rank)
      (plan rank)) fun w =>
      ∃ H : Nat → Group, Divides node A G color key H ∧ ∀ rank ∈ A, w rank =
        (if (color rank).isSome then some (H rank) else none,
          (plan rank).map (heardBy G H color payload rank)) := by
  refine (t.split color key).succeeds.bind fun part split => ?_
  obtain ⟨number, split⟩ := split
  have divides := t.divides color key number
  have ends : Succeeds A (fun rank => do
      let heard ← followPlan G (newGroup node G color key number) color payload plan rank
      pure (part rank, heard)) fun w => ∃ H : Nat → Group, Divides node A G color key H ∧
        ∀ rank ∈ A, w rank = (if (color rank).isSome then some (H rank) else none,
          (plan rank).map (heardBy G H color payload rank)) := by
    refine (aligned.followPlan_succeeds t divides).bind fun heard known => ?_
    refine .pure (w := fun rank => (part rank, heard rank)) ⟨_, divides, fun rank inside => ?_⟩
    exact Prod.ext (split rank inside) (known rank inside)
  exact ends.congr fun rank inside => by rw [followPlan, split rank inside]

/-- The ranks of `A` split their groups and go on to meet in these and in the parts, in whatever
order they take their steps, while the other ranks of the world are idle. They receive the parts
into which the colors divide the groups, and in every exchange they hear exactly the members of that
group. -/
theorem split_divides (t : Together node A G) (within : A ⊆ Finset.range n)
    (color : Nat → Option Nat) (key : Nat → Nat) (payload : Nat → Entrance → Payload S)
    (plan : Nat → List Entrance) (aligned : Aligned A G color plan) {hubs : Hubs S}
    {rounds : Rounds} (resting : hubs.Resting rounds) : ∃ H : Nat → Group,
      Divides node A G color key H ∧
      (World.ofPrograms n (fun rank => if rank ∈ A then
          ((G rank).splitAndMeet (color rank) (key rank) (payload rank) (plan rank)).run
        else .finished (.ok (none, []))) hubs).EndsWith
        ((List.range n).map fun rank => some (.ok (if rank ∈ A then
          (if (color rank).isSome then some (H rank) else none,
            (plan rank).map (heardBy G H color payload rank))
        else (none, [])))) := by
  have active : Completes A (fun rank => if rank ∈ A then
      ((G rank).splitAndMeet (color rank) (key rank) (payload rank) (plan rank)).run
      else .finished (.ok (none, []))) _ :=
    Completes.congr (t.splitAndMeet color key payload aligned) fun rank inside => if_pos inside
  obtain ⟨v, ⟨u, ⟨w, values, H, divides, heard⟩, same, idle⟩, ends⟩ :=
    (active.part within (w := fun _ => .ok (none, [])) fun rank _ outside =>
      if_neg outside).endsWith resting
  refine ⟨H, divides, ?_⟩
  have results : (List.range n).map (fun rank => some (v rank)) = (List.range n).map fun rank =>
      some (.ok
      (if rank ∈ A then
        (if (color rank).isSome then some (H rank) else none,
          (plan rank).map (heardBy G H color payload rank))
      else (none, []))) := by
    apply List.map_congr_left
    intro rank below
    by_cases inside : rank ∈ A
    · rw [same rank inside, values rank inside, heard rank inside, if_pos inside]
    · rw [idle rank (Finset.mem_range.mpr (List.mem_range.mp below)) inside, if_neg inside]
  exact results ▸ ends

def outerColors (rank : Nat) : Option Nat := [some 5, none, some 5].getD rank none

def outerPlans (rank : Nat) : List Entrance :=
  if rank = 1 then [⟨.whole, 0⟩] else [⟨.part, 0⟩, ⟨.whole, 0⟩, ⟨.part, 1⟩]

/-- Three ranks on two nodes, where the keys turn the order of the first and the last around. -/
theorem split_divides_outer :
    Aligned (Finset.range 3) (Group.world [0, 1, 1]) outerColors outerPlans ∧
    ∃ H : Nat → Group,
      Divides (fun rank => [0, 1, 1].getD rank 0) (Finset.range 3)
      (Group.world [0, 1, 1]) outerColors (fun rank => 10 - rank) H ∧
      (World.ofPrograms 3 (fun rank => if rank ∈ Finset.range 3 then
          ((Group.world [0, 1, 1] rank).splitAndMeet (outerColors rank) (10 - rank)
            (fun entrance => .one .word64 (10 * rank + entrance.number : Nat))
            (outerPlans rank)).run
        else .finished (.ok (none, []))) ([] : Hubs Float)).EndsWith
        ((List.range 3).map fun rank => some (.ok (if rank ∈ Finset.range 3 then
          (if (outerColors rank).isSome then some (H rank) else none, (outerPlans rank).map
            (heardBy (Group.world [0, 1, 1]) H outerColors
              (fun rank entrance => .one .word64 (10 * rank + entrance.number : Nat)) rank))
        else (none, [])))) := by
  have aligned : Aligned (Finset.range 3) (Group.world [0, 1, 1]) outerColors outerPlans := by
    constructor
    · decide
    · unfold SamePart
      decide
  exact ⟨aligned, split_divides (Together.world [0, 1, 1]) (Finset.Subset.refl _) _ _ _ _ aligned
    Hubs.resting_nil⟩

end DeviceTeams
