import DeviceTeams.Proofs.Schedules
import DeviceTeams.Ranks.Group

/-!
# Round after round at one meeting point

The members of a group meet again and again, each with a list of payloads of its own. In whatever
order they move, and however often they wake up too early, a member comes back from its exchanges
with the rounds of the group one after the other, none of them stays for good at the meeting point,
and a round leaves nothing behind for the next one. A fast member may already be back at the meeting
point while slow ones have not taken the items of the round before: these items stay until the slow
ones have come again, since the next round waits for them.

A step of a member that closes a round only leaves its payload. It takes the items in a step of its
own, so that the orders of steps include those in which it goes on at once.
-/
namespace DeviceTeams

open Relation (ReflTransGen)

variable {S α : Type}

namespace World

/-- A rank moves, or it wakes up in a round that is not over and waits on. -/
inductive Turn (w : World S α) : World S α → Prop
  | move {w' : World S α} : Step w w' → Turn w w'
  | wake {rank number : Nat} {hub : Hub} {resume : Round (Payload S) → Program S α} :
      w.seats[rank]? = some (.waiting hub number resume) →
      (w.hubs.at hub).collect? number = none → Turn w w

end World

/-- The rest of a member's exchanges, with the rounds that it has behind it. -/
def Group.goOn (g : Group) (behind : List (Round (Payload S))) :
    List (Payload S) → Program S (Attempt (List (Round (Payload S))))
  | [] => .finished (.ok behind)
  | payload :: rest => .meet g.hub g.rank payload fun round => g.goOn (behind ++ [round]) rest

theorem Group.run_exchanges (g : Group) (payloads : List (Payload S)) :
    (payloads.mapM g.exchange).run = g.goOn [] payloads := by
  have later : ∀ behind : List (Round (Payload S)),
      (payloads.mapM g.exchange >>= fun rounds => pure (behind ++ rounds) : Task S _).run =
        g.goOn behind payloads := by
    induction payloads with
    | nil =>
      intro behind
      rw [List.mapM_nil, pure_bind, List.append_nil]
      rfl
    | cons payload rest ih =>
      intro behind
      rw [List.mapM_cons, bind_assoc]
      show Program.meet _ _ _ _ = Program.meet _ _ _ _
      congr 1
      funext round
      have here := ih (behind ++ [round])
      simp only [List.append_assoc, List.singleton_append] at here
      rw [← here]
      show ((rest.mapM g.exchange >>= fun rounds => pure (round :: rounds)) >>=
        _ : Task S _).run = _
      rw [bind_assoc]
      simp only [pure_bind]
  have all := later []
  simp only [List.nil_append, bind_pure] at all
  exact all

structure Meeting (S : Type) where
  hub : Hub
  nodes : List Nat
  rounds : Nat
  /-- What a member, named by its rank in the group, brings to a round. -/
  payload : Nat → Nat → Payload S

namespace Meeting

variable (m : Meeting S)

def member (rank : Nat) : Group := ⟨rank, m.hub, m.nodes⟩

def brings (rank : Nat) : List (Payload S) := (List.range m.rounds).map (m.payload rank)

/-- The payloads of all members for one round, in rank order. -/
def items (number : Nat) : List (Payload S) :=
  (List.range m.hub.size).map fun rank => m.payload rank number

def past (count : Nat) : List (Round (Payload S)) :=
  (List.range count).map fun number => ⟨number, m.items number⟩

def start : World S (Attempt (List (Round (Payload S)))) :=
  .start ((List.range m.hub.size).map fun rank =>
    ((m.brings rank).mapM (m.member rank).exchange).run)

/-- A member that has come back from `count` exchanges with the first rounds of the group. -/
def between (rank count : Nat) : Seat S (Attempt (List (Round (Payload S)))) :=
  .ready ((m.member rank).goOn (m.past count) ((m.brings rank).drop count))

/-- A member that has come back from `count` exchanges with the first rounds of the group and has
left its payload in the next one. -/
def within (rank count : Nat) : Seat S (Attempt (List (Round (Payload S)))) :=
  .waiting m.hub count fun round =>
    (m.member rank).goOn (m.past count ++ [round]) ((m.brings rank).drop (count + 1))

/-- What is true of a group in the middle of its rounds. -/
structure Sound (w : World S (Attempt (List (Round (Payload S))))) : Prop where
  /-- A member has come back from some of its exchanges, from each of them with the payloads of that
  round. -/
  returned : ∀ rank < m.hub.size, ∃ count ≤ m.rounds,
    w.seats[rank]? = some (m.between rank count) ∨ count < m.rounds ∧
    w.seats[rank]? = some (m.within rank count)
  /-- The rounds are counted no further than the members go. -/
  generation_le : (w.hubs.at m.hub).generation ≤ m.rounds
  /-- The round under way waits for as many members as there are empty slots, at least for one. -/
  arrived : (w.hubs.at m.hub).arrived = (w.hubs.at m.hub).slots.countP Option.isSome ∧
    (w.hubs.at m.hub).arrived < m.hub.size
  /-- A turn that closes a round publishes its items and leaves no payload behind. -/
  closes : ∀ w', World.Turn w w' → (w'.hubs.at m.hub).generation ≠ (w.hubs.at m.hub).generation →
    w'.hubs.at m.hub = ⟨(w.hubs.at m.hub).generation + 1, 0, List.replicate m.hub.size none,
      m.items (w.hubs.at m.hub).generation⟩
  /-- As long as a member has exchanges to finish, some member can move. -/
  moves : (∃ rank < m.hub.size, w.seats[rank]? ≠
    some (.ready (.finished (.ok (m.past m.rounds))))) →
    ∃ w', World.Step w w'

variable {m}

@[simp] theorem length_past (count : Nat) : (m.past count).length = count := by simp [past]

@[simp] theorem length_brings (rank : Nat) : (m.brings rank).length = m.rounds := by simp [brings]

@[simp] theorem length_items (number : Nat) :
    (m.items number).length = m.hub.size := by simp [items]

theorem past_succ (count : Nat) :
    m.past (count + 1) = m.past count ++ [⟨count, m.items count⟩] := by
  simp [past, List.range_succ]

theorem drop_brings {rank count : Nat} (more : count < m.rounds) :
    (m.brings rank).drop count = m.payload rank count :: (m.brings rank).drop (count + 1) := by
  rw [List.drop_eq_getElem_cons (by simpa using more)]
  simp [brings]

theorem between_of_lt {rank count : Nat} (more : count < m.rounds) :
    m.between rank count = .ready (.meet m.hub rank (m.payload rank count) fun round =>
      (m.member rank).goOn (m.past count ++ [round]) ((m.brings rank).drop (count + 1))) := by
  rw [between, drop_brings more]
  rfl

theorem between_rounds (rank : Nat) :
    m.between rank m.rounds = .ready (.finished (.ok (m.past m.rounds))) := by
  rw [between, List.drop_eq_nil_of_le (by simp)]
  rfl

theorem start_eq : m.start = ⟨(List.range m.hub.size).map fun rank => m.between rank 0, []⟩ := by
  simp only [start, World.start, List.map_map, World.mk.injEq, and_true]
  refine List.map_congr_left fun rank _ => ?_
  rw [Function.comp_apply, Group.run_exchanges]
  rfl

/-- Where a member is while the meeting point is in some state: outside with nothing left there, in
the round under way, or behind by the items of the round before. -/
inductive Stands (m : Meeting S) (state : Rendezvous (Payload S)) (rank : Nat) :
    Seat S (Attempt (List (Round (Payload S)))) → Prop
  | outside : state.slots[rank]? = some none → Stands m state rank (m.between rank state.generation)
  | arrived : state.generation < m.rounds →
      state.slots[rank]? = some (some (m.payload rank state.generation)) →
      Stands m state rank (m.within rank state.generation)
  | behind {number : Nat} : state.generation = number + 1 → number < m.rounds →
      state.slots[rank]? = some none →
      state.published = m.items number → Stands m state rank (m.within rank number)

structure Orderly (m : Meeting S) (w : World S (Attempt (List (Round (Payload S))))) : Prop where
  length : w.seats.length = m.hub.size
  size : (w.hubs.at m.hub).slots.length = m.hub.size
  arrived : (w.hubs.at m.hub).arrived = (w.hubs.at m.hub).slots.countP Option.isSome
  arrived_lt : (w.hubs.at m.hub).arrived < m.hub.size
  generation_le : (w.hubs.at m.hub).generation ≤ m.rounds
  stands : ∀ rank < m.hub.size, ∃ seat, w.seats[rank]? = some seat ∧
    m.Stands (w.hubs.at m.hub) rank seat

namespace Orderly

variable {w w' : World S (Attempt (List (Round (Payload S))))}

theorem of_start (members : 0 < m.hub.size) : m.Orderly m.start := by
  rw [start_eq]
  constructor
  · simp
  · simp [Hubs.at, Rendezvous.fresh]
  · simp [Hubs.at, Rendezvous.fresh, List.countP_replicate]
  · exact members
  · exact Nat.zero_le _
  · intro rank below
    refine ⟨m.between rank 0, by simp [below], .outside ?_⟩
    simp [Hubs.at, Rendezvous.fresh, below]

/-- While a member stands outside, all others have arrived only if all their slots are filled. -/
theorem others_arrived (h : m.Orderly w) {rank : Nat}
    (outside : (w.hubs.at m.hub).slots[rank]? = some none)
    (last : (w.hubs.at m.hub).arrived + 1 = m.hub.size) {other : Nat} (below : other < m.hub.size)
    (differ : other ≠ rank) : ∃ payload, (w.hubs.at m.hub).slots[other]? = some (some payload) := by
  obtain ⟨payload, slot⟩ :=
    filled_of_last outside (by rw [← h.arrived, last, h.size]) (m.payload rank 0)
    (by rwa [h.size])
  exact ⟨payload, (List.getElem?_set_ne (Ne.symm differ)).symm.trans slot⟩

/-- A member with a filled slot stands in the round under way. -/
theorem stands_arrived (h : m.Orderly w) {rank : Nat} (below : rank < m.hub.size)
    {payload : Payload S} (slot : (w.hubs.at m.hub).slots[rank]? = some (some payload)) :
    payload = m.payload rank (w.hubs.at m.hub).generation ∧
      w.seats[rank]? = some (m.within rank (w.hubs.at m.hub).generation) := by
  obtain ⟨seat, found, stands⟩ := h.stands rank below
  cases stands with
  | outside empty => rw [slot] at empty; cases empty
  | arrived _ left =>
    rw [slot] at left
    cases left
    exact ⟨rfl, found⟩
  | behind _ _ empty _ => rw [slot] at empty; cases empty

/-- A member that is not the last to arrive leaves its payload in its own slot. -/
theorem deposit_early (h : m.Orderly w) {rank : Nat} (below : rank < m.hub.size)
    (outside : (w.hubs.at m.hub).slots[rank]? = some none)
    (more : (w.hubs.at m.hub).generation < m.rounds)
    (early : (w.hubs.at m.hub).arrived + 1 ≠ m.hub.size) :
    let state := (w.hubs.at m.hub).deposit rank (m.payload rank (w.hubs.at m.hub).generation)
    m.Orderly ⟨w.seats.set rank (m.within rank (w.hubs.at m.hub).generation),
      w.hubs.put m.hub state⟩ ∧
      state.generation = (w.hubs.at m.hub).generation := by
  intro state
  obtain ⟨inside, empty⟩ := List.getElem?_eq_some_iff.mp outside
  have left : state = { w.hubs.at m.hub with
      slots := (w.hubs.at m.hub).slots.set rank
        (some (m.payload rank (w.hubs.at m.hub).generation)),
      arrived := (w.hubs.at m.hub).arrived + 1 } := Rendezvous.deposit_of_more h.size early _ _
  refine ⟨?_, by rw [left]⟩
  constructor
  · simp [h.length]
  · rw [Hubs.at_put_self, left]
    simpa using h.size
  · rw [Hubs.at_put_self, left, List.countP_set inside, empty, ← h.arrived]
    simp
  · rw [Hubs.at_put_self, left]
    exact Nat.lt_of_le_of_ne h.arrived_lt early
  · rw [Hubs.at_put_self, left]
    exact h.generation_le
  · intro other otherBelow
    rw [Hubs.at_put_self, left]
    by_cases same : other = rank
    · subst same
      refine ⟨m.within other (w.hubs.at m.hub).generation, by simp [h.length, below], ?_⟩
      exact .arrived more (by simp [inside])
    · obtain ⟨seat, found, stands⟩ := h.stands other otherBelow
      refine ⟨seat, by rw [List.getElem?_set_ne (Ne.symm same)]; exact found, ?_⟩
      have slot := List.getElem?_set_ne (a := some (m.payload rank (w.hubs.at m.hub).generation))
        (l := (w.hubs.at m.hub).slots) (Ne.symm same)
      cases stands with
      | outside free => exact .outside (slot.trans free)
      | arrived under_way taken => exact .arrived under_way (slot.trans taken)
      | behind next under_way free published =>
        exact .behind next under_way (slot.trans free) published

/-- When one slot is left free, the members of all others wait in the round and have left its
payloads there. -/
theorem others_within (h : m.Orderly w) {rank : Nat}
    (outside : (w.hubs.at m.hub).slots[rank]? = some none)
    (last : (w.hubs.at m.hub).arrived + 1 = m.hub.size) {other : Nat} (below : other < m.hub.size)
    (differ : other ≠ rank) :
    (w.hubs.at m.hub).slots[other]? = some (some (m.payload other (w.hubs.at m.hub).generation)) ∧
      w.seats[other]? = some (m.within other (w.hubs.at m.hub).generation) := by
  obtain ⟨payload, slot⟩ := h.others_arrived outside last below differ
  obtain ⟨rfl, found⟩ := h.stands_arrived below slot
  exact ⟨slot, found⟩

/-- The payload of the last member fills the slots with the items of the round. -/
theorem slots_of_last (h : m.Orderly w) {rank : Nat} (below : rank < m.hub.size)
    (outside : (w.hubs.at m.hub).slots[rank]? = some none)
    (last : (w.hubs.at m.hub).arrived + 1 = m.hub.size) :
    (w.hubs.at m.hub).slots.set rank (some (m.payload rank (w.hubs.at m.hub).generation)) =
      (m.items (w.hubs.at m.hub).generation).map some := by
  obtain ⟨inside, _⟩ := List.getElem?_eq_some_iff.mp outside
  refine List.ext_getElem? fun other => ?_
  by_cases within : other < m.hub.size
  · by_cases same : other = rank
    · subst same
      simp [items, inside, below]
    · rw [List.getElem?_set_ne (Ne.symm same), (h.others_within outside last within same).1]
      simp [items, within]
  · have beyond := Nat.le_of_not_lt within
    rw [List.getElem?_eq_none (by simpa [h.size] using beyond),
      List.getElem?_eq_none (by simpa using beyond)]

/-- The last member to arrive closes the round. All others wait in it and are now behind by its
items. -/
theorem deposit_last (h : m.Orderly w) {rank : Nat} (below : rank < m.hub.size)
    (outside : (w.hubs.at m.hub).slots[rank]? = some none)
    (more : (w.hubs.at m.hub).generation < m.rounds)
    (last : (w.hubs.at m.hub).arrived + 1 = m.hub.size) :
    let state := (w.hubs.at m.hub).deposit rank (m.payload rank (w.hubs.at m.hub).generation)
    m.Orderly ⟨w.seats.set rank (m.within rank (w.hubs.at m.hub).generation),
      w.hubs.put m.hub state⟩ ∧
      state = ⟨(w.hubs.at m.hub).generation + 1, 0, List.replicate m.hub.size none,
        m.items (w.hubs.at m.hub).generation⟩ := by
  intro state
  have left : state = ⟨(w.hubs.at m.hub).generation + 1, 0, List.replicate m.hub.size none,
      m.items (w.hubs.at m.hub).generation⟩ :=
    Rendezvous.deposit_of_last h.size last (h.slots_of_last below outside last)
  refine ⟨?_, left⟩
  constructor
  · simp [h.length]
  · simp [left]
  · simp [left, List.countP_replicate]
  · rw [Hubs.at_put_self, left]
    exact Nat.lt_of_le_of_lt (Nat.zero_le _) below
  · rw [Hubs.at_put_self, left]
    exact more
  · intro other otherBelow
    refine ⟨m.within other (w.hubs.at m.hub).generation, ?_, ?_⟩
    · by_cases same : other = rank
      · subst same
        simp [h.length, below]
      · rw [List.getElem?_set_ne (Ne.symm same)]
        exact (h.others_within outside last otherBelow same).2
    · rw [Hubs.at_put_self, left]
      exact .behind rfl more (by simp [otherBelow]) rfl

/-- A member that is behind takes the items of its round. -/
theorem collect (h : m.Orderly w) {rank number : Nat} (below : rank < m.hub.size)
    (next : (w.hubs.at m.hub).generation = number + 1)
    (free : (w.hubs.at m.hub).slots[rank]? = some none) :
    m.Orderly ⟨w.seats.set rank (m.between rank (number + 1)), w.hubs⟩ := by
  refine ⟨by simp [h.length], h.size, h.arrived, h.arrived_lt, h.generation_le,
    fun other otherBelow => ?_⟩
  by_cases same : other = rank
  · subst same
    refine ⟨m.between other (number + 1), by simp [h.length, below], ?_⟩
    rw [← next]
    exact .outside free
  · obtain ⟨seat, found, stands⟩ := h.stands other otherBelow
    exact ⟨seat, by rw [List.getElem?_set_ne (Ne.symm same)]; exact found, stands⟩

/-- One step: the group stays orderly, and a round that is closed leaves only its items. -/
theorem step (h : m.Orderly w) (step : World.Step w w') :
    m.Orderly w' ∧ ((w'.hubs.at m.hub).generation ≠ (w.hubs.at m.hub).generation →
      w'.hubs.at m.hub = ⟨(w.hubs.at m.hub).generation + 1, 0, List.replicate m.hub.size none,
        m.items (w.hubs.at m.hub).generation⟩) := by
  obtain ⟨seats', hubs'⟩ := w'
  obtain ⟨rank, seat, seat', found, moved, rfl⟩ := step
  have below : rank < m.hub.size := h.length ▸ (List.getElem?_eq_some_iff.mp found).1
  obtain ⟨seat₀, found₀, stands⟩ := h.stands rank below
  rw [found] at found₀
  cases found₀
  cases stands with
  | outside free =>
    by_cases more : (w.hubs.at m.hub).generation < m.rounds
    · rw [between_of_lt more] at moved
      simp only [Seat.step?, Option.some.injEq, Prod.mk.injEq] at moved
      obtain ⟨rfl, rfl⟩ := moved
      by_cases last : (w.hubs.at m.hub).arrived + 1 = m.hub.size
      · obtain ⟨orderly, closed⟩ := h.deposit_last below free more last
        exact ⟨orderly, fun _ => (Hubs.at_put_self ..).trans closed⟩
      · obtain ⟨orderly, same⟩ := h.deposit_early below free more last
        refine ⟨orderly, fun differ => absurd ?_ differ⟩
        rw [Hubs.at_put_self, same]
    · have ended : (w.hubs.at m.hub).generation = m.rounds :=
        Nat.le_antisymm h.generation_le (Nat.le_of_not_lt more)
      rw [ended, between_rounds] at moved
      cases moved
  | arrived more taken => simp [Seat.step?, within, Rendezvous.collect?] at moved
  | @behind number next more free published =>
    have differ : (w.hubs.at m.hub).generation ≠ number := by omega
    simp only [Seat.step?, within, Rendezvous.collect?, if_neg differ, Option.map_some,
      Option.some.injEq, Prod.mk.injEq, published, ← past_succ] at moved
    obtain ⟨rfl, rfl⟩ := moved
    exact ⟨h.collect below next free, fun differ => absurd rfl differ⟩

/-- A member that cannot move has finished, or it waits in the round under way. -/
theorem stuck_member (h : m.Orderly w) (stop : ∀ w', ¬ World.Step w w') {rank : Nat}
    (below : rank < m.hub.size) :
    (w.hubs.at m.hub).generation = m.rounds ∧ w.seats[rank]? = some (m.between rank m.rounds) ∨
      (w.hubs.at m.hub).generation < m.rounds ∧ ∃ payload, (w.hubs.at m.hub).slots[rank]? =
      some (some payload) := by
  obtain ⟨seat, found, stands⟩ := h.stands rank below
  have still : seat.step? w.hubs = none := by
    cases stepped : seat.step? w.hubs with
    | none => rfl
    | some next =>
      exact absurd ⟨rank, seat, next.1, found, stepped, rfl⟩
        (stop ⟨w.seats.set rank next.1, next.2⟩)
  cases stands with
  | outside free =>
    by_cases more : (w.hubs.at m.hub).generation < m.rounds
    · rw [between_of_lt more] at still
      cases still
    · have ended : (w.hubs.at m.hub).generation = m.rounds :=
        Nat.le_antisymm h.generation_le (Nat.le_of_not_lt more)
      exact .inl ⟨ended, ended ▸ found⟩
  | arrived more taken => exact .inr ⟨more, _, taken⟩
  | @behind number next more free published =>
    have differ : (w.hubs.at m.hub).generation ≠ number := by omega
    simp [Seat.step?, within, Rendezvous.collect?, differ] at still

/-- A group in which nobody can move has finished its rounds. -/
theorem finished (h : m.Orderly w) (stop : ∀ w', ¬ World.Step w w') {rank : Nat}
    (below : rank < m.hub.size) :
    w.seats[rank]? = some (.ready (.finished (.ok (m.past m.rounds)))) := by
  rcases h.stuck_member stop below with ⟨_, found⟩ | ⟨more, _⟩
  · rw [found, between_rounds]
  · -- All members wait in a round that waits for one of them.
    have full : ∀ slot ∈ (w.hubs.at m.hub).slots, slot.isSome = true := by
      intro slot content
      obtain ⟨other, place⟩ := List.mem_iff_getElem?.mp content
      have inside : other < m.hub.size := h.size ▸ (List.getElem?_eq_some_iff.mp place).1
      rcases h.stuck_member stop inside with ⟨ended, _⟩ | ⟨_, payload, taken⟩
      · omega
      · rw [place] at taken
        cases taken
        rfl
    have all : (w.hubs.at m.hub).arrived = m.hub.size := by
      rw [h.arrived, List.countP_eq_length.mpr full, h.size]
    exact absurd h.arrived_lt (by omega)

theorem turn (h : m.Orderly w) (turn : World.Turn w w') : m.Orderly w' := by
  cases turn with
  | move step => exact (h.step step).1
  | wake _ _ => exact h

theorem run (h : m.Orderly w) (turns : ReflTransGen World.Turn w w') : m.Orderly w' := by
  induction turns with
  | refl => exact h
  | tail _ turn ih => exact ih.turn turn

theorem sound (h : m.Orderly w) : m.Sound w where
  returned rank below := by
    obtain ⟨seat, found, stands⟩ := h.stands rank below
    cases stands with
    | outside _ => exact ⟨_, h.generation_le, .inl found⟩
    | arrived more _ => exact ⟨_, h.generation_le, .inr ⟨more, found⟩⟩
    | @behind number _ more _ _ => exact ⟨number, Nat.le_of_lt more, .inr ⟨more, found⟩⟩
  generation_le := h.generation_le
  arrived := ⟨h.arrived, h.arrived_lt⟩
  closes w' turn differ := by
    cases turn with
    | move step => exact (h.step step).2 differ
    | wake _ _ => exact absurd rfl differ
  moves := by
    rintro ⟨rank, below, unfinished⟩
    by_contra stop
    exact unfinished (h.finished (not_exists.mp stop) below)

end Orderly

/-- In whatever order the members of a group move and wake up, they come back from each of their
exchanges with the payloads of all members for that round, and all of them come to the end of their
rounds. -/
theorem members_agree (m : Meeting S) (members : 0 < m.hub.size) :
    (∀ w, ReflTransGen World.Turn m.start w → m.Sound w) ∧
      m.start.EndsWith (List.replicate m.hub.size (some (.ok (m.past m.rounds)))) := by
  have orderly : ∀ w, ReflTransGen World.Turn m.start w → m.Orderly w := fun w turns =>
    (Orderly.of_start members).run turns
  refine ⟨fun w turns => (orderly w turns).sound, World.acc_step _, fun w steps stop => ?_⟩
  have h := orderly w (steps.lift id fun _ _ step => World.Turn.move step)
  refine List.ext_getElem? fun rank => ?_
  rw [World.results, List.getElem?_map]
  by_cases below : rank < m.hub.size
  · rw [h.finished stop below]
    simp [Seat.result?, below]
  · have beyond : w.seats.length ≤ rank := by rw [h.length]; omega
    rw [List.getElem?_eq_none beyond]
    simp [below]

def pair : Meeting Int :=
  ⟨.world 2, [0, 0], 2, fun rank number => .one .word64 (10 * rank + number)⟩

theorem members_agree_pair :
    (∀ w, ReflTransGen World.Turn pair.start w → pair.Sound w) ∧
      pair.start.EndsWith (List.replicate 2 (some (.ok
        [⟨0, [.one .word64 (0 : Nat), .one .word64 (10 : Nat)]⟩,
          ⟨1, [.one .word64 (1 : Nat), .one .word64 (11 : Nat)]⟩]))) :=
  members_agree pair (by decide)

end Meeting
end DeviceTeams
