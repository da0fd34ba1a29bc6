import DeviceTeams.Proofs.Lockstep
import Mathlib.Data.List.Basic
import Mathlib.Data.Finset.Range

/-!
# Every order of steps leads to the same end

A world is compared with a stage: ranks that have left a payload in a round under way count as not
yet arrived, ranks that can take the items of a finished round count as having taken them. Then the
last arrival of a round is the move of a stage, reports are moves, and all other steps change
nothing. Since the moves of a stage commute, all orders in which the ranks of a world may take their
steps come to the same end.
-/
namespace DeviceTeams

variable {S α : Type}

/-- Nobody waits at any meeting point, and so many rounds have been finished there. -/
def Hubs.Resting (hubs : Hubs S) (rounds : Rounds) : Prop :=
  ∀ hub, (hubs.at hub).generation = rounds hub ∧ (hubs.at hub).arrived = 0 ∧
    (hubs.at hub).slots = List.replicate hub.size none

theorem Hubs.resting_nil : Hubs.Resting ([] : Hubs S) fun _ => 0 := fun _ => ⟨rfl, rfl, rfl⟩

/-- A rank of a world is where the stage has it: at its program, in a round that is under way, or
behind by the items of a round that is over. -/
inductive Follows (hubs : Hubs S) (s : Stage S α) (rank : Nat) : Seat S α → Prop
  | ready : Follows hubs s rank (.ready (s.programs rank))
  | early {hub : Hub} {seat : Nat} {payload : Payload S}
      {resume : Round (Payload S) → Program S α} :
      s.programs rank = .meet hub seat payload resume → (hubs.at hub).slots[seat]? =
      some (some payload) →
      Follows hubs s rank (.waiting hub (s.rounds hub) resume)
  | late {hub : Hub} {number : Nat} {resume : Round (Payload S) → Program S α} :
      rank ∈ hub.ranks → number + 1 = s.rounds hub →
      s.programs rank = resume ⟨number, (hubs.at hub).published⟩ →
      Follows hubs s rank (.waiting hub number resume)

theorem Follows.ready_of {hubs : Hubs S} {s : Stage S α} {rank : Nat} {program : Program S α}
    (here : s.programs rank = program) : Follows hubs s rank (.ready program) := here ▸ .ready

/-- Where a rank is does not depend on the programs of the others. -/
theorem Follows.congr {hubs : Hubs S} {s : Stage S α} {rank : Nat} {seat : Seat S α}
    (h : Follows hubs s rank seat) {programs : Nat → Program S α}
    (same : programs rank = s.programs rank) :
    Follows hubs ⟨s.rounds, programs⟩ rank seat := by
  cases h with
  | ready => exact .ready_of same
  | @early hub place payload resume waits slot =>
    have waits' : programs rank = .meet hub place payload resume := same.trans waits
    exact .early waits' slot
  | late member past resumed => exact .late member past (same.trans resumed)

/-- A payload in a free slot does not concern the ranks that have not left it. -/
theorem Follows.of_deposit {hubs : Hubs S} {s : Stage S α} {rank : Nat} {place : Seat S α}
    (follows : Follows hubs s rank place) {hub : Hub} {seat : Nat}
    (free : (hubs.at hub).slots[seat]? = some none) (payload : Payload S) (arrived : Nat) :
    Follows (hubs.put hub
      { hubs.at hub with slots := (hubs.at hub).slots.set seat (some payload), arrived }) s rank
      place := by
  cases follows with
  | ready => exact .ready
  | @early other seat' content resume waits slot =>
    refine .early waits ?_
    rw [Hubs.at_put]
    split
    · next here =>
      subst here
      have apart : seat ≠ seat' := by
        rintro rfl
        rw [free] at slot
        cases slot
      exact (List.getElem?_set_ne apart).trans slot
    · exact slot
  | late member past resumed =>
    refine .late member past ?_
    rw [Hubs.at_put]
    split
    · next here => subst here; exact resumed
    · exact resumed

/-- A round does not concern the ranks that are not in its group. -/
theorem Follows.of_meetAt {hubs : Hubs S} {s : Stage S α} {rank : Nat} {place : Seat S α}
    (follows : Follows hubs s rank place) {hub : Hub} (absent : rank ∉ hub.ranks)
    (own : ∀ hub seat payload resume, s.programs rank = .meet hub seat payload resume →
      hub.ranks[seat]? = some rank)
    (state : Rendezvous (Payload S)) (saying : Nat → Payload S)
    (goingOn : Nat → Round (Payload S) → Program S α) :
    Follows (hubs.put hub state) (s.meetAt hub saying goingOn) rank place := by
  have still : (s.meetAt hub saying goingOn).programs rank = s.programs rank :=
    Stage.meetAt_programs_of_notMem absent
  cases follows with
  | ready => exact .ready_of still
  | @early other seat payload resume waits slot =>
    have apart : hub ≠ other := by
      rintro rfl
      exact absent (List.mem_of_getElem? (own hub seat payload resume waits))
    rw [← Stage.meetAt_rounds_of_ne s apart saying goingOn]
    refine .early (still.trans waits) ?_
    rw [Hubs.at_put, if_neg apart]
    exact slot
  | @late other number resume member past resumed =>
    have apart : hub ≠ other := by
      rintro rfl
      exact absent member
    refine .late member (past.trans (Stage.meetAt_rounds_of_ne s apart saying goingOn).symm) ?_
    rw [still, Hubs.at_put, if_neg apart]
    exact resumed

/-- A slot that is filled after a deposit was filled before, or it is the one that the payload was
left in. -/
theorem Hubs.filled_of_deposit {hubs : Hubs S} {hub other : Hub} {seat place arrived : Nat}
    {payload content : Payload S} (slot : ((hubs.put hub { hubs.at hub with
      slots := (hubs.at hub).slots.set seat (some payload), arrived }).at other).slots[place]? =
        some (some content)) :
    (hub = other ∧ seat = place ∧ payload = content) ∨ (hubs.at other).slots[place]? =
    some (some content) := by
  rw [Hubs.at_put] at slot
  split at slot
  · next here =>
    subst here
    by_cases same : seat = place
    · subst same
      have inside : seat < (hubs.at hub).slots.length := by
        simpa using (List.getElem?_eq_some_iff.mp slot).1
      exact .inl ⟨rfl, rfl,
        Option.some.inj (Option.some.inj ((List.getElem?_set_self inside).symm.trans slot))⟩
    · exact .inr ((List.getElem?_set_ne same).symm.trans slot)
  · exact .inr slot

/-- A payload that is not the last one of its round is left in its slot. -/
theorem Rendezvous.deposit_of_more {P : Type} {r : Rendezvous P} {size : Nat}
    (slots : r.slots.length = size) (more : r.arrived + 1 ≠ size) (seat : Nat) (payload : P) :
    r.deposit seat payload =
      { r with slots := r.slots.set seat (some payload), arrived := r.arrived + 1 } := by
  simp only [deposit, Rendezvous.size, List.length_set, slots, if_neg more]

/-- The last payload of a round closes it. -/
theorem Rendezvous.deposit_of_last {P : Type} {r : Rendezvous P} {size : Nat}
    (slots : r.slots.length = size) (last : r.arrived + 1 = size) {seat : Nat}
    {payload : P} {items : List P} (contents : r.slots.set seat (some payload) = items.map some) :
    r.deposit seat payload = ⟨r.generation + 1, 0, List.replicate size none, items⟩ := by
  have length : (items.map some).length = size := by rw [← contents, List.length_set, slots]
  have published : (items.map some).filterMap id = items := by
    rw [List.filterMap_map, Function.id_comp, List.filterMap_some]
  simp only [deposit, Rendezvous.size, contents, length, if_pos last, publish, published]

/-- If all slots but one are filled, a payload for this one fills them all. -/
theorem filled_of_last {β : Type} {slots : List (Option β)} {seat : Nat}
    (free : slots[seat]? = some none) (last : slots.countP Option.isSome + 1 = slots.length)
    (payload : β) {place : Nat} (within : place < slots.length) :
    ∃ content, (slots.set seat (some payload))[place]? = some (some content) := by
  obtain ⟨inside, empty⟩ := List.getElem?_eq_some_iff.mp free
  have count : (slots.set seat (some payload)).countP Option.isSome =
      (slots.set seat (some payload)).length := by
    rw [List.countP_set inside, empty, List.length_set, ← last]
    rfl
  have bound : place < (slots.set seat (some payload)).length := by rwa [List.length_set]
  obtain ⟨content, found⟩ :=
    Option.isSome_iff_exists.mp (List.countP_eq_length.mp count _ (List.getElem_mem bound))
  exact ⟨content, List.getElem?_eq_some_iff.mpr ⟨bound, found⟩⟩

structure Tracks (n : Nat) (w : World S α) (s : Stage S α) : Prop where
  length : w.seats.length = n
  generation : ∀ hub, (w.hubs.at hub).generation = s.rounds hub
  size : ∀ hub, (w.hubs.at hub).slots.length = hub.size
  arrived : ∀ hub, (w.hubs.at hub).arrived = (w.hubs.at hub).slots.countP Option.isSome
  under_way : ∀ hub, 0 < hub.size → (w.hubs.at hub).arrived < hub.size
  seat : ∀ rank < n, ∃ seat, w.seats[rank]? = some seat ∧ Follows w.hubs s rank seat
  filled : ∀ hub seat payload, (w.hubs.at hub).slots[seat]? = some (some payload) →
    ∃ rank resume, rank < n ∧ hub.ranks[seat]? = some rank ∧
      w.seats[rank]? = some (.waiting hub (s.rounds hub) resume) ∧
      s.programs rank = .meet hub seat payload resume

namespace Tracks

variable {n : Nat} {w : World S α} {s : Stage S α}

/-- Before anybody has moved, a world is at the stage of its programs. -/
theorem start {hubs : Hubs S} {rounds : Rounds} (resting : hubs.Resting rounds)
    (programs : Nat → Program S α) :
    Tracks n ⟨((List.range n).map programs).map .ready, hubs⟩ ⟨rounds, programs⟩ where
  length := by simp
  generation hub := (resting hub).1
  size hub := by rw [(resting hub).2.2, List.length_replicate]
  arrived hub := by simp [(resting hub).2.1, (resting hub).2.2, List.countP_replicate]
  under_way hub positive := by rw [(resting hub).2.1]; exact positive
  seat rank below := ⟨.ready (programs rank), by simp [below], .ready⟩
  filled hub seat payload found := by
    rw [(resting hub).2.2, List.getElem?_replicate] at found
    split at found <;> cases found

/-- A rank that is ready does not wait. -/
theorem ne_of_waiting {rank member number : Nat} {program : Program S α} {hub : Hub}
    {resume : Round (Payload S) → Program S α} (found : w.seats[rank]? = some (.ready program))
    (found' : w.seats[member]? = some (.waiting hub number resume)) : rank ≠ member := by
  rintro rfl
  rw [found] at found'
  cases found'

/-- A rank that is ready has left nothing in the round under way at its next meeting point. -/
theorem free_of_ready (h : Tracks n w s) (seated : s.Seated (Finset.range n)) {rank : Nat}
    (below : rank < n) {hub : Hub} {seat : Nat} {payload : Payload S}
    {resume : Round (Payload S) → Program S α}
    (waits : s.programs rank = .meet hub seat payload resume)
    (found : w.seats[rank]? = some (.ready (s.programs rank))) :
    (w.hubs.at hub).slots[seat]? = some none := by
  have own := seated rank (Finset.mem_range.mpr below) hub seat payload resume waits
  have inside : seat < (w.hubs.at hub).slots.length := by
    rw [h.size, ← Hub.length_ranks]
    exact (List.getElem?_eq_some_iff.mp own).1
  cases slot : (w.hubs.at hub).slots[seat]? with
  | none => exact absurd (List.getElem?_eq_none_iff.mp slot) (Nat.not_le.mpr inside)
  | some content =>
    cases content with
    | none => rfl
    | some left =>
      obtain ⟨other, resume', _, own', found', _⟩ := h.filled hub seat left slot
      rw [own] at own'
      cases own'
      rw [found] at found'
      cases found'

/-- All ranks are where they were, but the one that has left its payload waits. -/
theorem seat_of_early (h : Tracks n w s) {rank : Nat} (below : rank < n) {hub : Hub} {seat : Nat}
    {payload : Payload S} {resume : Round (Payload S) → Program S α}
    (waits : s.programs rank = .meet hub seat payload resume)
    (free : (w.hubs.at hub).slots[seat]? = some none) (arrived : Nat) : ∀ member < n, ∃ place,
      (w.seats.set rank (.waiting hub (w.hubs.at hub).generation resume))[member]? = some place ∧
      Follows (w.hubs.put hub { w.hubs.at hub with
        slots := (w.hubs.at hub).slots.set seat (some payload), arrived }) s member place := by
  intro member memberBelow
  by_cases same : member = rank
  · subst same
    refine ⟨.waiting hub (w.hubs.at hub).generation resume, by simp [h.length, below], ?_⟩
    rw [h.generation]
    refine .early waits ?_
    simp [(List.getElem?_eq_some_iff.mp free).1]
  · obtain ⟨place, found, follows⟩ := h.seat member memberBelow
    exact ⟨place, (List.getElem?_set_ne (Ne.symm same)).trans found,
      follows.of_deposit free payload _⟩

/-- Every slot that is filled belongs to a rank that waits in the round, the new one too. -/
theorem filled_of_early (h : Tracks n w s) {rank : Nat} (below : rank < n) {hub : Hub} {seat : Nat}
    {payload : Payload S} {resume : Round (Payload S) → Program S α}
    (waits : s.programs rank = .meet hub seat payload resume) (own : hub.ranks[seat]? = some rank)
    (found : w.seats[rank]? = some (.ready (s.programs rank))) {arrived place : Nat} {other : Hub}
    {content : Payload S}
    (slot : ((w.hubs.put hub { w.hubs.at hub with
      slots := (w.hubs.at hub).slots.set seat (some payload), arrived }).at other).slots[place]? =
        some (some content)) :
    ∃ member resume', member < n ∧ other.ranks[place]? = some member ∧
      (w.seats.set rank (.waiting hub (w.hubs.at hub).generation resume))[member]? =
        some (.waiting other (s.rounds other) resume') ∧
      s.programs member = .meet other place content resume' := by
  rcases Hubs.filled_of_deposit slot with ⟨rfl, rfl, rfl⟩ | before
  · refine ⟨rank, resume, below, own, ?_, waits⟩
    rw [← h.generation]
    simp [h.length, below]
  · obtain ⟨member, resume', memberBelow, own', found', waits'⟩ :=
      h.filled other place content before
    exact ⟨member, resume', memberBelow, own',
      (List.getElem?_set_ne (ne_of_waiting found found')).trans found', waits'⟩

/-- A member that is not the last to arrive leaves the stage as it is. -/
theorem deposit_early (h : Tracks n w s) (seated : s.Seated (Finset.range n)) {rank : Nat}
    (below : rank < n) {hub : Hub} {seat : Nat} {payload : Payload S}
    {resume : Round (Payload S) → Program S α}
    (waits : s.programs rank = .meet hub seat payload resume)
    (found : w.seats[rank]? = some (.ready (s.programs rank)))
    (more : (w.hubs.at hub).arrived + 1 ≠ hub.size) :
    Tracks n ⟨w.seats.set rank (.waiting hub (w.hubs.at hub).generation resume),
      w.hubs.put hub ((w.hubs.at hub).deposit seat payload)⟩ s := by
  have free := h.free_of_ready seated below waits found
  have own := seated rank (Finset.mem_range.mpr below) hub seat payload resume waits
  obtain ⟨inside, empty⟩ := List.getElem?_eq_some_iff.mp free
  have count : (w.hubs.at hub).arrived + 1 =
      ((w.hubs.at hub).slots.set seat (some payload)).countP Option.isSome := by
    rw [List.countP_set inside, h.arrived, empty]
    simp
  rw [Rendezvous.deposit_of_more (h.size hub) more]
  exact {
    length := by simp [h.length]
    generation :=
      Hubs.forall_put (fun other state => state.generation = s.rounds other) (h.generation hub)
      fun other _ => h.generation other
    size := Hubs.forall_put (fun other state => state.slots.length = other.size)
      (by simpa using h.size hub)
      fun other _ => h.size other
    arrived := Hubs.forall_put
      (fun _ state => state.arrived = state.slots.countP Option.isSome) count
      fun other _ => h.arrived other
    under_way := Hubs.forall_put (fun other state => 0 < other.size → state.arrived < other.size)
      (fun positive => Nat.lt_of_le_of_ne (h.under_way hub positive) more) fun other _ =>
        h.under_way other
    seat := h.seat_of_early below waits free _
    filled := fun _ _ _ slot => h.filled_of_early below waits own found slot }

def sayingOf (other : Payload S) : Program S α → Payload S
  | .meet _ _ payload _ => payload
  | _ => other

def goingOnOf (other : Round (Payload S) → Program S α) :
    Program S α → Round (Payload S) → Program S α
  | .meet _ _ _ resume => resume
  | _ => other

/-- When one slot is left free, the member of any other slot waits in the round and has left its
payload there. -/
theorem waiting_of_last (h : Tracks n w s) {hub : Hub} {seat : Nat} {payload : Payload S}
    (free : (w.hubs.at hub).slots[seat]? = some none)
    (last : (w.hubs.at hub).arrived + 1 = hub.size) {place member : Nat}
    (own : hub.ranks[place]? = some member) (apart : place ≠ seat) :
    ∃ content resume, member < n ∧ w.seats[member]? = some (.waiting hub (s.rounds hub) resume) ∧
      s.programs member = .meet hub place content resume ∧
      ((w.hubs.at hub).slots.set seat (some payload))[place]? = some (some content) := by
  have placed : place < (w.hubs.at hub).slots.length := by
    rw [h.size, ← Hub.length_ranks]
    exact (List.getElem?_eq_some_iff.mp own).1
  obtain ⟨content, slot⟩ := filled_of_last free (by rw [← h.arrived, last, h.size]) payload placed
  obtain ⟨member', resume, below, own', found, waits⟩ :=
    h.filled hub place content ((List.getElem?_set_ne (Ne.symm apart)).symm.trans slot)
  rw [own] at own'
  cases own'
  exact ⟨content, resume, below, found, waits, slot⟩

/-- The last member to arrive finds all others of its group waiting, and their payloads in their
slots. -/
theorem gathered_of_last (h : Tracks n w s) (seated : s.Seated (Finset.range n)) {rank : Nat}
    (below : rank < n) {hub : Hub} {seat : Nat} {payload : Payload S}
    {resume : Round (Payload S) → Program S α}
    (waits : s.programs rank = .meet hub seat payload resume)
    (found : w.seats[rank]? = some (.ready (s.programs rank)))
    (last : (w.hubs.at hub).arrived + 1 = hub.size) :
    ∃ (saying : Nat → Payload S) (goingOn : Nat → Round (Payload S) → Program S α),
      s.Gathered hub saying goingOn ∧
      (w.hubs.at hub).slots.set seat (some payload) = (hub.ranks.map saying).map some ∧
      ∀ member ∈ hub.ranks, member < n ∧
        (member ≠ rank →
          w.seats[member]? = some (.waiting hub (s.rounds hub) (goingOn member))) := by
  have free := h.free_of_ready seated below waits found
  have inside : seat < (w.hubs.at hub).slots.length := (List.getElem?_eq_some_iff.mp free).1
  have own := seated rank (Finset.mem_range.mpr below) hub seat payload resume waits
  let saying := fun member => sayingOf payload (s.programs member)
  let goingOn := fun member => goingOnOf resume (s.programs member)
  have others : ∀ place member, hub.ranks[place]? = some member → place ≠ seat →
      member < n ∧ w.seats[member]? = some (.waiting hub (s.rounds hub) (goingOn member)) ∧
        s.programs member = .meet hub place (saying member) (goingOn member) ∧
        ((w.hubs.at hub).slots.set seat (some payload))[place]? = some (some (saying member)) := by
    intro place member own' apart
    obtain ⟨content, resume', below', found', waits', slot⟩ :=
      h.waiting_of_last free last own' apart
    have said : saying member = content := by simp only [saying, waits', sayingOf]
    have went : goingOn member = resume' := by simp only [goingOn, waits', goingOnOf]
    rw [said, went]
    exact ⟨below', found', waits', slot⟩
  refine ⟨saying, goingOn, fun place member own' => ?_, List.ext_getElem? fun place => ?_,
    fun member belongs => ?_⟩
  · by_cases apart : place = seat
    · subst apart
      rw [own] at own'
      cases own'
      simp only [saying, goingOn, waits, sayingOf, goingOnOf]
    · exact (others place member own' apart).2.2.1
  · rw [List.getElem?_map, List.getElem?_map]
    by_cases apart : place = seat
    · subst apart
      rw [own, List.getElem?_set_self inside]
      simp only [Option.map_some, saying, waits, sayingOf]
    · cases own' : hub.ranks[place]? with
      | some member => exact (others place member own' apart).2.2.2
      | none =>
        rw [Option.map_none, Option.map_none, List.getElem?_eq_none_iff, List.length_set, h.size,
          ← Hub.length_ranks]
        exact List.getElem?_eq_none_iff.mp own'
  · obtain ⟨place, own'⟩ := List.mem_iff_getElem?.mp belongs
    by_cases apart : place = seat
    · subst apart
      rw [own] at own'
      cases own'
      exact ⟨below, fun differ => absurd rfl differ⟩
    · have other := others place member own' apart
      exact ⟨other.1, fun _ => other.2.1⟩

/-- The members of the hub are behind by its items once the last of them has arrived; all other
ranks are where they were. -/
theorem seat_of_last (h : Tracks n w s) (seated : s.Seated (Finset.range n)) {rank : Nat}
    (below : rank < n) {hub : Hub} {seat : Nat} {payload : Payload S}
    {resume : Round (Payload S) → Program S α}
    (waits : s.programs rank = .meet hub seat payload resume) (own : hub.ranks[seat]? = some rank)
    {saying : Nat → Payload S} {goingOn : Nat → Round (Payload S) → Program S α}
    (gathered : s.Gathered hub saying goingOn) (others : ∀ member ∈ hub.ranks, member ≠ rank →
      w.seats[member]? = some (.waiting hub (s.rounds hub) (goingOn member)))
      (slots : List (Option (Payload S))) :
    ∀ member < n, ∃ place,
      (w.seats.set rank (.waiting hub (w.hubs.at hub).generation resume))[member]? = some place ∧
      Follows (w.hubs.put hub ⟨(w.hubs.at hub).generation + 1, 0, slots, hub.ranks.map saying⟩)
        (s.meetAt hub saying goingOn) member place := by
  intro member memberBelow
  by_cases belongs : member ∈ hub.ranks
  · have seen : (w.seats.set rank (.waiting hub (w.hubs.at hub).generation resume))[member]? =
        some (.waiting hub (s.rounds hub) (goingOn member)) := by
      by_cases same : member = rank
      · subst same
        have goes := (Program.meet.inj (waits.symm.trans (gathered seat member own))).2.2.2
        rw [List.getElem?_set_self (h.length ▸ below), h.generation, goes]
      · exact (List.getElem?_set_ne (Ne.symm same)).trans (others member belongs same)
    refine ⟨_, seen, .late belongs ?_ ?_⟩
    · simp [Stage.meetAt, Rounds.next]
    · rw [Stage.meetAt_programs_of_mem belongs, Hubs.at_put_self]
  · have same : member ≠ rank := fun same => belongs (same ▸ List.mem_of_getElem? own)
    obtain ⟨place, found, follows⟩ := h.seat member memberBelow
    exact ⟨place, (List.getElem?_set_ne (Ne.symm same)).trans found,
      follows.of_meetAt belongs (seated member (Finset.mem_range.mpr memberBelow)) _ _ _⟩

/-- A slot that is filled after the round belongs to a rank that waits at another hub. -/
theorem filled_elsewhere (h : Tracks n w s) {rank : Nat} {hub : Hub}
    {resume : Round (Payload S) → Program S α}
    (found : w.seats[rank]? = some (.ready (s.programs rank))) {saying : Nat → Payload S}
    {goingOn : Nat → Round (Payload S) → Program S α} (gathered : s.Gathered hub saying goingOn)
    {generation size place : Nat} {items : List (Payload S)} {other : Hub} {content : Payload S}
    (slot : ((w.hubs.put hub ⟨generation, 0, List.replicate size none, items⟩).at
      other).slots[place]? = some (some content)) :
    ∃ member resume', member < n ∧ other.ranks[place]? = some member ∧
      (w.seats.set rank (.waiting hub (w.hubs.at hub).generation resume))[member]? =
        some (.waiting other ((s.meetAt hub saying goingOn).rounds other) resume') ∧
      (s.meetAt hub saying goingOn).programs member = .meet other place content resume' := by
  rw [Hubs.at_put] at slot
  by_cases here : hub = other
  · rw [if_pos here, List.getElem?_replicate] at slot
    split at slot <;> cases slot
  · rw [if_neg here] at slot
    obtain ⟨member, resume', below, own, found', waits⟩ := h.filled other place content slot
    have apart : member ∉ hub.ranks := by
      intro belongs
      obtain ⟨place', waits'⟩ := gathered.of_mem belongs
      exact here (Program.meet.inj (waits'.symm.trans waits)).1
    refine ⟨member, resume', below, own, ?_, (Stage.meetAt_programs_of_notMem apart).trans waits⟩
    rw [List.getElem?_set_ne (ne_of_waiting found found'), found', Stage.meetAt_rounds_of_ne s here]

/-- The last member to arrive moves the stage by a round. -/
theorem deposit_last (h : Tracks n w s) (seated : s.Seated (Finset.range n)) {rank : Nat}
    (below : rank < n) {hub : Hub} {seat : Nat} {payload : Payload S}
    {resume : Round (Payload S) → Program S α}
    (waits : s.programs rank = .meet hub seat payload resume)
    (found : w.seats[rank]? = some (.ready (s.programs rank)))
    (last : (w.hubs.at hub).arrived + 1 = hub.size) :
    ∃ t, Stage.Move (Finset.range n) s t ∧
      Tracks n ⟨w.seats.set rank (.waiting hub (w.hubs.at hub).generation resume),
        w.hubs.put hub ((w.hubs.at hub).deposit seat payload)⟩ t := by
  have own := seated rank (Finset.mem_range.mpr below) hub seat payload resume waits
  obtain ⟨saying, goingOn, gathered, contents, others⟩ :=
    h.gathered_of_last seated below waits found last
  have within : ∀ member ∈ hub.ranks, member ∈ Finset.range n := fun other belongs =>
    Finset.mem_range.mpr (others other belongs).1
  refine ⟨s.meetAt hub saying goingOn,
    .meet (List.ne_nil_of_mem (List.mem_of_getElem? own)) within gathered, ?_⟩
  rw [Rendezvous.deposit_of_last (h.size hub) last contents]
  exact {
    length := by simp [h.length]
    generation := Hubs.forall_put
      (fun other state => state.generation = (s.meetAt hub saying goingOn).rounds other)
      (by simp [Stage.meetAt, Rounds.next, h.generation]) fun other apart =>
        (h.generation other).trans (Stage.meetAt_rounds_of_ne s apart ..).symm
    size := Hubs.forall_put (fun other state => state.slots.length = other.size)
      List.length_replicate
      fun other _ => h.size other
    arrived := Hubs.forall_put (fun _ state => state.arrived = state.slots.countP Option.isSome)
      (by simp [List.countP_replicate]) fun other _ => h.arrived other
    under_way := Hubs.forall_put (fun other state => 0 < other.size → state.arrived < other.size) id
      fun other _ => h.under_way other
    seat := h.seat_of_last seated below waits own gathered
      (fun member belongs => (others member belongs).2) _
    filled := fun _ _ _ slot => h.filled_elsewhere found gathered slot }

/-- A report of a rank is a move of the stage. -/
theorem report (h : Tracks n w s) {rank : Nat} (below : rank < n) {event : Event}
    {next : Program S α} (reports : s.programs rank = .report event next)
    (found : w.seats[rank]? = some (.ready (s.programs rank))) :
    Tracks n ⟨w.seats.set rank (.ready next), w.hubs⟩
    ⟨s.rounds, Function.update s.programs rank next⟩ := by
  have length : rank < w.seats.length := h.length ▸ below
  refine ⟨by simp [h.length], h.generation, h.size, h.arrived, h.under_way,
    fun other otherBelow => ?_,
    fun hub place content slot => ?_⟩
  · by_cases same : other = rank
    · subst same
      exact ⟨.ready next, by simp [length], .ready_of (by simp)⟩
    · obtain ⟨seat, found', follows⟩ := h.seat other otherBelow
      exact ⟨seat, by rw [List.getElem?_set_ne (Ne.symm same)]; exact found',
        follows.congr (Function.update_of_ne same ..)⟩
  · obtain ⟨member, resume, memberBelow, own, found', waits⟩ := h.filled hub place content slot
    have differ : rank ≠ member := by
      rintro rfl
      rw [reports] at waits
      cases waits
    refine ⟨member, resume, memberBelow, own, by rw [List.getElem?_set_ne differ]; exact found', ?_⟩
    simpa only [Function.update_of_ne (Ne.symm differ)] using waits

/-- A rank that takes the items of a finished round catches up with the stage. -/
theorem catchUp (h : Tracks n w s) {rank : Nat} (below : rank < n) {hub : Hub} {number : Nat}
    {resume : Round (Payload S) → Program S α}
    (found : w.seats[rank]? = some (.waiting hub number resume))
    (resumed : s.programs rank = resume ⟨number, (w.hubs.at hub).published⟩)
    (past : (w.hubs.at hub).generation ≠ number) :
    Tracks n ⟨w.seats.set rank (.ready (s.programs rank)), w.hubs⟩ s := by
  have length : rank < w.seats.length := h.length ▸ below
  refine ⟨by simp [h.length], h.generation, h.size, h.arrived, h.under_way,
    fun other otherBelow => ?_,
    fun hub' place content slot => ?_⟩
  · by_cases same : other = rank
    · subst same
      exact ⟨.ready (s.programs other), by simp [length], .ready⟩
    · obtain ⟨seat, found', follows⟩ := h.seat other otherBelow
      exact ⟨seat, by rw [List.getElem?_set_ne (Ne.symm same)]; exact found', follows⟩
  · obtain ⟨member, resume', memberBelow, own, found', waits⟩ := h.filled hub' place content slot
    have differ : rank ≠ member := by
      rintro rfl
      rw [found] at found'
      cases found'
      exact past (h.generation hub)
    exact ⟨member, resume', memberBelow,
      own, by rw [List.getElem?_set_ne differ]; exact found', waits⟩

/-- Each step of a world leaves its stage alone or moves it. -/
theorem step {w' : World S α} (h : Tracks n w s) (seated : s.Seated (Finset.range n))
    (step : World.Step w w') :
    Tracks n w' s ∨ ∃ t, Stage.Move (Finset.range n) s t ∧ Tracks n w' t := by
  obtain ⟨seats', hubs'⟩ := w'
  obtain ⟨rank, seat, seat', found, moved, rfl⟩ := step
  have below : rank < n := h.length ▸ (List.getElem?_eq_some_iff.mp found).1
  obtain ⟨seat₀, found₀, follows⟩ := h.seat rank below
  rw [found] at found₀
  cases found₀
  cases follows with
  | ready =>
    cases program : s.programs rank with
    | finished value => simp [Seat.step?, program] at moved
    | report event next =>
      simp only [Seat.step?, program, Option.some.injEq, Prod.mk.injEq] at moved
      obtain ⟨rfl, rfl⟩ := moved
      exact .inr ⟨_, .report (Finset.mem_range.mpr below) program, h.report below program found⟩
    | meet hub place payload resume =>
      simp only [Seat.step?, program, Option.some.injEq, Prod.mk.injEq] at moved
      obtain ⟨rfl, rfl⟩ := moved
      by_cases last : (w.hubs.at hub).arrived + 1 = hub.size
      · exact .inr (h.deposit_last seated below program found last)
      · exact .inl (h.deposit_early seated below program found last)
  | early waits slot => simp [Seat.step?, Rendezvous.collect?, h.generation] at moved
  | @late hub number resume member past resumed =>
    have differ : (w.hubs.at hub).generation ≠ number := by rw [h.generation]; omega
    simp only [Seat.step?, Rendezvous.collect?, if_neg differ, Option.map_some, Option.some.injEq,
      Prod.mk.injEq] at moved
    obtain ⟨rfl, rfl⟩ := moved
    exact .inl (resumed ▸ h.catchUp below found resumed differ)

/-- A rank that can take no step: it has finished, or it waits at a meeting point with its payload
in its slot. -/
inductive Idle (w : World S α) (s : Stage S α) (rank : Nat) : Prop
  | finished {value : α} : s.programs rank = .finished value →
      w.seats[rank]? = some (.ready (.finished value)) →
      Idle w s rank
  | waiting {hub : Hub} {place : Nat} {payload : Payload S}
      {resume : Round (Payload S) → Program S α} :
      s.programs rank = .meet hub place payload resume → (w.hubs.at hub).slots[place]? =
      some (some payload) →
      w.seats[rank]? = some (.waiting hub (s.rounds hub) resume) → Idle w s rank

theorem idle_of_stop (h : Tracks n w s) (stop : ∀ w', ¬ World.Step w w') {rank : Nat}
    (below : rank < n) :
    Idle w s rank := by
  obtain ⟨seat, found, follows⟩ := h.seat rank below
  have stepped : seat.step? w.hubs = none := by
    cases stepped : seat.step? w.hubs with
    | none => rfl
    | some next =>
      exact absurd ⟨rank, seat, next.1, found, stepped, rfl⟩
        (stop ⟨w.seats.set rank next.1, next.2⟩)
  cases follows with
  | ready =>
    cases program : s.programs rank with
    | finished value => exact .finished program (program ▸ found)
    | report event next => simp [Seat.step?, program] at stepped
    | meet hub place payload resume => simp [Seat.step?, program] at stepped
  | early waits slot => exact .waiting waits slot found
  | @late hub number resume member past resumed =>
    have differ : (w.hubs.at hub).generation ≠ number := by rw [h.generation]; omega
    simp [Seat.step?, Rendezvous.collect?, differ] at stepped

theorem Idle.result {rank : Nat} (idle : Idle w s rank) :
    ∃ seat, w.seats[rank]? = some seat ∧ seat.result? = (Seat.ready (s.programs rank)).result? := by
  cases idle with
  | finished ends found => exact ⟨_, found, by rw [ends]⟩
  | waiting waits slot found => exact ⟨_, found, by rw [waits]; rfl⟩

/-- The members of a group do not all wait for each other: the round would be over. -/
theorem not_gathered (h : Tracks n w s) (idle : ∀ rank < n, Idle w s rank) {hub : Hub}
    (some_member : hub.ranks ≠ []) (within : ∀ member ∈ hub.ranks, member < n)
    {saying : Nat → Payload S} {goingOn : Nat → Round (Payload S) → Program S α} :
    ¬ s.Gathered hub saying goingOn := by
  intro gathered
  have all : ∀ slot ∈ (w.hubs.at hub).slots, slot.isSome = true := by
    intro slot content
    obtain ⟨place, found⟩ := List.mem_iff_getElem?.mp content
    have inside : place < hub.ranks.length := by
      rw [Hub.length_ranks, ← h.size hub]
      exact (List.getElem?_eq_some_iff.mp found).1
    have waits := gathered place _ (List.getElem?_eq_getElem inside)
    cases idle _ (within _ (List.getElem_mem inside)) with
    | finished ends => cases waits.symm.trans ends
    | waiting waits' slot' =>
      have same := Program.meet.inj (waits.symm.trans waits')
      rw [← same.1, ← same.2.1, found] at slot'
      rw [Option.some.inj slot']
      rfl
  have count : (w.hubs.at hub).arrived = hub.size := by
    rw [h.arrived, List.countP_eq_length.mpr all, h.size]
  have positive : 0 < hub.size := by
    rw [← Hub.length_ranks]
    exact List.length_pos_iff.mpr some_member
  exact absurd (h.under_way hub positive) (by omega)

/-- The stage of a world in which no rank can take a step. -/
theorem stuck (h : Tracks n w s) (stop : ∀ w', ¬ World.Step w w') :
    s.Stuck (Finset.range n) ∧ ∀ rank < n, ∃ seat, w.seats[rank]? = some seat ∧
      seat.result? = (Seat.ready (s.programs rank)).result? := by
  have idle : ∀ rank < n, Idle w s rank := fun rank below => h.idle_of_stop stop below
  refine ⟨fun t move => ?_, fun rank below => (idle rank below).result⟩
  cases move with
  | report taking reports =>
    cases idle _ (Finset.mem_range.mp taking) with
    | finished ends => cases reports.symm.trans ends
    | waiting waits => cases reports.symm.trans waits
  | meet some_member within gathered =>
    exact h.not_gathered idle some_member
      (fun member belongs => Finset.mem_range.mp (within member belongs)) gathered

/-- Along any steps of a world its stage stays on the way to the stage in which the ranks get
stuck. -/
theorem run {w' : World S α} (h : Tracks n w s) {t : Stage S α}
    (reach : Relation.ReflTransGen (Stage.Move (Finset.range n)) s t)
    (stuck : t.Stuck (Finset.range n)) (seated : t.Seated (Finset.range n))
    (steps : Relation.ReflTransGen World.Step w w') :
    ∃ s', Tracks n w' s' ∧ Relation.ReflTransGen (Stage.Move (Finset.range n)) s' t := by
  induction steps with
  | refl => exact ⟨s, h, reach⟩
  | tail _ step ih =>
    obtain ⟨s', tracks, rest⟩ := ih
    rcases tracks.step (seated.of_run rest) step with same | ⟨u, move, moved⟩
    · exact ⟨s', same, rest⟩
    · exact ⟨u, moved, move.stuck_of_step rest stuck⟩

end Tracks

def Stage.results (s : Stage S α) (n : Nat) : List (Option α) :=
  (List.range n).map fun rank => (Seat.ready (s.programs rank)).result?

/-- In whatever order the ranks of a world take their steps, they end where the moves of its stage
end. -/
theorem World.results_of_stuck {n : Nat} {hubs : Hubs S} {rounds : Rounds}
    (resting : hubs.Resting rounds) {programs : Nat → Program S α} {t : Stage S α}
    (reach : Relation.ReflTransGen (Stage.Move (Finset.range n)) ⟨rounds, programs⟩ t)
    (stuck : t.Stuck (Finset.range n)) (seated : t.Seated (Finset.range n)) {w : World S α}
    (steps : Relation.ReflTransGen World.Step ⟨((List.range n).map programs).map .ready, hubs⟩ w)
    (stop : ∀ w', ¬ World.Step w w') : w.results = t.results n := by
  obtain ⟨s, tracks, rest⟩ := (Tracks.start resting programs).run reach stuck seated steps
  have ended := tracks.stuck stop
  have same : s = t := Stage.eq_of_stuck .refl ended.1 rest stuck
  refine List.ext_getElem? fun rank => ?_
  rw [World.results, Stage.results, List.getElem?_map, List.getElem?_map]
  by_cases below : rank < n
  · obtain ⟨seat, found, result⟩ := ended.2 rank below
    rw [found, List.getElem?_range below, Option.map_some, Option.map_some, result, same]
  · have past : w.seats.length ≤ rank := by rw [tracks.length]; omega
    rw [List.getElem?_eq_none_iff.mpr past, List.getElem?_eq_none_iff.mpr
      (by simpa using Nat.le_of_not_lt below)]
    rfl

namespace World

/-- Whatever the order of their steps, the ranks of the world stop, and they stop with these
results. -/
def EndsWith (w : World S α) (results : List (Option α)) : Prop :=
  Acc (fun later earlier => Step earlier later) w ∧
    ∀ w', Relation.ReflTransGen Step w w' → (∀ w'', ¬ Step w' w'') → w'.results = results

theorem shift_set {seats : List (Seat S α)} {rank : Nat} {seat seat' : Seat S α}
    (found : seats[rank]? = some seat) (moved : seat'.After seat) :
    Shift (seats.set rank seat') seats := by
  induction seats generalizing rank with
  | nil => cases found
  | cons first rest ih =>
    cases rank with
    | zero =>
      cases found
      exact .here moved rfl
    | succ rank => exact .there (ih found)

/-- No world can take steps forever. -/
theorem acc_step (w : World S α) : Acc (fun later earlier => Step earlier later) w := by
  obtain ⟨start, hubs⟩ := w
  have seats := acc_shift start.length start rfl
  induction seats generalizing hubs with
  | intro start _ ih =>
    refine ⟨_, fun later step => ?_⟩
    obtain ⟨seats', hubs'⟩ := later
    obtain ⟨rank, seat, seat', found, moved, rfl⟩ := step
    exact ih _ (shift_set found ⟨hubs, hubs', moved⟩) hubs'

theorem steps_sweep (front seats : List (Seat S α)) (hubs : Hubs S) :
    Relation.ReflTransGen Step ⟨front ++ seats, hubs⟩
      ⟨front ++ (sweep seats hubs).2.1, (sweep seats hubs).2.2⟩ := by
  induction seats generalizing front hubs with
  | nil => exact .refl
  | cons seat rest ih =>
    rw [sweep]
    split
    · next seat' hubs' moved =>
      have step : Step ⟨front ++ seat :: rest, hubs⟩ ⟨front ++ seat' :: rest, hubs'⟩ :=
        ⟨front.length, seat, seat', by simp, moved, by simp⟩
      have later := ih (front ++ [seat']) hubs'
      rw [List.append_assoc, List.append_assoc] at later
      exact .head step later
    · have later := ih (front ++ [seat]) hubs
      rw [List.append_assoc, List.append_assoc] at later
      exact later

theorem stop_of_sweep (seats : List (Seat S α)) (hubs : Hubs S)
    (stop : (sweep seats hubs).1 = false) :
    (sweep seats hubs).2 = (seats, hubs) ∧ ∀ seat ∈ seats, seat.step? hubs = none := by
  induction seats with
  | nil => exact ⟨rfl, fun _ found => nomatch found⟩
  | cons seat rest ih =>
    rw [sweep] at stop ⊢
    split at stop
    · cases stop
    · next stuck =>
      obtain ⟨same, still⟩ := ih stop
      simp only [stuck, same, List.mem_cons, forall_eq_or_imp, true_and]
      exact still

theorem settle_spec (seats : List (Seat S α)) (hubs : Hubs S) :
    Relation.ReflTransGen Step ⟨seats, hubs⟩ (settle seats hubs) ∧
    ∀ w', ¬ Step (settle seats hubs) w' := by
  fun_induction settle seats hubs with
  | case1 seats hubs swept moved ih => exact ⟨(steps_sweep [] seats hubs).trans ih.1, ih.2⟩
  | case2 seats hubs swept still =>
    obtain ⟨same, stuck⟩ := stop_of_sweep seats hubs (by simpa using still)
    simp only [swept, same]
    refine ⟨.refl, fun w' step => ?_⟩
    obtain ⟨rank, seat, seat', found, moved, _⟩ := step
    rw [stuck seat (List.mem_of_getElem? found)] at moved
    cases moved

/-- The sweeps are one order of steps. -/
theorem EndsWith.run {w : World S α} {results : List (Option α)} (h : w.EndsWith results) :
    w.run.results = results :=
  h.2 _ (settle_spec w.seats w.hubs).1 (settle_spec w.seats w.hubs).2

/-- The world in which `n` ranks are about to run their programs, at meeting points where nobody
waits. -/
def ofPrograms (n : Nat) (programs : Nat → Program S α) (hubs : Hubs S) : World S α :=
  ⟨((List.range n).map programs).map .ready, hubs⟩

/-- In whatever order the ranks of a world take their steps, they end where the moves of its stage
end. -/
theorem endsWith_of_stuck {n : Nat} {hubs : Hubs S} {rounds : Rounds}
    (resting : hubs.Resting rounds) {programs : Nat → Program S α} {t : Stage S α}
    (reach : Relation.ReflTransGen (Stage.Move (Finset.range n)) ⟨rounds, programs⟩ t)
    (stuck : t.Stuck (Finset.range n)) (seated : t.Seated (Finset.range n)) :
    (ofPrograms n programs hubs).EndsWith (t.results n) :=
  ⟨acc_step _, fun _ steps stop => results_of_stuck resting reach stuck seated steps stop⟩

end World
end DeviceTeams
