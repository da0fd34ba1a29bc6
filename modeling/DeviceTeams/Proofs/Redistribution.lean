import DeviceTeams.Proofs.Failures
import DeviceTeams.Proofs.TeamVectors

/-!
# Vectors there and back

Gathering the vector of a team and scattering it gives every member its own segment back, and
scattering a vector of the team and gathering it gives the lead that vector back, whatever the
lengths of the segments. Where the one or the other is refused for a length, nothing has been sent
and the buffer of the caller holds what it held.
-/
namespace DeviceTeams

variable {S α σ : Type} {A : Finset Nat} {node : Nat → Nat} {G : Nat → Group} {count : Nat → Nat}

/-! ## Refusals for a length -/

/-- A task is refused for a dimension at once and with nothing sent, or never, whatever the others
bring. -/
def Task.RefusesFirst (task : Task S α) : Prop :=
  (∃ cause : DimensionError, task.run = .finished (.error (cause : Failure))) ∨
    task.Within fun cause => ∀ fault, cause ≠ .dimension fault

/-- What is checked before anything else is refused at once. -/
theorem Task.RefusesFirst.ofAttempt_bind {β : Type} {x : Attempt β} {f : β → Task S α}
    (next : ∀ value, x = .ok value → (f value).RefusesFirst) :
    (Task.ofAttempt x >>= f).RefusesFirst := by
  rcases x with (cause | _) | value
  · cases cause with
    | dimension fault => exact .inl ⟨fault, rfl⟩
    | config fault => exact .inr fun _ same => nomatch same
    | topology fault => exact .inr fun _ same => nomatch same
    | matrix fault => exact .inr fun _ same => nomatch same
    | engine fault => exact .inr fun _ same => nomatch same
  · exact .inr trivial
  · exact next value rfl

/-- Work is refused for a dimension at once and with nothing sent, or never, whatever the others
bring. Where it is refused it leaves the state as it was. -/
structure Work.RefusesFirst (work : Work S σ α) (state : σ) : Prop where
  first : (∃ cause : DimensionError, work.start state =
    .finished (.error (cause : Failure), state)) ∨
    (work.start state).Always fun ended =>
      ∀ cause : DimensionError, ended.1 ≠ .error (cause : Failure)
  unchanged : (work.start state).Always fun ended =>
    (∃ cause : DimensionError, ended.1 = .error (cause : Failure)) → ended.2 = state

namespace Work.RefusesFirst

variable {state : σ}

theorem of_first {work : Work S σ α} (first :
    (∃ cause : DimensionError, work.start state = .finished (.error (cause : Failure), state)) ∨
      (work.start state).Always fun ended =>
        ∀ cause : DimensionError, ended.1 ≠ .error (cause : Failure)) :
    work.RefusesFirst state := by
  refine ⟨first, ?_⟩
  rcases first with ⟨cause, refused⟩ | never
  · rw [refused]
    exact fun _ => rfl
  · refine never.mono fun ended differs refused => ?_
    obtain ⟨cause, same⟩ := refused
    exact absurd same (differs cause)

/-- Work is refused as the task is with which it begins, if nothing behind that can fail. -/
theorem ofTask_bind {β : Type} {task : Task S β} {f : β → Work S σ α} (h : task.RefusesFirst)
    (ends : ∀ value, ∃ value' state', (f value).start state = .finished (.ok value', state')) :
    (Work.ofTask task >>= f).RefusesFirst state := by
  apply of_first
  rw [Work.start_ofTask_bind]
  rcases h with ⟨cause, refused⟩ | never
  · left
    rw [refused]
    exact ⟨cause, rfl⟩
  · right
    refine Program.Always.bind never fun outcome within => ?_
    cases outcome with
    | error failure =>
      intro cause same
      cases same
      exact within cause rfl
    | ok value =>
      obtain ⟨value', state', found⟩ := ends value
      rw [Work.following_ok, found]
      exact fun _ same => nomatch same

end Work.RefusesFirst

namespace VectorLayout

variable (l : VectorLayout) (team : Group)

theorem gather_refusesFirst (values : List S) : (l.gather team values).RefusesFirst := by
  apply Task.RefusesFirst.ofAttempt_bind
  intro _ _
  exact .inr (team.gather_within .real values l.segments)

theorem scatter_refusesFirst (values : Option (List S)) (length : Nat) :
    (l.scatter team values length).RefusesFirst := by
  apply Task.RefusesFirst.ofAttempt_bind
  intro _ _
  split
  · apply Task.RefusesFirst.ofAttempt_bind
    intro _ _
    exact .inr (team.scatter_within .real values l.segments length)
  · exact .inr (team.scatter_within .real values l.segments length)

theorem ofTask_gather_refusesFirst (values buffer : List S) :
    (Work.ofTask (l.gather team values) : Work S (List S) (Option (List S))).RefusesFirst
    buffer := by
  rw [← bind_pure (Work.ofTask _)]
  exact .ofTask_bind (l.gather_refusesFirst team values) fun value => ⟨value, buffer, rfl⟩

theorem scatterInto_refusesFirst (values : Option (List S)) (buffer : List S) :
    (l.scatterInto team values).RefusesFirst buffer := by
  have begins : (l.scatterInto team values).start buffer =
      (Work.ofTask (l.scatter team values buffer.length) >>=
        fun own => set own : Work S (List S) Unit).start buffer := by
    rw [scatterInto, Work.start_get_bind]
  have refuses : (Work.ofTask (l.scatter team values buffer.length) >>= fun own => set own :
      Work S (List S) Unit).RefusesFirst buffer :=
    .ofTask_bind (l.scatter_refusesFirst team values buffer.length) fun own => ⟨(), own, rfl⟩
  constructor
  · rw [begins]
    exact refuses.first
  · rw [begins]
    exact refuses.unchanged

end VectorLayout

/-! ## Segments -/

namespace Together

variable (t : Together node A G)
include t

/-- Every member's layout is that of the lengths which the members name. -/
theorem exchangeLengths (count : Nat → Nat)
    (word : ∀ rank ∈ A, ((G rank).hub.ranks.map count).sum < Word.limit) :
    Succeeds A (fun rank =>
      (VectorLayout.exchangeLengths (G rank) (count rank) : Task S VectorLayout)) fun w =>
      ∀ rank ∈ A, w rank = segmentsOf (G rank) count := by
  refine (t.allGather .word64 count).bind_eq ?_
  refine .ofAttempt (w := fun rank => segmentsOf (G rank) count)
    (fun rank inside => ?_) fun _ _ => rfl
  rw [SegmentTable.ofCounts_eq (word rank inside)]
  rfl

/-- A member's own segment of the segments of all members. -/
theorem segmentIn_flatten {x : Nat → List S}
    (lengths : ∀ rank ∈ A, (x rank).length = count rank) {rank : Nat} (inside : rank ∈ A) :
    segmentIn (G rank) count rank ((G rank).hub.ranks.map x).flatten = x rank := by
  have found : ((G rank).hub.ranks.map x)[(G rank).rank]? = some (x rank) := by
    rw [List.getElem?_map, t.own rank inside, Option.map_some]
  have start : segmentStart (G rank) count =
      (((G rank).hub.ranks.map x).take (G rank).rank).flatten.length := by
    rw [segmentStart, List.length_flatten, List.map_take, List.map_map]
    refine congrArg (fun counts => (List.take _ counts).sum)
      (List.map_congr_left fun member belongs => ?_)
    exact (lengths member (t.of_mem inside belongs).1).symm
  rw [segmentIn, start, flatten_of_found found, List.drop_left,
    ← lengths rank inside, List.take_left]

/-- The segments of all members make up the vector. -/
theorem flatten_segmentIn {whole : List S} {rank : Nat} (inside : rank ∈ A)
    (length : whole.length = ((G rank).hub.ranks.map count).sum) :
    ((G rank).hub.ranks.map fun member => segmentIn (G member) count member whole).flatten =
    whole := by
  let span : Nat → Span := fun member =>
    ⟨segmentStart (G member) count, segmentStart (G member) count + count member⟩
  have lengths : ∀ members : List Nat, (members.map fun member => (span member).length) =
      members.map count := by
    intro members
    refine List.map_congr_left fun member _ => Nat.add_sub_cancel_left ..
  have cut : ∀ member, segmentIn (G member) count member whole = (span member).cut whole := by
    intro member
    rw [segmentIn, Span.cut, Nat.add_sub_cancel_left]
  have together : ((G rank).hub.ranks.map fun member => (span member).cut whole).flatten =
    (whole.drop 0).take _ :=
    flatten_map_cut fun place member found => by
      obtain ⟨_, meets, sits⟩ := t.seat rank inside place member found
      rw [lengths, Nat.zero_add]
      show segmentStart (G member) count = _
      rw [segmentStart, meets, sits, List.map_take]
  simp only [cut]
  rw [together, lengths, ← length, List.drop_zero, List.take_length]

end Together

/-! ## There and back -/

namespace VectorLayout

/-- Agrees on a layout, gathers the vector of the team and scatters it back into the buffers. -/
def gatherScatter (team : Group) (values : List S) :
    Work S (List S) (VectorLayout × Option (List S)) := do
  let layout ← Work.ofTask (exchangeLengths team values.length)
  let gathered ← Work.ofTask (layout.gather team values)
  layout.scatterInto team gathered
  pure (layout, gathered)

def scatterGather (team : Group) (length : Nat) (teamVector : Option (List S)) :
    Work S (List S) (VectorLayout × Option (List S)) := do
  let layout ← Work.ofTask (exchangeLengths team length)
  layout.scatterInto team teamVector
  let gathered ← Work.ofTask (layout.gather team (← get))
  pure (layout, gathered)

section

variable (t : Together node A G)
include t

/-- What comes behind the scattering begins with the segments in the buffers. -/
theorem scatterInto_completes {β : Type} (whole : Nat → List S) {values : Nat → Option (List S)}
    {buffer : Nat → List S} {f : Nat → Work S (List S) β} {post : (Nat → Attempt β × List S) → Prop}
    (fits : ∀ rank ∈ A, (buffer rank).length = count rank)
    (brings : ∀ rank ∈ A, ∀ root, (G rank).hub.ranks[0]? = some root →
      values root = some (whole rank))
    (lengths : ∀ rank ∈ A, (whole rank).length = ((G rank).hub.ranks.map count).sum)
    (next : Completes A
      (fun rank => (f rank).start (segmentIn (G rank) count rank (whole rank))) post) :
    Completes A (fun rank =>
      ((segmentsOf (G rank) count).scatterInto (G rank) (values rank) >>= fun _ => f rank).start
      (buffer rank)) post := by
  refine ((t.scatter_vector brings lengths).followedBy_eq
    (f := fun rank own => set own >>= fun _ => f rank) (s := buffer) ?_).congr fun rank inside => ?_
  · exact next.congr fun rank _ => Work.start_set_bind ..
  · rw [scatterInto, bind_assoc, Work.start_get_bind, bind_assoc, fits rank inside]

/-- The members of a team get their own segments back. -/
theorem gatherScatter_completes {x buffer : Nat → List S}
    (lengths : ∀ rank ∈ A, (x rank).length = count rank)
    (fits : ∀ rank ∈ A, (buffer rank).length = count rank)
    (room : ∀ rank ∈ A, ((G rank).hub.ranks.map count).sum * 8 < 2 ^ 63) :
    Completes A (fun rank => (gatherScatter (G rank) (x rank)).start (buffer rank)) fun v =>
      ∀ rank ∈ A, v rank =
      (.ok (segmentsOf (G rank) count, if (G rank).rank = 0
        then some ((G rank).hub.ranks.map x).flatten else none),
        x rank) := by
  have word : ∀ rank ∈ A, ((G rank).hub.ranks.map count).sum < Word.limit := fun rank inside =>
    Word.lt_limit_of_bytes (room rank inside)
  have agreed : Succeeds A
      (fun rank => (exchangeLengths (G rank) (x rank).length : Task S VectorLayout)) fun w =>
      ∀ rank ∈ A, w rank = segmentsOf (G rank) count :=
    (t.exchangeLengths count word).congr fun rank inside => by rw [lengths rank inside]
  refine agreed.followedBy_eq ((t.gather_vector lengths room).followedBy_eq ?_)
  refine scatterInto_completes t (fun rank => ((G rank).hub.ranks.map x).flatten) fits ?_ ?_ ?_
  · intro rank inside root found
    obtain ⟨_, meets, sits⟩ := t.seat rank inside 0 root found
    rw [if_pos sits, meets]
  · intro rank inside
    rw [List.length_flatten, List.map_map]
    refine congrArg List.sum (List.map_congr_left fun member belongs => ?_)
    exact lengths member (t.of_mem inside belongs).1
  · refine .of_finished (fun rank _ => Work.start_pure ..) fun rank inside => ?_
    rw [t.segmentIn_flatten lengths inside]

/-- The lead of a team gets the vector of the team back. -/
theorem scatterGather_completes {values : Nat → Option (List S)} {whole : Hub → List S}
    {buffer : Nat → List S}
    (brings : ∀ rank ∈ A, (G rank).rank = 0 → values rank = some (whole (G rank).hub))
    (lengths : ∀ rank ∈ A, (whole (G rank).hub).length = ((G rank).hub.ranks.map count).sum)
    (fits : ∀ rank ∈ A, (buffer rank).length = count rank)
    (room : ∀ rank ∈ A, ((G rank).hub.ranks.map count).sum * 8 < 2 ^ 63) :
    Completes A (fun rank => (scatterGather (G rank) (count rank) (values rank)).start
      (buffer rank)) fun v =>
      ∀ rank ∈ A, v rank =
        (.ok (segmentsOf (G rank) count, if (G rank).rank = 0
          then some (whole (G rank).hub) else none),
          segmentIn (G rank) count rank (whole (G rank).hub)) := by
  have word : ∀ rank ∈ A, ((G rank).hub.ranks.map count).sum < Word.limit := fun rank inside =>
    Word.lt_limit_of_bytes (room rank inside)
  refine (t.exchangeLengths count word).followedBy_eq ?_
  refine scatterInto_completes t (fun rank => whole (G rank).hub) fits ?_ lengths ?_
  · intro rank inside root found
    obtain ⟨within, meets, sits⟩ := t.seat rank inside 0 root found
    rw [brings root within sits, meets]
  have segments : ∀ rank ∈ A, (segmentIn (G rank) count rank (whole (G rank).hub)).length =
      count rank := fun rank inside => t.length_segmentIn inside (lengths rank inside)
  refine ((t.gather_vector segments room).followedBy_eq ?_).congr fun rank _ =>
    Work.start_get_bind ..
  refine .of_finished (fun rank _ => Work.start_pure ..) fun rank inside => ?_
  have shared : ((G rank).hub.ranks.map fun member =>
      segmentIn (G member) count member (whole (G member).hub)) =
      (G rank).hub.ranks.map fun member => segmentIn (G member) count member (whole (G rank).hub) :=
    List.map_congr_left fun member belongs => by rw [(t.of_mem inside belongs).2]
  rw [shared, t.flatten_segmentIn inside (lengths rank inside)]

end

variable {n : Nat}

/-- Ranks of a world that agree on layouts in their teams, in whatever order they take their steps:
what they gather and scatter are the segments that they brought, what they scatter and gather is the
vector of the lead, and a refusal for a length leaves their buffers as they were. -/
theorem redistributes (t : Together node (Finset.range n) G) (count : Nat → Nat)
    (room : ∀ rank < n, Word.request ((G rank).hub.ranks.map count).sum 8 = .ok ())
    {buffer : Nat → List S} (fits : ∀ rank < n, (buffer rank).length = count rank) {hubs : Hubs S}
    {rounds : Rounds} (resting : hubs.Resting rounds) :
    (∀ x : Nat → List S, (∀ rank < n, (x rank).length = count rank) →
      (World.ofPrograms n
        (fun rank => (gatherScatter (G rank) (x rank)).start (buffer rank)) hubs).EndsWith
        ((List.range n).map fun rank => some (.ok (segmentsOf (G rank) count,
          if (G rank).rank = 0 then some ((G rank).hub.ranks.map x).flatten else none), x rank))) ∧
    (∀ (whole : Hub → List S) (values : Nat → Option (List S)),
      (∀ rank < n, (whole (G rank).hub).length = (segmentsOf (G rank) count).teamLength) →
      (∀ rank < n, (G rank).rank = 0 → values rank = some (whole (G rank).hub)) →
      (World.ofPrograms n
        (fun rank => (scatterGather (G rank) (count rank) (values rank)).start (buffer rank))
        hubs).EndsWith ((List.range n).map fun rank => some (.ok (segmentsOf (G rank) count,
          if (G rank).rank = 0 then some (whole (G rank).hub) else none),
          segmentIn (G rank) count rank (whole (G rank).hub)))) ∧
    ∀ (layout : VectorLayout) (team : Group) (held : List S),
      (∀ values, (Work.ofTask (layout.gather team values) : Work S (List S)
        (Option (List S))).RefusesFirst held) ∧
      ∀ values, (layout.scatterInto team values).RefusesFirst held := by
  have bytes : ∀ rank ∈ Finset.range n, ((G rank).hub.ranks.map count).sum * 8 < 2 ^ 63 :=
    fun rank inside => Word.request_eq_ok_iff.mp (room rank (Finset.mem_range.mp inside))
  have fits' : ∀ rank ∈ Finset.range n, (buffer rank).length = count rank := fun rank inside =>
    fits rank (Finset.mem_range.mp inside)
  refine ⟨fun x lengths => ?_, fun whole values lengths brings => ?_, fun layout team held =>
    ⟨fun values => ?_, fun values => ?_⟩⟩
  · refine (gatherScatter_completes t (fun rank inside => ?_) fits' bytes).endsWith_of_eq resting
    exact lengths rank (Finset.mem_range.mp inside)
  · refine (scatterGather_completes t (fun rank inside => ?_) (fun rank inside => ?_) fits'
      bytes).endsWith_of_eq resting
    · exact brings rank (Finset.mem_range.mp inside)
    · rw [lengths rank (Finset.mem_range.mp inside)]
      exact SegmentTable.total_eq _
  · exact layout.ofTask_gather_refusesFirst team values held
  · exact layout.scatterInto_refusesFirst team values held

def unevenSegments (rank : Nat) : List Float := [[1.5, 2.5], [], [3.5]].getD rank []

theorem redistributes_uneven :
    (∀ rank < 3, Word.request (((Group.world [0, 0, 0] rank).hub.ranks.map fun member =>
      (unevenSegments member).length).sum) 8 = .ok ()) ∧
    (World.ofPrograms 3
      (fun rank => (gatherScatter (Group.world [0, 0, 0] rank) (unevenSegments rank)).start
      ((unevenSegments rank).map fun _ => 0.0)) []).EndsWith [
        some (.ok (⟨⟨[2, 0, 1], [0, 2, 2, 3]⟩, 0⟩, some [1.5, 2.5, 3.5]), [1.5, 2.5]),
        some (.ok (⟨⟨[2, 0, 1], [0, 2, 2, 3]⟩, 1⟩, none), []),
        some (.ok (⟨⟨[2, 0, 1], [0, 2, 2, 3]⟩, 2⟩, none), [3.5])] ∧
    (World.ofPrograms 3
      (fun rank => (scatterGather (Group.world [0, 0, 0] rank) (unevenSegments rank).length
      (if rank = 0 then some [4.5, 5.5, 6.5] else none)).start
      ((unevenSegments rank).map fun _ => 0.0)) []).EndsWith [
        some (.ok (⟨⟨[2, 0, 1], [0, 2, 2, 3]⟩, 0⟩, some [4.5, 5.5, 6.5]), [4.5, 5.5]),
        some (.ok (⟨⟨[2, 0, 1], [0, 2, 2, 3]⟩, 1⟩, none), []),
        some (.ok (⟨⟨[2, 0, 1], [0, 2, 2, 3]⟩, 2⟩, none), [6.5])] := by
  have room : ∀ rank < 3, Word.request (((Group.world [0, 0, 0] rank).hub.ranks.map fun member =>
      (unevenSegments member).length).sum) 8 = .ok () := fun _ _ => rfl
  have fits : ∀ rank < 3, ((unevenSegments rank).map fun _ => (0.0 : Float)).length =
    (unevenSegments rank).length :=
    fun _ _ => List.length_map ..
  obtain ⟨back, forth, _⟩ :=
    redistributes (Together.world [0, 0, 0]) (fun rank => (unevenSegments rank).length) room
    fits Hubs.resting_nil
  refine ⟨room, back unevenSegments fun _ _ => rfl, ?_⟩
  exact forth (fun _ => [4.5, 5.5, 6.5]) _ (fun _ _ => rfl) fun _ _ lead => if_pos lead

end VectorLayout
end DeviceTeams
