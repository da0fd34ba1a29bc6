import DeviceTeams.Proofs.Uploads
import DeviceTeams.Teams.VectorLayout

/-!
# Vectors of a team

The lead of a team receives the segments of its members one after the other, and every member
receives its own segment of what the lead scatters.
-/
namespace DeviceTeams

variable {S : Type} {A : Finset Nat} {node : Nat → Nat} {T : Nat → Group} {count : Nat → Nat}

/-- How the vector of a team is cut if its members have segments of these lengths. -/
def segmentsOf (team : Group) (count : Nat → Nat) : VectorLayout :=
  ⟨⟨team.hub.ranks.map count, runningTotals 0 (team.hub.ranks.map count)⟩, team.rank⟩

def segmentStart (team : Group) (count : Nat → Nat) : Nat :=
  ((team.hub.ranks.map count).take team.rank).sum

def segmentIn (team : Group) (count : Nat → Nat) (rank : Nat) (whole : List S) : List S :=
  (whole.drop (segmentStart team count)).take (count rank)

theorem checkTeam_eq {team : Group} {whole : List S}
    (length : whole.length = (team.hub.ranks.map count).sum) :
    (segmentsOf team count).checkTeam (some whole) = .ok () :=
  if_pos (length.trans (SegmentTable.total_eq _).symm)

namespace Together

variable (t : Together node A T)
include t

theorem localLength_eq (count : Nat → Nat) {rank : Nat} (inside : rank ∈ A) :
    (segmentsOf (T rank) count).localLength = .ok (count rank) := by
  have own : (segmentsOf (T rank) count).segments.counts[(segmentsOf (T rank) count).rank]? =
      some (count rank) := by
    show ((T rank).hub.ranks.map count)[(T rank).rank]? = _
    rw [List.getElem?_map, t.own rank inside, Option.map_some]
  rw [VectorLayout.localLength, own]
  rfl

theorem checkLocal_eq (count : Nat → Nat) {rank : Nat} (inside : rank ∈ A) :
    (segmentsOf (T rank) count).checkLocal (count rank) = .ok () := by
  rw [VectorLayout.checkLocal, t.localLength_eq count inside, Attempt.ok_bind, if_pos rfl]
  rfl

/-- The segments of a team's members lie inside of its vector. -/
theorem segmentStart_add_le (count : Nat → Nat) {rank : Nat} (inside : rank ∈ A) :
    segmentStart (T rank) count + count rank ≤ ((T rank).hub.ranks.map count).sum := by
  have found : ((T rank).hub.ranks.map count)[(T rank).rank]? = some (count rank) := by
    rw [List.getElem?_map, t.own rank inside, Option.map_some]
  rw [segmentStart, ← sum_take_succ found]
  exact (List.take_sublist _ _).sum_le_sum fun _ _ => Nat.zero_le _

/-- The leads receive the vectors of their teams. -/
theorem gather_vector {x : Nat → List S} (lengths : ∀ rank ∈ A, (x rank).length = count rank)
    (room : ∀ rank ∈ A, ((T rank).hub.ranks.map count).sum * 8 < 2 ^ 63) :
    Succeeds A (fun rank => (segmentsOf (T rank) count).gather (T rank) (x rank)) fun w =>
      ∀ rank ∈ A, w rank = if (T rank).rank = 0
        then some ((T rank).hub.ranks.map x).flatten else none := by
  refine .ofAttempt_bind (w := fun _ => ()) (fun rank inside => ?_) ?_
  · rw [lengths rank inside]
    exact t.checkLocal_eq count inside
  have announced : ∀ rank ∈ A, (segmentsOf (T rank) count).segments.counts =
      (T rank).hub.ranks.map fun member => (x member).length := fun rank inside =>
    List.map_congr_left fun member belongs => (lengths member (t.of_mem inside belongs).1).symm
  refine t.gather .real x announced fun rank inside => ?_
  show (SegmentTable.mk _ _).total * 8 < _
  rw [SegmentTable.total_eq]
  exact room rank inside

theorem length_segmentIn {rank : Nat} (inside : rank ∈ A) {whole : List S}
    (length : whole.length = ((T rank).hub.ranks.map count).sum) :
    (segmentIn (T rank) count rank whole).length = count rank := by
  have bound := t.segmentStart_add_le count inside
  rw [segmentIn, List.length_take, List.length_drop]
  omega

/-- The table leads a member to its own segment of the vector. -/
theorem slice_segment {rank : Nat} (inside : rank ∈ A) {whole : List S}
    (length : whole.length = ((T rank).hub.ranks.map count).sum) :
    ((segmentsOf (T rank) count).segments.segment (T rank).rank >>= fun span =>
      span.slice whole.toArray) = .ok (segmentIn (T rank) count rank whole) := by
  have place : (segmentsOf (T rank) count).segments.segment (T rank).rank =
      .ok ⟨segmentStart (T rank) count, segmentStart (T rank) count + count rank⟩ := by
    refine partOf_runningTotals ?_
    rw [List.getElem?_map, t.own rank inside, Option.map_some]
  have bound := t.segmentStart_add_le count inside
  rw [← length] at bound
  rw [place, Attempt.ok_bind, slice_eq (Nat.le_add_right ..) bound, Span.cut,
    Nat.add_sub_cancel_left]
  rfl

/-- Every member receives its segment of what the lead of its team scatters. -/
theorem scatter_vector {values : Nat → Option (List S)} {whole : Nat → List S}
    (brings : ∀ rank ∈ A, ∀ root, (T rank).hub.ranks[0]? = some root →
      values root = some (whole rank))
    (lengths : ∀ rank ∈ A, (whole rank).length = ((T rank).hub.ranks.map count).sum) :
    Succeeds A (fun rank => (segmentsOf (T rank) count).scatter (T rank) (values rank) (count rank))
    fun w =>
      ∀ rank ∈ A, w rank = segmentIn (T rank) count rank (whole rank) := by
  refine .ofAttempt_bind (w := fun _ => ()) (fun rank inside => t.checkLocal_eq count inside) ?_
  have checked : ∀ rank ∈ A, (do
      if (T rank).isRoot then Task.ofAttempt ((segmentsOf (T rank) count).checkTeam (values rank))
      (T rank).scatter .real (values rank) (segmentsOf (T rank) count).segments (count rank) :
        Task S (List S)) =
      (T rank).scatter .real (values rank) (segmentsOf (T rank) count).segments (count rank) := by
    intro rank inside
    split
    · next root =>
      have first : (T rank).rank = 0 := by simpa [Group.isRoot] using root
      rw [brings rank inside rank (first ▸ t.own rank inside), checkTeam_eq (lengths rank inside)]
      rfl
    · rfl
  refine Succeeds.congr ?_ checked
  refine (t.exchange fun rank =>
    .offer .real (if (T rank).rank = 0 then values rank else none)).bind
    fun round ⟨number, brought⟩ => ?_
  refine .ofAttempt (w := fun rank => segmentIn (T rank) count rank (whole rank))
    (fun rank inside => ?_) fun _ _ => rfl
  obtain ⟨root, found⟩ : ∃ root, (T rank).hub.ranks[0]? = some root :=
    ⟨_, List.getElem?_eq_getElem (Nat.lt_of_le_of_lt (Nat.zero_le _) (t.rank_lt inside))⟩
  have items : (round rank).items[0]? = some (.offer .real (some (whole rank))) := by
    rw [brought rank inside, List.getElem?_map, found, Option.map_some,
      if_pos (t.seat rank inside 0 root found).2.2, brings rank inside root found]
  have offered : Group.offeredBy .real 0 (round rank).items = .ok (whole rank) := by
    simp only [Group.offeredBy, items, Attempt.ofOption_some, Attempt.ok_bind,
      Payload.readOffer_offer]
  rw [offered, Attempt.ok_bind, ← bind_assoc, t.slice_segment inside (lengths rank inside),
    Attempt.ok_bind, Attempt.insist_of]
  · rfl
  · exact decide_eq_true (t.length_segmentIn inside (lengths rank inside))

end Together
end DeviceTeams
