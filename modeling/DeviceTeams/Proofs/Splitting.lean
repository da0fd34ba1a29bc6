import DeviceTeams.Proofs.Exchanges
import Mathlib.Data.Finset.Filter

/-!
# Splitting groups

A split leaves every rank that chose a color in a group with the ranks of its old group that chose
the same color. The new views fit together again, so splits can be repeated. Where the keys follow
the old order, so does the new order. All ranks enter the same two exchanges for it: one for their
choices and one for the meeting points.
-/
namespace DeviceTeams

variable {S : Type} {A : Finset Nat} {node : Nat → Nat} {G : Nat → Group}

namespace Group

variable {entries : List (Option Nat × Nat)} {color : Option Nat}

theorem membersOf_none : membersOf entries none = [] := rfl

theorem mem_membersOf (some_color : color.isSome) {seat : Nat} :
    seat ∈ membersOf entries color ↔ ∃ key, entries[seat]? = some (color, key) := by
  obtain ⟨chosen, rfl⟩ := Option.isSome_iff_exists.mp some_color
  simp only [membersOf, List.mem_map, List.mem_mergeSort, List.mem_filter,
    List.mem_zipIdx_iff_getElem?]
  constructor
  · rintro ⟨⟨⟨color', key⟩, place⟩, ⟨found, same⟩, rfl⟩
    exact ⟨key, by simpa using (by simpa using same : color' = some chosen) ▸ found⟩
  · rintro ⟨key, found⟩
    exact ⟨((some chosen, key), seat), ⟨found, by simp⟩, rfl⟩

theorem nodup_membersOf : (membersOf entries color).Nodup := by
  cases color with
  | none => exact .nil
  | some chosen =>
    have seats : ((entries.zipIdx.filter fun place => place.1.1 == some chosen).map
        (·.2)).Nodup := by
      refine List.Nodup.sublist (List.filter_sublist.map _) ?_
      rw [List.zipIdx_map_snd]
      exact List.nodup_range'
    exact ((List.mergeSort_perm ..).map _).nodup_iff.mpr seats

/-- With the keys in the order of the seats the members of a color stay in their order. -/
theorem membersOf_of_ascending (some_color : color.isSome)
    (ascending : ∀ (seat : Nat) (entry : Option Nat × Nat), entries[seat]? = some entry →
      entry.2 = seat) :
    membersOf entries color =
    (entries.zipIdx.filter fun (entry, _) => entry.1 == color).map (·.2) := by
  obtain ⟨chosen, rfl⟩ := Option.isSome_iff_exists.mp some_color
  have keys : ∀ entry ∈ entries.zipIdx, entry.1.2 = entry.2 := fun entry member =>
    ascending entry.2 entry.1 (List.mem_zipIdx_iff_getElem?.mp member)
  have seats : (entries.zipIdx.map (·.2)).Pairwise (· ≤ ·) := by
    rw [List.zipIdx_map_snd]
    exact List.pairwise_le_range'
  have sorted : (entries.zipIdx.filter fun (entry, _) => entry.1 == some chosen).Pairwise fun a b =>
      (a.1.2 < b.1.2 || (a.1.2 == b.1.2 && a.2 ≤ b.2)) = true := by
    refine List.Pairwise.imp_of_mem ?_ ((List.pairwise_map.mp seats).filter _)
    intro a b memberA memberB before
    have keyA := keys a (List.mem_filter.mp memberA).1
    have keyB := keys b (List.mem_filter.mp memberB).1
    simp only [Bool.or_eq_true, decide_eq_true_eq, Bool.and_eq_true, beq_iff_eq]
    omega
  exact congrArg (List.map _) (List.mergeSort_of_pairwise sorted)

end Group

/-- The seats in a rank's group of the ranks that choose the same color, in the order of the new
group. -/
def seatsOf (G : Nat → Group) (color : Nat → Option Nat) (key : Nat → Nat) (rank : Nat) :
    List Nat :=
  Group.membersOf ((G rank).hub.ranks.map fun member => (color member, key member)) (color rank)

def newGroup (node : Nat → Nat) (G : Nat → Group) (color : Nat → Option Nat) (key : Nat → Nat)
    (number : Hub → Nat) (rank : Nat) : Group where
  rank := (seatsOf G color key rank).idxOf (G rank).rank
  hub := .split (G rank).hub (number (G rank).hub) (seatsOf G color key rank)
  nodes := (seatsOf G color key rank).map fun seat => node ((G rank).hub.ranks.getD seat 0)

/-- The seats of the new group are those of the members with the same color. -/
theorem mem_seatsOf {color : Nat → Option Nat} {key : Nat → Nat} {rank : Nat}
    (chooses : (color rank).isSome) {seat : Nat} : seat ∈ seatsOf G color key rank ↔
      ∃ member, (G rank).hub.ranks[seat]? = some member ∧ color member = color rank := by
  simp only [seatsOf, Group.mem_membersOf chooses, List.getElem?_map,
    Option.map_eq_some_iff, Prod.mk.injEq]
  exact ⟨fun ⟨_, member, found, same, _⟩ => ⟨member, found, same⟩,
    fun ⟨member, found, same⟩ => ⟨_, member, found, same, rfl⟩⟩

/-- The members of a new group are ranks of the old one. -/
theorem ranks_newGroup {color : Nat → Option Nat} {key : Nat → Nat} {rank : Nat}
    (number : Hub → Nat) :
    (newGroup node G color key number rank).hub.ranks =
      (seatsOf G color key rank).map fun seat => (G rank).hub.ranks.getD seat 0 := rfl

namespace Together

variable (t : Together node A G) {color : Nat → Option Nat} {key : Nat → Nat} {rank : Nat}
include t

theorem seatsOf_eq (key : Nat → Nat) {member : Nat} (inside : rank ∈ A)
    (belongs : member ∈ (G rank).hub.ranks) (same : color member = color rank) :
    seatsOf G color key member = seatsOf G color key rank := by
  rw [seatsOf, seatsOf, same, (t.of_mem inside belongs).2]

theorem own_seat (key : Nat → Nat) (inside : rank ∈ A) (chooses : (color rank).isSome) :
    (G rank).rank ∈ seatsOf G color key rank :=
  (mem_seatsOf chooses).mpr ⟨rank, t.own rank inside, rfl⟩

/-- The first member of a new group finds itself at its head, and the others do not. -/
theorem joins (inside : rank ∈ A) (number : Hub → Nat) {items : List (Payload S)}
    (handed : items = (G rank).hub.ranks.map fun member => .meetingPoint
      (if (seatsOf G color key member).head? = some (G member).rank then
        some (.split (G member).hub (number (G member).hub) (seatsOf G color key member))
          else none)) :
    (G rank).joinMembers (seatsOf G color key rank) items =
      .ok (if (color rank).isSome then some (newGroup node G color key number rank) else none) := by
  by_cases chooses : (color rank).isSome
  · rw [if_pos chooses]
    have nonempty : seatsOf G color key rank ≠ [] :=
      List.ne_nil_of_mem (t.own_seat key inside chooses)
    obtain ⟨leader, others, seats⟩ := List.exists_cons_of_ne_nil nonempty
    have leads : leader ∈ seatsOf G color key rank := seats ▸ List.mem_cons_self
    obtain ⟨first, found, same⟩ := (mem_seatsOf chooses).mp leads
    obtain ⟨_, meets, sits⟩ := t.seat rank inside leader first found
    have offered : items[leader]? = some (.meetingPoint
        (some (.split (G rank).hub (number (G rank).hub) (seatsOf G color key rank)))) := by
      rw [handed, List.getElem?_map, found, Option.map_some, t.seatsOf_eq key inside
        (List.mem_of_getElem? found) same, meets, sits, seats, List.head?_cons, if_pos rfl]
    have nodes : (seatsOf G color key rank).mapM
        (fun seat => Attempt.ofOption (G rank).nodes[seat]?) =
        .ok ((seatsOf G color key rank).map fun seat => node ((G rank).hub.ranks.getD seat 0)) := by
      refine Attempt.mapM_of fun seat among => ?_
      obtain ⟨member, here, _⟩ := (mem_seatsOf chooses).mp among
      rw [t.nodes rank inside, List.getElem?_map, here, List.getD_eq_getElem?_getD, here]
      rfl
    rw [seats] at offered nodes
    simp only [seats, Group.joinMembers, offered, Attempt.ofOption_some, Attempt.ok_bind,
      Payload.readMeetingPoint, nodes, Attempt.pure_eq, newGroup]
  · rw [if_neg chooses]
    have none : color rank = none := by simpa using chooses
    rw [seatsOf, none, Group.membersOf_none]
    rfl

/-- A split of all groups at once takes two exchanges: the choices, and the meeting points of the
new groups. -/
theorem split (color : Nat → Option Nat) (key : Nat → Nat) : Through A G [.choice, .meetingPoint]
    (fun rank => ((G rank).split (color rank) (key rank) : Task S (Option Group))) fun w =>
      ∃ number : Hub → Nat, ∀ rank ∈ A,
        w rank = if (color rank).isSome
        then some (newGroup node G color key number rank) else none := by
  show Through A G ([.choice] ++ ([] ++ ([.meetingPoint] ++ []))) _ _
  have chosen : Through A G [.choice]
    (fun rank => (G rank).exchange (S := S) (.choice (color rank) (key rank))) _ :=
    t.exchange_through fun rank _ => rfl
  refine chosen.bind fun round brought => ?_
  obtain ⟨number, brought⟩ := brought
  have read : ∀ rank ∈ A, (do
      pure (Group.membersOf (← (round rank).items.mapM Payload.readChoice) (color rank)) :
        Attempt (List Nat)) =
      .ok (seatsOf G color key rank) := by
    intro rank inside
    have choices : (round rank).items.mapM Payload.readChoice =
        .ok ((G rank).hub.ranks.map fun member => (color member, key member)) := by
      rw [brought rank inside]
      exact Attempt.mapM_map_of fun _ _ => rfl
    rw [choices]
    rfl
  have listing : Through A G [] (fun rank => (Task.ofAttempt (do
      pure (Group.membersOf (← (round rank).items.mapM Payload.readChoice) (color rank))) :
        Task S (List Nat)))
      fun w => ∀ rank ∈ A, w rank = seatsOf G color key rank := .ofAttempt read fun _ _ => rfl
  refine listing.bind fun members listed => ?_
  let offer : Nat → Payload S :=
    fun rank => .meetingPoint (if (seatsOf G color key rank).head? = some (G rank).rank then
    some (.split (G rank).hub (number (G rank).hub) (seatsOf G color key rank)) else none)
  have offered : Through A G [.meetingPoint] (fun rank => (G rank).exchange (offer rank)) _ :=
    t.exchange_through fun rank _ => rfl
  refine (offered.congr fun rank inside => ?_).bind fun handed brought' => ?_
  · rw [listed rank inside, brought rank inside]
  · obtain ⟨_, brought'⟩ := brought'
    refine (Through.ofAttempt (w := fun rank =>
      if (color rank).isSome then some (newGroup node G color key number rank)
      else none) (fun rank inside => ?_)
      ⟨number, fun _ _ => rfl⟩)
    rw [listed rank inside, brought' rank inside]
    exact t.joins inside number rfl

/-- After a split the views fit together again. -/
theorem newGroups (number : Hub → Nat) :
    Together node (A.filter fun rank => (color rank).isSome)
    (newGroup node G color key number) where
  own rank member := by
    obtain ⟨inside, chooses⟩ := Finset.mem_filter.mp member
    have seat := List.getElem?_idxOf (t.own_seat key inside chooses)
    rw [ranks_newGroup, List.getElem?_map]
    simp only [newGroup, seat, Option.map_some, List.getD_eq_getElem?_getD, t.own rank inside,
      Option.getD_some]
  seat rank member place other found := by
    obtain ⟨inside, chooses⟩ := Finset.mem_filter.mp member
    rw [ranks_newGroup, List.getElem?_map, Option.map_eq_some_iff] at found
    obtain ⟨seat, here, found⟩ := found
    obtain ⟨other', sits, same⟩ := (mem_seatsOf chooses).mp (List.mem_of_getElem? here)
    rw [List.getD_eq_getElem?_getD, sits, Option.getD_some] at found
    subst found
    obtain ⟨within, meets, sits'⟩ := t.seat rank inside seat other' sits
    have seats := t.seatsOf_eq key inside (List.mem_of_getElem? sits) same
    refine ⟨Finset.mem_filter.mpr ⟨within, by rw [same]; exact chooses⟩, ?_, ?_⟩
    · simp only [newGroup, meets, seats]
    · have inside := (List.getElem?_eq_some_iff.mp here)
      obtain ⟨bound, value⟩ := inside
      simp only [newGroup, seats, sits', ← value]
      exact Group.nodup_membersOf.idxOf_getElem place bound
  nodes rank _ := by
    rw [ranks_newGroup, List.map_map]
    rfl

/-- A new group meets at none of the old points: its members would have to be in the part as well as
in the whole. -/
theorem newGroup_apart (number : Hub → Nat) {a b : Nat} (insideA : a ∈ A) (insideB : b ∈ A)
    (chooses : (color a).isSome) :
    (newGroup node G color key number a).hub ≠ (G b).hub := by
  intro same
  have belongs : b ∈ (newGroup node G color key number a).hub.ranks := same ▸ t.mem insideB
  rw [ranks_newGroup, List.mem_map] at belongs
  obtain ⟨seat, among, found⟩ := belongs
  obtain ⟨member, sits, _⟩ := (mem_seatsOf chooses).mp among
  rw [List.getD_eq_getElem?_getD, sits, Option.getD_some] at found
  subst found
  have meets := (t.of_mem insideA (List.mem_of_getElem? sits)).2
  rw [meets] at same
  have sizes := congrArg sizeOf same
  simp only [newGroup, Hub.split.sizeOf_spec] at sizes
  omega

/-- With keys that follow the old order the new group lists its members in that order. -/
theorem ranks_of_own_keys (inside : rank ∈ A) (chooses : (color rank).isSome) (number : Hub → Nat) :
    (newGroup node G color (fun member => (G member).rank) number rank).hub.ranks =
      (G rank).hub.ranks.filter fun member => color member == color rank := by
  have ascending : ∀ (seat : Nat) (entry : Option Nat × Nat),
      ((G rank).hub.ranks.map fun member => (color member, (G member).rank))[seat]? = some entry →
      entry.2 = seat := by
    intro seat entry found
    rw [List.getElem?_map, Option.map_eq_some_iff] at found
    obtain ⟨member, here, rfl⟩ := found
    exact (t.seat rank inside seat member here).2.2
  rw [ranks_newGroup, seatsOf, Group.membersOf_of_ascending chooses ascending,
    List.map_map, List.zipIdx_map, List.filter_map, List.map_map]
  have places : ∀ entry ∈ (G rank).hub.ranks.zipIdx, (G rank).hub.ranks.getD entry.2
      0 = entry.1 := by
    intro entry member
    rw [List.getD_eq_getElem?_getD, List.mem_zipIdx_iff_getElem?.mp member, Option.getD_some]
  have firsts : ((G rank).hub.ranks.zipIdx.filter fun entry => color entry.1 == color rank).map
      (fun entry => (G rank).hub.ranks.getD entry.2 0) =
      ((G rank).hub.ranks.zipIdx.filter fun entry => color entry.1 == color rank).map (·.1) :=
    List.map_congr_left fun entry member => places entry (List.mem_filter.mp member).1
  have old := List.filter_map (f := fun entry : Nat × Nat => entry.1)
    (p := fun member => color member == color rank) (l := (G rank).hub.ranks.zipIdx)
  rw [List.zipIdx_map_fst] at old
  exact firsts.trans old.symm

/-- A split with keys that follow the old order. -/
theorem split_in_order (color : Nat → Option Nat) : Through A G [.choice, .meetingPoint]
    (fun rank => ((G rank).split (color rank) (G rank).rank : Task S (Option Group))) fun w =>
      ∃ H : Nat → Group, Together node (A.filter fun rank => (color rank).isSome) H ∧
        (∀ rank ∈ A, w rank = if (color rank).isSome then some (H rank) else none) ∧
        ∀ rank ∈ A, (color rank).isSome →
          (H rank).hub.ranks = (G rank).hub.ranks.filter fun member => color member == color rank :=
  (t.split color fun rank => (G rank).rank).mono fun _ ⟨number, split⟩ =>
    ⟨_, t.newGroups number, split, fun _ inside chooses =>
      t.ranks_of_own_keys inside chooses number⟩

/-- A split in which every rank chooses a color. -/
theorem split_colors (color : Nat → Nat) : Through A G [.choice, .meetingPoint]
    (fun rank => ((G rank).split (some (color rank)) (G rank).rank : Task S (Option Group)))
    fun w =>
      ∃ H : Nat → Group, Together node A H ∧ (∀ rank ∈ A, w rank = some (H rank)) ∧
        ∀ rank ∈ A, (H rank).hub.ranks = (G rank).hub.ranks.filter fun member =>
          color member == color rank := by
  refine (t.split_in_order fun rank => some (color rank)).mono fun w split => ?_
  obtain ⟨H, together, parts, ranks⟩ := split
  have all : (A.filter fun rank => (some (color rank)).isSome) = A :=
    Finset.filter_true_of_mem fun _ _ => rfl
  exact ⟨H, all ▸ together, parts, fun rank inside => by simpa using ranks rank inside rfl⟩

/-- A split that leaves out some ranks and puts the others in one group. -/
theorem split_off (chosen : Nat → Bool) :
    Succeeds A (fun rank =>
      ((G rank).split (if chosen rank then some 0 else none) (G rank).rank : Task S (Option Group)))
        fun w =>
      ∃ H : Nat → Group, Together node (A.filter fun rank => chosen rank) H ∧
        (∀ rank ∈ A, w rank = if chosen rank then some (H rank) else none) ∧
        ∀ rank ∈ A, chosen rank → (H rank).hub.ranks = (G rank).hub.ranks.filter chosen := by
  refine (t.split_in_order fun rank => if chosen rank then some 0 else none).succeeds.mono
    fun w split => ?_
  obtain ⟨H, together, parts, ranks⟩ := split
  have colored : ∀ rank, (if chosen rank then some 0 else none : Option Nat).isSome =
      chosen rank := by
    intro rank
    cases chosen rank <;> rfl
  simp only [colored] at together parts ranks
  refine ⟨H, together, parts, fun rank inside member => (ranks rank inside member).trans ?_⟩
  refine List.filter_congr fun other _ => ?_
  rw [if_pos member]
  cases chosen other <;> rfl

/-- A duplicate has the same members and a meeting point of its own. -/
theorem duplicate :
    Through A G [.choice, .meetingPoint] (fun rank => ((G rank).duplicate : Task S Group)) fun w =>
    Together node A w ∧ ∀ rank ∈ A, (w rank).hub.ranks = (G rank).hub.ranks ∧
      (w rank).hub ≠ (G rank).hub := by
  show Through A G ([.choice, .meetingPoint] ++ []) _ _
  refine (t.split (fun _ => some 0) fun rank => (G rank).rank).bind fun part split => ?_
  obtain ⟨number, parts⟩ := split
  have all : (A.filter fun _ => (some 0).isSome) = A := Finset.filter_true_of_mem fun _ _ => rfl
  refine .ofAttempt (w := newGroup node G (fun _ => some 0) (fun rank => (G rank).rank) number)
    (fun rank inside => by rw [parts rank inside]; rfl)
    ⟨all ▸ t.newGroups number, fun rank inside => ⟨?_, t.newGroup_apart number inside inside rfl⟩⟩
  have ranks : (newGroup node G (fun _ => some 0) (fun member => (G member).rank) number
    rank).hub.ranks = _ :=
    t.ranks_of_own_keys inside rfl number
  simpa using ranks

/-- A split by machines, as far as a color can tell machines apart, in the old order. -/
theorem splitByNode_new :
    Succeeds A (fun rank => ((G rank).splitByNode : Task S Group)) fun w => ∃ number : Hub → Nat,
      w = newGroup node G (fun rank => some (min (node rank) Group.lastColor))
      (fun rank => (G rank).rank) number := by
  have known : Succeeds A (fun rank => (Task.ofAttempt (G rank).node : Task S Nat)) fun w =>
      ∀ rank ∈ A, w rank = node rank :=
        .ofAttempt (fun rank inside => t.node_eq inside) fun _ _ => rfl
  refine known.bind fun found same => ?_
  refine ((t.split (fun rank => some (min (node rank) Group.lastColor)) fun rank =>
    (G rank).rank).succeeds.congr
    fun rank inside => ?_).bind fun part split => ?_
  · rw [same rank inside]
  · obtain ⟨number, parts⟩ := split
    exact .ofAttempt (fun rank inside => by rw [parts rank inside]; rfl) ⟨number, rfl⟩

theorem splitByNode :
    Succeeds A (fun rank => ((G rank).splitByNode : Task S Group)) fun w =>
      Together node A w ∧ ∀ rank ∈ A, (w rank).hub.ranks = (G rank).hub.ranks.filter fun member =>
        min (node member) Group.lastColor == min (node rank) Group.lastColor := by
  refine t.splitByNode_new.mono fun w split => ?_
  obtain ⟨number, rfl⟩ := split
  have all : (A.filter fun rank => (some (min (node rank) Group.lastColor)).isSome) = A :=
    Finset.filter_true_of_mem fun _ _ => rfl
  exact ⟨all ▸ t.newGroups number, fun rank inside => t.ranks_of_own_keys inside rfl number⟩

end Together
end DeviceTeams
