import DeviceTeams.Proofs.Splitting

/-!
# What a split divides groups into

Every member of a group computes on its own who is in its part of the group, and still all of them
agree: two ranks come to one meeting point exactly if they were in one group and chose one color,
and a part lists its members by their keys and, where these are equal, by their old ranks.
-/
namespace DeviceTeams

variable {S : Type} {A : Finset Nat} {node : Nat → Nat} {G : Nat → Group} {color : Nat → Option Nat}
  {key : Nat → Nat}

/-! ## The order of the members -/

/-- In a list that is sorted by an order, the places follow the order. -/
theorem idxOf_lt_idxOf_iff {α : Type} [BEq α] [LawfulBEq α] {order : α → α → Prop} {items : List α}
    (sorted : items.Pairwise order) (asymm : ∀ a b, order a b → ¬ order b a) {a b : α}
    (memberA : a ∈ items) (memberB : b ∈ items) : items.idxOf a < items.idxOf b ↔ order a b := by
  have insideA := List.idxOf_lt_length_of_mem memberA
  have insideB := List.idxOf_lt_length_of_mem memberB
  have before : ∀ {a b : α} (insideA : items.idxOf a < items.length) (insideB : items.idxOf
      b < items.length),
      items.idxOf a < items.idxOf b → order a b := by
    intro a b insideA insideB less
    have ordered := List.pairwise_iff_getElem.mp sorted _ _ insideA insideB less
    rwa [List.getElem_idxOf insideA, List.getElem_idxOf insideB] at ordered
  constructor
  · exact before insideA insideB
  · intro ordered
    by_contra less
    rcases Nat.lt_or_eq_of_le (Nat.not_lt.mp less) with greater | equal
    · exact asymm a b ordered (before insideB insideA greater)
    · have same : a = b := by
        rw [← List.getElem_idxOf insideA, ← List.getElem_idxOf insideB]
        simp only [equal]
      subst same
      exact asymm a a ordered ordered

def SeatBefore (keyAt : Nat → Nat) (a b : Nat) : Prop :=
  keyAt a < keyAt b ∨ (keyAt a = keyAt b ∧ a < b)

namespace Group

/-- The members of a color are sorted. -/
theorem pairwise_membersOf {entries : List (Option Nat × Nat)} {chosen : Option Nat}
    {keyAt : Nat → Nat} (keys : ∀ (seat : Nat) (entry : Option Nat × Nat), entries[seat]? =
      some entry → entry.2 = keyAt seat) :
    (membersOf entries chosen).Pairwise (SeatBefore keyAt) := by
  cases chosen with
  | none => exact .nil
  | some chosen =>
    have sorted :
        ((entries.zipIdx.filter fun place => place.1.1 == some chosen).mergeSort fun a b =>
        a.1.2 < b.1.2 || (a.1.2 == b.1.2 && a.2 ≤ b.2)).Pairwise fun a b =>
        (a.1.2 < b.1.2 || (a.1.2 == b.1.2 && a.2 ≤ b.2)) = true :=
      List.pairwise_mergeSort (fun a b c => by simp; omega) (fun a b => by simp; omega) _
    have distinct : (membersOf entries (some chosen)).Nodup := nodup_membersOf
    have both := (List.pairwise_map.mp distinct).and sorted
    refine List.pairwise_map.mpr (both.imp_of_mem fun {a b} memberA memberB holds => ?_)
    obtain ⟨differ, less⟩ := holds
    have keyA := keys a.2 a.1
      (List.mem_zipIdx_iff_getElem?.mp (List.mem_filter.mp (List.mem_mergeSort.mp memberA)).1)
    have keyB := keys b.2 b.1
      (List.mem_zipIdx_iff_getElem?.mp (List.mem_filter.mp (List.mem_mergeSort.mp memberB)).1)
    simp only [Bool.or_eq_true, decide_eq_true_eq, Bool.and_eq_true, beq_iff_eq] at less
    rw [SeatBefore]
    omega

end Group

/-! ## The parts -/

def SamePart (G : Nat → Group) (color : Nat → Option Nat) (a b : Nat) : Prop :=
  (G a).hub = (G b).hub ∧ color a = color b

/-- The groups `H` of the ranks that chose a color are the parts into which the groups `G` are
divided by the colors, each in the order of the keys and then of the old ranks. -/
structure Divides (node : Nat → Nat) (A : Finset Nat) (G : Nat → Group) (color : Nat → Option Nat)
    (key : Nat → Nat) (H : Nat → Group) : Prop where
  together : Together node (A.filter fun rank => (color rank).isSome) H
  meets_iff : ∀ a ∈ A, ∀ b ∈ A, (color a).isSome → (color b).isSome →
    ((H a).hub = (H b).hub ↔ SamePart G color a b)
  apart : ∀ a ∈ A, ∀ b ∈ A, (color a).isSome → (H a).hub ≠ (G b).hub
  agree : ∀ a ∈ A, ∀ b ∈ A, (color a).isSome → SamePart G color a b →
    (H a).size = (H b).size ∧ (H a).nodes = (H b).nodes
  rank_lt : ∀ a ∈ A, (color a).isSome → (H a).rank < (H a).size
  filled : ∀ a ∈ A, (color a).isSome → ∀ place < (H a).size,
    ∃! member, member ∈ A ∧ SamePart G color member a ∧ (H member).rank = place
  ordered : ∀ a ∈ A, ∀ b ∈ A, (color a).isSome → SamePart G color a b →
    ((H a).rank < (H b).rank ↔ key a < key b ∨ (key a = key b ∧ (G a).rank < (G b).rank))
  node_eq : ∀ a ∈ A, (color a).isSome → (H a).node = (G a).node

namespace Together

variable (t : Together node A G)
include t

theorem seatsOf_eq_of_same (key : Nat → Nat) {a b : Nat} (insideA : a ∈ A) (insideB : b ∈ A)
    (same : SamePart G color a b) :
    seatsOf G color key a = seatsOf G color key b := by
  have belongs : a ∈ (G b).hub.ranks := same.1 ▸ t.mem insideA
  exact t.seatsOf_eq key insideB belongs same.2

/-- Two new groups meet at one point exactly if they are one part of one old group. -/
theorem newGroup_meets_iff (number : Hub → Nat) {a b : Nat} (insideA : a ∈ A) (insideB : b ∈ A)
    (choosesA : (color a).isSome) (choosesB : (color b).isSome) :
    (newGroup node G color key number a).hub = (newGroup node G color key number b).hub ↔
    SamePart G color a b := by
  constructor
  · intro same
    obtain ⟨parents, _, seats⟩ := Hub.split.inj same
    refine ⟨parents, ?_⟩
    have seat : (G a).rank ∈ seatsOf G color key b := seats ▸ t.own_seat key insideA choosesA
    obtain ⟨member, found, chosen⟩ := (mem_seatsOf choosesB).mp seat
    rw [← parents, t.own a insideA, Option.some.injEq] at found
    rw [found, chosen]
  · intro same
    simp only [newGroup, same.1, t.seatsOf_eq_of_same key insideA insideB same]

theorem newGroup_ordered (number : Hub → Nat) {a b : Nat} (insideA : a ∈ A) (insideB : b ∈ A)
    (chooses : (color a).isSome) (same : SamePart G color a b) :
    (newGroup node G color key number a).rank < (newGroup node G color key number b).rank ↔
      key a < key b ∨ (key a = key b ∧ (G a).rank < (G b).rank) := by
  let keyAt : Nat → Nat := fun seat => key ((G a).hub.ranks.getD seat 0)
  have keys : ∀ (seat : Nat) (entry : Option Nat × Nat),
      ((G a).hub.ranks.map fun member => (color member, key member))[seat]? = some entry →
      entry.2 = keyAt seat := by
    intro seat entry found
    rw [List.getElem?_map, Option.map_eq_some_iff] at found
    obtain ⟨member, here, rfl⟩ := found
    simp only [keyAt, List.getD_eq_getElem?_getD, here, Option.getD_some]
  have sorted : (seatsOf G color key a).Pairwise (SeatBefore keyAt) := Group.pairwise_membersOf keys
  have asymm : ∀ first second, SeatBefore keyAt first second → ¬ SeatBefore keyAt second first := by
    intro first second
    simp only [SeatBefore]
    omega
  have choosesB : (color b).isSome := same.2 ▸ chooses
  have seats := t.seatsOf_eq_of_same key insideA insideB same
  have ownB : (G b).rank ∈ seatsOf G color key a := seats ▸ t.own_seat key insideB choosesB
  have keyA : keyAt (G a).rank = key a := by
    simp only [keyAt, List.getD_eq_getElem?_getD, t.own a insideA, Option.getD_some]
  have keyB : keyAt (G b).rank = key b := by
    simp only [keyAt, List.getD_eq_getElem?_getD, same.1, t.own b insideB, Option.getD_some]
  have places := idxOf_lt_idxOf_iff sorted asymm (t.own_seat key insideA chooses) ownB
  rw [SeatBefore, keyA, keyB] at places
  simp only [newGroup, ← seats]
  exact places

theorem divides (color : Nat → Option Nat) (key : Nat → Nat) (number : Hub → Nat) :
    Divides node A G color key (newGroup node G color key number) := by
  have parts : Together node (A.filter fun rank => (color rank).isSome)
    (newGroup node G color key number) :=
    t.newGroups number
  have colored : ∀ {rank : Nat}, rank ∈ A → (color rank).isSome →
      rank ∈ A.filter fun rank => (color rank).isSome :=
    fun inside chooses => Finset.mem_filter.mpr ⟨inside, chooses⟩
  have meets : ∀ {a b : Nat}, a ∈ A → b ∈ A → (color a).isSome → SamePart G color a b →
      (newGroup node G color key number a).hub = (newGroup node G color key number b).hub :=
    fun insideA insideB chooses same =>
      (t.newGroup_meets_iff number insideA insideB chooses (same.2 ▸ chooses)).mpr same
  constructor
  · exact parts
  · intro a insideA b insideB choosesA choosesB
    exact t.newGroup_meets_iff number insideA insideB choosesA choosesB
  · intro a insideA b insideB chooses
    exact t.newGroup_apart number insideA insideB chooses
  · intro a insideA b insideB chooses same
    have one := meets insideA insideB chooses same
    rw [Group.size, Group.size, parts.nodes a (colored insideA chooses),
      parts.nodes b (colored insideB (same.2 ▸ chooses)), one]
    exact ⟨rfl, rfl⟩
  · intro a inside chooses
    exact parts.rank_lt_size (colored inside chooses)
  · intro a inside chooses place below
    rw [Group.size_eq] at below
    obtain ⟨among, one, sits⟩ :=
      parts.seat a (colored inside chooses) place _ (List.getElem?_eq_getElem below)
    obtain ⟨inside', chooses'⟩ := Finset.mem_filter.mp among
    refine ⟨_, ⟨inside', (t.newGroup_meets_iff number inside' inside chooses' chooses).mp one,
      sits⟩, ?_⟩
    rintro other ⟨within, same, sits'⟩
    have own := parts.own other (colored within (same.2 ▸ chooses))
    rw [meets within inside (same.2 ▸ chooses) same, sits'] at own
    exact (List.getElem?_eq_some_iff.mp own).2.symm
  · intro a insideA b insideB chooses same
    exact t.newGroup_ordered number insideA insideB chooses same
  · intro a inside chooses
    rw [parts.node_eq (colored inside chooses), t.node_eq inside]

end Together
end DeviceTeams
