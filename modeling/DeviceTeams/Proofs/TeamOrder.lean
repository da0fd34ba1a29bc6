import DeviceTeams.Proofs.Arrangement
import Mathlib.Data.List.Sort

/-!
# Teams in the order of the ranks

Where the machines of the ranks ascend, the ranks between two ranks of a team belong to it as well.
The teams then follow each other in the order of the ranks, and so do the rows of a matrix.
-/
namespace DeviceTeams

variable {A : Finset Nat} {node : Nat → Nat} {G : Nat → Group} {h : Nat → Hierarchy}
  {nodes : List Nat} {rank other : Nat}

/-- Ascending numbers are in the order of their places. -/
theorem lt_iff_place_lt {items : List Nat} (ascending : items.Pairwise (· < ·)) {i j a b : Nat}
    (first : items[i]? = some a) (second : items[j]? = some b) : a < b ↔ i < j := by
  obtain ⟨_, rfl⟩ := List.getElem?_eq_some_iff.mp first
  obtain ⟨_, rfl⟩ := List.getElem?_eq_some_iff.mp second
  exact ascending.sortedLT.getElem_lt_getElem_iff

/-- Machines ascend with nodes. -/
theorem machine_mono (ascending : nodes.Pairwise (· ≤ ·)) (before : other ≤ rank)
    (below : rank < nodes.length) :
    machine (fun rank => nodes.getD rank 0) other ≤ machine
    (fun rank => nodes.getD rank 0) rank := by
  rcases Nat.eq_or_lt_of_le before with rfl | less
  · exact Nat.le_refl _
  · have ordered := List.pairwise_iff_getElem.mp ascending other rank (by omega) below less
    rw [machine, machine, List.getD_eq_getElem _ _ below, List.getD_eq_getElem _ _ (by omega)]
    omega

def Unbroken (ranks : Nat) (h : Nat → Hierarchy) : Prop :=
  ∀ first middle last, first ≤ middle → middle ≤ last → last < ranks →
    last ∈ (h first).team.hub.ranks → middle ∈ (h first).team.hub.ranks

namespace Ranked

variable (ranked : Ranked (fun rank => nodes.getD rank 0) (Finset.range nodes.length)
  (Group.world nodes) h)
include ranked

theorem team_ascending (below : rank < nodes.length) :
    (h rank).team.hub.ranks.Pairwise (· < ·) := by
  rw [ranked.team_ranks rank (Finset.mem_range.mpr below)]
  exact List.pairwise_lt_range.filter _

/-- The lead of a team is the lowest of its ranks. -/
theorem leadOf_le (below : rank < nodes.length) : leadOf h rank ≤ rank := by
  have inside := Finset.mem_range.mpr below
  by_contra above
  have place := (lt_iff_place_lt (ranked.team_ascending below) (ranked.team.own rank inside)
    (ranked.team_head inside)).mp (Nat.not_le.mp above)
  exact Nat.not_lt_zero _ place

/-- Ranks with one lead are in one team. -/
theorem team_hub_eq (below : other < nodes.length) (below' : rank < nodes.length)
    (same : leadOf h other = leadOf h rank) :
    (h other).team.hub = (h rank).team.hub := by
  have inside := Finset.mem_range.mpr below
  have inside' := Finset.mem_range.mpr below'
  rw [← (ranked.team.of_mem inside (ranked.leadOf_mem inside)).2, same,
    (ranked.team.of_mem inside' (ranked.leadOf_mem inside')).2]

theorem leads_rank_lt_iff (below : other < nodes.length) (below' : rank < nodes.length) :
    (h (leadOf h other)).leads.rank < (h (leadOf h rank)).leads.rank ↔
    leadOf h other < leadOf h rank := by
  have among := ranked.leads_found (Finset.mem_range.mpr below)
  have among' := ranked.leads_found (Finset.mem_range.mpr below')
  exact (lt_iff_place_lt (List.pairwise_lt_range.filter _) among among').symm

/-- In unbroken teams the ranks of a team with a lower lead are lower. -/
theorem lt_of_leadOf_lt (unbroken : Unbroken nodes.length h) (below : other < nodes.length)
    (below' : rank < nodes.length) (less : leadOf h other < leadOf h rank) : other < rank := by
  have inside := Finset.mem_range.mpr below
  obtain ⟨lead_inside, meets⟩ := ranked.team.of_mem inside (ranked.leadOf_mem inside)
  by_contra not_less
  have lower := ranked.leadOf_le below'
  have between : rank ∈ (h (leadOf h other)).team.hub.ranks := by
    apply unbroken (leadOf h other) rank other (by omega) (by omega) below
    rw [meets]
    exact ranked.team.mem inside
  rw [meets] at between
  have same := ranked.leadOf_eq inside between
  omega

/-- In unbroken teams the rows are in the order of the ranks. -/
theorem comesBefore_iff_lt (unbroken : Unbroken nodes.length h) (below : other < nodes.length)
    (below' : rank < nodes.length) : ComesBefore h other rank ↔ other < rank := by
  have seats := ranked.leads_rank_lt_iff below below'
  have seats' := ranked.leads_rank_lt_iff below' below
  rcases Nat.lt_trichotomy (leadOf h other) (leadOf h rank) with less | same | more
  · exact iff_of_true (.inl (seats.mpr less)) (ranked.lt_of_leadOf_lt unbroken below below' less)
  · have own := ranked.team.own other (Finset.mem_range.mpr below)
    rw [ranked.team_hub_eq below below' same] at own
    have places := lt_iff_place_lt (ranked.team_ascending below') own
      (ranked.team.own rank (Finset.mem_range.mpr below'))
    rw [ComesBefore, same, places]
    omega
  · have later := ranked.lt_of_leadOf_lt unbroken below' below more
    have seat := seats'.mpr more
    refine iff_of_false ?_ (by omega)
    rw [ComesBefore]
    omega

/-- In unbroken teams the rows of the ranks before a rank come before its own. -/
theorem rowsBefore_eq_sum (unbroken : Unbroken nodes.length h) (count : Nat → Nat)
    (below : rank < nodes.length) :
    rowsBefore h (List.range nodes.length) count rank = ((List.range rank).map count).sum := by
  have places : ∀ i item : Nat, (List.range nodes.length)[i]? = some item → item = i := by
    intro i item found
    obtain ⟨_, rfl⟩ := List.getElem?_eq_some_iff.mp found
    exact List.getElem_range ..
  have earlier : (List.range nodes.length).filter (fun other => ComesBefore h other rank) =
      List.range rank := by
    rw [List.filter_congr fun other among => decide_eq_decide.mpr
      (ranked.comesBefore_iff_lt unbroken (List.mem_range.mp among) below),
      filter_lt_eq_take places, List.take_range, Nat.min_eq_left (Nat.le_of_lt below)]
  rw [rowsBefore, earlier]

/-- In unbroken teams rows are where they belong if they follow each other in the order of the
ranks. -/
theorem tiles_of_unbroken (unbroken : Unbroken nodes.length h)
    {start count : Nat → Nat} {total : Nat}
    (starts : ∀ rank < nodes.length, start rank = ((List.range rank).map count).sum)
    (whole : ((List.range nodes.length).map count).sum = total) :
    Tiles h (List.range nodes.length) start count total := by
  refine ⟨fun rank among => ?_, whole⟩
  have below := List.mem_range.mp among
  rw [starts rank below, ranked.rowsBefore_eq_sum unbroken count below]

/-- Teams of one rank are unbroken. -/
theorem unbroken_of_leads (lead : ∀ rank < nodes.length, (h rank).isLead) :
    Unbroken nodes.length h := by
  intro first middle last after before below belongs
  have inside : first ∈ Finset.range nodes.length := Finset.mem_range.mpr (by omega)
  have one := ranked.leadOf_eq inside belongs
  rw [ranked.leadOf_self inside (lead first (by omega)),
    ranked.leadOf_self (Finset.mem_range.mpr below) (lead last below)] at one
  obtain rfl : middle = first := by omega
  exact ranked.team.mem inside

end Ranked

/-- Ranks that have counted the devices of their machines, and have come to the same counts on each
machine. -/
theorem Ranked.assigned (ranked : Ranked node A G h) {count : Nat → Group → Attempt Nat}
    (housed : Hierarchy.Housed node A G count h)
    (word : ∀ rank ∈ A, (G rank).hub.ranks.length + 1 < Word.limit)
    (alike : ∀ rank ∈ A, ∀ mate ∈ (h rank).node.hub.ranks, (h mate).deviceCount =
      (h rank).deviceCount) :
    Assigned node A G (fun rank => (h rank).deviceCount) h := by
  have word' : ∀ rank ∈ A, (h rank).node.size + 1 < Word.limit := by
    intro rank inside
    have fewer := Group.size_le_of_filter (housed.mates_ranks rank inside)
    have bound := word rank inside
    omega
  refine ⟨ranked, housed.mates, housed.mates_ranks, housed.named, fun _ _ => rfl, ?_, alike,
    word', housed.assigned⟩
  intro rank inside
  exact Nat.zero_lt_of_lt
    (Assignment.device_within (housed.assigned rank inside) (word' rank inside)).1

/-- Where the machines ascend, teams are unbroken. -/
theorem Assigned.unbroken {found : Nat → Nat} (ascending : nodes.Pairwise (· ≤ ·))
    (assigned : Assigned (fun rank => nodes.getD rank 0) (Finset.range nodes.length)
      (Group.world nodes) found h) :
    Unbroken nodes.length h := by
  intro first middle last after before below belongs
  have inside : first ∈ Finset.range nodes.length := Finset.mem_range.mpr (by omega)
  have inside' : middle ∈ Finset.range nodes.length := Finset.mem_range.mpr (by omega)
  obtain ⟨mate, device⟩ := (assigned.mem_team inside).mp belongs
  have mates := assigned.mates_ranks first inside
  have own : first ∈ (h first).node.hub.ranks := assigned.mates.mem inside
  have mates_ascending : (h first).node.hub.ranks.Pairwise (· < ·) := by
    rw [mates]
    exact List.pairwise_lt_range.filter _
  -- The rank is on the machine of the two.
  have lower := machine_mono ascending after (by omega)
  have upper := machine_mono ascending before below
  have mate' : middle ∈ (h first).node.hub.ranks := by
    rw [mates, List.mem_filter, beq_iff_eq] at mate ⊢
    refine ⟨List.mem_range.mpr (by omega), ?_⟩
    have same := mate.2
    omega
  -- Its seat there lies between theirs, and so does its device.
  have seat : ∀ member ∈ (h first).node.hub.ranks, (h first).node.hub.ranks[(h member).node.rank]? =
      some member := by
    intro member among
    obtain ⟨within, meets⟩ := assigned.mates.of_mem inside among
    rw [← meets]
    exact assigned.mates.own member within
  have from_first := lt_iff_place_lt mates_ascending (seat middle mate') (seat first own)
  have to_last := lt_iff_place_lt mates_ascending (seat last mate) (seat middle mate')
  have band := (assigned.mate_device_iff inside own).mp rfl
  have band' := (assigned.mate_device_iff inside mate).mp device
  refine (assigned.mem_team inside).mpr ⟨mate', (assigned.mate_device_iff inside mate').mpr ?_⟩
  omega

end DeviceTeams
