import DeviceTeams.Proofs.Loaded
import DeviceTeams.Proofs.TeamOrder

/-!
# Ranks that share one device

Ranks of one machine that ask for one device are one team, led by the first of them. They take every
square matrix whose rows they hold in the order of the ranks.
-/
namespace DeviceTeams

variable {S : Type} [Scalar S] {nodes : List Nat} {h : Nat → Hierarchy}

structure OneTeam (ranks : Nat) (h : Nat → Hierarchy) : Prop where
  members : ∀ rank < ranks, (h rank).team.hub.ranks = List.range ranks
  seat : ∀ rank < ranks, (h rank).team.rank = rank
  leads : leadRanks h ranks = [0]
  first : (h 0).leads.rank = 0

namespace OneTeam

variable {ranks : Nat} (team : OneTeam ranks h)
include team

omit [Scalar S] in
theorem some_rank : 0 < ranks := by
  have lead : 0 ∈ leadRanks h ranks := team.leads ▸ List.mem_singleton_self 0
  exact List.mem_range.mp (List.mem_filter.mp lead).1

omit [Scalar S] in
theorem congr {h' : Nat → Hierarchy} (same : ∀ rank < ranks, h' rank = h rank) :
    OneTeam ranks h' := by
  constructor
  · intro rank below
    rw [same rank below, team.members rank below]
  · intro rank below
    rw [same rank below, team.seat rank below]
  · rw [leadRanks_congr same, team.leads]
  · rw [same 0 team.some_rank, team.first]

omit [Scalar S] in
theorem unbroken : Unbroken ranks h := by
  intro first middle last after before below _
  rw [team.members first (by omega)]
  exact List.mem_range.mpr (by omega)

omit [Scalar S] in
theorem teamRows_eq (count : Nat → Nat) :
    (leadRanks h ranks).map (teamRows h count) = [((List.range ranks).map count).sum] := by
  rw [team.leads, List.map_cons, teamRows, team.members 0 team.some_rank]
  rfl

/-- The lead of the team holds all rows. -/
theorem jointOf_eq (rows : Nat → List (List (Nat × S))) :
    jointOf h rows ranks = .ofBands [((List.range ranks).map rows).flatten] := by
  rw [jointOf, team.leads, List.map_singleton, teamBlock, team.members 0 team.some_rank]

omit [Scalar S] in
theorem partsOf_eq (x : Nat → List S) :
    partsOf h ranks x = .of [((List.range ranks).map x).flatten] := by
  rw [partsOf, team.leads, List.map_singleton, team.members 0 team.some_rank]

omit [Scalar S] in
/-- A rank's segment starts where those of the ranks before it end. -/
theorem ownPart_eq (m : Nat → RowShare S) (y : Parts S) {rank : Nat} (below : rank < ranks) :
    ownPart h m y rank =
    ((y 0).drop ((List.range rank).map fun member => (m member).localRows).sum).take
      (m rank).localRows := by
  have lead : leadOf h rank = 0 := by
    obtain ⟨others, count⟩ := Nat.exists_eq_add_of_lt team.some_rank
    rw [leadOf, team.members rank below, count, Nat.zero_add,
      List.range_succ_eq_map, List.headD_cons]
  rw [ownPart, segmentIn, segmentStart, lead, team.first, team.members rank below,
    team.seat rank below, ← List.map_take, List.take_range, Nat.min_eq_left below.le]

end OneTeam

section

variable (ranked : Ranked (fun rank => nodes.getD rank 0) (Finset.range nodes.length)
  (Group.world nodes) h)
include ranked

omit [Scalar S] in
/-- Ranks of one machine that have the same device are one team. -/
theorem Ranked.oneTeam (some_rank : 0 < nodes.length) (near : ∀ node ∈ nodes, node = 0)
    (shared : ∀ rank < nodes.length, (h rank).device = 0) : OneTeam nodes.length h := by
  have here : ∀ rank, nodes.getD rank 0 = 0 := by
    intro rank
    rw [List.getD_eq_getElem?_getD]
    cases found : nodes[rank]? with
    | none => rfl
    | some node => exact near node (List.mem_of_getElem? found)
  have members : ∀ rank < nodes.length, (h rank).team.hub.ranks = List.range nodes.length := by
    intro rank below
    rw [ranked.team_ranks rank (Finset.mem_range.mpr below)]
    refine List.filter_eq_self.mpr fun member among => ?_
    rw [machine, machine, here, here, shared member (List.mem_range.mp among), shared rank below]
    rfl
  have seat : ∀ rank < nodes.length, (h rank).team.rank = rank := by
    intro rank below
    have own := ranked.team.own rank (Finset.mem_range.mpr below)
    rw [members rank below, List.getElem?_eq_some_iff] at own
    obtain ⟨_, place⟩ := own
    rwa [List.getElem_range] at place
  have leads : leadRanks h nodes.length = [0] := by
    have first : ∀ rank ∈ List.range nodes.length, (h rank).isLead = (rank == 0) := by
      intro rank among
      have below := List.mem_range.mp among
      rw [ranked.isLead rank (Finset.mem_range.mpr below), seat rank below]
    obtain ⟨others, count⟩ := Nat.exists_eq_add_of_lt some_rank
    rw [leadRanks, List.filter_congr first, count, Nat.zero_add, List.range_succ_eq_map,
      List.filter_cons_of_pos rfl, List.filter_eq_nil_iff.mpr]
    intro rank among
    obtain ⟨place, _, rfl⟩ := List.mem_map.mp among
    exact Bool.false_ne_true
  have found : (leadRanks h nodes.length)[0]? = some 0 := by rw [leads, List.getElem?_cons_zero]
  exact ⟨members, seat, leads, ranked.leads_seat (Finset.mem_range.mpr some_rank) found⟩

end

/-- Ranks of one machine that ask for one device come to share it. -/
theorem exists_oneTeam (some_rank : 0 < nodes.length) (word : nodes.length + 1 < Word.limit)
    (near : ∀ node ∈ nodes, node = 0) : ∃ (h : Nat → Hierarchy) (a : Nat → Attached S),
      Serving nodes (fun _ => .ok Settings.standard.toScalar) a ∧
      Ranked (fun rank => nodes.getD rank 0) (Finset.range nodes.length) (Group.world nodes) h ∧
      OneTeam nodes.length h ∧ ∀ rank < nodes.length, (a rank).solver.hierarchy = some (h rank) ∧
        (a rank).solver.stats.matrixUploads = 0 ∧ (a rank).solver.stats.solves = 0 := by
  have all : ∀ rank, (Group.world nodes rank).hub.ranks = List.range nodes.length := fun _ => rfl
  have feasible : ∀ ranks, (Call.plain (Group.world nodes 0) 1).Feasible 0 ranks .host
      (Settings.standard.toScalar : Settings S) := fun _ =>
    Call.feasible_plain _ Nat.one_pos (Nat.le_trans (Nat.min_le_left ..) (by decide))
  obtain ⟨rounds', v, reach, h, new, established, equipped⟩ := Call.Feasible.equips (S := S)
    (Call.plain (Group.world nodes 0) 1) (a := fun _ => .fresh 0) (Together.world nodes)
    (sound_fresh fun _ => 0)
    (fun rank _ => by rw [all, List.length_range]; exact word) (fun _ _ => rfl)
    (fun _ _ _ _ _ => rfl) (fun _ _ => feasible _) fun _ => 0
  obtain ⟨_, _, states⟩ := established.fresh
  have shared : ∀ rank < nodes.length, (h rank).device = 0 := by
    intro rank below
    obtain ⟨mates, devices, counted, among⟩ := equipped rank (Finset.mem_range.mpr below)
    cases counted
    exact Nat.lt_one_iff.mp among
  refine ⟨h, fun rank => (v rank).2, .initialized (fun _ => rfl) (fun _ => ?_) reach
    fun rank below => ?_,
    established.ranked, established.ranked.oneTeam some_rank near shared, fun rank below =>
      ⟨?_, ?_, ?_⟩⟩
  · exact (feasible 0).loaded
  · exact (states rank (Finset.mem_range.mpr below)).1
  · rw [TeamSolver.hierarchy, (states rank (Finset.mem_range.mpr below)).2.2, Option.map_some]
  · exact (states rank (Finset.mem_range.mpr below)).2.1
  · exact (established.counters (Finset.mem_range.mpr below)).1

/-- Ranks of one machine that share a device take a matrix whose rows they hold in the order of the
ranks. -/
theorem exists_loaded (nodes : List Nat) (m : Nat → RowShare S) {size : Nat}
    (some_rank : 0 < nodes.length) (word : nodes.length + 1 < Word.limit)
    (near : ∀ node ∈ nodes, node = 0) (checked : ∀ rank < nodes.length, (m rank).validate = .ok ())
    (sizes : ∀ rank < nodes.length, (m rank).globalRows = size ∧ (m rank).globalCols = size)
    (small : size < 2 ^ 63) (starts : ∀ rank < nodes.length, (m rank).rowStart =
      ((List.range rank).map fun member => (m member).localRows).sum)
    (total : ((List.range nodes.length).map fun rank => (m rank).localRows).sum = size)
    (memory : ((List.range nodes.length).map fun rank => (m rank).bytes).sum < 2 ^ 64) :
    ∃ (h : Nat → Hierarchy) (a : Nat → Attached S), Loaded nodes
      (.ok Settings.standard.toScalar) m a ∧
      OneTeam nodes.length h ∧ ∀ rank < nodes.length, (a rank).solver.hierarchy = some (h rank) ∧
        (a rank).solver.stats.solves = 0 := by
  obtain ⟨h, a, serving, ranked, team, states⟩ := exists_oneTeam (S := S) some_rank word near
  have tiles : Tiles h (List.range nodes.length) (fun rank => (m rank).rowStart)
    (fun rank => (m rank).localRows) size :=
    ranked.tiles_of_unbroken team.unbroken starts total
  obtain ⟨rounds', v, reach, settled⟩ :=
    setMatrix_settles serving.was_used (fun rank below => (states rank below).1)
    checked sizes small memory (fun rank below => by rw [(states rank below).2.1]; decide)
    fun _ => 0
  have taken : ∀ rank < nodes.length, (v rank).1 = .ok () ∧ _ := fun rank below =>
    (settled rank below).accepts ⟨rfl, tiles⟩
  refine ⟨h, fun rank => (v rank).2, .taken serving reach fun rank below =>
    (taken rank below).1, team, fun rank below => ⟨?_, ?_⟩⟩
  · rw [(taken rank below).2.1, (states rank below).1]
  · rw [(taken rank below).2.2.2, (states rank below).2.2]

end DeviceTeams
