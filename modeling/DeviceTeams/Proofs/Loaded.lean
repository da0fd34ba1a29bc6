import DeviceTeams.Proofs.JointSystems
import DeviceTeams.Proofs.Solving
import DeviceTeams.Proofs.Taking
import DeviceTeams.Proofs.Verdicts

/-!
# Solving with a matrix that has been taken

Once all ranks of a world have taken a matrix, the leads hold the bands of one system, and they keep
holding it however often the ranks solve. A solve is all or nothing: all ranks are refused and left
as they were, or all of them receive one status and their parts of one solution.
-/
namespace DeviceTeams

variable {S : Type} [Scalar S] {nodes : List Nat} {config : Attempt (Settings S)}
  {m : Nat → RowShare S} {a : Nat → Attached S}

/-- The states of ranks that have all taken the shares `m` of a matrix, on an instance that they had
initialized on fresh contexts and with one config, and that have solved any number of times
since. -/
inductive Loaded (nodes : List Nat) (config : Attempt (Settings S)) (m : Nat → RowShare S) :
    (Nat → Attached S) → Prop
  | taken {a : Nat → Attached S} {rounds rounds' : Rounds} {v : Nat → Attempt Unit × Attached S} :
      Serving nodes (fun _ => config) a →
      Reaches (Finset.range nodes.length) rounds
      (fun rank => (Attached.setMatrix (m rank)).start (a rank)) rounds'
        (fun rank => .finished (v rank)) →
      (∀ rank < nodes.length, (v rank).1 = .ok ()) → Loaded nodes config m fun rank => (v rank).2
  | solved {a : Nat → Attached S} {x b : Nat → List S} {rounds rounds' : Rounds}
      {v : Nat → Attempt (Status × List S) × Attached S} :
      Loaded nodes config m a →
      Reaches (Finset.range nodes.length) rounds
      (fun rank => (Attached.solve (x rank) (b rank)).start (a rank)) rounds'
        (fun rank => .finished (v rank)) → Loaded nodes config m fun rank => (v rank).2

def leadRanks (h : Nat → Hierarchy) (ranks : Nat) : List Nat :=
  (List.range ranks).filter fun rank => (h rank).isLead

/-- The system of the rows that the teams of a world hold. -/
def jointOf (h : Nat → Hierarchy) (rows : Nat → List (List (Nat × S))) (ranks : Nat) : Joint S :=
  .ofBands ((leadRanks h ranks).map (teamBlock h rows))

/-- Vectors of the ranks, put together by the teams. -/
def partsOf (h : Nat → Hierarchy) (ranks : Nat) (x : Nat → List S) : Parts S :=
  .of ((leadRanks h ranks).map fun lead => ((h lead).team.hub.ranks.map x).flatten)

/-- What the ranks of a world look for together: the joint solve with the rows that the teams hold,
for the vectors of the ranks. -/
def jointSolve (h : Nat → Hierarchy) (rows : Nat → List (List (Nat × S))) (settings : Settings S)
    (ranks : Nat) (x b : Nat → List S) : (Status × Nat) × Parts S :=
  (jointOf h rows ranks).solve settings (partsOf h ranks b) (partsOf h ranks x)

/-- A rank's segment of what its lead holds. -/
def ownPart (h : Nat → Hierarchy) (m : Nat → RowShare S) (y : Parts S) (rank : Nat) : List S :=
  segmentIn (h rank).team (fun member => (m member).localRows) rank
    (y (h (leadOf h rank)).leads.rank)

omit [Scalar S] in
theorem leadRanks_congr {h h' : Nat → Hierarchy} {ranks : Nat}
    (same : ∀ rank < ranks, h' rank = h rank) :
    leadRanks h' ranks = leadRanks h ranks :=
  List.filter_congr fun rank among => by rw [same rank (List.mem_range.mp among)]

structure Holding (nodes : List Nat) (m : Nat → RowShare S) (h : Nat → Hierarchy)
    (new : Nat → Group) (rows : Nat → List (List (Nat × S))) : Prop where
  shared : (jointOf h rows nodes.length).SharedBy (fun rank => nodes.getD rank 0)
    (Finset.range nodes.length) (Group.world nodes) h new fun rank => (m rank).localRows
  seat : ∀ rank < nodes.length, (h rank).isLead → (new rank).rank = (h rank).leads.rank
  block : ∀ rank < nodes.length, (m rank).localBlock = .ok (.ofRows (m rank).globalCols (rows rank))
  count : ∀ rank < nodes.length, (rows rank).length = (m rank).localRows
  tidy : ∀ rank < nodes.length, ∀ row ∈ rows rank, Tidy (m rank).globalCols row
  tiles : Tiles h (List.range nodes.length) (fun rank => (m rank).rowStart)
    (fun rank => (m rank).localRows) (jointOf h rows nodes.length).size

/-! ## Taking a matrix -/

/-- Instances that stay with what their handles were opened with. -/
theorem Open.of_stays {A : Finset Nat} {h : Nat → Hierarchy} {Q : Stats → Prop} {new : Nat → Group}
    {settings : Nat → Settings S}
    (stays : ∀ rank ∈ A, (a rank).Stays Q (a rank).context (h rank) (originOf h new settings rank))
    (seat : ∀ rank ∈ A, (h rank).isLead → (new rank).rank < (new rank).size) :
    ∃ (handles : Nat → LeadHandles S) (inst : Nat → Instance S), Open A h handles a inst ∧
      ∀ rank ∈ A, (h rank).isLead →
        (handles rank).origin = ⟨new rank, new rank, settings rank⟩ := by
  refine Open.of_part (·.origin) (fun rank inside => (stays rank inside).2.2)
    fun rank inside lead handles origin => ?_
  rw [show handles.matrix.leads = new rank from congrArg Origin.matrix origin]
  exact seat rank inside lead

omit [Scalar S] in
/-- What shares in one memory leave room for. -/
theorem room_of_memory (valid : ∀ rank < nodes.length, (m rank).Valid)
    (memory : ((List.range nodes.length).map fun rank => (m rank).bytes).sum < 2 ^ 64) :
    nodes.length < Word.limit ∧
    ((List.range nodes.length).map fun rank => (m rank).localRows).sum * 8 < 2 ^ 63 ∧
      ((List.range nodes.length).map fun rank => (m rank).localRows + 1).sum * 8 < 2 ^ 63 ∧
      ((List.range nodes.length).map fun rank => (m rank).localNnz).sum * 8 < 2 ^ 63 := by
  rw [sum_bytes fun rank member => valid rank (List.mem_range.mp member)] at memory
  have pointers : ((List.range nodes.length).map fun rank => (m rank).localRows + 1).sum =
      ((List.range nodes.length).map fun rank => (m rank).localRows).sum + nodes.length := by
    rw [List.sum_map_add]
    simp
  rw [Word.limit]
  omega

omit [Scalar S] in
/-- A lead sits in the list of the leads where its view of their group has it. -/
theorem Ranked.leadRanks_found {h : Nat → Hierarchy}
    (ranked : Ranked (fun rank => nodes.getD rank 0) (Finset.range nodes.length)
      (Group.world nodes) h) {rank : Nat}
    (below : rank < nodes.length) (lead : (h rank).isLead) :
    (h rank).leads.hub.ranks = leadRanks h nodes.length ∧
      (leadRanks h nodes.length)[(h rank).leads.rank]? = some rank := by
  have inside := Finset.mem_range.mpr below
  have members : (h rank).leads.hub.ranks = leadRanks h nodes.length :=
    ranked.leads_ranks rank inside lead
  exact ⟨members, members ▸ ranked.leads.own rank (Finset.mem_filter.mpr ⟨inside, lead⟩)⟩

omit [Scalar S] in
theorem Ranked.map_leadRanks_found {h : Nat → Hierarchy}
    (ranked : Ranked (fun rank => nodes.getD rank 0) (Finset.range nodes.length)
      (Group.world nodes) h) {rank : Nat}
    (below : rank < nodes.length) (lead : (h rank).isLead) {α : Type} (value : Nat → α) :
    ((leadRanks h nodes.length).map value)[(h rank).leads.rank]? = some (value rank) := by
  rw [List.getElem?_map, (ranked.leadRanks_found below lead).2, Option.map_some]

/-! ### One system -/

section

variable {h : Nat → Hierarchy} {new : Nat → Group} {rows : Nat → List (List (Nat × S))}
  {handles : Nat → LeadHandles S} {b : Nat → Attached S}

omit [Scalar S] in
theorem leadCounts_eq (ranked : Ranked (fun rank => nodes.getD rank 0) (Finset.range nodes.length)
    (Group.world nodes) h) {rank : Nat} (below : rank < nodes.length) (lead : (h rank).isLead)
    (blocks : Nat → List (List (Nat × S))) :
    leadCounts blocks (h rank).leads = ((leadRanks h nodes.length).map blocks).map List.length := by
  rw [leadCounts, (ranked.leadRanks_found below lead).1, List.map_map]
  rfl

variable (ranked : Ranked (fun rank => nodes.getD rank 0) (Finset.range nodes.length)
  (Group.world nodes) h) (taken : ∀ rank ∈ Finset.range nodes.length,
    Taken h rows m handles (Group.world nodes rank).hub.ranks (a rank) rank (b rank))
include ranked taken

/-- The leads agree on the size of the system, and their rows start where those of the leads before
them end. -/
theorem lead_taken {rank : Nat} (below : rank < nodes.length) (lead : (h rank).isLead) :
    (m rank).globalRows = (jointOf h rows nodes.length).size ∧
    (m rank).globalCols = (jointOf h rows nodes.length).size ∧
      (m rank).rowStart =
      ((((leadRanks h nodes.length).map (teamBlock h rows)).map List.length).take
        (h rank).leads.rank).sum := by
  have inside := Finset.mem_range.mpr below
  obtain ⟨_, uploads⟩ := (taken rank inside).accepted
  rw [ranked.leadOf_self inside lead] at uploads
  obtain ⟨ordered, square, total, _⟩ := uploads
  have own := ordered rank (ranked.leads.mem (Finset.mem_filter.mpr ⟨inside, lead⟩))
  rw [InOrder, leadCounts_eq ranked below lead] at own
  exact ⟨own.2.symm, square.trans own.2.symm, own.1.symm⟩

/-- The rows are where they belong. -/
theorem tiles_of_taken (count : ∀ rank < nodes.length, (rows rank).length = (m rank).localRows) :
    Tiles h (List.range nodes.length) (fun rank => (m rank).rowStart)
    (fun rank => (m rank).localRows) (jointOf h rows nodes.length).size := by
  have lengths : ((leadRanks h nodes.length).map (teamBlock h rows)).map List.length =
      (leadRanks h nodes.length).map (teamRows h fun member => (rows member).length) := by
    rw [List.map_map]
    exact List.map_congr_left fun lead _ => length_teamBlock rows lead
  have tiles : Tiles h (List.range nodes.length) (fun rank => (m rank).rowStart)
      (fun rank => (rows rank).length) (jointOf h rows nodes.length).size := by
    rcases Nat.eq_zero_or_pos nodes.length with none | some_rank
    · rw [jointOf, leadRanks, none]
      exact ⟨fun _ wrong => (nomatch wrong), rfl⟩
    · refine (ranked.tiles_iff (Finset.mem_range.mpr some_rank)).mpr
        ⟨(taken 0 (Finset.mem_range.mpr some_rank)).accepted.1, fun lead member => ?_,
          congrArg List.sum lengths.symm⟩
      obtain ⟨among, leads⟩ := List.mem_filter.mp member
      rw [(lead_taken ranked taken (List.mem_range.mp among) leads).2.2, lengths, List.map_take]
      rfl
  exact tiles.congr fun rank member => (count rank (List.mem_range.mp member)).symm

/-- The rows that all ranks of a world have taken make up one system. -/
theorem holding_of_taken (together : Together (fun rank => nodes.getD rank 0)
      ((Finset.range nodes.length).filter fun rank => (h rank).isLead) new)
    (copied : ∀ rank ∈ Finset.range nodes.length, (h rank).isLead →
      (new rank).hub.ranks = (h rank).leads.hub.ranks)
    (valid : ∀ rank < nodes.length, (m rank).Valid)
    (memory : ((List.range nodes.length).map fun rank => (m rank).bytes).sum < 2 ^ 64)
    (block : ∀ rank < nodes.length, (m rank).localBlock =
      .ok (.ofRows (m rank).globalCols (rows rank)))
    (tidy : ∀ rank < nodes.length, ∀ row ∈ rows rank, Tidy (m rank).globalCols row)
    (count : ∀ rank < nodes.length, (rows rank).length = (m rank).localRows) :
    Holding nodes m h new rows := by
  obtain ⟨few, room, _, _⟩ := room_of_memory valid memory
  have tiles := tiles_of_taken ranked taken count
  have seat : ∀ rank < nodes.length, (h rank).isLead → (new rank).rank = (h rank).leads.rank :=
    fun rank below lead => (ranked.copied_seat together copied (Finset.mem_range.mpr below) lead).1
  refine ⟨⟨ranked, ⟨together, fun rank member => ?_⟩, Joint.sound_ofBands
    (fun band member => ?_) ?_,
    fun rank inside lead => ?_, fun rank _ => ?_⟩, seat, block, count, tidy, tiles⟩
  · obtain ⟨inside, lead⟩ := Finset.mem_filter.mp member
    rw [copied rank inside lead, (ranked.leadRanks_found (Finset.mem_range.mp inside) lead).1]
    exact (List.length_map _).symm
  · obtain ⟨lead, among, rfl⟩ := List.mem_map.mp member
    obtain ⟨inside, leads⟩ := List.mem_filter.mp among
    have below := List.mem_range.mp inside
    have columns := (taken lead (Finset.mem_range.mpr below)).tidy leads
    rwa [(lead_taken ranked taken below leads).2.1] at columns
  · have total : _ = (((leadRanks h nodes.length).map (teamBlock h rows)).map List.length).sum :=
      tiles.total
    rw [← total]
    exact room
  · have below := Finset.mem_range.mp inside
    show (((leadRanks h nodes.length).map (teamBlock h rows)).getD (new rank).rank []).length = _
    rw [List.getD_eq_getElem?_getD, seat rank below lead, ranked.map_leadRanks_found below lead,
      Option.getD_some, length_teamBlock]
    refine congrArg List.sum (List.map_congr_left fun member belongs => ?_)
    exact count member (Finset.mem_range.mp (ranked.team.of_mem inside belongs).1)
  · exact (List.length_range).trans_lt few

/-- A rank that has taken its share can solve. -/
theorem serves_of_taken (holding : Holding nodes m h new rows) {inst : Nat → Instance S}
    (opened : Open (Finset.range nodes.length) h handles a inst)
    {settings : Settings S} {rank : Nat} (below : rank < nodes.length)
    (origin : (h rank).isLead → (handles rank).origin = ⟨new rank, new rank, settings⟩) :
    ∃ loaded : LeadHandles S, (b rank).Serves (h rank)
      (segmentsOf (h rank).team fun rank => (m rank).localRows)
      ((jointOf h rows nodes.length).system (new rank).rank) (new rank) settings loaded := by
  have inside := Finset.mem_range.mpr below
  have layout : teamLayout (h rank).team rows = segmentsOf (h rank).team fun rank =>
      (m rank).localRows := by
    have counts : ((h rank).team.hub.ranks.map fun member => (rows member).length) =
        (h rank).team.hub.ranks.map fun member =>
          (m member).localRows := List.map_congr_left fun member belongs =>
      holding.count member (Finset.mem_range.mp (ranked.team.of_mem inside belongs).1)
    rw [teamLayout, segmentsOf, counts]
  have state : (a rank).solver.state =
      some ⟨h rank, if (h rank).isLead then some (handles rank) else none, (inst rank).layout⟩ := by
    rw [opened.state rank inside, ← opened.lead rank inside, ← opened.hierarchy rank inside]
  obtain ⟨after, received, left⟩ := (taken rank inside).received
  rw [left, layout]
  rw [Received] at received
  by_cases lead : (h rank).isLead
  · rw [if_pos lead] at received state
    obtain ⟨_, ⟨system, prepared, block, _, _, rfl⟩, rfl⟩ := received
    have place : (handles rank).matrix.leads = new rank := congrArg Origin.matrix (origin lead)
    obtain ⟨rows_size, columns_size, _⟩ := lead_taken ranked taken below lead
    have same : system = (jointOf h rows nodes.length).system (new rank).rank := by
      dsimp only at prepared
      rw [leadCounts_eq ranked below lead, place, holding.seat rank below lead, rows_size,
        columns_size] at prepared
      rw [holding.seat rank below lead, jointOf,
        Joint.system_ofBands (ranked.map_leadRanks_found below lead _)]
      exact Except.ok.inj (prepared.symm.trans (System.prepare_eq _ _ _))
    refine ⟨(handles rank).load system, ?_, fun _ => ?_⟩
    · rw [Attached.loaded, Attached.withLead, state, if_pos lead]
      rfl
    · rw [← same]
      exact ⟨rfl, rfl, rfl, congrArg Origin.solver (origin lead),
        congrArg Origin.settings (origin lead)⟩
  · rw [if_neg lead] at received state
    refine ⟨handles rank, ?_, fun holds => absurd holds lead⟩
    rw [received, Attached.loaded, state, if_neg lead]
    rfl

end

/-! ## Solving -/

/-- The ranks can solve together with these settings, and each of them has counted its failed solves
as solves. -/
structure Solvable (nodes : List Nat) (m : Nat → RowShare S) (h : Nat → Hierarchy)
    (new : Nat → Group) (rows : Nat → List (List (Nat × S))) (settings : Settings S)
    (handles : Nat → LeadHandles S) (a : Nat → Attached S) : Prop where
  holding : Holding nodes m h new rows
  serves : ∀ rank ∈ Finset.range nodes.length, (a rank).Serves (h rank)
    (segmentsOf (h rank).team fun rank => (m rank).localRows)
    ((jointOf h rows nodes.length).system (new rank).rank)
    (new rank) settings (handles rank)
  counted : ∀ rank < nodes.length, (a rank).solver.stats.failedSolves ≤ (a rank).solver.stats.solves

namespace Solvable

variable {h : Nat → Hierarchy} {new : Nat → Group} {rows : Nat → List (List (Nat × S))}
  {settings : Settings S}
  {handles : Nat → LeadHandles S} (solvable : Solvable nodes m h new rows settings handles a)
  {x b : Nat → List S}
include solvable

/-- Vectors that fit the rows of the ranks fit the bands of the leads. -/
theorem fits_partsOf (lengths : ∀ rank < nodes.length, (x rank).length = (m rank).localRows) :
    (jointOf h rows nodes.length).Fits (partsOf h nodes.length x) := by
  refine Joint.fits_of fun lead member => ?_
  have below := List.mem_range.mp (List.mem_filter.mp member).1
  rw [length_teamBlock, teamRows, List.length_flatten, List.map_map]
  refine congrArg List.sum (List.map_congr_left fun mate belongs => ?_)
  have inside := (solvable.holding.shared.ranked.team.of_mem (Finset.mem_range.mpr below) belongs).1
  exact (lengths mate (Finset.mem_range.mp inside)).trans
    (solvable.holding.count mate (Finset.mem_range.mp inside)).symm

theorem partsOf_seat {rank : Nat} (below : rank < nodes.length) (lead : (h rank).isLead)
    (x : Nat → List S) :
    partsOf h nodes.length x (new rank).rank = ((h rank).team.hub.ranks.map x).flatten := by
  rw [partsOf, Parts.of, List.getD_eq_getElem?_getD, solvable.holding.seat rank below lead,
    solvable.holding.shared.ranked.map_leadRanks_found below lead, Option.getD_some]

/-- Vectors that do not fit are refused on all ranks. -/
theorem solve_refused
    (some_misfit : 0 < misfits (fun rank => (m rank).localRows) x b (List.range nodes.length)) :
    Completes (Finset.range nodes.length)
    (fun rank => (Attached.solve (x rank) (b rank)).start (a rank)) fun v =>
      ∀ rank ∈ Finset.range nodes.length, v rank = (.error (DimensionError.vectors
        (misfits (fun rank => (m rank).localRows) x b (List.range nodes.length))
        (x rank).length (b rank).length (m rank).localRows), a rank) :=
  solvable.holding.shared.solve_refused solvable.serves fun _ _ => some_misfit

/-- With vectors that fit, all ranks find the joint solution. -/
theorem solve_completes
    (fits : ∀ rank < nodes.length, (x rank).length = (m rank).localRows ∧
      (b rank).length = (m rank).localRows)
    {status : Status} {iterations : Nat} {y : Parts S}
    (solved : (jointOf h rows nodes.length).solve settings
      (partsOf h nodes.length b) (partsOf h nodes.length x) = ((status, iterations), y)) :
    Completes (Finset.range nodes.length)
    (fun rank => (Attached.solve (x rank) (b rank)).start (a rank)) fun v =>
      ∀ rank ∈ Finset.range nodes.length, v rank = (a rank).resolved (h rank)
        (segmentsOf (h rank).team fun rank => (m rank).localRows) ((handles rank).solved
          (partsOf h nodes.length b (new rank).rank) (y (new rank).rank) status) status
        (segmentIn (h rank).team (fun rank => (m rank).localRows) rank
          (y (new (leadOf h rank)).rank)) :=
  solvable.holding.shared.solve_completes solvable.serves
    (fun rank inside => fits rank (Finset.mem_range.mp inside))
    (solvable.fits_partsOf fun rank below => (fits rank below).2)
    (solvable.fits_partsOf fun rank below => (fits rank below).1)
    (fun _ inside lead => ⟨solvable.partsOf_seat (Finset.mem_range.mp inside) lead x,
      solvable.partsOf_seat (Finset.mem_range.mp inside) lead b⟩) solved

/-- After a solve the ranks can solve again. -/
theorem solve {rounds rounds' : Rounds} {v : Nat → Attempt (Status × List S) × Attached S}
    (reach : Reaches (Finset.range nodes.length) rounds
      (fun rank => (Attached.solve (x rank) (b rank)).start (a rank))
      rounds' fun rank => .finished (v rank)) :
    ∃ handles, Solvable nodes m h new rows settings handles fun rank => (v rank).2 := by
  by_cases fits : misfits (fun rank => (m rank).localRows) x b (List.range nodes.length) = 0
  · rw [misfits_eq_zero_iff] at fits
    rcases solved : (jointOf h rows nodes.length).solve settings (partsOf h nodes.length b)
      (partsOf h nodes.length x) with ⟨⟨status, iterations⟩, y⟩
    obtain ⟨w, values, same⟩ :=
      (solvable.solve_completes (fun rank below => fits rank (List.mem_range.mpr below))
        solved).value reach
    refine ⟨fun rank => (handles rank).solved (partsOf h nodes.length b (new rank).rank)
      (y (new rank).rank) status, solvable.holding, fun rank inside => ?_, fun rank below => ?_⟩
    · rw [same rank inside, values rank inside]
      exact (solvable.serves rank inside).resolved _ _ _ _
    · rw [same rank (Finset.mem_range.mpr below), values rank (Finset.mem_range.mpr below)]
      exact Stats.lasting_failed_le.solved (solvable.counted rank below) _
  · obtain ⟨w, values, same⟩ := (solvable.solve_refused (Nat.pos_of_ne_zero fits)).value reach
    refine ⟨handles, solvable.holding, fun rank inside => ?_, fun rank below => ?_⟩
    · rw [same rank inside, values rank inside]
      exact solvable.serves rank inside
    · rw [same rank (Finset.mem_range.mpr below), values rank (Finset.mem_range.mpr below)]
      exact solvable.counted rank below

end Solvable

def settingsOf (config : Attempt (Settings S)) : Settings S :=
  match config with
  | .ok settings => settings
  | .error _ => ⟨0, Scalar.zero, 0⟩

/-- Ranks that have all taken a matrix can solve. -/
theorem solvable_of_taken {rounds rounds' : Rounds} {v : Nat → Attempt Unit × Attached S}
    (serving : Serving nodes (fun _ => config) a)
    (reach : Reaches (Finset.range nodes.length) rounds
      (fun rank => (Attached.setMatrix (m rank)).start (a rank)) rounds'
      fun rank => .finished (v rank)) (succeeded : ∀ rank < nodes.length, (v rank).1 = .ok ())
    (valid : ∀ rank < nodes.length, (m rank).Valid)
    (memory : ((List.range nodes.length).map fun rank => (m rank).bytes).sum < 2 ^ 64) :
    ∃ (h : Nat → Hierarchy) (new : Nat → Group) (rows : Nat →
      List (List (Nat × S))) (handles : Nat → LeadHandles S),
      Solvable nodes m h new rows (settingsOf config) handles fun rank => (v rank).2 := by
  obtain ⟨few, _, pointers, entries⟩ := room_of_memory valid memory
  obtain ⟨h, new, read, ranked, together, opened, stays⟩ :=
    serving.stays few Stats.lasting_failed_le
    fun stats none => by omega
  have copied := fun rank inside lead => (opened rank inside lead).1
  have known : ∀ rank ∈ Finset.range nodes.length, (h rank).isLead →
      read rank = settingsOf config := by
    intro rank inside lead
    rw [(opened rank inside lead).2]
    rfl
  obtain ⟨handles, inst, opens, origin⟩ := Open.of_stays stays fun rank inside lead => by
    rw [(ranked.copied_seat together copied inside lead).1,
      (ranked.copied_seat together copied inside lead).2]
    exact ranked.leads.rank_lt_size (Finset.mem_filter.mpr ⟨inside, lead⟩)
  choose! rows block tidy count stored using fun rank (below : rank < nodes.length) =>
    (valid rank below).exists_rows
  have fits : Fits rows (List.range nodes.length) := by
    constructor
    · rwa [List.map_congr_left fun rank member =>
        congrArg (· + 1) (count rank (List.mem_range.mp member))]
    · rwa [List.map_congr_left fun rank member => stored rank (List.mem_range.mp member)]
  have taken :=
    taken_of_ends ranked opens (fun rank inside => block rank (Finset.mem_range.mp inside))
    (fun rank inside => by
      rw [count rank (Finset.mem_range.mp inside)]
      exact (valid rank (Finset.mem_range.mp inside)).rowStop_lt)
    (fun _ _ => fits)
    (fun _ _ other inside => List.mem_range.mpr (Finset.mem_range.mp inside)) reach
    fun rank inside => succeeded rank (Finset.mem_range.mp inside)
  have holding := holding_of_taken ranked taken together copied valid memory block tidy count
  have some_handles : Nonempty (LeadHandles S) := ⟨handles 0⟩
  choose! loaded serves using fun rank (below : rank < nodes.length) =>
    serves_of_taken ranked taken holding opens below
    fun lead => known rank (Finset.mem_range.mpr below) lead ▸ origin rank
    (Finset.mem_range.mpr below) lead
  refine ⟨h, new, rows, loaded, holding, fun rank inside =>
    serves rank (Finset.mem_range.mp inside), fun rank below => ?_⟩
  have inside := Finset.mem_range.mpr below
  exact (reach.always inside
    (Attached.keeps_setMatrix Stats.lasting_failed_le (m rank) _ (stays rank inside))).2.1

/-- Ranks that have taken a matrix can solve, however often they have done so. -/
theorem Loaded.solvable (loaded : Loaded nodes config m a)
    (checked : ∀ rank < nodes.length, (m rank).validate = .ok ())
    (memory : ((List.range nodes.length).map fun rank => (m rank).bytes).sum < 2 ^ 64) :
    ∃ (h : Nat → Hierarchy) (new : Nat → Group) (rows : Nat →
      List (List (Nat × S))) (handles : Nat → LeadHandles S),
      Solvable nodes m h new rows (settingsOf config) handles a := by
  have valid : ∀ rank < nodes.length, (m rank).Valid := fun rank below =>
    RowShare.validate_eq_ok_iff.mp (checked rank below)
  induction loaded with
  | taken serving reach succeeded => exact solvable_of_taken serving reach succeeded valid memory
  | solved _ reach ih =>
    obtain ⟨h, new, rows, handles, solvable⟩ := ih
    obtain ⟨handles', solvable'⟩ := solvable.solve reach
    exact ⟨h, new, rows, handles', solvable'⟩

end DeviceTeams
