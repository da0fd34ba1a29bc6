import DeviceTeams.Proofs.Histories
import DeviceTeams.Proofs.Loading
import DeviceTeams.Proofs.Shares
import Mathlib.Algebra.BigOperators.Ring.List

/-!
# Which matrices are taken

On an instance whose engine serves nobody else, all ranks take a matrix or all ranks refuse it. They
take it exactly if it is square and the ranks' rows, in the order of the ranks, cover all rows.
-/
namespace DeviceTeams

variable {S : Type} {A : Finset Nat} {node : Nat → Nat} {G : Nat → Group} {h : Nat → Hierarchy}
  {handles : Nat → LeadHandles S} {m : Nat → RowShare S} {globalRows globalCols : Nat}

/-- Instances with these groups, where `part` of what the leads hold is known, and with it the seats
of their matrices. -/
theorem Open.of_part [Scalar S] {a : Nat → Attached S} {β : Type} (part : LeadHandles S → β)
    {known : Nat → β} (holds : ∀ rank ∈ A, ∃ inst, (a rank).solver.state = some inst ∧
      inst.hierarchy = h rank ∧
      inst.lead.map part = if (h rank).isLead then some (known rank) else none)
    (seat : ∀ rank ∈ A, (h rank).isLead → ∀ handles : LeadHandles S, part handles = known rank →
      handles.matrix.leads.rank < handles.matrix.leads.size) :
    ∃ (handles : Nat → LeadHandles S) (inst : Nat → Instance S), Open A h handles a inst ∧
      ∀ rank ∈ A, (h rank).isLead → part (handles rank) = known rank := by
  have parts : ∀ rank ∈ A, ∃ (inst : Instance S) (handles : LeadHandles S),
      (a rank).solver.state = some inst ∧ inst.hierarchy = h rank ∧
      inst.lead = (if (h rank).isLead then some handles else none) ∧
      ((h rank).isLead → part handles = known rank) := by
    intro rank inside
    obtain ⟨inst, state, groups, value⟩ := holds rank inside
    by_cases lead : (h rank).isLead
    · rw [if_pos lead, Option.map_eq_some_iff] at value
      obtain ⟨handles, found, value⟩ := value
      exact ⟨inst, handles, state, groups, by rw [if_pos lead, found], fun _ => value⟩
    · rw [if_neg lead, Option.map_eq_none_iff] at value
      refine ⟨inst, .fresh ⟨0, Scalar.zero, 0⟩ ⟨(h rank).global⟩, state, groups, ?_, fun holds =>
        absurd holds lead⟩
      rw [if_neg lead, value]
  have some_handles : Nonempty (LeadHandles S) := ⟨.fresh ⟨0, Scalar.zero, 0⟩ ⟨(h 0).global⟩⟩
  have some_inst : Nonempty (Instance S) := ⟨⟨h 0, none, none⟩⟩
  choose! inst handles state groups lead value using parts
  exact ⟨handles, inst, ⟨state, groups, lead, fun rank inside leads =>
    seat rank inside leads _ (value rank inside leads)⟩,
    value⟩

/-- Instances that still have their groups, where the matrices of the leads have seats in theirs. -/
theorem Open.of_kept [Scalar S] {a : Nat → Attached S} {places : Nat → Group}
    (kept : ∀ rank ∈ A, (a rank).Kept (a rank).context (h rank)
      (if (h rank).isLead then some (places rank) else none))
    (seat : ∀ rank ∈ A, (h rank).isLead → (places rank).rank < (places rank).size) :
    ∃ (handles : Nat → LeadHandles S) (inst : Nat → Instance S), Open A h handles a inst ∧
      ∀ rank ∈ A, (h rank).isLead → (handles rank).matrix.leads = places rank :=
  Open.of_part (·.matrix.leads) (fun rank inside => (kept rank inside).2)
    fun rank inside lead _ place => place ▸ seat rank inside lead

/-- An instance that was initialized on fresh contexts: the matrices of the leads have the seats of
the leads. -/
theorem Used.opened [Scalar S] {nodes : List Nat} {a : Nat → Attached S} (used : Used nodes a)
    (few : nodes.length < Word.limit) :
    ∃ (h : Nat → Hierarchy) (handles : Nat → LeadHandles S) (inst : Nat → Instance S),
      Ranked (fun rank => nodes.getD rank 0) (Finset.range nodes.length) (Group.world nodes) h ∧
      Open (Finset.range nodes.length) h handles a inst ∧
      ∀ rank ∈ Finset.range nodes.length, (h rank).isLead →
        (handles rank).matrix.leads.rank = (h rank).leads.rank ∧
        (handles rank).matrix.leads.size = (h rank).leads.size := by
  obtain ⟨h, new, ranked, together, ranks, kept⟩ := used.kept few
  have seats : ∀ rank ∈ Finset.range nodes.length, (h rank).isLead →
      (new rank).rank = (h rank).leads.rank ∧ (new rank).size = (h rank).leads.size :=
    fun rank inside leads => ranked.copied_seat together
      (fun rank inside => ranks rank (Finset.mem_range.mp inside)) inside leads
  have inner : ∀ rank ∈ Finset.range nodes.length, (h rank).isLead →
      (new rank).rank < (new rank).size := by
    intro rank inside leads
    rw [(seats rank inside leads).1, (seats rank inside leads).2]
    exact ranked.leads.rank_lt_size (Finset.mem_filter.mpr ⟨inside, leads⟩)
  obtain ⟨handles, inst, opened, place⟩ :=
    Open.of_kept (fun rank inside => kept rank (Finset.mem_range.mp inside)) inner
  exact ⟨h, handles, inst, ranked, opened, fun rank inside leads => by
    rw [place rank inside leads]
    exact seats rank inside leads⟩

/-- The instances of ranks that know their places. -/
theorem Used.opened_at [Scalar S] {nodes : List Nat} {a : Nat → Attached S} (used : Used nodes a)
    (few : nodes.length < Word.limit)
    (groups : ∀ rank < nodes.length, (a rank).solver.hierarchy = some (h rank)) :
    ∃ (handles : Nat → LeadHandles S) (inst : Nat → Instance S),
      Ranked (fun rank => nodes.getD rank 0) (Finset.range nodes.length) (Group.world nodes) h ∧
      Open (Finset.range nodes.length) h handles a inst ∧
      ∀ rank ∈ Finset.range nodes.length, (h rank).isLead →
        (handles rank).matrix.leads.rank = (h rank).leads.rank ∧
        (handles rank).matrix.leads.size = (h rank).leads.size := by
  obtain ⟨h', handles, inst, ranked, opened, seats⟩ := used.opened few
  have same : ∀ rank ∈ Finset.range nodes.length, h rank = h' rank := by
    intro rank inside
    have own := groups rank (Finset.mem_range.mp inside)
    rw [TeamSolver.hierarchy, opened.state rank inside, Option.map_some,
      opened.hierarchy rank inside, Option.some.injEq] at own
    exact own.symm
  refine ⟨handles, inst, ranked.congr same,
    ⟨opened.state, fun rank inside => ?_, fun rank inside => ?_,
    fun rank inside lead => ?_⟩, fun rank inside lead => ?_⟩
  · rw [same rank inside, opened.hierarchy rank inside]
  · rw [same rank inside, opened.lead rank inside]
  · exact opened.seat rank inside (same rank inside ▸ lead)
  · rw [same rank inside] at lead ⊢
    exact seats rank inside lead

/-- The rows of checked shares, if there is room for their buffers. -/
theorem rows_of_valid (valid : ∀ rank ∈ A, (m rank).Valid)
    (inside : ∀ rank ∈ A, ∀ member ∈ (G rank).hub.ranks, member ∈ A)
    (pointers : ∀ rank ∈ A,
      ((G rank).hub.ranks.map fun member => (m member).localRows + 1).sum * 8 < 2 ^ 63)
    (entries : ∀ rank ∈ A,
      ((G rank).hub.ranks.map fun member => (m member).localNnz).sum * 8 < 2 ^ 63) :
    ∃ rows : Nat → List (List (Nat × S)),
      (∀ rank ∈ A, (m rank).localBlock = .ok (.ofRows (m rank).globalCols (rows rank)) ∧
        (∀ row ∈ rows rank, Tidy (m rank).globalCols row) ∧
        (rows rank).length = (m rank).localRows) ∧
      (∀ rank ∈ A, (m rank).rowStart + (rows rank).length < Word.limit) ∧
      ∀ rank ∈ A, Fits rows (G rank).hub.ranks := by
  choose! rows block tidy count stored using fun rank (inside : rank ∈ A) =>
    (valid rank inside).exists_rows
  refine ⟨rows, fun rank member => ⟨block rank member, tidy rank member, count rank member⟩,
    fun rank member => ?_,
    fun rank member => ⟨?_, ?_⟩⟩
  · rw [count rank member]
    exact (valid rank member).rowStop_lt
  · rw [List.map_congr_left
      fun other belongs => by rw [count other (inside rank member other belongs)]]
    exact pointers rank member
  · rw [List.map_congr_left fun other belongs => stored other (inside rank member other belongs)]
    exact entries rank member

/-- Checked shares are spread over the ranks if there is room for their buffers. -/
theorem Spread.of_valid (valid : ∀ rank ∈ A, (m rank).Valid)
    (cols : ∀ rank ∈ A, (m rank).globalCols = globalCols) (small : globalCols ≤ 2 ^ 63)
    (inside : ∀ rank ∈ A, ∀ member ∈ (G rank).hub.ranks, member ∈ A)
    (pointers : ∀ rank ∈ A,
      ((G rank).hub.ranks.map fun member => (m member).localRows + 1).sum * 8 < 2 ^ 63)
    (entries : ∀ rank ∈ A,
      ((G rank).hub.ranks.map fun member => (m member).localNnz).sum * 8 < 2 ^ 63) :
    ∃ rows, Spread A G globalCols m rows ∧ ∀ rank ∈ A, (rows rank).length = (m rank).localRows := by
  obtain ⟨rows, blocks, stop, fits⟩ := rows_of_valid valid inside pointers entries
  refine ⟨rows, ⟨fun rank member => ?_, fun rank member => ?_, stop, small, fits⟩,
    fun rank member => (blocks rank member).2.2⟩
  · rw [(blocks rank member).1, cols rank member]
  · exact cols rank member ▸ (blocks rank member).2.1

/-- The leads bring the rows of their teams. -/
theorem leadCounts_teamBlock (ranked : Ranked node A G h) {rank : Nat} (inside : rank ∈ A)
    (rows : Nat → List (List (Nat × S))) {lead : Nat}
    (among : lead ∈ (G rank).hub.ranks.filter fun member => (h member).isLead) :
    leadCounts (teamBlock h rows) (h lead).leads =
    ((G rank).hub.ranks.filter fun member => (h member).isLead).map
      (teamRows h fun member => (rows member).length) := by
  obtain ⟨belongs, leads⟩ := List.mem_filter.mp among
  obtain ⟨lead_inside, same⟩ := ranked.ranks_eq inside belongs
  rw [leadCounts, ranked.leads_ranks lead lead_inside leads, same]
  exact List.map_congr_left fun lead _ => length_teamBlock rows lead

/-- Where the matrix of every lead has the lead's own seat, a matrix is taken exactly if it is
square for the lead of the team and the rows are where they belong for all leads. -/
theorem accepted_iff_tiles (ranked : Ranked node A G h) {rank : Nat} (inside : rank ∈ A)
    (cols : Nat → Nat) (rows : Nat → List (List (Nat × S)))
    (seats : ∀ rank ∈ A, (h rank).isLead → (handles rank).matrix.leads.rank = (h rank).leads.rank ∧
      (handles rank).matrix.leads.size = (h rank).leads.size) :
    Accepted h cols rows m handles (G rank).hub.ranks rank ↔
      (m (leadOf h rank)).globalRows = cols (leadOf h rank) ∧
        ∀ lead ∈ (G rank).hub.ranks, (h lead).isLead →
          Tiles h (G rank).hub.ranks (fun member => (m member).rowStart)
          (fun member => (rows member).length) (m lead).globalRows := by
  have lead_inside := ranked.leadOf_inside inside
  have lead := ranked.isLead_leadOf inside
  have among := ranked.team_subset inside (ranked.leadOf_mem inside)
  have leads_ranks : (h (leadOf h rank)).leads.hub.ranks = (G rank).hub.ranks.filter fun member =>
      (h member).isLead := by
    rw [ranked.leads_ranks _ lead_inside lead, (ranked.ranks_eq inside among).2]
  rw [Accepted, Uploads, leads_ranks, MatrixHandle.Takes,
    leadCounts_teamBlock ranked inside rows (List.mem_filter.mpr ⟨among, lead⟩), length_teamBlock,
    (seats _ lead_inside lead).1, (seats _ lead_inside lead).2]
  have length : (((G rank).hub.ranks.filter fun member => (h member).isLead).map
      (teamRows h fun member => (rows member).length)).length = (h (leadOf h rank)).leads.size := by
    rw [List.length_map, Group.size_eq, leads_ranks]
  have own : (((G rank).hub.ranks.filter fun member => (h member).isLead).map
      (teamRows h fun member => (rows member).length))[(h (leadOf h rank)).leads.rank]? =
      some (teamRows h (fun member => (rows member).length) (leadOf h rank)) := by
    rw [List.getElem?_map, ranked.leads_found inside]
    rfl
  have in_order : ∀ other ∈ (G rank).hub.ranks.filter fun member => (h member).isLead,
      (InOrder (teamBlock h rows) (h other).leads (m other) ↔
        (m other).rowStart = ((((G rank).hub.ranks.filter fun member => (h member).isLead).take
          (h other).leads.rank).map (teamRows h fun member => (rows member).length)).sum ∧
        (((G rank).hub.ranks.filter fun member => (h member).isLead).map
          (teamRows h fun member => (rows member).length)).sum = (m other).globalRows) := by
    intro other member
    rw [InOrder, leadCounts_teamBlock ranked inside rows member, ← List.map_take]
    exact and_congr_left fun _ => eq_comm
  constructor
  · rintro ⟨ordered, leads, square, _⟩
    refine ⟨square.symm, fun other belongs leading =>
      (ranked.tiles_iff inside).mpr ⟨ordered, fun other member => ?_, ?_⟩⟩
    · exact ((in_order other member).mp (leads other member)).1
    · have member : other ∈ (G rank).hub.ranks.filter fun member => (h member).isLead :=
        List.mem_filter.mpr ⟨belongs, leading⟩
      exact ((in_order other member).mp (leads other member)).2
  · rintro ⟨square, tiles⟩
    obtain ⟨ordered, starts, total⟩ := (ranked.tiles_iff inside).mp (tiles _ among lead)
    refine ⟨ordered, fun other member => (in_order other member).mpr ⟨starts other member, ?_⟩,
      square.symm, total, length, own⟩
    obtain ⟨belongs, leading⟩ := List.mem_filter.mp member
    exact ((ranked.tiles_iff inside).mp (tiles other belongs leading)).2.2

/-- Where all leads have the same numbers of rows and columns, a matrix is taken exactly if it is
square and its rows are where they belong. -/
theorem accepted_iff (ranked : Ranked node A G h) {rank : Nat} (inside : rank ∈ A)
    (globalCols : Nat) (rows : Nat → List (List (Nat × S)))
    (sizes : ∀ rank ∈ A, (m rank).globalRows = globalRows)
    (seats : ∀ rank ∈ A, (h rank).isLead → (handles rank).matrix.leads.rank = (h rank).leads.rank ∧
      (handles rank).matrix.leads.size = (h rank).leads.size) :
    Accepted h (fun _ => globalCols) rows m handles (G rank).hub.ranks rank ↔
      globalRows = globalCols ∧ Tiles h (G rank).hub.ranks (fun member => (m member).rowStart)
        (fun member => (rows member).length) globalRows := by
  have lead_inside := ranked.leadOf_inside inside
  have among := ranked.team_subset inside (ranked.leadOf_mem inside)
  rw [accepted_iff_tiles ranked inside _ rows seats, sizes _ lead_inside]
  refine and_congr_right fun _ => ⟨fun tiles => ?_, fun tiles lead belongs _ => ?_⟩
  · exact sizes _ lead_inside ▸ tiles _ among (ranked.isLead_leadOf inside)
  · exact sizes lead (ranked.ranks_eq inside belongs).1 ▸ tiles

/-- Bytes that the arrays of a block take. -/
def Csr.bytes (block : Csr S) : Nat :=
  8 * (block.rowPointers.size + block.colIndices.size + block.values.size)

def RowShare.bytes (m : RowShare S) : Nat := m.diagonal.bytes + m.offDiagonal.bytes

theorem RowShare.Valid.bytes_eq {m : RowShare S} (valid : m.Valid) :
    m.bytes = 16 * (m.localRows + 1) + 16 * m.localNnz := by
  have laid := (Csr.validate_eq_ok_iff_wellStored.mp valid.diagonal).2.toLaid
  have laid' := (Csr.validate_eq_ok_iff_wellStored.mp valid.offDiagonal).2.toLaid
  have same := valid.sameRows
  rw [RowShare.bytes, Csr.bytes, Csr.bytes, laid.pointerCount, laid'.pointerCount, laid.columnCount,
    laid'.columnCount, localRows, localNnz, Csr.nnz, Csr.nnz]
  omega

theorem sum_bytes {members : List Nat} (valid : ∀ member ∈ members, (m member).Valid) :
    (members.map fun member => (m member).bytes).sum =
      16 * (members.map fun member => (m member).localRows + 1).sum +
        16 * (members.map fun member => (m member).localNnz).sum := by
  rw [List.map_congr_left fun member belongs => (valid member belongs).bytes_eq, List.sum_map_add,
    List.sum_map_mul_left, List.sum_map_mul_left]

/-- Shares in one memory leave room for the buffers of a team. -/
theorem room_of_bytes {members : List Nat} (valid : ∀ member ∈ members, (m member).Valid)
    (memory : (members.map fun member => (m member).bytes).sum < 2 ^ 64) :
    (members.map fun member => (m member).localRows + 1).sum * 8 < 2 ^ 63 ∧
      (members.map fun member => (m member).localNnz).sum * 8 < 2 ^ 63 ∧
      members.length < Word.limit := by
  have total := sum_bytes valid
  have several : members.length ≤ (members.map fun member => (m member).localRows + 1).sum := by
    rw [List.sum_map_add]
    simp
  rw [Word.limit]
  omega

/-- What ranks have after they have tried to set a matrix: all of them take it and count it, or all
of them refuse it and are left as they were. -/
theorem setMatrix_settles [Scalar S] {nodes : List Nat} {a : Nat → Attached S} (used : Used nodes a)
    (groups : ∀ rank < nodes.length, (a rank).solver.hierarchy = some (h rank))
    (checked : ∀ rank < nodes.length, (m rank).validate = .ok ())
    (sizes : ∀ rank < nodes.length, (m rank).globalRows = globalRows ∧
      (m rank).globalCols = globalCols)
    (small : globalCols < 2 ^ 63)
    (memory : ((List.range nodes.length).map fun rank => (m rank).bytes).sum < 2 ^ 64)
    (few : ∀ rank < nodes.length, (a rank).solver.stats.matrixUploads < 2 ^ 32 - 1) :
    Completes (Finset.range nodes.length) (fun rank => (Attached.setMatrix (m rank)).start (a rank))
    fun v =>
      ∀ rank < nodes.length, Settles (a rank) (v rank)
        (globalRows = globalCols ∧ Tiles h (List.range nodes.length)
          (fun member => (m member).rowStart) (fun member => (m member).localRows) globalRows)
        fun b => b.solver.hierarchy = (a rank).solver.hierarchy ∧
          b.solver.stats.matrixUploads = (a rank).solver.stats.matrixUploads + 1 ∧
          b.solver.stats.solves = (a rank).solver.stats.solves := by
  have valid : ∀ rank ∈ Finset.range nodes.length, (m rank).Valid := fun rank inside =>
    RowShare.validate_eq_ok_iff.mp (checked rank (Finset.mem_range.mp inside))
  have ranks : ∀ rank, (Group.world nodes rank).hub.ranks = List.range nodes.length := fun _ => rfl
  obtain ⟨pointers, entries, word⟩ := room_of_bytes
      (fun rank (member : rank ∈ List.range nodes.length) =>
    valid rank (Finset.mem_range.mpr (List.mem_range.mp member))) memory
  rw [List.length_range] at word
  obtain ⟨handles, inst, ranked, opened, seats⟩ := used.opened_at word groups
  obtain ⟨rows, spread, counts⟩ := Spread.of_valid (G := Group.world nodes) valid
    (fun rank inside => (sizes rank (Finset.mem_range.mp inside)).2) (Nat.le_of_lt small)
    (fun rank _ member belongs => Finset.mem_range.mpr (List.mem_range.mp belongs))
    (fun _ _ => pointers) fun _ _ => entries
  refine (setMatrix_completes ranked opened spread
    (fun _ _ other inside => List.mem_range.mpr (Finset.mem_range.mp inside))
    fun rank inside => by have := few rank (Finset.mem_range.mp inside); omega).mono
    fun v settled rank below => ?_
  have inside := Finset.mem_range.mpr below
  have counts' : ∀ member ∈ List.range nodes.length, (rows member).length = (m member).localRows :=
    fun member belongs => counts member (Finset.mem_range.mpr (List.mem_range.mp belongs))
  have accepted := accepted_iff ranked inside globalCols rows
    (fun rank inside => (sizes rank (Finset.mem_range.mp inside)).1) seats
  rw [ranks] at accepted
  refine ⟨fun holds => ?_, fun fails => (settled rank inside).refuses fun holds => fails ?_⟩
  · obtain ⟨square, tiles⟩ := holds
    obtain ⟨ok, after, received, left⟩ :=
      (settled rank inside).accepts (accepted.mpr ⟨square, tiles.congr counts'⟩)
    refine ⟨ok, ?_, ?_, ?_⟩
    · rw [left, ← received.hierarchy_eq]
      exact Option.map_map ..
    · rw [left, ← received.stats_eq]
      rfl
    · rw [left, ← received.stats_eq]
      rfl
  · obtain ⟨square, tiles⟩ := accepted.mp holds
    exact ⟨square, tiles.congr fun member belongs => (counts' member belongs).symm⟩

/-- All ranks take the matrix, or all of them refuse it and are left as they were. All shares are in
one memory. -/
theorem setMatrix_verdict [Scalar S] {nodes : List Nat} {a : Nat → Attached S} (used : Used nodes a)
    (groups : ∀ rank < nodes.length, (a rank).solver.hierarchy = some (h rank))
    (checked : ∀ rank < nodes.length, (m rank).validate = .ok ())
    (sizes : ∀ rank < nodes.length, (m rank).globalRows = globalRows ∧
      (m rank).globalCols = globalCols)
    (small : globalCols < 2 ^ 63)
    (memory : ((List.range nodes.length).map fun rank => (m rank).bytes).sum < 2 ^ 64)
    (few : ∀ rank < nodes.length, (a rank).solver.stats.matrixUploads < 2 ^ 32 - 1)
    {hubs : Hubs S} {rounds : Rounds} (resting : hubs.Resting rounds) :
    ∃ v : Nat → Attempt Unit × Attached S,
      (World.ofPrograms nodes.length
        (fun rank => (Attached.setMatrix (m rank)).start (a rank)) hubs).EndsWith
        ((List.range nodes.length).map fun rank => some (v rank)) ∧
      ∀ rank < nodes.length, Settles (a rank) (v rank)
        (globalRows = globalCols ∧ Tiles h (List.range nodes.length)
          (fun member => (m member).rowStart) (fun member => (m member).localRows) globalRows)
        fun b => b.solver.stats.matrixUploads = (a rank).solver.stats.matrixUploads + 1 := by
  obtain ⟨v, settled, ends⟩ :=
    (setMatrix_settles used groups checked sizes small memory few).endsWith resting
  exact ⟨v, ends, fun rank below => (settled rank below).mono fun _ changed => changed.2.1⟩

/-- The identity on two ranks, a row for each of them. -/
theorem setMatrix_verdict_pair :
    ∃ (h : Nat → Hierarchy) (a : Nat → Attached Float) (v : Nat → Attempt Unit × Attached Float),
    Used [0, 0] a ∧
    (World.ofPrograms 2 (fun rank =>
        (Attached.setMatrix ⟨2, 2, rank, rank, .ofRows 1 [[(0, 1.0)]], .ofRows 0 [[]], #[]⟩).start
      (a rank)) []).EndsWith ((List.range 2).map fun rank => some (v rank)) ∧
    ∀ rank < 2, Settles (a rank) (v rank)
      (2 = 2 ∧ Tiles h (List.range 2) (fun member => member) (fun _ => 1) 2)
      fun b => b.solver.stats.matrixUploads = (a rank).solver.stats.matrixUploads + 1 := by
  obtain ⟨h, a, used, states⟩ := Call.Feasible.used (S := Float) [0, 0]
    (Call.plain (Group.world [0, 0] 0) 1) (fun _ => 0) (by decide) (fun _ _ _ _ _ => rfl)
    (fun _ _ => Call.feasible_plain _ (by decide) (by decide))
  obtain ⟨v, ends, settles⟩ := setMatrix_verdict used (h := h)
    (m := fun rank => ⟨2, 2, rank, rank, .ofRows 1 [[(0, 1.0)]], .ofRows 0 [[]], #[]⟩)
    (fun rank below => (states rank below).1) (fun rank below => by
      have place : rank = 0 ∨ rank = 1 := by
        simp only [List.length_cons, List.length_nil] at below
        omega
      rcases place with rfl | rfl <;> rfl)
    (fun _ _ => ⟨rfl, rfl⟩) (by decide) (by decide)
    (fun rank below => by rw [(states rank below).2]; decide)
    Hubs.resting_nil
  exact ⟨h, a, v, used, ends, settles⟩

end DeviceTeams
