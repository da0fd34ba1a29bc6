import DeviceTeams.Proofs.Requests
import DeviceTeams.Proofs.Stacking
import DeviceTeams.Proofs.Verdicts

/-!
# Assembly through the teams

Ranks that cover a square matrix with their rows hand in contributions to these. What the leads
prepare for the engine, put below one another, is the matrix assembled from all contributions at
once.
-/
namespace DeviceTeams

variable {S : Type} [Scalar S] {node : Nat → Nat} {h : Nat → Hierarchy} {n size : Nat}
  {rows cols : Nat → Span} {triplets : Nat → List (Triplet S)}

/-- Contributions of `n` ranks to a square matrix that their rows cover. Two arrays of pointers for
each rank's rows and the triplets of all ranks are in one memory. -/
structure Contributions (h : Nat → Hierarchy) (n size : Nat) (rows cols : Nat → Span)
    (triplets : Nat → List (Triplet S)) : Prop where
  tiles : Tiles h (List.range n) (fun rank => (rows rank).start)
    (fun rank => (rows rank).length) size
  columns : ∀ rank < n, (cols rank).start ≤ size ∧ (cols rank).stop ≤ size
  inside : ∀ rank < n, ∀ t ∈ triplets rank, (rows rank).contains t.row = true ∧ t.column < size
  memory : 16 * (size + n) + 24 *
    ((List.range n).map fun rank => (triplets rank).length).sum < 2 ^ 64

def Attached.system? (a : Attached S) : Option (System S) := do
  (← (← a.solver.state).lead).solver.system

namespace Contributions

variable {G : Nat → Group} (contributions : Contributions h n size rows cols triplets)
include contributions

/-- Every rank's share can be made. -/
theorem shares (ranked : Ranked node (Finset.range n) G h)
    (all : ∀ rank < n, (G rank).hub.ranks = List.range n) :
    ∃ (m : Nat → RowShare S) (lines : Nat → List (List (Nat × S))), ∀ rank < n,
      RowShare.ofTriplets size size (rows rank) (cols rank) (triplets rank) = .ok (m rank) ∧
      (m rank).Collects size size (rows rank) (triplets rank) (lines rank) := by
  have memory := contributions.memory
  have some_share : Nonempty (RowShare S) := ⟨⟨0, 0, 0, 0, .ofRows 0 [], .ofRows 0 [], #[]⟩⟩
  have each : ∀ rank < n, ∃ (m : RowShare S) (lines : List (List (Nat × S))),
      RowShare.ofTriplets size size (rows rank) (cols rank) (triplets rank) = .ok m ∧
      m.Collects size size (rows rank) (triplets rank) lines := by
    intro rank below
    have inside := Finset.mem_range.mpr below
    have tiles := contributions.tiles
    rw [← all rank below] at tiles
    have stop := ranked.stop_le inside tiles (ranked.mem inside)
    obtain ⟨start_le, stop_le⟩ := contributions.columns rank below
    have column_stop : (cols rank).start + (cols rank).length ≤ size := by
      rw [Span.length]
      omega
    have word : size < Word.limit := by
      rw [Word.limit]
      omega
    exact RowShare.ofTriplets_spec (contributions.inside rank below) stop column_stop
      (Nat.lt_of_le_of_lt stop word) (Nat.lt_of_le_of_lt column_stop word) (by omega)
  choose! m lines made collects using each
  exact ⟨m, lines, fun rank below => ⟨made rank below, collects rank below⟩⟩

/-- The shares are spread over the ranks. -/
theorem spread (ranked : Ranked node (Finset.range n) G h) {m : Nat → RowShare S}
    {lines : Nat → List (List (Nat × S))} (all : ∀ rank < n, (G rank).hub.ranks = List.range n)
    (collects : ∀ rank < n, (m rank).Collects size size (rows rank) (triplets rank) (lines rank)) :
    Spread (Finset.range n) G size m lines := by
  have memory := contributions.memory
  have counts : ((List.range n).map fun rank => (lines rank).length).sum = size := by
    rw [← contributions.tiles.total, List.map_congr_left fun rank member =>
      (collects rank (List.mem_range.mp member)).count]
  have pointers : ((List.range n).map fun rank => (lines rank).length + 1).sum = size + n := by
    rw [List.sum_map_add, counts]
    simp
  have entries : ((List.range n).map fun rank => (lines rank).flatten.length).sum ≤
      ((List.range n).map fun rank => (triplets rank).length).sum :=
    List.sum_le_sum fun rank member => (collects rank (List.mem_range.mp member)).short
  refine ⟨fun rank inside => ?_, fun rank inside => ?_,
    fun rank inside => ?_, by omega, fun rank inside => ⟨?_, ?_⟩⟩
  · exact (collects rank (Finset.mem_range.mp inside)).block
  · intro row member
    obtain ⟨place, found⟩ := List.mem_iff_getElem?.mp member
    exact ((collects rank (Finset.mem_range.mp inside)).sums place row found).tidy fun t among =>
      (contributions.inside rank (Finset.mem_range.mp inside) t among).2
  · have own := collects rank (Finset.mem_range.mp inside)
    have tiles := contributions.tiles
    rw [← all rank (Finset.mem_range.mp inside)] at tiles
    have stop := ranked.stop_le inside tiles (ranked.mem inside)
    rw [own.rowStart_eq, own.count, Word.limit]
    omega
  · rw [all rank (Finset.mem_range.mp inside)]
    omega
  · rw [all rank (Finset.mem_range.mp inside)]
    omega

/-- The shares cover the matrix. -/
theorem tiles_shares {m : Nat → RowShare S} {lines : Nat → List (List (Nat × S))}
    (collects : ∀ rank < n, (m rank).Collects size size (rows rank) (triplets rank) (lines rank)) :
    Tiles h (List.range n) (fun rank => (m rank).rowStart)
    (fun rank => (lines rank).length) size := by
  have counted :=
    contributions.tiles.congr fun rank member => (collects rank (List.mem_range.mp member)).count
  exact ⟨fun rank member => (collects rank (List.mem_range.mp member)).rowStart_eq.trans
    (counted.starts rank member), counted.total⟩

/-- The rows of all teams, in the order of the leads, are those of the matrix that is assembled from
everything. -/
theorem plain_eq (ranked : Ranked node (Finset.range n) G h)
    (all : ∀ rank < n, (G rank).hub.ranks = List.range n) {m : Nat → RowShare S}
    {lines : Nat → List (List (Nat × S))}
    (collects : ∀ rank < n, (m rank).Collects size size (rows rank) (triplets rank) (lines rank)) :
    Csr.ofTriplets size size ((List.range n).flatMap triplets) =
      .ok (.ofRows size
        (((List.range n).filter fun rank => (h rank).isLead).map (teamBlock h lines)).flatten) := by
  have memory := contributions.memory
  have tiles := contributions.tiles_shares collects
  have below : ∀ t ∈ (List.range n).flatMap triplets, t.row < size := by
    intro t member
    obtain ⟨rank, belongs, among⟩ := List.mem_flatMap.mp member
    have inside := Finset.mem_range.mpr (List.mem_range.mp belongs)
    have own := collects rank (List.mem_range.mp belongs)
    have within := (contributions.inside rank (List.mem_range.mp belongs) t among).1
    rw [← all rank (List.mem_range.mp belongs)] at tiles
    have stop := ranked.stop_le inside tiles (ranked.mem inside)
    rw [own.rowStart_eq, own.count, Span.length] at stop
    simp only [Span.contains, Bool.and_eq_true, decide_eq_true_eq] at within
    omega
  rcases Nat.eq_zero_or_pos n with none | some_rank
  · subst none
    have empty : size = 0 := contributions.tiles.total.symm
    subst empty
    rfl
  · obtain ⟨plain, made, count, sums, _⟩ := Csr.ofTriplets_spec _ below (by omega) size
    have inside := Finset.mem_range.mpr some_rank
    have group := all 0 some_rank
    rw [made, flatten_teamBlocks]
    rw [← group] at tiles sums ⊢
    refine congrArg (fun rows => Except.ok (Csr.ofRows size rows)) (sums.unique ?_ ?_)
    · refine ranked.assembles_inOrder inside tiles (fun member belongs => ?_)
        fun member belongs t among => ?_
      · have own := collects member (List.mem_range.mp (group ▸ belongs))
        rw [own.rowStart_eq]
        exact own.sums
      · have own := collects member (List.mem_range.mp (group ▸ belongs))
        have within := (contributions.inside member (List.mem_range.mp (group ▸ belongs)) t among).1
        simp only [Span.contains, Bool.and_eq_true, decide_eq_true_eq] at within
        rw [own.rowStart_eq, own.count, Span.length]
        omega
    · have lengths : ((inOrder h (G 0).hub.ranks).map lines).flatten.length = size := by
        rw [List.length_flatten, List.map_map, ← tiles.total]
        exact ((ranked.teams_perm inside).map fun rank => (lines rank).length).sum_eq
      rw [count, lengths]

end Contributions

/-- What a lead has prepared of a matrix: its rows start where the rows of its team start, right
behind the rows of the leads before it, and the rows of all leads make up the matrix. -/
structure Prepared (leads : Group) (size start : Nat) (matrix : Csr S) (system : Nat → System S)
    (lead : Nat) : Prop where
  globalRows : (system lead).globalRows = size
  firstRow : (system lead).firstRow = start
  above : (system lead).firstRow =
    ((leads.hub.ranks.take leads.rank).map fun other => (system other).block.nrows).sum
  stacked : Csr.stack size (leads.hub.ranks.map fun other => (system other).block) = matrix

structure HoldsTeam (h : Nat → Hierarchy) (size : Nat) (lines : Nat → List (List (Nat × S)))
    (system : System S) (lead : Nat) : Prop where
  block : system.block = .ofRows size (teamBlock h lines lead)
  firstRow : system.firstRow =
    ((leadCounts (teamBlock h lines) (h lead).leads).take (h lead).leads.rank).sum
  globalRows : system.globalRows = size

/-- Where the systems of the leads have the rows of their teams, they make up the matrix that is
assembled from everything. -/
theorem Contributions.prepared {G : Nat → Group}
    (contributions : Contributions h n size rows cols triplets)
    (ranked : Ranked node (Finset.range n) G h)
    (all : ∀ rank < n, (G rank).hub.ranks = List.range n) {m : Nat → RowShare S}
    {lines : Nat → List (List (Nat × S))}
    (collects : ∀ rank < n, (m rank).Collects size size (rows rank) (triplets rank) (lines rank))
    {plain : Csr S} (made : Csr.ofTriplets size size ((List.range n).flatMap triplets) = .ok plain)
    {system : Nat → System S}
    (holds : ∀ rank < n, (h rank).isLead → HoldsTeam h size lines (system rank) rank) {rank : Nat}
    (below : rank < n) (lead : (h rank).isLead) (order :
      ((leadCounts (teamBlock h lines) (h rank).leads).take (h rank).leads.rank).sum =
      (m rank).rowStart) :
    Prepared (h rank).leads size (rows rank).start plain system rank := by
  have inside := Finset.mem_range.mpr below
  have first := (holds rank below lead).firstRow
  have leads_ranks := ranked.leads_ranks rank inside lead
  have members : ∀ other ∈ (h rank).leads.hub.ranks, (system other).block = .ofRows size
      (teamBlock h lines other) := by
    intro other belongs
    rw [leads_ranks] at belongs
    obtain ⟨other_inside, leads⟩ := Finset.mem_filter.mp (ranked.mem_leads inside belongs)
    exact (holds other (Finset.mem_range.mp other_inside) leads).block
  refine ⟨(holds rank below lead).globalRows, ?_, ?_, ?_⟩
  · rw [first, order, (collects rank below).rowStart_eq]
  · rw [first, leadCounts, ← List.map_take]
    refine congrArg List.sum (List.map_congr_left fun other belongs => ?_)
    rw [members other (List.mem_of_mem_take belongs)]
    rfl
  · have whole := contributions.plain_eq ranked all collects
    rw [made, Except.ok.injEq] at whole
    rw [List.map_congr_left members, whole, leads_ranks, all rank below,
      ← Csr.stack_ofRows, List.map_map]
    rfl

omit [Scalar S] in
/-- Instances that have been initialized together and never used are open. -/
theorem Open.of_fresh {a : Nat → Attached S} {A : Finset Nat} {new : Nat → Group}
    {settings : Nat → Settings S}
    (together : Together node (A.filter fun rank => (h rank).isLead) new)
    (states : ∀ rank ∈ A, (a rank).solver.state = some ⟨h rank,
      if (h rank).isLead then some (.fresh (settings rank) ⟨new rank⟩) else none, none⟩) :
    Open A h (fun rank => .fresh (settings rank) ⟨new rank⟩) a fun rank =>
      ⟨h rank, if (h rank).isLead then some (.fresh (settings rank) ⟨new rank⟩)
        else none, none⟩ where
  state := states
  hierarchy _ _ := rfl
  lead _ _ := rfl
  seat _ inside lead := together.rank_lt_size (Finset.mem_filter.mpr ⟨inside, lead⟩)

/-- A lead that has received the rows of its team on fresh handles holds them as its system. -/
theorem Received.holdsTeam {a : Nat → Attached S} {new : Nat → Group} {settings : Nat → Settings S}
    {m : Nat → RowShare S} {lines : Nat → List (List (Nat × S))} {rank : Nat} {after : Attached S}
    (received : Received (fun _ => size) (teamBlock h lines) h m
      (fun rank => .fresh (settings rank) ⟨new rank⟩) (a rank) rank after) (lead : (h rank).isLead)
    (state : (a rank).solver.state = some ⟨h rank,
      if (h rank).isLead then some (.fresh (settings rank) ⟨new rank⟩) else none, none⟩)
    (seat : (new rank).rank = (h rank).leads.rank) (global : (m rank).globalRows = size)
    (layout : VectorLayout) :
    ∃ system, (after.loaded layout).system? = some system ∧ HoldsTeam h size lines system rank := by
  rw [Received, if_pos lead] at received
  obtain ⟨_, ⟨system, _, block, first, globalRows, rfl⟩, rfl⟩ := received
  refine ⟨system, ?_, block, ?_, globalRows.trans global⟩
  · rw [Attached.system?, Attached.loaded, Attached.withLead, state]
    rfl
  · rw [first, ← seat]
    rfl

/-- Ranks that have just initialized an instance set the matrix to which they contribute. -/
theorem Contributions.completes {a : Nat → Attached S} {G : Nat → Group} {new : Nat → Group}
    {settings : Nat → Settings S} (contributions : Contributions h n size rows cols triplets)
    (ranked : Ranked node (Finset.range n) G h)
    (all : ∀ rank < n, (G rank).hub.ranks = List.range n)
    (together : Together node ((Finset.range n).filter fun rank => (h rank).isLead) new)
    (ranks : ∀ rank ∈ Finset.range n, (h rank).isLead →
      (new rank).hub.ranks = (h rank).leads.hub.ranks)
    (states : ∀ rank ∈ Finset.range n, (a rank).solver.stats.matrixUploads = 0 ∧
      (a rank).solver.state = some ⟨h rank,
      if (h rank).isLead then some (.fresh (settings rank) ⟨new rank⟩) else none, none⟩)
    {m : Nat → RowShare S} {lines : Nat → List (List (Nat × S))}
    (collects : ∀ rank < n, (m rank).Collects size size (rows rank) (triplets rank) (lines rank))
    {plain : Csr S}
    (made : Csr.ofTriplets size size ((List.range n).flatMap triplets) = .ok plain) :
    Completes (Finset.range n) (fun rank => (Attached.setMatrix (m rank)).start (a rank)) fun v =>
      ∃ system : Nat → System S, ∀ rank < n, (v rank).1 = .ok () ∧ ((h rank).isLead →
        (v rank).2.system? = some (system rank) ∧
        Prepared (h rank).leads size (rows rank).start plain system rank) := by
  have seats :=
    fun rank (inside : rank ∈ Finset.range n) lead => ranked.copied_seat together ranks inside lead
  have sizes : ∀ rank ∈ Finset.range n, (m rank).globalRows = size := fun rank inside =>
    (collects rank (Finset.mem_range.mp inside)).globalRows_eq
  refine (setMatrix_completes ranked (.of_fresh together fun rank inside => (states rank inside).2)
    (contributions.spread ranked all collects)
    (fun rank inside other inside' => ?_) fun rank inside => ?_).mono fun v settled => ?_
  · rw [all rank (Finset.mem_range.mp inside)]
    exact List.mem_range.mpr (Finset.mem_range.mp inside')
  · rw [(states rank inside).1]
    decide
  have accepted : ∀ rank ∈ Finset.range n, Accepted h (fun _ => size) lines m
      (fun rank => .fresh (settings rank) ⟨new rank⟩) (G rank).hub.ranks rank := by
    intro rank inside
    rw [accepted_iff ranked inside size lines sizes seats, all rank (Finset.mem_range.mp inside)]
    exact ⟨rfl, contributions.tiles_shares collects⟩
  have some_system : Nonempty (System S) := ⟨⟨.ofRows 0 [], 0, 0, []⟩⟩
  have each : ∀ rank ∈ Finset.range n, ∃ system : System S, (v rank).1 = .ok () ∧ ((h rank).isLead →
      (v rank).2.system? = some system ∧ HoldsTeam h size lines system rank) := by
    intro rank inside
    obtain ⟨ok, after, received, left⟩ := (settled rank inside).accepts (accepted rank inside)
    by_cases lead : (h rank).isLead
    · obtain ⟨system, found, holds⟩ :=
        received.holdsTeam lead (states rank inside).2 (seats rank inside lead).1
        (sizes rank inside) (teamLayout (h rank).team lines)
      exact ⟨system, ok, fun _ => ⟨left ▸ found, holds⟩⟩
    · exact ⟨Classical.choice some_system, ok, fun leads => absurd leads lead⟩
  choose! system ended holds using each
  refine ⟨system, fun rank below => ⟨ended rank (Finset.mem_range.mpr below), fun lead => ?_⟩⟩
  have inside := Finset.mem_range.mpr below
  have own : rank ∈ (h (leadOf h rank)).leads.hub.ranks := by
    rw [ranked.leadOf_self inside lead]
    exact ranked.leads.mem (Finset.mem_filter.mpr ⟨inside, lead⟩)
  have order := ((accepted rank inside).2.1 rank own).1
  exact ⟨(holds rank inside lead).1, contributions.prepared ranked all collects made
    (fun other below' lead' => (holds other (Finset.mem_range.mpr below') lead').2)
    below lead order⟩

/-- Ranks of a world initialize an instance with one call. Whatever square matrix they then cover
with their rows, and whatever they contribute to it, what they set through the teams is the matrix
assembled from all contributions. -/
theorem teams_assemble (nodes : List Nat) (call : Call) {mode : Mode} {settings : Settings S}
    (visible : Nat → Nat) (word : nodes.length + 1 < Word.limit)
    (alike : ∀ rank < nodes.length, ∀ other < nodes.length,
      machine (nodes.getD · 0) other = machine (nodes.getD · 0) rank → visible other = visible rank)
    (feasible : ∀ rank < nodes.length, call.Feasible (visible rank) nodes.length mode settings)
    {hubs : Hubs S} {rounds : Rounds} (resting : hubs.Resting rounds) :
    ∃ (h : Nat → Hierarchy) (a : Nat → Attached S),
      (World.ofPrograms nodes.length
        (fun rank => ((call.on (Group.world nodes rank)).work).start (.fresh (visible rank)))
        hubs).EndsWith ((List.range nodes.length).map fun rank => some (.ok (), a rank)) ∧
      (∀ rank < nodes.length, (a rank).solver.hierarchy = some (h rank)) ∧
      ∀ (size : Nat) (rows cols : Nat → Span) (triplets : Nat → List (Triplet S)),
        Contributions h nodes.length size rows cols triplets →
        ∃ (m : Nat → RowShare S) (matrix : Csr S) (b : Nat → Attached S) (system : Nat → System S),
          (∀ rank < nodes.length,
            RowShare.ofTriplets size size (rows rank) (cols rank) (triplets rank) = .ok (m rank)) ∧
          Csr.ofTriplets size size ((List.range nodes.length).flatMap triplets) = .ok matrix ∧
          (World.ofPrograms nodes.length
            (fun rank => ((call.on (Group.world nodes rank)).work >>= fun _ =>
            Attached.setMatrix (m rank)).start (.fresh (visible rank))) hubs).EndsWith
              ((List.range nodes.length).map fun rank => some (.ok (), b rank)) ∧
          ∀ lead < nodes.length, (h lead).isLead → (b lead).system? = some (system lead) ∧
            Prepared (h lead).leads size (rows lead).start matrix system lead := by
  have all : ∀ rank, (Group.world nodes rank).hub.ranks = List.range nodes.length := fun _ => rfl
  have initializes := Call.Feasible.completes (S := S) call
    (a := fun rank => .fresh (visible rank)) (Together.world nodes) (sound_fresh visible)
    (fun rank _ => by rw [all, List.length_range]; exact word) (fun _ _ => rfl)
    (fun rank inside other inside' =>
      alike rank (Finset.mem_range.mp inside) other (Finset.mem_range.mp inside'))
    (fun rank inside => by
      rw [all, List.length_range]; exact feasible rank (Finset.mem_range.mp inside))
  obtain ⟨rounds', v, reach, h, new, established⟩ := initializes rounds
  obtain ⟨together, ranks, states⟩ := established.fresh
  have ranked := established.ranked
  have ended : ∀ rank ∈ Finset.range nodes.length, v rank = (.ok (), (v rank).2) :=
    fun rank inside => Prod.ext (states rank inside).1 rfl
  refine ⟨h, fun rank => (v rank).2,
    (reach.congr (fun _ _ => rfl) fun rank inside => by rw [← ended rank inside]).endsWith
    resting, fun rank below => ?_, fun size rows cols triplets contributions => ?_⟩
  · rw [TeamSolver.hierarchy, (states rank (Finset.mem_range.mpr below)).2.2, Option.map_some]
  · obtain ⟨m, lines, shares⟩ := contributions.shares ranked fun rank _ => all rank
    have collects := fun rank below => (shares rank below).2
    have made := contributions.plain_eq ranked (fun rank _ => all rank) collects
    have sets := contributions.completes ranked (fun rank _ => all rank) together ranks
      (fun rank inside => (states rank inside).2) collects made
    obtain ⟨rounds'', w, whole, system, holds⟩ :=
      reach.followed ended (f := fun rank _ => Attached.setMatrix (m rank)) sets
    refine ⟨m, _, fun rank => (w rank).2, system, fun rank below => (shares rank below).1, made,
      (whole.congr (fun _ _ => rfl) fun rank inside => ?_).endsWith resting, fun lead below leads =>
        (holds lead below).2 leads⟩
    exact congrArg Program.finished (Prod.ext (holds rank (Finset.mem_range.mp inside)).1 rfl)

/-- Three ranks on two machines with a device each: two ranks share one of them. Every rank counts
the column of its own number as its own, and has one entry in it and one in the next column. -/
theorem teams_assemble_three :
    ∃ (h : Nat → Hierarchy) (rows : Nat → Span) (m : Nat → RowShare Float)
    (matrix : Csr Float) (b : Nat → Attached Float) (system : Nat → System Float),
    (∀ rank < 3, RowShare.ofTriplets 3 3 (rows rank) ⟨rank, rank + 1⟩
      [⟨(rows rank).start, rank, 2.0⟩, ⟨(rows rank).start, (rank + 1) % 3, 1.0⟩] = .ok (m rank)) ∧
    (World.ofPrograms 3 (fun rank => (((Call.plain (Group.world [0, 0, 1] 0) 1).on
      (Group.world [0, 0, 1] rank)).work >>= fun _ => Attached.setMatrix (m rank)).start
      (.fresh 0)) []).EndsWith ((List.range 3).map fun rank => some (.ok (), b rank)) ∧
    ∀ lead < 3, (h lead).isLead → (b lead).system? = some (system lead) ∧
      Prepared (h lead).leads 3 (rows lead).start matrix system lead := by
  obtain ⟨h, a, _, _, sets⟩ := teams_assemble (S := Float) [0, 0, 1]
    (Call.plain (Group.world [0, 0, 1] 0) 1) (fun _ => 0) (by decide) (fun _ _ _ _ _ => rfl)
    (fun _ _ => Call.feasible_plain _ (by decide) (by decide)) Hubs.resting_nil
  let start := rowsBefore h (List.range 3) fun _ => 1
  have lengths : ∀ rank, (Span.mk (start rank) (start rank + 1)).length = 1 :=
    fun rank => Nat.add_sub_cancel_left ..
  have tiles : Tiles h (List.range 3) start
    (fun rank => (Span.mk (start rank) (start rank + 1)).length) 3 :=
    (Tiles.mk (fun _ _ => rfl) rfl : Tiles h (List.range 3) start (fun _ => 1) 3).congr
      fun rank _ => lengths rank
  obtain ⟨m, matrix, b, system, made, _, ends, holds⟩ :=
    sets 3 (fun rank => ⟨start rank, start rank + 1⟩)
    (fun rank => ⟨rank, rank + 1⟩)
    (fun rank => [⟨start rank, rank, 2.0⟩, ⟨start rank, (rank + 1) % 3, 1.0⟩]) {
      tiles := tiles
      columns := fun rank below => ⟨Nat.le_of_lt below, below⟩
      inside := fun rank below t member => by
        have row : (Span.mk (start rank) (start rank + 1)).contains (start rank) = true := by
          simp [Span.contains]
        rcases List.mem_cons.mp member with rfl | next
        · exact ⟨row, below⟩
        · rw [List.mem_singleton.mp next]
          exact ⟨row, Nat.mod_lt _ (by decide)⟩
      memory := by simp }
  exact ⟨h, _, m, matrix, b, system, made, ends, holds⟩

end DeviceTeams
