import DeviceTeams.Proofs.OneTeam

/-!
# Solves are all or nothing

Whatever vectors the ranks bring to a solve, either all of them are refused because some vectors do
not fit, and nothing has changed, or all of them receive one status and each its own part of the
solution.
-/
namespace DeviceTeams

variable {S : Type} [Scalar S] {nodes : List Nat} {config : Attempt (Settings S)}
  {m : Nat → RowShare S} {a : Nat → Attached S}

/-- Where there is room in the counters a solve is counted. -/
theorem Stats.solved_of_few {stats : Stats} (few : stats.solves < 2 ^ 32 - 1)
    (counted : stats.failedSolves ≤ stats.solves) (status : Status) :
    (stats.solved status).1 = .ok () ∧ (stats.solved status).2.solves = stats.solves + 1 ∧
      (stats.solved status).2.failedSolves = stats.failedSolves + if status.isSuccess
      then 0 else 1 := by
  rw [solved, if_pos (by omega)]
  by_cases success : status.isSuccess
  · simp only [if_pos success]
    exact ⟨trivial, rfl, rfl⟩
  · simp only [if_neg success]
    rw [if_pos (by omega)]
    exact ⟨rfl, rfl, rfl⟩

/-! ## The joint solution -/

namespace Solvable

variable {h : Nat → Hierarchy} {new : Nat → Group} {rows : Nat → List (List (Nat × S))}
  {settings : Settings S}
  {handles : Nat → LeadHandles S} (solvable : Solvable nodes m h new rows settings handles a)
  {x b : Nat → List S}
include solvable

/-- The leads sit in their duplicated group as in the group that they duplicated. -/
theorem ownPart_eq (y : Parts S) {rank : Nat} (below : rank < nodes.length) : ownPart h m y rank =
    segmentIn (h rank).team (fun member => (m member).localRows) rank
    (y (new (leadOf h rank)).rank) := by
  have ranked := solvable.holding.shared.ranked
  have inside := Finset.mem_range.mpr below
  have seat :=
    solvable.holding.seat (leadOf h rank) (Finset.mem_range.mp (ranked.leadOf_inside inside))
    (ranked.isLead_leadOf inside)
  rw [ownPart, seat]

variable (fits : ∀ rank < nodes.length, (x rank).length = (m rank).localRows ∧
  (b rank).length = (m rank).localRows)
include fits

/-- A rank's part of the joint solution is as long as its rows are many. -/
theorem length_ownPart {rank : Nat} (below : rank < nodes.length) :
    (ownPart h m (jointSolve h rows settings nodes.length x b).2 rank).length =
    (m rank).localRows := by
  have shared := solvable.holding.shared
  have inside := Finset.mem_range.mpr below
  have fits_y := Joint.fits_solve shared.sound settings
    (solvable.fits_partsOf fun rank below => (fits rank below).2)
    (solvable.fits_partsOf fun rank below => (fits rank below).1)
  have length := (fits_y _ (shared.held.seat_lt (shared.ranked.leadOf_lead inside))).trans
    (shared.length_band inside)
  rw [solvable.ownPart_eq _ below]
  exact shared.ranked.team.length_segmentIn inside length

/-- With vectors that fit, all ranks succeed with one status and their parts of the joint solution,
and count the solve. -/
theorem solve_succeeds (few : ∀ rank < nodes.length, (a rank).solver.stats.solves < 2 ^ 32 - 1)
    {status : Status} {iterations : Nat} {y : Parts S}
    (solved : jointSolve h rows settings nodes.length x b = ((status, iterations), y)) :
    Completes (Finset.range nodes.length)
    (fun rank => (Attached.solve (x rank) (b rank)).start (a rank)) fun v =>
      ∀ rank < nodes.length, (v rank).1 = .ok (status, ownPart h m y rank) ∧
        (v rank).2.context = (a rank).context ∧
        (v rank).2.solver.stats.solves = (a rank).solver.stats.solves + 1 ∧
        (v rank).2.solver.stats.failedSolves =
          (a rank).solver.stats.failedSolves + if status.isSuccess then 0 else 1 := by
  refine (solvable.solve_completes fits solved).mono fun v values rank below => ?_
  obtain ⟨ok, counts⟩ := Stats.solved_of_few (few rank below) (solvable.counted rank below) status
  rw [values rank (Finset.mem_range.mpr below), Attached.resolved, ok, solvable.ownPart_eq y below]
  exact ⟨rfl, rfl, counts⟩

end Solvable

/-- Ranks that have all taken a matrix solve together in any order of their steps. If the vectors of
some rank do not have the length of its rows, every rank is told how many these are and is left as
it was. Otherwise every rank succeeds with the same status, that of the joint solve, has its vector
replaced by its own segment of its team's part of the joint solution, and counts the solve. All
shares are in one memory. -/
theorem solve_all_or_none (loaded : Loaded nodes config m a)
    (checked : ∀ rank < nodes.length, (m rank).validate = .ok ())
    (memory : ((List.range nodes.length).map fun rank => (m rank).bytes).sum < 2 ^ 64)
    (few : ∀ rank < nodes.length, (a rank).solver.stats.solves < 2 ^ 32 - 1) (x b : Nat → List S)
    {hubs : Hubs S} {rounds : Rounds} (resting : hubs.Resting rounds) :
    ∃ (h : Nat → Hierarchy) (rows : Nat → List (List (Nat × S)))
      (v : Nat → Attempt (Status × List S) × Attached S),
      (∀ rank < nodes.length, (a rank).solver.hierarchy = some (h rank) ∧
        (m rank).localBlock = .ok (.ofRows (m rank).globalCols (rows rank))) ∧
      (World.ofPrograms nodes.length
        (fun rank => (Attached.solve (x rank) (b rank)).start (a rank)) hubs).EndsWith
        ((List.range nodes.length).map fun rank => some (v rank)) ∧
      ((∃ rank < nodes.length,
        ¬ ((x rank).length = (m rank).localRows ∧ (b rank).length = (m rank).localRows)) →
        ∀ rank < nodes.length, v rank = (.error (DimensionError.vectors
          (misfits (fun rank => (m rank).localRows) x b (List.range nodes.length))
          (x rank).length (b rank).length (m rank).localRows), a rank)) ∧
      ((∀ rank < nodes.length, (x rank).length = (m rank).localRows ∧
        (b rank).length = (m rank).localRows) →
        ∃ (status : Status) (iterations : Nat) (y : Parts S),
          jointSolve h rows (settingsOf config) nodes.length x b = ((status, iterations), y) ∧
          ∀ rank < nodes.length, (v rank).1 = .ok (status, ownPart h m y rank) ∧
            (ownPart h m y rank).length = (m rank).localRows ∧
            (v rank).2.context = (a rank).context ∧
            (v rank).2.solver.stats.solves = (a rank).solver.stats.solves + 1 ∧
            (v rank).2.solver.stats.failedSolves =
              (a rank).solver.stats.failedSolves + if status.isSuccess then 0 else 1) := by
  obtain ⟨h, new, rows, handles, solvable⟩ := loaded.solvable checked memory
  have named : ∀ rank < nodes.length, (a rank).solver.hierarchy = some (h rank) ∧
      (m rank).localBlock = .ok (.ofRows (m rank).globalCols (rows rank)) := fun rank below =>
    ⟨(solvable.serves rank (Finset.mem_range.mpr below)).hierarchy_eq,
      solvable.holding.block rank below⟩
  by_cases fits : ∀ rank < nodes.length,
      (x rank).length = (m rank).localRows ∧ (b rank).length = (m rank).localRows
  · obtain ⟨⟨⟨status, iterations⟩, y⟩, solved⟩ : ∃ found,
        jointSolve h rows (settingsOf config) nodes.length x b = found := ⟨_, rfl⟩
    obtain ⟨v, succeeded, ends⟩ := (solvable.solve_succeeds fits few solved).endsWith resting
    refine ⟨h, rows, v, named, ends, fun ⟨rank, below, misfit⟩ => absurd (fits rank below) misfit,
      fun _ => ⟨status, iterations, y, solved, fun rank below => ?_⟩⟩
    have length := solvable.length_ownPart fits below
    rw [solved] at length
    exact ⟨(succeeded rank below).1, length, (succeeded rank below).2⟩
  · have some_misfit : 0 < misfits (fun rank => (m rank).localRows) x b
        (List.range nodes.length) := by
      refine Nat.pos_of_ne_zero fun none => fits fun rank below => ?_
      exact misfits_eq_zero_iff.mp none rank (List.mem_range.mpr below)
    obtain ⟨v, values, ends⟩ := (solvable.solve_refused some_misfit).endsWith resting
    exact ⟨h, rows, v, named, ends, fun _ rank below => values rank (Finset.mem_range.mpr below),
      fun all => absurd all fits⟩

/-- Two rows, one on each of two ranks. The entry right of the diagonal is outside of the first
rank's columns. -/
def rowEach (rank : Nat) : RowShare Float :=
  if rank = 0 then ⟨2, 2, 0, 0, .ofRows 1 [[(0, 4.0)]], .ofRows 1 [[(0, 1.0)]], #[1]⟩
  else ⟨2, 2, 1, 1, .ofRows 1 [[(0, 3.0)]], .ofRows 0 [[]], #[]⟩

theorem validate_rowEach : ∀ rank < 2, (rowEach rank).validate = .ok () := by
  intro rank below
  have place : rank = 0 ∨ rank = 1 := by omega
  rcases place with rfl | rfl <;> rfl

theorem localBlock_rowEach : ∀ rank < 2, (rowEach rank).localBlock =
    .ok (.ofRows 2 (if rank = 0 then [[(0, 4.0), (1, 1.0)]] else [[(1, 3.0)]])) := by
  intro rank below
  have place : rank = 0 ∨ rank = 1 := by omega
  rcases place with rfl | rfl <;> rfl

theorem flatten_rowEach {rows : Nat → List (List (Nat × Float))}
    (blocks : ∀ rank < 2,
      (rowEach rank).localBlock = .ok (.ofRows (rowEach rank).globalCols (rows rank))) :
    ((List.range 2).map rows).flatten = [[(0, 4.0), (1, 1.0)], [(1, 3.0)]] := by
  have held : ∀ rank < 2, rows rank =
      if rank = 0 then [[(0, 4.0), (1, 1.0)]] else [[(1, 3.0)]] := by
    intro rank below
    have columns : (rowEach rank).globalCols = 2 := by
      rw [rowEach]
      split <;> rfl
    have block := (blocks rank below).symm.trans (localBlock_rowEach rank below)
    rw [columns] at block
    exact Csr.ofRows_injective (Except.ok.inj block)
  show rows 0 ++ (rows 1 ++ []) = _
  rw [held 0 (by decide), held 1 (by decide)]
  rfl

/-- Two ranks that share one device hold a row each. Each of them receives its entry of what their
lead finds with both rows. If one of them brings no right-hand side both are refused and left as
they were. -/
theorem solve_all_or_none_pair : ∃ (a : Nat → Attached Float)
    (v w : Nat → Attempt (Status × List Float) × Attached Float) (status : Status)
    (iterations : Nat) (y : Parts Float), Loaded [0, 0] (.ok Settings.standard.toScalar) rowEach a ∧
    (Joint.ofBands [[[(0, 4.0), (1, 1.0)], [(1, 3.0)]]]).solve Settings.standard.toScalar
      (.of [[1.0, 2.0]]) (.of [[0.0, 0.0]]) = ((status, iterations), y) ∧
    (World.ofPrograms 2
      (fun rank => (Attached.solve [0.0] [if rank = 0 then 1.0 else 2.0]).start (a rank))
      []).EndsWith ((List.range 2).map fun rank => some (v rank)) ∧
    (∀ rank < 2, (v rank).1 = .ok (status, ((y 0).drop rank).take 1)) ∧
    (World.ofPrograms 2
      (fun rank => (Attached.solve [0.0] (if rank = 0 then [1.0] else [])).start (a rank))
      []).EndsWith ((List.range 2).map fun rank => some (w rank)) ∧
    ∀ rank < 2, w rank =
      (.error (DimensionError.vectors 1 1 (if rank = 0 then 1 else 0) 1), a rank) := by
  have either : ∀ rank < 2, rank = 0 ∨ rank = 1 := fun rank below => by omega
  have rows_one : ∀ rank < 2, (rowEach rank).localRows = 1 := by
    intro rank below
    rcases either rank below with rfl | rfl <;> rfl
  obtain ⟨h, a, loaded, team, states⟩ :=
    exists_loaded [0, 0] rowEach (by decide) (by decide) (by decide) validate_rowEach
    (fun rank below => by rcases either rank below with rfl | rfl <;> exact ⟨rfl, rfl⟩) (by decide)
    (fun rank below => by rcases either rank below with rfl | rfl <;> rfl) rfl (by decide)
  have few : ∀ rank < 2, (a rank).solver.stats.solves < 2 ^ 32 - 1 := fun rank below => by
    rw [(states rank below).2]
    decide
  obtain ⟨h', rows, v, named, ends, _, solves⟩ :=
    solve_all_or_none loaded validate_rowEach (by decide) few
    (fun _ => [0.0]) (fun rank => [if rank = 0 then 1.0 else 2.0]) Hubs.resting_nil
  obtain ⟨status, iterations, y, joint, answers⟩ :=
    solves fun rank below => ⟨(rows_one rank below).symm, (rows_one rank below).symm⟩
  obtain ⟨_, _, w, _, ends', refuses, _⟩ :=
    solve_all_or_none loaded validate_rowEach (by decide) few
    (fun _ => [0.0]) (fun rank => if rank = 0 then [1.0] else []) Hubs.resting_nil
  have refused := refuses ⟨1, by decide, fun fits => Nat.zero_ne_one fits.2⟩
  have one_team : OneTeam 2 h' := team.congr fun rank below =>
    Option.some.inj ((named rank below).1.symm.trans (states rank below).1)
  refine ⟨a, v, w, status, iterations, y, loaded, ?_, ends, fun rank below => ?_, ends',
    fun rank below => ?_⟩
  · have together : (jointOf h' rows 2).solve Settings.standard.toScalar
        (partsOf h' 2 fun rank => [if rank = 0 then 1.0 else 2.0]) (partsOf h' 2 fun _ => [0.0]) =
          ((status, iterations), y) := joint
    rw [one_team.jointOf_eq, one_team.partsOf_eq, one_team.partsOf_eq,
      flatten_rowEach fun rank below => (named rank below).2] at together
    exact together
  · rw [(answers rank below).1, one_team.ownPart_eq rowEach y below, rows_one rank below]
    rcases either rank below with rfl | rfl <;> rfl
  · rw [refused rank below, rows_one rank below]
    rcases either rank below with rfl | rfl <;> rfl

end DeviceTeams
