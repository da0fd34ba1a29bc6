import DeviceTeams.Proofs.Forgetting
import DeviceTeams.Proofs.Laplacian
import DeviceTeams.Proofs.Lifetimes

/-!
# Runs of the program

A run places its ranks on nodes in blocks and cuts the rows into blocks as well, so that the teams
take the matrix whatever the numbers of ranks, nodes, devices and rows are. Every rank comes through
the run and the first one reports.
-/
namespace DeviceTeams

variable {S : Type} {A : Finset Nat} {node : Nat → Nat} {G : Nat → Group} {h : Nat → Hierarchy}
  {nodes : List Nat}

/-! ## Instances with resources -/

/-- An initialized instance that has resources if it holds the engine. -/
structure Attached.Backed (visible : Nat) (b : Attached S) : Prop where
  steady : b.context.Steady visible
  initialized : b.solver.isInitialized
  backed : b.solver.holds → b.context.shared.isSome

namespace Attached.Backed

variable {visible : Nat} {a b : Attached S}

/-- An initialization that succeeds leaves an instance with resources. -/
theorem of_opens (steady : a.context.Steady visible) (opens : a.Opens (.ok ()) b) :
    b.Backed visible := by
  cases opens with
  | other _ initialized idle same =>
    exact ⟨same ▸ steady.register, initialized, fun holds => absurd holds idle⟩
  | joined _ initialized _ held same =>
    refine ⟨same ▸ (steady.register.answers (.joined held)).resolve_left (by simp),
      initialized, fun _ => ?_⟩
    simp [same, Context.joined, Context.register, held]
  | started _ initialized _ free same =>
    refine ⟨same ▸ (steady.register.answers (.started free)).resolve_left (by simp),
      initialized, fun _ => ?_⟩
    rw [same]
    rfl

/-- Setting a matrix and solving leave an instance its resources. -/
theorem keeps {α : Type} {work : Step S α}
    (stays : ∀ context hierarchy origin, work.Keeps
      (Stays (fun _ => True) context hierarchy origin)) :
    work.Keeps (Backed visible) := by
  intro a backed
  obtain ⟨inst, state⟩ := Option.isSome_iff_exists.mp backed.initialized
  refine (keeps_kept (stays a.context inst.hierarchy) a ⟨rfl, inst, state, rfl, rfl⟩).mono
    fun ended place => ?_
  obtain ⟨same, initialized, holds⟩ := place.state_eq state
  constructor
  · exact same ▸ backed.steady
  · exact initialized.trans backed.initialized
  · rw [same, holds]
    exact backed.backed

end Attached.Backed

/-- Ranks that have counted their devices in one call come to the same counts on each machine. -/
theorem Ranked.assigned_of_call
    (ranked : Ranked (fun rank => nodes.getD rank 0) (Finset.range nodes.length)
      (Group.world nodes) h) {call : Call}
    {visible : Nat}
    (housed : Hierarchy.Housed (fun rank => nodes.getD rank 0) (Finset.range nodes.length)
      (Group.world nodes)
      (fun rank => (call.on (Group.world nodes rank)).count (Attached.fresh (S := S) visible)) h)
    (word : nodes.length + 1 < Word.limit) :
    Assigned (fun rank => nodes.getD rank 0) (Finset.range nodes.length)
      (Group.world nodes) (fun rank => (h rank).deviceCount) h := by
  refine ranked.assigned housed (fun rank _ => by rwa [Hub.length_ranks])
    fun rank inside mate belongs => ?_
  obtain ⟨within, meets⟩ := housed.mates.of_mem inside belongs
  have size : (h rank).node.size = (h mate).node.size := by rw [Group.size, Group.size, meets]
  have own : (call.on (Group.world nodes mate)).count (Attached.fresh (S := S) visible)
    (h rank).node = _ :=
    Call.count_of_size size (housed.counts mate within)
  exact Except.ok.inj (own.symm.trans (housed.counts rank inside))

variable [Scalar S]

theorem Initialized.backed {config : Attempt (Settings S)} {calls : Nat → Call}
    {visible : Nat → Nat} {a : Nat → Attached S}
    (initialized : Initialized nodes config calls visible a) {rank : Nat}
    (inside : rank ∈ Finset.range nodes.length) : (a rank).Backed (visible rank) := by
  obtain ⟨rounds, rounds', reach⟩ := initialized.ended
  have steady : (Attached.fresh (S := S) (visible rank)).context.Steady (visible rank) :=
    ⟨rfl, rfl, rfl⟩
  exact .of_opens steady (reach.always inside ((calls rank).opens steady))

/-- Ranks that hold a matrix solve with vectors that fit its rows. -/
theorem Holds.solve_succeeds {config : Attempt (Settings S)} {a : Nat → Attached S}
    {m : Nat → RowShare S} (holds : Holds nodes config h a (some m)) {x b : Nat → List S}
    (fits : ∀ rank < nodes.length, (x rank).length = (m rank).localRows ∧
      (b rank).length = (m rank).localRows)
    (few : ∀ rank < nodes.length, (a rank).solver.stats.solves < 2 ^ 32 - 1) :
    Completes (Finset.range nodes.length)
    (fun rank => (Attached.solve (x rank) (b rank)).start (a rank)) fun v =>
      ∃ status, ∀ rank < nodes.length, ∃ own, (v rank).1 = .ok (status, own) ∧
        own.length = (m rank).localRows := by
  cases holds with
  | @matrix _ h' _ rows _ _ _ solvable =>
    rcases solved : jointSolve h' rows (settingsOf config) nodes.length x
      b with ⟨⟨status, iterations⟩, y⟩
    refine (solvable.solve_succeeds fits few solved).mono fun v answers =>
      ⟨status, fun rank below => ?_⟩
    have length := solvable.length_ownPart fits below
    rw [solved] at length
    exact ⟨ownPart h' m y rank, (answers rank below).1, length⟩

namespace CommandLine

open Assignment (band)

/-! ## A rank's share of a run -/

def Options.call (options : Options) (file : ConfigFile) (group : Group) : Call where
  group := group
  mode := options.mode
  path := options.config
  file := file
  devices := match options.devices with
    | some count => .exactly count
    | none => .automatic

def conclude (n : Nat) (rows : Span) (entries : List (Triplet S)) (group : Group)
    (answer : Status × List S) :
    Attached.Step S (Option (Report S)) := do
  let norm ← Work.ofTask (residual group n rows entries answer.2)
  let stats := (← get).solver.stats
  Attached.finalize
  pure (if group.isRoot then some ⟨answer.1, norm, stats⟩ else none)

def solveShare (n : Nat) (rows : Span) (entries : List (Triplet S)) (share : RowShare S)
    (group : Group) :
    Attached.Step S (Option (Report S)) := do
  Attached.setMatrix share
  let answer ← Attached.solve (List.replicate rows.length Scalar.zero)
    (List.replicate rows.length Scalar.one)
  conclude n rows entries group answer

def solveRows (n : Nat) (group : Group) : Attached.Step S (Option (Report S)) := do
  let rows ← Work.ofAttempt (blockSpan n group.size group.rank)
  let entries ← Work.ofAttempt (laplacianRows n rows)
  let share ← Work.ofAttempt (RowShare.ofTriplets n n rows rows entries)
  solveShare n rows entries share group

theorem runRank_eq (options : Options) (file : ConfigFile) (group : Group) :
    (runRank options file group : Attached.Step S (Option (Report S))) =
      (options.call file group).work >>= fun _ => solveRows options.rows group := rfl

/-- A rank ends well: it answers with a report if it is the first of its group, and without one
otherwise. -/
def EndsWell (group : Group) (outcome : Attempt (Option (Report S))) : Prop :=
  ∃ report, outcome = .ok (if group.isRoot then some report else none)

theorem conclude_completes {n visible : Nat} {b : Nat → Attached S} (t : Together node A G)
    (backed : ∀ rank ∈ A, (b rank).Backed visible) {rows : Nat → Span}
    {entries : Nat → List (Triplet S)} {answer : Nat → Status × List S}
    (fits : ∀ rank ∈ A, (rows rank).start ≤ (rows rank).stop ∧ (rows rank).stop ≤ n ∧
      (answer rank).2.length = (rows rank).length)
    (columns : ∀ rank ∈ A, ∀ t ∈ entries rank, t.column < n) :
    Completes A (fun rank => (conclude n (rows rank) (entries rank) (G rank) (answer rank)).start
      (b rank)) fun v =>
      ∀ rank ∈ A, EndsWell (G rank) (v rank).1 := by
  have some_end : Nonempty (Attempt (Option (Report S)) × Attached S) := ⟨.error .aborted, b 0⟩
  refine (residual_succeeds t fits columns).followedBy fun norm _ =>
    .each (fun rank (ended : Attempt (Option (Report S)) × Attached S) => EndsWell (G rank) ended.1)
      fun rank inside => ?_
  obtain ⟨inst, state⟩ := Option.isSome_iff_exists.mp (backed rank inside).initialized
  obtain ⟨b', finalized, _⟩ :=
    Attached.finalize_closes (backed rank inside).steady (backed rank inside).backed state
  rw [Work.start_get_bind, Work.start_bind, finalized]
  exact ⟨_, rfl, _, rfl⟩

/-- A matrix with `n` rows that is cut into blocks, one for each rank, with the entries of the
blocks. -/
structure Cut (nodes : List Nat) (n : Nat) (rows : Nat → Span) (entries : Nat → List (Triplet S))
    (m : Nat → RowShare S) : Prop where
  counts : ∀ rank < nodes.length, (m rank).localRows = (rows rank).length
  blocks : ∀ rank < nodes.length, (rows rank).start ≤ (rows rank).stop ∧ (rows rank).stop ≤ n
  columns : ∀ rank < nodes.length, ∀ t ∈ entries rank, t.column < n

section

variable {config : Attempt (Settings S)} {a : Nat → Attached S} {n visible : Nat}
  {rows : Nat → Span} {entries : Nat → List (Triplet S)} {m : Nat → RowShare S}
  (backed : ∀ rank ∈ Finset.range nodes.length, (a rank).Backed visible)
  (cut : Cut nodes n rows entries m)
include backed cut

/-- Ranks that hold the blocks of a matrix solve, and come to a good end. -/
theorem solve_concludes (holds : Holds nodes config h a (some m))
    (few : ∀ rank < nodes.length, (a rank).solver.stats.solves ≤ 1) :
    Completes (Finset.range nodes.length)
      (fun rank => (Attached.solve (List.replicate (rows rank).length Scalar.zero)
        (List.replicate (rows rank).length Scalar.one) >>=
          conclude n (rows rank) (entries rank) (Group.world nodes rank)).start (a rank))
      fun v => ∀ rank ∈ Finset.range nodes.length, EndsWell
      (Group.world nodes rank) (v rank).1 := by
  have fits : ∀ rank < nodes.length,
      (List.replicate (rows rank).length (Scalar.zero : S)).length = (m rank).localRows ∧
        (List.replicate (rows rank).length (Scalar.one : S)).length = (m rank).localRows := by
    intro rank below
    rw [List.length_replicate, List.length_replicate, cut.counts rank below]
    exact ⟨rfl, rfl⟩
  have answers :=
    holds.solve_succeeds fits fun rank below => Nat.lt_of_le_of_lt (few rank below) (by decide)
  have keeps : ∀ rank ∈ Finset.range nodes.length,
      ((Attached.solve (List.replicate (rows rank).length Scalar.zero)
      (List.replicate (rows rank).length Scalar.one)).start (a rank)).Always fun ended =>
        ended.2.Backed visible :=
    fun rank inside =>
      Attached.Backed.keeps (fun _ _ _ => Attached.keeps_solve Stats.lasting_true _ _) (a rank)
      (backed rank inside)
  refine ((answers.always keeps).bind
    (f := fun rank =>
      Work.following (conclude n (rows rank) (entries rank) (Group.world nodes rank)))
    fun v ⟨⟨status, solved⟩, backed'⟩ => ?_).congr fun rank _ => Work.start_bind ..
  choose! own ok length using solved
  have lengths : ∀ rank ∈ Finset.range nodes.length, (rows rank).start ≤ (rows rank).stop ∧
      (rows rank).stop ≤ n ∧
      (own rank).length = (rows rank).length := by
    intro rank inside
    have below := Finset.mem_range.mp inside
    exact ⟨(cut.blocks rank below).1, (cut.blocks rank below).2, (length rank below).trans
      (cut.counts rank below)⟩
  have concludes : Completes (Finset.range nodes.length)
      (fun rank => (conclude n (rows rank) (entries rank)
      (Group.world nodes rank) (status, own rank)).start (v rank).2) fun v =>
        ∀ rank ∈ Finset.range nodes.length, EndsWell (Group.world nodes rank) (v rank).1 :=
    conclude_completes (Together.world nodes) backed' lengths fun rank inside =>
      cut.columns rank (Finset.mem_range.mp inside)
  apply concludes.congr
  intro rank inside
  have ended : v rank = (.ok (status, own rank), (v rank).2) :=
    Prod.ext (ok rank (Finset.mem_range.mp inside)) rfl
  rw [ended]
  rfl

/-- Ranks on a new instance set the blocks of a matrix that fits, and come to a good end. -/
theorem solveShare_completes (standing : Standing nodes config h 0 none a)
    (fitting : Fitting nodes h m) :
    Completes (Finset.range nodes.length)
      (fun rank =>
        (solveShare n (rows rank) (entries rank) (m rank) (Group.world nodes rank)).start (a rank))
      fun v => ∀ rank ∈ Finset.range nodes.length, EndsWell
      (Group.world nodes rank) (v rank).1 := by
  have sets : Concurs (Finset.range nodes.length)
      (fun rank => Attached.setMatrix (m rank)) a fun _ a' =>
      (∀ rank < nodes.length, (a' rank).solver.stats.solves ≤ 1) ∧
        Holds nodes config h a' (some m) :=
    standing.reload fun m' same => Option.some.inj same ▸ fitting
  have keeps : ∀ rank ∈ Finset.range nodes.length,
      ((Attached.setMatrix (m rank)).start (a rank)).Always
      fun ended => ended.2.Backed visible := fun rank inside =>
    Attached.Backed.keeps (fun _ _ _ => Attached.keeps_setMatrix Stats.lasting_true (m rank))
      (a rank) (backed rank inside)
  exact (sets.always keeps).followed fun _ a' ⟨⟨few, holds⟩, backed'⟩ =>
    solve_concludes backed' cut holds few

end

/-- Ranks on ascending machines that have initialized an instance come through their runs. -/
theorem solveRows_completes {call : Call} {settings : Settings S} {a : Nat → Attached S}
    {n visible : Nat} (ascending : nodes.Pairwise (· ≤ ·)) (some_rank : 0 < nodes.length)
    (few : nodes.length < 2 ^ 32) (memory : 72 * n < 2 ^ 63)
    (initialized : Initialized nodes (.ok settings)
      (fun rank => call.on (Group.world nodes rank)) (fun _ => visible) a) :
    Completes (Finset.range nodes.length)
    (fun rank => (solveRows n (Group.world nodes rank)).start (a rank)) fun v =>
      ∀ rank ∈ Finset.range nodes.length, EndsWell (Group.world nodes rank) (v rank).1 := by
  have word : nodes.length + 1 < Word.limit := by
    rw [Word.limit]
    omega
  obtain ⟨h, ranked, housed, standing⟩ := initialized.standing (by omega)
  have unbroken := (ranked.assigned_of_call housed word).unbroken ascending
  have contributions := contributions_blocks (S := S) ranked unbroken some_rank few memory
  obtain ⟨m, lines, shares⟩ := contributions.shares ranked fun _ _ => rfl
  have starts : ∀ rank ∈ Finset.range nodes.length,
      (solveRows n (Group.world nodes rank)).start (a rank) =
      (solveShare n (band nodes.length n rank) (blockEntries n (band nodes.length n rank)) (m rank)
        (Group.world nodes rank)).start (a rank) := by
    intro rank inside
    have below := Finset.mem_range.mp inside
    have stop : (band nodes.length n rank).stop ≤ n := Assignment.stop_band_le below
    have rows : blockSpan n (Group.world nodes rank).size (Group.world nodes rank).rank =
      .ok (band nodes.length n rank) :=
      blockSpan_eq_band below (by rw [Word.limit]; omega)
    have room : 72 * (band nodes.length n rank).length < 2 ^ 63 := by
      rw [Span.length]
      omega
    rw [solveRows, rows, Work.start_ofAttempt_bind, Work.following_ok, laplacianRows_eq room,
      Work.start_ofAttempt_bind,
      Work.following_ok, (shares rank below).1, Work.start_ofAttempt_bind, Work.following_ok]
  have cut : Cut nodes n (band nodes.length n)
      (fun rank => blockEntries n (band nodes.length n rank)) m := by
    constructor
    · exact fun rank below => (shares rank below).2.localRows_eq
    · exact fun rank below => ⟨Assignment.start_band_le rank, Assignment.stop_band_le below⟩
    · exact fun rank below t member => (contributions.inside rank below t member).2
  have fitting : Fitting nodes h m := contributions.fitting fun rank below => (shares rank below).2
  exact (solveShare_completes (fun rank inside => initialized.backed inside) cut standing
    fitting).congr starts

/-! ## Runs -/

/-- Options with which a run can be made: there are ranks, rows and devices, the mode is known and
the settings can be read. The ranks are threads of one process and their entries are in one
memory. -/
structure Runnable (options : Options) (file : ConfigFile) : Prop where
  some_rank : 0 < options.ranks
  some_row : 0 < options.rows
  some_device : options.devices ≠ some 0
  mode : ∃ mode, Mode.ofTag options.mode = .ok mode
  settings : ∃ settings, Settings.load options.config file = .ok settings
  threads : options.ranks < 2 ^ 32
  memory : 72 * options.rows < 2 ^ 63

variable {options : Options} {file : ConfigFile}

def visibleTo (options : Options) : Nat := options.devices.getD 1

theorem Runnable.feasible (runnable : Runnable options file) (group : Group) :
    ∃ (mode : Mode) (settings : Settings S),
    (options.call file group).Feasible (visibleTo options) options.ranks mode settings := by
  obtain ⟨mode, known⟩ := runnable.mode
  obtain ⟨settings, loaded⟩ := runnable.settings
  have threads := runnable.threads
  refine ⟨mode, settings.toScalar, known, ?_, ?_, ?_⟩
  · rw [Call.settings, Options.call, loaded]
    rfl
  · have some_device := runnable.some_device
    rw [Options.call, visibleTo]
    cases asked : options.devices with
    | none => cases mode <;> exact Nat.one_pos
    | some count =>
      rw [asked] at some_device
      exact Nat.pos_of_ne_zero fun none => some_device (congrArg some none)
  · rw [Group.lastColor]
    omega

/-- All ranks of a run come to a good end. -/
theorem runRank_completes (runnable : Runnable options file) (ascending : nodes.Pairwise (· ≤ ·))
    (count : nodes.length = options.ranks) : Completes (Finset.range nodes.length)
      (fun rank => (runRank options file (Group.world nodes rank)).start
        (.fresh (visibleTo options) : Attached S)) fun v =>
      ∀ rank ∈ Finset.range nodes.length, EndsWell (Group.world nodes rank) (v rank).1 := by
  have some_rank := runnable.some_rank
  have threads := runnable.threads
  obtain ⟨mode, settings, feasible⟩ := runnable.feasible (S := S) (Group.world nodes 0)
  rw [← count] at feasible some_rank threads
  have word : nodes.length + 1 < Word.limit := by
    rw [Word.limit]
    omega
  simp only [runRank_eq]
  exact (Call.Feasible.initializes nodes _ (fun _ => visibleTo options) word (fun _ _ _ _ _ => rfl)
    fun _ => feasible).followed fun _ a initialized =>
      solveRows_completes ascending some_rank threads runnable.memory initialized

def rankProgram (options : Options) (file : ConfigFile) (rank : Nat) :
    Program S (Attempt (Option (Report S))) := do
  let (outcome, _) ← (runRank options file
    (Group.world (contiguousNodes options.ranks options.nodes) rank)).start
    (.fresh (visibleTo options))
  pure outcome

theorem runAll_eq (options : Options) (file : ConfigFile) :
    (runAll options file : List (Option (Attempt (Option (Report S))))) =
    (World.ofPrograms options.ranks (rankProgram options file) []).run.results := by
  have count := length_contiguousNodes options.ranks options.nodes
  rw [← count]
  rfl

omit [Scalar S] in
/-- Where all ranks come to a good end, the first one has the report. -/
theorem results_of_endsWell {v : Nat → Attempt (Option (Report S))} {others : Nat}
    (well : ∀ rank < others + 1, EndsWell (Group.world nodes rank) (v rank)) : ∃ report,
      ((List.range (others + 1)).map fun rank => some (v rank)) =
        some (.ok (some report)) :: List.replicate others (some (.ok none)) := by
  obtain ⟨report, first⟩ := well 0 (Nat.succ_pos others)
  have rest : ∀ rank ∈ List.range others, some (v (rank + 1)) = some (.ok none) := by
    intro rank among
    obtain ⟨_, same⟩ := well (rank + 1) (Nat.succ_lt_succ (List.mem_range.mp among))
    exact congrArg some same
  refine ⟨report, ?_⟩
  rw [List.range_succ_eq_map, List.map_cons, List.map_map, first]
  exact congrArg _ ((List.map_congr_left rest).trans (by rw [List.map_const', List.length_range]))

/-- In whatever order the ranks of a run take their steps, all of them come to a good end, the first
one with a report. -/
theorem rankProgram_endsWith (runnable : Runnable options file) : ∃ report : Report S,
    (World.ofPrograms options.ranks (rankProgram options file) []).EndsWith
      (some (.ok (some report)) :: List.replicate (options.ranks - 1) (some (.ok none))) := by
  have count := length_contiguousNodes options.ranks options.nodes
  have ranks := runRank_completes (S := S) runnable
    (ascending_contiguousNodes options.ranks options.nodes) count
  rw [count] at ranks
  have programs : Completes (Finset.range options.ranks)
      (rankProgram (S := S) options file) fun v =>
      ∀ rank ∈ Finset.range options.ranks, EndsWell
        (Group.world (contiguousNodes options.ranks options.nodes) rank)
        (v rank) :=
    (ranks.map (f := fun _ ended => ended.1) fun v well => well).congr fun _ _ => rfl
  obtain ⟨v, well, ends⟩ := programs.endsWith Hubs.resting_nil
  obtain ⟨others, some_rank⟩ := Nat.exists_eq_succ_of_ne_zero (Nat.ne_of_gt runnable.some_rank)
  rw [some_rank] at well ends ⊢
  obtain ⟨report, results⟩ :=
    results_of_endsWell fun rank below => well rank (Finset.mem_range.mpr below)
  exact ⟨report, results ▸ ends⟩

/-- A run whose ranks have come to a good end writes one line. -/
theorem summarize_well (options : Options) (clock : Clock) (report : Report Float) (others : Nat) :
    summarize options clock (some (.ok (some report)) :: List.replicate others (some (.ok none))) =
      ⟨0, [report.line options clock],
        if options.stats then report.stats.table clock.column clock.total else []⟩ := by
  have numbered :
      (List.replicate others (some (.ok none) : Option (Attempt (Option (Report Float))))).zipIdx
      1 = (List.range' 1 others).map fun rank => (some (.ok none), rank) :=
    List.ext_getElem (by simp) fun rank _ _ => by simp
  rw [summarize, List.zipIdx_cons, numbered]
  simp [List.filterMap_map]

/-- Whatever the numbers of ranks, nodes, devices and rows are, all ranks of a run come to a good
end in any order of their steps, the first one with a report. The program writes one line and ends
with exit code zero. -/
theorem execute_reports (options : Options) (files : String → ConfigFile)
    (runnable : Runnable options (files options.config)) : ∃ report : Report Float,
      (World.ofPrograms options.ranks (rankProgram options (files options.config)) []).EndsWith
        (some (.ok (some report)) :: List.replicate (options.ranks - 1) (some (.ok none))) ∧
      ∀ clock, (execute (.solve options) files).output clock =
        ⟨0, [report.line options clock],
          if options.stats then report.stats.table clock.column clock.total else []⟩ := by
  obtain ⟨report, ends⟩ := rankProgram_endsWith (S := Float) runnable
  refine ⟨report, ends, fun clock => ?_⟩
  have positive : ¬ (options.ranks = 0 ∨ options.rows = 0) := by
    have some_rank := runnable.some_rank
    have some_row := runnable.some_row
    omega
  rw [execute, if_neg positive, runAll_eq, ends.run]
  exact summarize_well options clock report (options.ranks - 1)

/-- Five ranks on two nodes with two devices each share three rows. -/
theorem execute_reports_few_rows : ∃ report : Report Float,
    (World.ofPrograms 5 (rankProgram ⟨"solver.toml", 5, 2, some 2, 3, "dDDI", false⟩ (.text ""))
      []).EndsWith (some (.ok (some report)) :: List.replicate 4 (some (.ok none))) ∧
    ∀ clock, (execute (.solve ⟨"solver.toml", 5, 2, some 2, 3, "dDDI", false⟩) fun _ =>
      .text "").output clock =
      ⟨0, [report.line ⟨"solver.toml", 5, 2, some 2, 3, "dDDI", false⟩ clock], []⟩ :=
  execute_reports ⟨"solver.toml", 5, 2, some 2, 3, "dDDI", false⟩ (fun _ => .text "") {
    some_rank := by decide
    some_row := by decide
    some_device := by decide
    mode := ⟨.device, rfl⟩
    settings := ⟨_, Settings.load_empty _⟩
    threads := by decide
    memory := by decide }

end CommandLine
end DeviceTeams
