import DeviceTeams.Proofs.Iteration
import DeviceTeams.Proofs.Keeping
import DeviceTeams.Proofs.RowOrder
import DeviceTeams.Proofs.TeamVectors

/-!
# Ranks solve together

Ranks whose leads hold the bands of a joint system come out of a solve together. If the vectors of
some rank do not have the length of its rows all of them are refused and left as they were.
Otherwise the leads find the joint solution, and every rank receives the status of it and its own
part.
-/
namespace DeviceTeams

variable {S : Type} [Scalar S] {A : Finset Nat} {node : Nat → Nat} {G : Nat → Group}
  {h : Nat → Hierarchy}
  {new : Nat → Group} {settings : Nat → Settings S} {count : Nat → Nat} {j : Joint S}
  {a : Nat → Attached S}

/-! ## On a lead -/

/-- The handles are ready to solve a system together with these leads. -/
structure LeadHandles.Bears (handles : LeadHandles S) (system : System S) (leads : Group)
    (settings : Settings S) :
    Prop where
  rhs : handles.rhs.boundLength = some system.block.nrows
  solution : handles.solution.boundLength = some system.block.nrows
  system : handles.solver.system = some system
  leads : handles.solver.leads = leads
  settings : handles.solver.settings = settings

omit [Scalar S] in
theorem VectorHandle.upload_eq {v : VectorHandle S} {data : List S}
    (bound : v.boundLength = some data.length) :
    v.upload data = .ok { v with data } := by
  obtain ⟨_, length⟩ := v
  subst bound
  exact if_pos rfl

def LeadHandles.solved (handles : LeadHandles S) (b y : List S) (status : Status) : LeadHandles S :=
  { handles with
    rhs := { handles.rhs with data := b }
    solution := { handles.solution with data := y }
    solver := { handles.solver with status := some status } }

omit [Scalar S] in
theorem LeadHandles.Bears.solved {handles : LeadHandles S} {system : System S} {leads : Group}
    {settings : Settings S} (bears : handles.Bears system leads settings) (b y : List S)
    (status : Status) :
    (handles.solved b y status).Bears system leads settings :=
  ⟨bears.rhs, bears.solution, bears.system, bears.leads, bears.settings⟩

namespace Attached

/-- The rank has a matrix of this layout, and on a lead the handles bear this system. -/
structure Serves (hierarchy : Hierarchy) (layout : VectorLayout) (system : System S) (leads : Group)
    (settings : Settings S) (handles : LeadHandles S) (b : Attached S) : Prop where
  state : b.solver.state =
    some ⟨hierarchy, if hierarchy.isLead then some handles else none, some layout⟩
  bears : hierarchy.isLead → handles.Bears system leads settings

omit [Scalar S] in
theorem Serves.hierarchy_eq {hierarchy : Hierarchy} {layout : VectorLayout}
    {system : System S} {leads : Group} {settings : Settings S}
    {handles : LeadHandles S} {b : Attached S}
    (serves : b.Serves hierarchy layout system leads settings handles) :
    b.solver.hierarchy = some hierarchy := by
  rw [TeamSolver.hierarchy, serves.state, Option.map_some]

def holding (b : Attached S) (hierarchy : Hierarchy) (layout : VectorLayout)
    (handles : LeadHandles S) : Attached S :=
  { b with solver := { b.solver with
      state := some ⟨hierarchy, if hierarchy.isLead then some handles else none, some layout⟩ } }

omit [Scalar S] in
theorem withLead_eq_holding {b : Attached S} {hierarchy : Hierarchy} {layout : VectorLayout}
    {handles : LeadHandles S} (held : b.solver.state = some ⟨hierarchy, some handles, some layout⟩)
    (lead : hierarchy.isLead) (new : LeadHandles S) :
    b.withLead new = b.holding hierarchy layout new := by
  rw [withLead, held, holding, if_pos lead]
  rfl

omit [Scalar S] in
theorem eq_holding {b : Attached S} {hierarchy : Hierarchy} {layout : VectorLayout}
    (held : b.solver.state = some ⟨hierarchy, none, some layout⟩) (other : ¬ hierarchy.isLead)
    (new : LeadHandles S) :
    b = b.holding hierarchy layout new := by
  rw [holding, if_neg other, ← held]

def concluded (hierarchy : Hierarchy) (handles : LeadHandles S) (a : Attached S) (x b : List S) :
    Attempt (Status × Nat) × List S → Program S (Attempt (Status × List S) × Attached S)
  | (.ok (status, _), y) =>
    (do
      unless status.isSuccess do Work.note (unsuccessful status hierarchy)
      let data ← Work.ofAttempt ({ handles.solution with data := y }.download x.length)
      pure (status, data) : Step S (Status × List S)).start (a.withLead (handles.solved b y status))
  | (.error failure, y) => .finished (.error failure, a.withLead { handles with
      rhs := { handles.rhs with data := b }
      solution := { handles.solution with data := y } })

theorem start_solveTeam {a : Attached S} {hierarchy : Hierarchy} {handles : LeadHandles S}
    {layout : Option VectorLayout} (held : a.solver.state = some ⟨hierarchy, some handles, layout⟩)
    {system : System S} {leads : Group} {settings : Settings S}
    (bears : handles.Bears system leads settings) {x b : List S}
    (guess : x.length = system.block.nrows) (right : b.length = system.block.nrows) :
    (solveTeam hierarchy handles x b).start a =
      (BiCgStab.solve system leads settings b).start x >>=
      fun ended => concluded hierarchy handles a x b ended := by
  obtain ⟨context, state, stats⟩ := a
  obtain ⟨rhs, solution, found, rfl, rfl⟩ := bears
  subst held
  have checked : handles.solver.checkSolve { handles.rhs with data := b }
      { handles.solution with data := x } = .ok system := by
    rw [SolverHandle.checkSolve, found]
    exact if_pos ⟨right, guess⟩
  rw [solveTeam, VectorHandle.upload_eq (solution.trans (congrArg some guess.symm)),
    Work.start_ofAttempt_bind, Work.following_ok, modifyLead, modifySolver, Work.start_modify_bind,
    VectorHandle.upload_eq (rhs.trans (congrArg some right.symm)), Work.start_ofAttempt_bind,
    Work.following_ok, modifyLead, modifySolver, Work.start_modify_bind, Work.start_lift_bind,
    SolverHandle.solve, checked]
  dsimp only
  rw [bind_assoc]
  congr 1
  funext ended
  obtain ⟨outcome, y⟩ := ended
  cases outcome <;> rfl

omit [Scalar S] in
/-- A lead that has found a solution of the right length answers with it, and reports it if it is no
success. -/
theorem concluded_ok (hierarchy : Hierarchy) (handles : LeadHandles S)
    (a : Attached S) {x y : List S} (length : y.length = x.length) (b : List S) (status : Status)
    (iterations : Nat) :
    let answer : Program S (Attempt (Status × List S) × Attached S) :=
      .finished (.ok (status, y), a.withLead (handles.solved b y status))
    concluded hierarchy handles a x b (.ok (status, iterations), y) = answer ∨
      ∃ event, concluded hierarchy handles a x b (.ok (status, iterations), y) =
        .report event answer := by
  have data : ({ handles.solution with data := y } : VectorHandle S).download x.length = .ok y :=
    if_pos length.symm
  rw [concluded, data]
  by_cases success : status.isSuccess
  · rw [if_pos success]
    exact .inl rfl
  · rw [if_neg success]
    exact .inr ⟨unsuccessful status hierarchy, rfl⟩

end Attached

/-! ## The leads -/

/-- The ranks share a joint system: the leads hold its bands, and a band has the rows of its lead's
team. -/
structure Joint.SharedBy (j : Joint S) (node : Nat → Nat) (A : Finset Nat) (G : Nat → Group)
    (h : Nat → Hierarchy) (new : Nat → Group) (count : Nat → Nat) : Prop where
  ranked : Ranked node A G h
  held : j.HeldBy node (A.filter fun rank => (h rank).isLead) new
  sound : j.Sound
  rows : ∀ rank ∈ A, (h rank).isLead → (j.band (new rank).rank).rows.length = teamRows h count rank
  few : ∀ rank ∈ A, (G rank).hub.ranks.length < Word.limit

namespace Joint.SharedBy

variable (shared : j.SharedBy node A G h new count) {settings : Settings S}
include shared

/-- The leads find the joint solution, each of them its own part. -/
theorem solveTeam_completes {handles : Nat → LeadHandles S} {layout : Nat → Option VectorLayout}
    (state : ∀ rank ∈ A.filter fun rank => (h rank).isLead,
      (a rank).solver.state = some ⟨h rank, some (handles rank), layout rank⟩)
    (bears : ∀ rank ∈ A.filter fun rank => (h rank).isLead,
      (handles rank).Bears (j.system (new rank).rank) (new rank) settings)
    {b x : Parts S} (right : j.Fits b) (guess : j.Fits x) :
    Completes (A.filter fun rank => (h rank).isLead) (fun rank =>
      (Attached.solveTeam (h rank) (handles rank) (x (new rank).rank) (b (new rank).rank)).start
        (a rank)) fun v =>
        ∀ rank ∈ A.filter fun rank => (h rank).isLead,
          v rank = (.ok ((j.solve settings b x).1.1, (j.solve settings b x).2 (new rank).rank),
            (a rank).withLead
            ((handles rank).solved (b (new rank).rank) ((j.solve settings b x).2 (new rank).rank)
              (j.solve settings b x).1.1)) := by
  have seats :=
    fun rank (lead : rank ∈ A.filter fun rank => (h rank).isLead) => shared.held.seat_lt lead
  refine ((shared.held.solve_unison shared.sound settings right guess).completes.bind_eq
    (f := fun rank => Attached.concluded (h rank) (handles rank) (a rank) (x (new rank).rank)
      (b (new rank).rank))
    ?_).congr fun rank lead => ?_
  · refine Completes.reports (.of_finished (fun _ _ => rfl) fun _ _ => rfl) fun rank lead => ?_
    refine Attached.concluded_ok (h rank) (handles rank) (a rank) ?_ (b (new rank).rank) _ _
    rw [fits_solve shared.sound settings right guess _ (seats rank lead), guess _ (seats rank lead)]
  · exact Attached.start_solveTeam (state rank lead) (bears rank lead) (guess _ (seats rank lead))
      (right _ (seats rank lead))

/-- The leads hand on their own parts of the joint solution, which changes nothing but their
handles. -/
theorem solveOnLead_leads {handles : Nat → LeadHandles S} {layout : Nat → VectorLayout}
    (serves : ∀ rank ∈ A,
      (a rank).Serves (h rank) (layout rank) (j.system (new rank).rank)
      (new rank) settings (handles rank))
    {b x : Parts S} (right : j.Fits b) (guess : j.Fits x) {teamX teamB : Nat → Option (List S)}
    (parts : ∀ rank ∈ A, (h rank).isLead →
      teamX rank = some (x (new rank).rank) ∧ teamB rank = some (b (new rank).rank)) :
    Completes (A.filter fun rank => (h rank).isLead) (fun rank =>
      (Attached.solveOnLead ⟨h rank, some (handles rank), some (layout rank)⟩ (teamX rank)
        (teamB rank)).start (a rank)) fun v =>
      ∀ rank ∈ A.filter fun rank => (h rank).isLead, v rank =
        (.ok ((j.solve settings b x).1.1, some ((j.solve settings b x).2 (new rank).rank)),
          (a rank).holding (h rank) (layout rank) ((handles rank).solved (b (new rank).rank)
            ((j.solve settings b x).2 (new rank).rank) (j.solve settings b x).1.1)) := by
  have state : ∀ rank ∈ A.filter fun rank => (h rank).isLead,
      (a rank).solver.state = some ⟨h rank, some (handles rank), some (layout rank)⟩ := by
    intro rank member
    obtain ⟨inside, lead⟩ := Finset.mem_filter.mp member
    rw [(serves rank inside).state, if_pos lead]
  have solves := shared.solveTeam_completes state (fun rank member =>
    (serves rank (Finset.mem_filter.mp member).1).bears (Finset.mem_filter.mp member).2) right guess
  refine (solves.bind_eq (f := fun rank => Work.following fun answer =>
    (pure (answer.1, some answer.2) : Attached.Step S (Status × Option (List S))))
    (.of_finished (v := fun rank => (.ok (_, some _), (a rank).holding (h rank) (layout rank) _))
      (fun rank member => ?_) fun _ _ => rfl)).congr fun rank member => ?_
  · rw [← Attached.withLead_eq_holding (state rank member) (Finset.mem_filter.mp member).2]
    rfl
  · obtain ⟨inside, lead⟩ := Finset.mem_filter.mp member
    rw [(parts rank inside lead).1, (parts rank inside lead).2]
    exact Work.start_bind ..

/-- All ranks come through the solve of the leads, which changes nothing but the handles of the
leads. -/
theorem solveOnLead_completes {handles : Nat → LeadHandles S} {layout : Nat → VectorLayout}
    (serves : ∀ rank ∈ A,
      (a rank).Serves (h rank) (layout rank) (j.system (new rank).rank)
      (new rank) settings (handles rank))
    {b x : Parts S} (right : j.Fits b) (guess : j.Fits x) {teamX teamB : Nat → Option (List S)}
    (parts : ∀ rank ∈ A, (h rank).isLead →
      teamX rank = some (x (new rank).rank) ∧ teamB rank = some (b (new rank).rank)) :
    Completes A (fun rank =>
      (Attached.solveOnLead ⟨h rank, if (h rank).isLead then some (handles rank) else none,
      some (layout rank)⟩ (teamX rank) (teamB rank)).start (a rank)) fun v => ∀ rank ∈ A, v rank =
        (.ok (if (h rank).isLead
          then ((j.solve settings b x).1.1, some ((j.solve settings b x).2 (new rank).rank))
          else (.success, teamX rank)),
          (a rank).holding (h rank) (layout rank) ((handles rank).solved (b (new rank).rank)
            ((j.solve settings b x).2 (new rank).rank) (j.solve settings b x).1.1)) := by
  have leading := shared.solveOnLead_leads serves right guess parts
  refine ((leading.congr fun rank member => ?_).part
    (w := fun rank => (.ok (.success, teamX rank), a rank)) (Finset.filter_subset ..)
    fun rank inside outside => ?_).mono fun v ⟨u, values, leads, others⟩ rank inside => ?_
  · rw [if_pos (Finset.mem_filter.mp member).2]
  · have other : ¬ (h rank).isLead := fun lead => outside (Finset.mem_filter.mpr ⟨inside, lead⟩)
    rw [if_neg other]
    rfl
  · by_cases lead : (h rank).isLead
    · have member : rank ∈ A.filter fun rank => (h rank).isLead :=
        Finset.mem_filter.mpr ⟨inside, lead⟩
      rw [leads rank member, values rank member, if_pos lead]
    · have same := (serves rank inside).state
      rw [if_neg lead] at same
      rw [others rank inside fun member => lead (Finset.mem_filter.mp member).2, if_neg lead,
        ← Attached.eq_holding same lead]

end Joint.SharedBy

/-! ## All ranks -/

def misfits (count : Nat → Nat) (x b : Nat → List S) (members : List Nat) : Nat :=
  members.countP fun member =>
    ¬ ((x member).length = count member ∧ (b member).length = count member)

omit [Scalar S] in
theorem misfits_eq_zero_iff {x b : Nat → List S} {members : List Nat} :
    misfits count x b members = 0 ↔
    ∀ member ∈ members, (x member).length = count member ∧ (b member).length = count member := by
  rw [misfits, List.countP_eq_zero]
  simp only [decide_eq_true_eq, Decidable.not_not]

omit [Scalar S] in
/-- All ranks learn how many of them have vectors that do not fit. -/
theorem checkVectors_completes (ranked : Ranked node A G h)
    (few : ∀ rank ∈ A, (G rank).hub.ranks.length < Word.limit) (x b : Nat → List S) :
    Completes A (fun rank =>
      (Attached.checkVectors (h rank) (segmentsOf (h rank).team count) (x rank) (b rank)).start
      (a rank)) fun v => ∀ rank ∈ A, v rank = (if 0 < misfits count x b (G rank).hub.ranks then
        .error (DimensionError.vectors (misfits count x b (G rank).hub.ranks)
          (x rank).length (b rank).length (count rank)) else .ok (), a rank) := by
  have few' : ∀ rank ∈ A, (h rank).global.hub.ranks.length < Word.limit := fun rank inside => by
    rw [ranked.global_ranks rank inside]
    exact few rank inside
  let misfit : Nat → Bool :=
    fun rank => ¬ ((x rank).length = count rank ∧ (b rank).length = count rank)
  refine ((ranked.global.countRanks (p := misfit) few').followedBy (s := a)
    (f := fun rank mismatches => do
    if 0 < mismatches then
      throw (DimensionError.vectors mismatches (x rank).length (b rank).length
        (count rank) : Failure))
    fun found counted => ?_).congr fun rank inside => ?_
  · refine .of_finished (v := fun rank => (if 0 < misfits count x b (G rank).hub.ranks then
      .error (DimensionError.vectors (misfits count x b (G rank).hub.ranks)
        (x rank).length (b rank).length
        (count rank)) else .ok (), a rank)) (fun rank inside => ?_) fun _ _ => rfl
    have same : found rank = misfits count x b (G rank).hub.ranks := by
      rw [counted rank inside, ranked.global_ranks rank inside]
      rfl
    rw [same]
    split <;> rfl
  · have flag : (if (x rank).length = count rank ∧ (b rank).length = count rank then 0 else 1) =
        if misfit rank then 1 else 0 := by
      by_cases fits : (x rank).length = count rank ∧ (b rank).length = count rank <;>
        simp [misfit, fits]
    rw [Attached.checkVectors, ranked.team.localLength_eq count inside, Work.start_ofAttempt_bind,
      Work.following_ok]
    dsimp only
    rw [flag]

namespace Attached

def passOn (team : Group) (layout : VectorLayout) (length : Nat)
    (answer : Status × Option (List S)) :
    Step S (Status × List S) := do
  let code : List Int ← Work.ofTask (team.broadcast .int64 0 [answer.1.code])
  let own ← Work.ofTask (layout.scatter team answer.2 length)
  let status ← Work.ofAttempt (.ofOption (code.head?.map Status.ofCode))
  recordSolve status
  pure (status, own)

def solveFitting (inst : Instance S) (layout : VectorLayout) (x b : List S) :
    Step S (Status × List S) := do
  let teamX ← Work.ofTask (layout.gather inst.hierarchy.team x)
  let teamB ← Work.ofTask (layout.gather inst.hierarchy.team b)
  passOn inst.hierarchy.team layout x.length (← solveOnLead inst teamX teamB)

theorem start_solve {a : Attached S} {hierarchy : Hierarchy} {lead : Option (LeadHandles S)}
    {layout : VectorLayout} (held : a.solver.state = some ⟨hierarchy, lead, some layout⟩)
    (x b : List S) :
    (solve x b).start a = (checkVectors hierarchy layout x b).start a >>=
      Work.following fun _ => solveFitting ⟨hierarchy, lead, some layout⟩ layout x b := by
  rw [solve, initialized, Work.start_bind, Work.start_get_bind, held]
  exact Work.start_bind ..

/-- How a rank ends a solve with a status and its part of the solution, unless a counter runs
over. -/
def resolved (b : Attached S) (hierarchy : Hierarchy) (layout : VectorLayout)
    (handles : LeadHandles S) (status : Status) (own : List S) :
    Attempt (Status × List S) × Attached S :=
  ((fun _ => (status, own)) <$> (b.solver.stats.solved status).1,
    { b.holding hierarchy layout handles with
      solver := { (b.holding hierarchy layout handles).solver with
        stats := (b.solver.stats.solved status).2 } })

omit [Scalar S] in
/-- A rank that has solved can solve again. -/
theorem Serves.resolved {b : Attached S} {hierarchy : Hierarchy} {layout : VectorLayout}
    {system : System S} {leads : Group} {settings : Settings S} {handles : LeadHandles S}
    (serves : b.Serves hierarchy layout system leads settings handles) (right y : List S)
    (status : Status) (own : List S) :
    (b.resolved hierarchy layout (handles.solved right y status) status own).2.Serves
    hierarchy layout system leads settings (handles.solved right y status) :=
  ⟨rfl, fun lead => (serves.bears lead).solved right y status⟩

end Attached

namespace Joint.SharedBy

variable (shared : j.SharedBy node A G h new count) {settings : Settings S}
  {handles : Nat → LeadHandles S} {b x : Nat → List S}
include shared

/-- If some vectors do not fit, all ranks are refused and left as they were. -/
theorem solve_refused
    (serves : ∀ rank ∈ A, (a rank).Serves (h rank) (segmentsOf (h rank).team count)
      (j.system (new rank).rank) (new rank) settings (handles rank))
    (some_misfit : ∀ rank ∈ A, 0 < misfits count x b (G rank).hub.ranks) :
    Completes A (fun rank => (Attached.solve (x rank) (b rank)).start (a rank)) fun v =>
      ∀ rank ∈ A, v rank =
      (.error (DimensionError.vectors (misfits count x b (G rank).hub.ranks)
        (x rank).length (b rank).length (count rank)), a rank) := by
  refine ((checkVectors_completes shared.ranked shared.few x b).bind_eq ?_).congr fun rank inside =>
    Attached.start_solve (serves rank inside).state (x rank) (b rank)
  refine .of_finished (fun rank inside => ?_) fun _ _ => rfl
  rw [if_pos (some_misfit rank inside)]
  rfl

omit [Scalar S] in
/-- The band of a lead has the rows of the teams of all its members. -/
theorem length_band {rank : Nat} (inside : rank ∈ A) :
    (j.band (new (leadOf h rank)).rank).rows.length = ((h rank).team.hub.ranks.map count).sum := by
  obtain ⟨inside', lead⟩ := Finset.mem_filter.mp (shared.ranked.leadOf_lead inside)
  rw [shared.rows _ inside' lead, teamRows,
    (shared.ranked.team.of_mem inside (shared.ranked.leadOf_mem inside)).2]

omit [Scalar S] in
theorem room {rank : Nat} (inside : rank ∈ A) :
    ((h rank).team.hub.ranks.map count).sum * 8 < 2 ^ 63 := by
  have inner := shared.sound.inside _ (shared.held.seat_lt (shared.ranked.leadOf_lead inside))
  rw [shared.length_band inside] at inner
  have all := shared.sound.room
  omega

omit [Scalar S] in
/-- Every rank receives the status and its part of the solution from its lead. -/
theorem passOn_completes {layout : Nat → VectorLayout} {handles : Nat → LeadHandles S}
    {status : Status} {y : Parts S} (lengths : ∀ rank ∈ A, (x rank).length = count rank)
    (fits : j.Fits y) {answer : Nat → Status × Option (List S)}
    (brings : ∀ rank ∈ A, (h rank).isLead → answer rank = (status, some (y (new rank).rank))) :
    Completes A (fun rank =>
      (Attached.passOn (h rank).team (segmentsOf (h rank).team count) (x rank).length
      (answer rank)).start ((a rank).holding (h rank) (layout rank) (handles rank))) fun v =>
        ∀ rank ∈ A, v rank =
        (a rank).resolved (h rank) (layout rank) (handles rank) status
          (segmentIn (h rank).team count rank (y (new (leadOf h rank)).rank)) := by
  have root : ∀ rank ∈ A, ∀ root, (h rank).team.hub.ranks[0]? = some root →
      answer root = (status, some (y (new (leadOf h rank)).rank)) := by
    intro rank inside root found
    rw [shared.ranked.team_head inside, Option.some.injEq] at found
    rw [← found, brings _ (shared.ranked.leadOf_inside inside) (shared.ranked.isLead_leadOf inside)]
  have told : Succeeds A
      (fun rank => ((h rank).team.broadcast .int64 0 [(answer rank).1.code] : Task S (List Int)))
      fun w => ∀ rank ∈ A, w rank = [status.code] := by
    refine (shared.ranked.team.broadcast .int64 (fun rank => [(answer rank).1.code]) fun _ _ =>
      rfl).mono
      fun w received rank inside => ?_
    have first := shared.ranked.team_head inside
    rw [received rank inside _ first, root rank inside _ first]
  have scattered : Succeeds A
      (fun rank => (segmentsOf (h rank).team count).scatter (h rank).team (answer rank).2
      (count rank)) fun w => ∀ rank ∈ A,
        w rank = segmentIn (h rank).team count rank (y (new (leadOf h rank)).rank) := by
    refine shared.ranked.team.scatter_vector (fun rank inside first found => ?_)
      fun rank inside => ?_
    · rw [root rank inside first found]
    · rw [fits _ (shared.held.seat_lt (shared.ranked.leadOf_lead inside)),
        shared.length_band inside]
  refine told.followedBy_eq ?_
  refine (scattered.congr fun rank inside => by rw [lengths rank inside]).followedBy_eq ?_
  refine .of_finished (fun rank inside => ?_) fun _ _ => rfl
  have known : (.ofOption ([status.code].head?.map Status.ofCode) : Attempt Status) = .ok status :=
    congrArg Except.ok status.ofCode_code
  rw [known, Work.start_ofAttempt_bind, Work.following_ok, Work.start_bind,
    Attached.start_recordSolve, Attached.resolved]
  show Work.following _ (((a rank).solver.stats.solved status).1, _) = _
  cases ((a rank).solver.stats.solved status).1 <;> rfl

/-- If all vectors fit, every rank ends with the joint status and its own part of the joint
solution. -/
theorem solveFitting_completes
    (serves : ∀ rank ∈ A, (a rank).Serves (h rank) (segmentsOf (h rank).team count)
      (j.system (new rank).rank) (new rank) settings (handles rank))
    (fits : ∀ rank ∈ A, (x rank).length = count rank ∧ (b rank).length = count rank)
    {right guess y : Parts S} (right_fits : j.Fits right) (guess_fits : j.Fits guess)
    (parts : ∀ rank ∈ A, (h rank).isLead →
      guess (new rank).rank = ((h rank).team.hub.ranks.map x).flatten ∧
      right (new rank).rank = ((h rank).team.hub.ranks.map b).flatten)
    {status : Status} {iterations : Nat}
    (solved : j.solve settings right guess = ((status, iterations), y)) :
    Completes A (fun rank =>
      (Attached.solveFitting ⟨h rank, if (h rank).isLead then some (handles rank) else none,
      some (segmentsOf (h rank).team count)⟩ (segmentsOf (h rank).team count) (x rank)
      (b rank)).start (a rank))
      fun v => ∀ rank ∈ A, v rank = (a rank).resolved (h rank) (segmentsOf (h rank).team count)
        ((handles rank).solved (right (new rank).rank) (y (new rank).rank) status) status
        (segmentIn (h rank).team count rank (y (new (leadOf h rank)).rank)) := by
  have room := fun rank (inside : rank ∈ A) => shared.room inside
  have fits_y : j.Fits y := by
    have all := fits_solve shared.sound settings right_fits guess_fits
    rwa [solved] at all
  refine (shared.ranked.team.gather_vector (fun rank inside => (fits rank inside).1)
    room).followedBy_eq ?_
  refine (shared.ranked.team.gather_vector (fun rank inside => (fits rank inside).2)
    room).followedBy_eq ?_
  refine ((shared.solveOnLead_completes serves right_fits guess_fits
    fun rank inside lead => ?_).bind_eq (f := fun rank =>
      Work.following
      (Attached.passOn (h rank).team (segmentsOf (h rank).team count) (x rank).length))
    ?_).congr fun rank inside => Work.start_bind ..
  · have first : (h rank).team.rank = 0 := by simpa [shared.ranked.isLead rank inside] using lead
    rw [if_pos first, if_pos first, (parts rank inside lead).1, (parts rank inside lead).2]
    exact ⟨rfl, rfl⟩
  rw [solved]
  simp only [Work.following_ok]
  exact shared.passOn_completes (fun rank inside => (fits rank inside).1) fits_y
    fun rank inside lead => if_pos lead

/-- If all vectors fit, every rank ends a solve with the joint status and its own part of the joint
solution. -/
theorem solve_completes
    (serves : ∀ rank ∈ A, (a rank).Serves (h rank) (segmentsOf (h rank).team count)
      (j.system (new rank).rank) (new rank) settings (handles rank))
    (fits : ∀ rank ∈ A, (x rank).length = count rank ∧ (b rank).length = count rank)
    {right guess y : Parts S} (right_fits : j.Fits right) (guess_fits : j.Fits guess)
    (parts : ∀ rank ∈ A, (h rank).isLead →
      guess (new rank).rank = ((h rank).team.hub.ranks.map x).flatten ∧
      right (new rank).rank = ((h rank).team.hub.ranks.map b).flatten)
    {status : Status} {iterations : Nat}
    (solved : j.solve settings right guess = ((status, iterations), y)) :
    Completes A (fun rank => (Attached.solve (x rank) (b rank)).start (a rank)) fun v =>
      ∀ rank ∈ A, v rank =
      (a rank).resolved (h rank) (segmentsOf (h rank).team count)
        ((handles rank).solved (right (new rank).rank) (y (new rank).rank) status) status
        (segmentIn (h rank).team count rank (y (new (leadOf h rank)).rank)) := by
  refine ((checkVectors_completes shared.ranked shared.few x b).bind_eq ?_).congr fun rank inside =>
    Attached.start_solve (serves rank inside).state (x rank) (b rank)
  refine (shared.solveFitting_completes serves fits right_fits guess_fits parts solved).congr
    fun rank inside => ?_
  have none_misfit : misfits count x b (G rank).hub.ranks = 0 := misfits_eq_zero_iff.mpr
      fun member belongs =>
    fits member (shared.ranked.ranks_eq inside belongs).1
  rw [none_misfit, if_neg (Nat.lt_irrefl 0)]
  rfl

end Joint.SharedBy
end DeviceTeams
