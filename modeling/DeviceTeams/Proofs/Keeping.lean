import DeviceTeams.Proofs.Attempts
import DeviceTeams.Proofs.Completion
import DeviceTeams.Solver.Instance

/-!
# What a rank keeps

Some facts about a rank do not depend on what the others do: setting a matrix and solving leave its
groups and the leads of its resources as they are, however the calls end.
-/
namespace DeviceTeams

open Relation (ReflTransGen)

variable {S α β σ : Type} {A : Finset Nat}

/-- Whatever the others bring, the program ends as the condition says. A rank finds its own payload
at its seat. -/
def Program.Always (post : α → Prop) : Program S α → Prop
  | finished value => post value
  | report _ next => next.Always post
  | meet _ seat payload resume =>
    ∀ round, round.items[seat]? = some payload → (resume round).Always post

namespace Program

variable {post post' : α → Prop}

theorem Always.mono {program : Program S α} (h : program.Always post)
    (weaker : ∀ value, post value → post' value) :
    program.Always post' := by
  induction program with
  | finished value => exact weaker value h
  | report event next ih => exact ih h
  | meet hub seat payload resume ih => exact fun round own => ih round (h round own)

theorem Always.bind {program : Program S α} {f : α → Program S β} {after : β → Prop}
    (h : program.Always post) (next : ∀ value, post value → (f value).Always after) :
    (program >>= f).Always after := by
  induction program with
  | finished value => exact next value h
  | report event rest ih => exact ih h
  | meet hub seat payload resume ih => exact fun round own => ih round (h round own)

theorem always_true (program : Program S α) : program.Always fun _ => True := by
  induction program with
  | finished value => trivial
  | report event next ih => exact ih
  | meet hub seat payload resume ih => exact fun round _ => ih round

end Program

/-- Moves of a stage do not take a rank off the programs that end as the condition says. -/
theorem Stage.Move.always {s t : Stage S α} (move : Stage.Move A s t) {post : α → Prop} {rank : Nat}
    (h : (s.programs rank).Always post) : (t.programs rank).Always post := by
  cases move with
  | @report other event next taking reports =>
    by_cases here : rank = other
    · subst here
      rw [reports] at h
      show (Function.update s.programs rank next rank).Always post
      rwa [Function.update_self]
    · simpa only [Function.update_of_ne here] using h
  | @meet hub payload resume some_member within gathered =>
    by_cases belongs : rank ∈ hub.ranks
    · obtain ⟨seat, found⟩ := List.mem_iff_getElem?.mp belongs
      rw [gathered seat rank found] at h
      rw [Stage.meetAt_programs_of_mem belongs]
      exact h _ (by rw [List.getElem?_map, found]; rfl)
    · rwa [Stage.meetAt_programs_of_notMem belongs]

theorem Reaches.always {rounds rounds' : Rounds} {P : Nat → Program S α} {v : Nat → α}
    (h : Reaches A rounds P rounds' fun rank => .finished (v rank)) {post : α → Prop} {rank : Nat}
    (inside : rank ∈ A) (always : (P rank).Always post) : post (v rank) := by
  obtain ⟨T, run, agree⟩ := h
  have still : ∀ {s t : Stage S α}, ReflTransGen (Stage.Move A) s t →
      (s.programs rank).Always post →
      (t.programs rank).Always post := by
    intro s t run always
    induction run with
    | refl => exact always
    | tail _ move ih => exact move.always ih
  have last : (T rank).Always post := still run always
  rwa [agree rank inside] at last

/-- What always holds at the end of a rank's program holds where all ranks come to their ends. -/
theorem Completes.always {P : Nat → Program S α} {post : (Nat → α) → Prop} (h : Completes A P post)
    {own : Nat → α → Prop} (always : ∀ rank ∈ A, (P rank).Always (own rank)) :
    Completes A P fun v => post v ∧ ∀ rank ∈ A, own rank (v rank) := by
  intro rounds
  obtain ⟨rounds', v, reach, holds⟩ := h rounds
  exact ⟨rounds', v, reach, holds, fun rank inside => reach.always inside (always rank inside)⟩

def Work.Keeps (property : σ → Prop) (work : Work S σ α) : Prop :=
  ∀ state, property state → (work.start state).Always fun ended => property ended.2

namespace Work

variable {property : σ → Prop}

theorem Keeps.bind {work : Work S σ α} {f : α → Work S σ β} (h : work.Keeps property)
    (next : ∀ value, (f value).Keeps property) : (work >>= f).Keeps property := by
  intro state holds
  rw [start_bind]
  refine (h state holds).bind fun ended kept => ?_
  obtain ⟨outcome, state'⟩ := ended
  cases outcome with
  | ok value => exact next value state' kept
  | error failure => exact kept

theorem keeps_ofTask (task : Task S α) : (ofTask task : Work S σ α).Keeps property := fun _ holds =>
  (Program.always_true _).bind fun _ _ => holds

theorem Keeps.lift_bind {program : Program S α} {post : α → Prop} {f : α → Work S σ β}
    (always : program.Always post) (next : ∀ value, post value → (f value).Keeps property) :
    Keeps property ((ExceptT.lift (StateT.lift program) : Work S σ α) >>= f) := by
  intro state holds
  rw [start_lift_bind]
  exact always.bind fun value known => next value known state holds

theorem keeps_ofAttempt (outcome : Attempt α) : (ofAttempt outcome : Work S σ α).Keeps property :=
  fun _ holds => holds

theorem keeps_note (event : Event) : (note event : Work S σ Unit).Keeps property :=
  fun _ holds => holds

theorem keeps_pure (value : α) : (pure value : Work S σ α).Keeps property := fun _ holds => holds

theorem keeps_throw (failure : Failure) : (throw failure : Work S σ α).Keeps property :=
  fun _ holds => holds

theorem keeps_get : (get : Work S σ σ).Keeps property := fun _ holds => holds

theorem keeps_modify {change : σ → σ} (h : ∀ state, property state → property (change state)) :
    (modify change : Work S σ PUnit).Keeps property := fun state holds => h state holds

theorem Keeps.ofAttempt_bind {outcome : Attempt α} {f : α → Work S σ β}
    (next : ∀ value, outcome = .ok value → (f value).Keeps property) :
    (ofAttempt outcome >>= f).Keeps property := by
  intro state holds
  rw [start_ofAttempt_bind]
  cases found : outcome with
  | ok value => exact next value found state holds
  | error failure => exact holds

theorem Keeps.tryCatch {work : Work S σ α} {handle : Failure → Work S σ α} (h : work.Keeps property)
    (next : ∀ failure, (handle failure).Keeps property) :
    (tryCatch work handle).Keeps property := by
  intro state holds
  rw [start_tryCatch]
  refine (h state holds).bind fun ended kept => ?_
  obtain ⟨outcome, state'⟩ := ended
  cases outcome with
  | ok value => exact kept
  | error failure => exact next failure state' kept

theorem Keeps.map {work : Work S σ α} (h : work.Keeps property) (f : α → β) :
    (f <$> work).Keeps property := by
  rw [map_eq_pure_bind]
  exact h.bind fun _ => keeps_pure _

end Work

/-! ## Instances -/

/-- What the handles of a lead have from when they were opened: the leads that the matrix and the
solver were created for, and the settings of the solver. -/
structure Origin (S : Type) where
  matrix : Group
  solver : Group
  settings : Settings S

def LeadHandles.origin (handles : LeadHandles S) : Origin S where
  matrix := handles.matrix.leads
  solver := handles.solver.leads
  settings := handles.solver.settings

theorem LeadHandles.origin_eq_iff {handles handles' : LeadHandles S} :
    handles.origin = handles'.origin ↔
    handles.matrix.leads = handles'.matrix.leads ∧ handles.solver.leads = handles'.solver.leads ∧
      handles.solver.settings = handles'.solver.settings := by
  rw [origin, origin, Origin.mk.injEq]

structure Stats.Lasting (Q : Stats → Prop) : Prop where
  phase : ∀ stats name, Q stats → Q (stats.addPhase name 0)
  uploads : ∀ stats matrixUploads, Q stats → Q { stats with matrixUploads }
  solve : ∀ stats, Q stats → Q { stats with solves := stats.solves + 1 }
  failed : ∀ stats, Q stats →
    Q { stats with solves := stats.solves + 1, failedSolves := stats.failedSolves + 1 }

theorem Stats.lasting_true : Lasting fun _ => True :=
  ⟨fun _ _ _ => trivial, fun _ _ _ => trivial, fun _ _ => trivial, fun _ _ => trivial⟩

/-- A failed solve is also counted as a solve. -/
theorem Stats.lasting_failed_le : Lasting fun stats => stats.failedSolves ≤ stats.solves where
  phase _ _ holds := holds
  uploads _ _ holds := holds
  solve _ holds := Nat.le_succ_of_le holds
  failed _ holds := Nat.succ_le_succ holds

/-- The rank has this context and an instance with these groups, on a lead the handles were opened
so, and the counters have this property. -/
def Attached.Stays (Q : Stats → Prop) (context : Context) (hierarchy : Hierarchy)
    (origin : Option (Origin S)) (b : Attached S) : Prop :=
  b.context = context ∧ Q b.solver.stats ∧
    ∃ inst, b.solver.state = some inst ∧ inst.hierarchy = hierarchy ∧
      inst.lead.map (·.origin) = origin

def Stats.solved (stats : Stats) (status : Status) : Attempt Unit × Stats :=
  if stats.solves + 1 < 2 ^ 32 then
    if status.isSuccess then (.ok (), { stats with solves := stats.solves + 1 }.addPhase "solve" 0)
    else if stats.failedSolves + 1 < 2 ^ 32 then
      (.ok (), { stats with
        solves := stats.solves + 1, failedSolves := stats.failedSolves + 1 }.addPhase "solve" 0)
    else (.error .aborted, { stats with solves := stats.solves + 1 })
  else (.error .aborted, stats)

theorem Stats.Lasting.solved {Q : Stats → Prop} (lasting : Lasting Q) {stats : Stats}
    (holds : Q stats) (status : Status) : Q (stats.solved status).2 := by
  rw [Stats.solved]
  split
  · split
    · exact lasting.phase _ _ (lasting.solve stats holds)
    split
    · exact lasting.phase _ _ (lasting.failed stats holds)
    · exact lasting.solve stats holds
  · exact holds

/-- The rank has this context and an instance with these groups, and on a lead the matrix has its
place among these leads. -/
def Attached.Kept (context : Context) (hierarchy : Hierarchy) (leads : Option Group)
    (b : Attached S) : Prop :=
  b.context = context ∧
    ∃ inst, b.solver.state = some inst ∧ inst.hierarchy = hierarchy ∧
      inst.lead.map (·.matrix.leads) = leads

namespace Attached

variable {Q : Stats → Prop} {context : Context} {hierarchy : Hierarchy} {origin : Option (Origin S)}

theorem keeps_modifySolver {change : TeamSolver S → TeamSolver S}
    (h : ∀ solver, (change solver).state = solver.state)
    (counters : ∀ solver, Q solver.stats → Q (change solver).stats) :
    (modifySolver change).Keeps (Stays Q context hierarchy origin) :=
  Work.keeps_modify fun b ⟨same, stats, inst, state, groups, place⟩ =>
    ⟨same, counters _ stats, inst, (h b.solver).trans state, groups, place⟩

theorem keeps_modifyInstance {change : Instance S → Instance S}
    (h : ∀ inst, (change inst).hierarchy = inst.hierarchy ∧ (change inst).lead = inst.lead) :
    (modifySolver fun solver => { solver with state := solver.state.map change }).Keeps
    (Stays Q context hierarchy origin) :=
  Work.keeps_modify fun _ ⟨same, stats, inst, state, groups, place⟩ =>
    ⟨same, stats, change inst, congrArg (Option.map change) state,
      (h inst).1.trans groups, by rw [(h inst).2, place]⟩

theorem keeps_modifyLead {change : LeadHandles S → LeadHandles S}
    (h : ∀ handles, some handles.origin = origin → some (change handles).origin = origin) :
    (modifyLead change).Keeps (Stays Q context hierarchy origin) := by
  refine Work.keeps_modify fun b ⟨same, stats, inst, state, groups, place⟩ => ?_
  refine ⟨same, stats, { inst with lead := inst.lead.map change }, ?_, groups, ?_⟩
  · exact congrArg (Option.map _) state
  · cases found : inst.lead with
    | none => rw [← place, found]; rfl
    | some handles =>
      rw [found] at place
      exact h handles place

theorem keeps_attempt {work : Step S α} (h : work.Keeps (Stays Q context hierarchy origin)) :
    (attempt work).Keeps (Stays Q context hierarchy origin) :=
  (h.map _).tryCatch fun failure => by cases failure <;> exact fun _ holds => holds

theorem leads_of_upload {m uploaded : MatrixHandle S} {globalRows : Nat} {block : Csr S}
    {partition : RowPartition} (h : m.upload globalRows block partition = .ok uploaded) :
    uploaded.leads = m.leads := by
  simp only [MatrixHandle.upload, Attempt.throw_eq, Attempt.error_bind, Attempt.ite_error_eq_ok_iff,
    Attempt.bind_eq_ok_iff (x := RowPartition.range _ _), Attempt.pure_eq, Except.ok.injEq] at h
  obtain ⟨_, _, _, _, _, rfl⟩ := h
  rfl

/-- New parts for the handles of a lead have come from the old ones. -/
theorem origin_eq_of_parts {handles handles' : LeadHandles S} (place : some handles.origin = origin)
    (place' : some handles'.origin = origin) {matrix : MatrixHandle S}
    (matrix_leads : matrix.leads = handles.matrix.leads) {solver : SolverHandle S}
    (same : solver.leads = handles.solver.leads ∧ solver.settings = handles.solver.settings)
    (rhs solution : VectorHandle S) :
    some { handles' with matrix := matrix }.origin = origin ∧
      some { handles' with solver := solver, rhs := rhs, solution := solution }.origin =
      origin := by
  obtain ⟨first, second, third⟩ :=
    LeadHandles.origin_eq_iff.mp (Option.some.inj (place'.trans place.symm))
  constructor
  · rw [← place, LeadHandles.origin, LeadHandles.origin, matrix_leads, second, third]
  · rw [← place, LeadHandles.origin, LeadHandles.origin, first, same.1, same.2]

/-- What stays of the handles tells the place of the matrix. -/
theorem keeps_kept {α : Type} {work : Step S α} {leads : Option Group}
    (h : ∀ origin, work.Keeps (Stays (fun _ => True) context hierarchy origin)) :
    work.Keeps (Kept context hierarchy leads) := by
  intro b kept
  obtain ⟨same, inst, state, groups, place⟩ := kept
  refine (h _ b ⟨same, trivial, inst, state, groups, rfl⟩).mono fun ended stays => ?_
  obtain ⟨same', _, inst', state', groups', origin⟩ := stays
  have matrix := congrArg (Option.map Origin.matrix) origin
  rw [Option.map_map, Option.map_map] at matrix
  exact ⟨same', inst', state', groups', matrix.trans place⟩

variable [Scalar S]

theorem origin_of_setup {s prepared : SolverHandle S} {m : MatrixHandle S}
    (h : s.setup m = .ok prepared) :
    prepared.leads = s.leads ∧ prepared.settings = s.settings := by
  rw [SolverHandle.setup] at h
  split at h
  · cases h
  · simp only [Attempt.bind_eq_ok_iff (x := System.prepare _ _ _), Attempt.pure_eq,
      Except.ok.injEq] at h
    obtain ⟨_, _, rfl⟩ := h
    exact ⟨rfl, rfl⟩

theorem origin_of_solve (s : SolverHandle S) (rhs x : VectorHandle S) :
    (s.solve rhs x).Always fun answer =>
    answer.2.1.leads = s.leads ∧ answer.2.1.settings = s.settings := by
  rw [SolverHandle.solve]
  split
  · exact ⟨rfl, rfl⟩
  · refine (Program.always_true _).bind fun ended _ => ?_
    obtain ⟨outcome, data⟩ := ended
    cases outcome <;> exact ⟨rfl, rfl⟩

theorem keeps_prepareHandles {handles : LeadHandles S} (place : some handles.origin = origin)
    (globalRows : Nat) (block : Csr S) (partition : RowPartition) :
    (prepareHandles handles globalRows block partition).Keeps
    (Stays Q context hierarchy origin) := by
  refine .ofAttempt_bind fun uploaded taken =>
    Work.Keeps.bind (keeps_modifyLead fun handles' place' => ?_) fun _ => ?_
  · exact (origin_eq_of_parts place place' (leads_of_upload taken) ⟨rfl, rfl⟩ handles.rhs
      handles.solution).1
  refine .ofAttempt_bind fun solver set =>
    Work.Keeps.bind (keeps_modifyLead fun handles' place' => ?_) fun _ => ?_
  · exact (origin_eq_of_parts place place' rfl (origin_of_setup set) handles'.rhs
      handles'.solution).2
  refine (Work.keeps_ofAttempt _).bind fun _ => Work.Keeps.bind (keeps_modifyLead ?_) fun _ => ?_
  · exact fun _ same => same
  exact (Work.keeps_ofAttempt _).bind fun _ => keeps_modifyLead fun _ same => same

theorem keeps_uploadTeam {handles : LeadHandles S}
    (place : some handles.origin = origin) (m : RowShare S) (block : Option (Csr S)) :
    (uploadTeam hierarchy handles m block).Keeps (Stays Q context hierarchy origin) := by
  cases block with
  | none => exact Work.keeps_throw _
  | some block =>
    rw [uploadTeam]
    refine (Work.keeps_ofAttempt _).bind fun _ => (Work.keeps_ofTask _).bind fun _ => ?_
    refine (Work.keeps_ofAttempt _).bind fun _ => (Work.keeps_ofAttempt _).bind fun _ => ?_
    refine (Work.keeps_ofTask _).bind fun count => ?_
    split
    · exact (Work.keeps_throw _).bind fun _ => keeps_prepareHandles place _ _ _
    · exact keeps_prepareHandles place _ _ _

theorem keeps_setMatrix (lasting : Stats.Lasting Q) (m : RowShare S) :
    (setMatrix m).Keeps (Stays Q context hierarchy origin) := by
  intro b kept
  obtain ⟨_, _, inst, state, groups, place⟩ := id kept
  have entered : (setMatrix m).start b = (do
      let block ← Work.ofAttempt m.localBlock
      let merged ← Work.ofTask (mergeTeam inst.hierarchy.team block)
      checkOrder inst.hierarchy m merged.rows.counts
      uploadRows inst m merged.block
      recordMatrix ⟨merged.rows, inst.hierarchy.team.rank⟩ : Step S Unit).start b := by
    rw [setMatrix, initialized, Work.start_bind, Work.start_get_bind, state]
    rfl
  rw [entered]
  refine Work.Keeps.bind (Work.keeps_ofAttempt _) (fun block => ?_) b kept
  refine (Work.keeps_ofTask _).bind fun merged =>
    Work.Keeps.bind ?_ fun _ => Work.Keeps.bind ?_ fun _ => ?_
  · refine (keeps_attempt (Work.keeps_ofTask _)).bind fun order =>
      (Work.keeps_ofTask _).bind fun misordered => ?_
    refine (Work.keeps_ofAttempt _).bind fun _ => ?_
    split
    · exact Work.keeps_throw _
    · exact Work.keeps_pure _
  · have verdict : ∀ upload : Attempt Unit, (do
        let verdict : List Nat ← Work.ofTask
          (inst.hierarchy.team.broadcast .word64 0 [if upload.toBool then 0 else 1])
        Work.ofAttempt upload
        unless verdict = [0] do throw (TopologyError.rejectedByLead : Failure) : Step S Unit).Keeps
        (Stays Q context hierarchy origin) := by
      refine fun upload => (Work.keeps_ofTask _).bind fun verdict =>
        (Work.keeps_ofAttempt _).bind fun _ => ?_
      split
      · exact Work.keeps_pure _
      · exact Work.keeps_throw _
    rw [uploadRows]
    cases found : inst.lead with
    | none => exact (Work.keeps_pure _).bind verdict
    | some handles =>
      rw [found] at place
      rw [groups]
      exact (keeps_attempt (keeps_uploadTeam place m merged.block)).bind (groups ▸ verdict)
  · refine Work.Keeps.bind (keeps_modifyInstance ?_) fun _ => Work.keeps_get.bind fun _ => ?_
    · exact fun _ => ⟨rfl, rfl⟩
    refine (Work.keeps_ofAttempt _).bind fun _ =>
      Work.Keeps.bind (keeps_modifySolver ?_ ?_) fun _ => ?_
    · exact fun _ => rfl
    · exact fun _ holds => lasting.uploads _ _ holds
    exact keeps_modifySolver (fun _ => rfl) fun _ holds => lasting.phase _ _ holds

theorem keeps_solveTeam {handles : LeadHandles S}
    (place : some handles.origin = origin) (x b : List S) :
    (solveTeam hierarchy handles x b).Keeps (Stays Q context hierarchy origin) := by
  refine (Work.keeps_ofAttempt _).bind fun _ => Work.Keeps.bind (keeps_modifyLead ?_) fun _ => ?_
  · exact fun _ same => same
  refine (Work.keeps_ofAttempt _).bind fun _ => Work.Keeps.bind (keeps_modifyLead ?_) fun _ => ?_
  · exact fun _ same => same
  refine Work.Keeps.lift_bind (origin_of_solve _ _ _) fun answer same =>
    Work.Keeps.bind (keeps_modifyLead fun handles' place' => ?_) fun _ => ?_
  · exact (origin_eq_of_parts place place' rfl same handles'.rhs answer.2.2).2
  refine (Work.keeps_ofAttempt _).bind fun _ => (Work.keeps_ofAttempt _).bind fun status => ?_
  split
  · exact (Work.keeps_ofAttempt _).bind fun _ => Work.keeps_pure _
  · exact (Work.keeps_note _).bind fun _ => (Work.keeps_ofAttempt _).bind fun _ => Work.keeps_pure _

theorem keeps_solveOnLead {inst : Instance S} (groups : inst.hierarchy = hierarchy)
    (place : inst.lead.map (·.origin) = origin) (teamX teamB : Option (List S)) :
    (solveOnLead inst teamX teamB).Keeps (Stays Q context hierarchy origin) := by
  unfold solveOnLead
  split
  · next handles x b found =>
    rw [found] at place
    rw [groups]
    exact Work.Keeps.bind (keeps_solveTeam place x b) fun _ => Work.keeps_pure _
  · exact Work.keeps_pure _

omit [Scalar S] in
theorem start_recordSolve (status : Status) (b : Attached S) :
    (recordSolve status : Step S Unit).start b = .finished ((b.solver.stats.solved status).1,
      { b with solver.stats := (b.solver.stats.solved status).2 }) := by
  rw [recordSolve, Work.start_get_bind, Stats.solved]
  dsimp only
  by_cases few : b.solver.stats.solves + 1 < 2 ^ 32
  · rw [Word.countUp_of_lt few, Work.start_ofAttempt_bind, Work.following_ok, modifySolver,
      Work.start_modify_bind, if_pos few]
    by_cases success : status.isSuccess
    · simp only [if_pos success]
      rfl
    simp only [if_neg success]
    by_cases few' : b.solver.stats.failedSolves + 1 < 2 ^ 32
    · rw [Word.countUp_of_lt few', if_pos few']
      rfl
    · rw [Word.countUp_of_not_lt few', if_neg few']
      rfl
  · rw [Word.countUp_of_not_lt few, if_neg few]
    rfl

omit [Scalar S] in
theorem keeps_recordSolve (lasting : Stats.Lasting Q) (status : Status) :
    (recordSolve status : Step S Unit).Keeps (Stays Q context hierarchy origin) := by
  intro b stays
  obtain ⟨same, stats, inst, state, groups, place⟩ := stays
  rw [start_recordSolve]
  exact ⟨same, lasting.solved stats status, inst, state, groups, place⟩

theorem keeps_solve (lasting : Stats.Lasting Q) (x b : List S) :
    (solve x b).Keeps (Stays Q context hierarchy origin) := by
  intro state kept
  obtain ⟨_, _, inst, found, groups, place⟩ := id kept
  rw [solve, initialized, Work.start_bind, Work.start_get_bind, found]
  simp only [Work.start_pure, Program.finished_bind, Work.following_ok]
  cases inst.layout with
  | none => exact kept
  | some layout =>
    refine Work.Keeps.bind ?_ (fun _ => ?_) state kept
    · refine (Work.keeps_ofAttempt _).bind fun expected =>
        (Work.keeps_ofTask _).bind fun mismatches => ?_
      split
      · exact Work.keeps_throw _
      · exact Work.keeps_pure _
    refine (Work.keeps_ofTask _).bind fun teamX => (Work.keeps_ofTask _).bind fun teamB => ?_
    refine Work.Keeps.bind (keeps_solveOnLead groups place _ _) fun _ => ?_
    refine (Work.keeps_ofTask _).bind fun code => (Work.keeps_ofTask _).bind fun own => ?_
    exact (Work.keeps_ofAttempt _).bind fun status =>
      (keeps_recordSolve lasting status).bind fun _ => Work.keeps_pure _

end Attached
end DeviceTeams
