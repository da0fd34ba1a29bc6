import DeviceTeams.Proofs.RowOrder
import DeviceTeams.Proofs.Uploads

/-!
# Setting a matrix

The ranks of a group come to one verdict on the order of the rows within the teams, the leads come
to one verdict on the order of the teams, and a team learns what the engine says to its lead. A rank
on which the matrix is refused is left as it was.
-/
namespace DeviceTeams

variable {S : Type} {A : Finset Nat} {node : Nat → Nat} {G : Nat → Group} {h : Nat → Hierarchy}
  {a : Nat → Attached S}

/-! ## Attempts -/

namespace Attached

def attempted {α : Type} : Attempt α × Attached S → Attempt (Attempt α) × Attached S
  | (.ok value, b) => (.ok (.ok value), b)
  | (.error .aborted, b) => (.error .aborted, b)
  | (.error (.refused cause), b) => (.ok (.error (.refused cause)), b)

theorem start_attempt {α : Type} (work : Step S α) (b : Attached S) :
    (attempt work).start b = work.start b >>= fun ended => .finished (attempted ended) := by
  rw [attempt, Work.start_tryCatch, Work.start_map, bind_assoc]
  congr 1
  funext ended
  obtain ⟨outcome, b'⟩ := ended
  rcases outcome with failure | value
  · cases failure <;> rfl
  · rfl

theorem start_attempt_bind {α β : Type} (work : Step S α) (f : Attempt α → Step S β)
    (b : Attached S) :
    (attempt work >>= f).start b = work.start b >>=
    fun ended => Work.following f (attempted ended) := by
  rw [Work.start_bind, start_attempt, bind_assoc]
  rfl

theorem start_initialized_bind {α : Type} {b : Attached S} {inst : Instance S}
    (held : b.solver.state = some inst) (f : Instance S → Step S α) :
    (initialized >>= f).start b = (f inst).start b := by
  rw [initialized, Work.start_bind, Work.start_get_bind, held]
  rfl

end Attached

theorem Decides.attempted_eq {x : Attempt Unit} {condition : Prop} (decided : Decides x condition)
    (b : Attached S) :
    Attached.attempted (x, b) = (.ok x, b) := by
  by_cases holds : condition
  · rw [decided.accepts holds]
    rfl
  · obtain ⟨cause, refused⟩ := decided.refuses holds
    rw [refused]
    rfl

theorem Decides.toBool_iff {x : Attempt Unit} {condition : Prop} (decided : Decides x condition) :
    x.toBool = true ↔ condition := by
  by_cases holds : condition
  · rw [decided.accepts holds]
    exact iff_of_true rfl holds
  · obtain ⟨cause, refused⟩ := decided.refuses holds
    rw [refused]
    exact iff_of_false Bool.false_ne_true holds

/-! ## The order within the teams -/

def TeamsInOrder (h : Nat → Hierarchy) (members : List Nat) (start count : Nat → Nat) : Prop :=
  ∀ member ∈ members, (h member).team.hub.ranks.IsChain fun a b => start b = start a + count a

/-- Every member of a team learns whether the rows of the team follow each other. -/
theorem checkTeamRows_completes {T : Nat → Group} (t : Together node A T) {m : Nat → RowShare S}
    {count : Nat → Nat} (word : ∀ rank ∈ A, (m rank).rowStart + count rank < Word.limit) :
    Completes A (fun rank =>
      (Attached.checkTeamRows (T rank) (m rank) ((T rank).hub.ranks.map count)).run) fun v =>
      ∀ rank ∈ A, Decides (v rank) ((T rank).hub.ranks.IsChain fun a b =>
        (m b).rowStart = (m a).rowStart + count a) :=
  (t.allGather .word64 fun rank => (m rank).rowStart).followed fun starts brought =>
    .of_finished
      (v := fun rank => Attached.checkStarts (starts rank) ((T rank).hub.ranks.map count))
      (fun _ _ => rfl) fun rank inside => by
        simp only [brought rank inside]
        exact checkStarts_decides fun member belongs => word member (t.of_mem inside belongs).1

namespace Attached

def countMisordered (global : Group) (order : Attempt Unit) : Step S Unit := do
  let misordered ← Work.ofTask (global.sumCounts (if order.toBool then 0 else 1))
  Work.ofAttempt order
  if 0 < misordered then throw (TopologyError.otherTeamsMisordered misordered : Failure)

theorem start_checkOrder (hierarchy : Hierarchy) (m : RowShare S) (counts : List Nat)
    (b : Attached S) :
    (checkOrder hierarchy m counts).start b = (checkTeamRows hierarchy.team m counts).run >>=
    fun order =>
      Work.following (countMisordered hierarchy.global) (attempted (order, b)) := by
  rw [checkOrder, start_attempt_bind, Work.start_ofTask, bind_assoc]
  rfl

/-- First a rank waits for its team. -/
theorem checkOrder_waits (hierarchy : Hierarchy) (m : RowShare S) (counts : List Nat)
    (b : Attached S) :
    ∃ payload resume, (checkOrder hierarchy m counts).start b =
      .meet hierarchy.team.hub hierarchy.team.rank payload resume := ⟨_, _, rfl⟩

/-- Then it waits for all ranks. -/
theorem countMisordered_waits (global : Group) (order : Attempt Unit) (b : Attached S) :
    ∃ payload resume,
    (countMisordered global order).start b = .meet global.hub global.rank payload resume :=
  ⟨_, _, rfl⟩

end Attached

/-- Whole teams come to where they wait for the others. -/
theorem checkOrder_reaches (t : Together node A fun rank => (h rank).team) {m : Nat → RowShare S}
    {count : Nat → Nat} (word : ∀ rank ∈ A, (m rank).rowStart + count rank < Word.limit)
    (rounds : Rounds) :
    ∃ (rounds' : Rounds) (order : Nat → Attempt Unit), Reaches A rounds (fun rank =>
        (Attached.checkOrder (h rank) (m rank) ((h rank).team.hub.ranks.map count)).start
          (a rank)) rounds' fun rank =>
          (Attached.countMisordered (h rank).global (order rank)).start (a rank) := by
  obtain ⟨rounds', order, reach, decided⟩ := checkTeamRows_completes t word rounds
  exact ⟨rounds', order,
    (reach.andThen fun rank order => Work.following (Attached.countMisordered (h rank).global)
    (Attached.attempted (order, a rank))).congr (fun rank _ => Attached.start_checkOrder ..)
    fun rank inside => by
      show Work.following _ (Attached.attempted (order rank, a rank)) = _
      rw [(decided rank inside).attempted_eq, Work.following_ok]⟩

theorem checkOrder_completes (ranked : Ranked node A G h) {m : Nat → RowShare S} {count : Nat → Nat}
    (word : ∀ rank ∈ A, (m rank).rowStart + count rank < Word.limit)
    (few : ∀ rank ∈ A, (G rank).hub.ranks.length < Word.limit) :
    Completes A (fun rank =>
      (Attached.checkOrder (h rank) (m rank) ((h rank).team.hub.ranks.map count)).start
        (a rank)) fun v =>
        ∀ rank ∈ A, Settles (a rank) (v rank)
          (TeamsInOrder h (G rank).hub.ranks (fun member => (m member).rowStart) count)
          (· = a rank) := by
  let ordered : Nat → Prop := fun rank => (h rank).team.hub.ranks.IsChain fun a b =>
    (m b).rowStart = (m a).rowStart + count a
  have checked : Completes A (fun rank => (Attached.checkTeamRows (h rank).team (m rank)
      ((h rank).team.hub.ranks.map count)).run) fun v =>
        ∀ rank ∈ A, Decides (v rank) (ordered rank) :=
    checkTeamRows_completes ranked.team word
  have global_few : ∀ rank ∈ A, (h rank).global.hub.ranks.length < Word.limit :=
    fun rank inside => by
      rw [ranked.global_ranks rank inside]
      exact few rank inside
  refine (Completes.bind
    (f := fun rank order => Work.following (Attached.countMisordered (h rank).global)
    (Attached.attempted (order, a rank))) checked fun order decided => ?_).congr fun rank _ =>
      Attached.start_checkOrder ..
  refine ((ranked.global.countRanks (p := fun rank => !(order rank).toBool) global_few).followedBy
    (s := a) (f := fun rank misordered => do
      Work.ofAttempt (order rank)
      if 0 < misordered then throw (TopologyError.otherTeamsMisordered misordered : Failure))
    fun misordered counted => ?_).congr fun rank inside => ?_
  · have : Nonempty (Attempt Unit × Attached S) := ⟨.ok (), a 0⟩
    refine .each (fun rank ended => Settles (a rank) ended
      (TeamsInOrder h (G rank).hub.ranks (fun member => (m member).rowStart) count) (· = a rank))
      fun rank inside => ?_
    have none_misordered : misordered rank = 0 ↔
        TeamsInOrder h (G rank).hub.ranks (fun member => (m member).rowStart) count := by
      rw [counted rank inside, List.countP_eq_zero, ranked.global_ranks rank inside]
      refine forall₂_congr fun member belongs => ?_
      rw [Bool.not_eq_true', Bool.not_eq_false,
        (decided member (ranked.ranks_eq inside belongs).1).toBool_iff]
    by_cases here : ordered rank
    · rw [(decided rank inside).accepts here, Work.start_ofAttempt_bind, Work.following_ok]
      by_cases others : misordered rank = 0
      · rw [if_neg (by omega)]
        exact ⟨_, rfl, fun _ => ⟨rfl, rfl⟩, fun fails => absurd (none_misordered.mp others) fails⟩
      · rw [if_pos (by omega)]
        exact ⟨_, rfl, fun holds => absurd (none_misordered.mpr holds) others, fun _ => ⟨_, rfl⟩⟩
    · obtain ⟨cause, refused⟩ := (decided rank inside).refuses here
      rw [refused]
      exact ⟨_, rfl, fun holds => absurd (holds rank (ranked.mem inside)) here, fun _ =>
        ⟨cause, rfl⟩⟩
  · rw [(decided rank inside).attempted_eq, Work.following_ok, Attached.countMisordered]
    cases (order rank).toBool <;> rfl

/-! ## The leads and their teams -/

/-- Instances that ranks have initialized together: the leads hold handles, and a matrix of theirs
has a seat among the leads that its resources were created for. -/
structure Open (A : Finset Nat) (h : Nat → Hierarchy) (handles : Nat → LeadHandles S)
    (a : Nat → Attached S) (inst : Nat → Instance S) : Prop where
  state : ∀ rank ∈ A, (a rank).solver.state = some (inst rank)
  hierarchy : ∀ rank ∈ A, (inst rank).hierarchy = h rank
  lead : ∀ rank ∈ A, (inst rank).lead = if (h rank).isLead then some (handles rank) else none
  seat : ∀ rank ∈ A, (h rank).isLead →
    (handles rank).matrix.leads.rank < (handles rank).matrix.leads.size

/-- What the upload leaves a rank with: new handles on a lead, nothing new on the others. -/
def Received [Scalar S] (ncols : Nat → Nat) (blocks : Nat → List (List (Nat × S)))
    (h : Nat → Hierarchy) (m : Nat → RowShare S) (handles : Nat → LeadHandles S)
    (before : Attached S) (rank : Nat) (after : Attached S) :
    Prop :=
  if (h rank).isLead then
    ∃ new, Uploaded ncols blocks (h rank).leads (m rank) (handles rank) rank new ∧
      after = before.withLead new
  else after = before

theorem Received.stats_eq [Scalar S] {ncols : Nat → Nat} {blocks : Nat → List (List (Nat × S))}
    {m : Nat → RowShare S} {handles : Nat → LeadHandles S} {before after : Attached S} {rank : Nat}
    (received : Received ncols blocks h m handles before rank after) :
    after.solver.stats = before.solver.stats := by
  rw [Received] at received
  split at received
  · obtain ⟨_, _, rfl⟩ := received
    rfl
  · rw [received]

theorem Received.hierarchy_eq [Scalar S] {ncols : Nat → Nat} {blocks : Nat → List (List (Nat × S))}
    {m : Nat → RowShare S} {handles : Nat → LeadHandles S} {before after : Attached S} {rank : Nat}
    (received : Received ncols blocks h m handles before rank after) :
    after.solver.hierarchy = before.solver.hierarchy := by
  rw [Received] at received
  split at received
  · obtain ⟨new, _, rfl⟩ := received
    exact Option.map_map ..
  · rw [received]

variable {handles : Nat → LeadHandles S} {inst : Nat → Instance S} {ncols : Nat → Nat}
  {blocks : Nat → List (List (Nat × S))} {m : Nat → RowShare S}

/-- The leads upload the rows of their teams. -/
theorem leadUploads_complete [Scalar S] (ranked : Ranked node A G h)
    (opened : Open A h handles a inst)
    (word : ∀ rank ∈ A, (h rank).isLead → (leadCounts blocks (h rank).leads).sum < Word.limit)
    (few : ∀ rank ∈ A, (G rank).hub.ranks.length < Word.limit) :
    Completes (A.filter fun rank => (h rank).isLead)
    (fun rank => (Attached.uploadTeam (h rank) (handles rank) (m rank)
      (some (.ofRows (ncols rank) (blocks rank)))).start (a rank)) fun v =>
        ∀ rank ∈ A.filter fun rank => (h rank).isLead, Settles (a rank) (v rank)
          (Uploads ncols blocks (fun rank => (h rank).leads) m handles rank)
          (Received ncols blocks h m handles (a rank) rank) := by
  refine (uploadTeam_completes ranked.leads (fun rank member => ?_) (fun rank member => ?_)
    (fun rank member => ?_)
    (fun rank member => ?_) fun rank member => ?_).mono fun v settled rank member => ?_
  all_goals obtain ⟨inside, lead⟩ := Finset.mem_filter.mp member
  · rw [ranked.solver rank inside, if_pos lead]
  · have holds := opened.lead rank inside
    rw [if_pos lead] at holds
    exact ⟨(inst rank).layout, by
      rw [opened.state rank inside, ← opened.hierarchy rank inside, ← holds]⟩
  · exact opened.seat rank inside lead
  · exact word rank inside lead
  · rw [ranked.leads_ranks rank inside lead]
    exact Nat.lt_of_le_of_lt (List.length_filter_le ..) (few rank inside)
  · refine ⟨fun uploads => ?_, (settled rank member).refuses⟩
    rw [Received, if_pos lead]
    exact (settled rank member).accepts uploads

/-- All ranks come to where the leads tell their teams of the upload. -/
theorem uploads_completes [Scalar S] (ranked : Ranked node A G h) (opened : Open A h handles a inst)
    {block : Nat → Option (Csr S)}
    (lead_block : ∀ rank ∈ A, (h rank).isLead →
      block rank = some (.ofRows (ncols rank) (blocks rank)))
    (word : ∀ rank ∈ A, (h rank).isLead → (leadCounts blocks (h rank).leads).sum < Word.limit)
    (few : ∀ rank ∈ A, (G rank).hub.ranks.length < Word.limit) :
    Completes A (fun rank => (match (inst rank).lead with
      | some handles =>
        Attached.attempt (Attached.uploadTeam (inst rank).hierarchy handles (m rank) (block rank))
      | none =>
        pure (.ok ()) : Attached.Step S (Attempt Unit)).start (a rank)) fun v => ∀ rank ∈ A, ∃ x b,
        v rank = (.ok x, b) ∧ Settles (a rank) (x, b)
          ((h rank).isLead → Uploads ncols blocks (fun rank => (h rank).leads) m handles rank)
          (Received ncols blocks h m handles (a rank) rank) := by
  have attempts : Completes (A.filter fun rank => (h rank).isLead)
      (fun rank => (Attached.uploadTeam (h rank)
      (handles rank) (m rank) (some (.ofRows (ncols rank) (blocks rank)))).start
      (a rank) >>= fun ended =>
        .finished (Attached.attempted ended)) fun v =>
          ∀ rank ∈ A.filter fun rank => (h rank).isLead,
          ∃ x b, v rank = (.ok x, b) ∧ Settles (a rank) (x, b)
            ((h rank).isLead → Uploads ncols blocks (fun rank => (h rank).leads) m handles rank)
            (Received ncols blocks h m handles (a rank) rank) := by
    refine (leadUploads_complete ranked opened word few).map fun v settled rank member => ?_
    have own := settled rank member
    refine ⟨(v rank).1, (v rank).2, own.decides.attempted_eq (v rank).2,
      fun uploads => ?_, fun fails => ?_⟩
    · exact own.accepts (uploads (Finset.mem_filter.mp member).2)
    · exact own.refuses fun uploads => fails fun _ => uploads
  refine ((attempts.congr fun rank member => ?_).part (w := fun rank => (.ok (.ok ()), a rank))
    (Finset.filter_subset ..) fun rank inside outside => ?_).mono
      fun v ⟨u, values, leads, others⟩ rank inside => ?_
  · obtain ⟨inside, lead⟩ := Finset.mem_filter.mp member
    rw [opened.lead rank inside, if_pos lead, opened.hierarchy rank inside,
      lead_block rank inside lead]
    exact Attached.start_attempt ..
  · have other : ¬ (h rank).isLead := fun lead => outside (Finset.mem_filter.mpr ⟨inside, lead⟩)
    rw [opened.lead rank inside, if_neg other]
    rfl
  · by_cases lead : (h rank).isLead
    · have member : rank ∈ A.filter fun rank => (h rank).isLead :=
        Finset.mem_filter.mpr ⟨inside, lead⟩
      obtain ⟨x, b, same, settled⟩ := values rank member
      exact ⟨x, b, (leads rank member).trans same, settled⟩
    · refine ⟨.ok (), a rank, others rank inside fun member =>
        lead (Finset.mem_filter.mp member).2, fun _ => ?_, ?_⟩
      · rw [Received, if_neg lead]
        exact ⟨rfl, rfl⟩
      · exact fun fails => absurd (fun leads => absurd leads lead) fails

def Attached.hearLead (upload : Attempt Unit) (verdict : List Nat) : Attached.Step S Unit := do
  Work.ofAttempt upload
  unless verdict = [0] do throw (TopologyError.rejectedByLead : Failure)

/-- A rank whose lead has uploaded the rows succeeds, and all others of the team are as before. -/
theorem Ranked.hearLead_settles [Scalar S] (ranked : Ranked node A G h) {rank : Nat}
    (inside : rank ∈ A) {upload : Attempt Unit} {b : Attached S}
    (settled : Settles (a rank) (upload, b)
      ((h rank).isLead → Uploads ncols blocks (fun rank => (h rank).leads) m handles rank)
      (Received ncols blocks h m handles (a rank) rank)) {verdict : List Nat}
    (told : verdict = [0] ↔ Uploads ncols blocks (fun rank => (h rank).leads) m handles
      (leadOf h rank)) :
    ∃ ended, (Attached.hearLead upload verdict).start b = .finished ended ∧ Settles (a rank) ended
      (Uploads ncols blocks (fun rank => (h rank).leads) m handles (leadOf h rank))
      (Received ncols blocks h m handles (a rank) rank) := by
  rw [Attached.hearLead]
  by_cases uploads : Uploads ncols blocks (fun rank => (h rank).leads) m handles (leadOf h rank)
  · have accepted := settled.accepts fun lead => by rwa [ranked.leadOf_self inside lead] at uploads
    rw [show upload = .ok () from accepted.1, Work.start_ofAttempt_bind, Work.following_ok,
      if_pos (told.mpr uploads)]
    exact ⟨_, rfl, fun _ => ⟨rfl, accepted.2⟩, fun fails => absurd uploads fails⟩
  · by_cases lead : (h rank).isLead
    · rw [ranked.leadOf_self inside lead] at uploads
      obtain ⟨cause, same⟩ := settled.refuses fun holds => uploads (holds lead)
      obtain ⟨refused, unchanged⟩ := Prod.mk.inj same
      rw [refused, unchanged]
      refine ⟨_, rfl, fun holds => ?_, fun _ => ⟨cause, rfl⟩⟩
      rw [ranked.leadOf_self inside lead] at holds
      exact absurd holds uploads
    · have accepted := settled.accepts fun holds => absurd holds lead
      have unchanged := accepted.2
      rw [Received, if_neg lead] at unchanged
      rw [show upload = .ok () from accepted.1, Work.start_ofAttempt_bind, Work.following_ok,
        if_neg fun same => uploads (told.mp same), show b = a rank from unchanged]
      exact ⟨_, rfl, fun holds => absurd holds uploads, fun _ => ⟨_, rfl⟩⟩

theorem uploadRows_completes [Scalar S] (ranked : Ranked node A G h)
    (opened : Open A h handles a inst) {block : Nat → Option (Csr S)}
    (lead_block : ∀ rank ∈ A, (h rank).isLead →
      block rank = some (.ofRows (ncols rank) (blocks rank)))
    (word : ∀ rank ∈ A, (h rank).isLead → (leadCounts blocks (h rank).leads).sum < Word.limit)
    (few : ∀ rank ∈ A, (G rank).hub.ranks.length < Word.limit) :
    Completes A (fun rank => (Attached.uploadRows (inst rank) (m rank) (block rank)).start (a rank))
    fun v =>
      ∀ rank ∈ A, Settles (a rank) (v rank)
        (Uploads ncols blocks (fun rank => (h rank).leads) m handles (leadOf h rank))
        (Received ncols blocks h m handles (a rank) rank) := by
  refine ((uploads_completes (m := m) ranked opened lead_block word few).bind (f := fun rank =>
    Work.following fun upload : Attempt Unit => do
      let verdict : List Nat ←
        Work.ofTask ((inst rank).hierarchy.team.broadcast .word64 0
          [if upload.toBool then 0 else 1])
      Attached.hearLead upload verdict) fun v ended => ?_).congr fun rank _ => by
        rw [Attached.uploadRows]
        cases (inst rank).lead <;> exact Work.start_bind ..
  have : Nonempty (Attempt Unit) := ⟨.ok ()⟩
  have : Nonempty (Attached S) := ⟨a 0⟩
  choose! x b values settled using ended
  refine ((ranked.team.broadcast .word64 (fun rank => [if (x rank).toBool then 0 else 1])
    fun _ _ => rfl).followedBy (s := b)
    (f := fun rank verdict => Attached.hearLead (x rank) verdict)
      fun verdict told => ?_).congr fun rank inside => ?_
  · have : Nonempty (Attempt Unit × Attached S) := ⟨.ok (), a 0⟩
    refine .each (fun rank ended => Settles (a rank) ended
      (Uploads ncols blocks (fun rank => (h rank).leads) m handles (leadOf h rank))
      (Received ncols blocks h m handles (a rank) rank)) fun rank inside =>
        ranked.hearLead_settles inside (settled rank inside) ?_
    have own := (settled _ (ranked.leadOf_inside inside)).decides.toBool_iff
    rw [forall_prop_of_true (ranked.isLead_leadOf inside)] at own
    rw [told rank inside _ (ranked.team_head inside), ← own]
    cases (x (leadOf h rank)).toBool <;> simp
  · rw [values rank inside, opened.hierarchy rank inside, Work.following_ok]

/-! ## All of it -/

/-- The rows of a team, as its lead stacks them. -/
def teamBlock (h : Nat → Hierarchy) (rows : Nat → List (List (Nat × S))) (lead : Nat) :
    List (List (Nat × S)) :=
  ((h lead).team.hub.ranks.map rows).flatten

structure Spread (A : Finset Nat) (G : Nat → Group) (globalCols : Nat) (m : Nat → RowShare S)
    (rows : Nat → List (List (Nat × S))) : Prop where
  block : ∀ rank ∈ A, (m rank).localBlock = .ok (.ofRows globalCols (rows rank))
  tidy : ∀ rank ∈ A, ∀ row ∈ rows rank, Tidy globalCols row
  stop : ∀ rank ∈ A, (m rank).rowStart + (rows rank).length < Word.limit
  small : globalCols ≤ 2 ^ 63
  fits : ∀ rank ∈ A, Fits rows (G rank).hub.ranks

/-- The matrix is set on a rank: the rows of all teams are in order, the teams follow the order of
the leads, and the engine takes the rows of the team. -/
def Accepted (h : Nat → Hierarchy) (ncols : Nat → Nat) (rows : Nat → List (List (Nat × S)))
    (m : Nat → RowShare S) (handles : Nat → LeadHandles S) (members : List Nat) (rank : Nat) :
    Prop :=
  TeamsInOrder h members (fun member => (m member).rowStart) (fun member => (rows member).length) ∧
    Uploads ncols (teamBlock h rows) (fun rank => (h rank).leads) m handles (leadOf h rank)

def Attached.loaded (b : Attached S) (layout : VectorLayout) : Attached S :=
  { b with solver := {
      state := b.solver.state.map fun inst => { inst with layout := some layout }
      stats := { b.solver.stats with
        matrixUploads := b.solver.stats.matrixUploads + 1 }.addPhase "set matrix" 0 } }

def teamLayout (team : Group) (rows : Nat → List (List (Nat × S))) : VectorLayout :=
  ⟨⟨team.hub.ranks.map fun member => (rows member).length,
    runningTotals 0 (team.hub.ranks.map fun member => (rows member).length)⟩, team.rank⟩

theorem Attached.start_recordMatrix (b : Attached S) (layout : VectorLayout)
    (few : b.solver.stats.matrixUploads + 1 < 2 ^ 32) :
    (recordMatrix layout).start b = .finished (.ok (), b.loaded layout) := by
  rw [recordMatrix, modifySolver, Work.start_modify_bind, Work.start_get_bind,
    Word.countUp_of_lt few, Work.start_ofAttempt_bind, Work.following_ok]
  rfl

theorem length_teamBlock (rows : Nat → List (List (Nat × S))) (lead : Nat) :
    (teamBlock h rows lead).length = teamRows h (fun member => (rows member).length) lead := by
  rw [teamBlock, teamRows, List.length_flatten, List.map_map]
  rfl

theorem Fits.sublist {rows : Nat → List (List (Nat × S))} {members some_members : List Nat}
    (fits : Fits rows members) (part : some_members.Sublist members) : Fits rows some_members where
  pointers := Nat.lt_of_le_of_lt
    (Nat.mul_le_mul_right 8 ((part.map _).sum_le_sum fun _ _ => Nat.zero_le _)) fits.pointers
  entries := Nat.lt_of_le_of_lt
    (Nat.mul_le_mul_right 8 ((part.map _).sum_le_sum fun _ _ => Nat.zero_le _)) fits.entries

/-- What fits for all ranks of a group fits for each team. -/
theorem Ranked.team_fits (ranked : Ranked node A G h) {rows : Nat → List (List (Nat × S))}
    (fits : ∀ rank ∈ A, Fits rows (G rank).hub.ranks) :
    ∀ rank ∈ A, Fits rows (h rank).team.hub.ranks :=
  fun rank inside =>
    (fits rank inside).sublist (ranked.team_ranks rank inside ▸ List.filter_sublist)

def Attached.placeRows [Scalar S] (h : Hierarchy) (inst : Instance S) (m : RowShare S)
    (merge : TeamMerge S) :
    Attached.Step S Unit := do
  checkOrder h m merge.rows.counts
  uploadRows inst m merge.block

/-- Once the blocks of the teams have been merged, ranks of one group come to an end with the order
of the rows and the upload. Those on which the rows are refused are as before. -/
theorem placeRows_completes [Scalar S] (ranked : Ranked node A G h)
    (opened : Open A h handles a inst) (ncols : Nat → Nat) {rows : Nat → List (List (Nat × S))}
    (stop : ∀ rank ∈ A, (m rank).rowStart + (rows rank).length < Word.limit)
    (fits : ∀ rank ∈ A, Fits rows (G rank).hub.ranks)
    (one : ∀ rank ∈ A, ∀ other ∈ A, other ∈ (G rank).hub.ranks) :
    Completes A (fun rank => (Attached.placeRows (h rank) (inst rank) (m rank)
      (merged (ncols rank) rows (h rank).team)).start (a rank)) fun v => ∀ rank ∈ A,
      Settles (a rank) (v rank) (Accepted h ncols rows m handles (G rank).hub.ranks rank)
        (Received ncols (teamBlock h rows) h m handles (a rank) rank) := by
  have some_outcome : Nonempty (Attempt Unit × Attached S) := ⟨.ok (), a 0⟩
  have word : ∀ rank ∈ A, (G rank).hub.ranks.length < Word.limit := fun rank inside =>
    Nat.lt_of_le_of_lt (Nat.le_add_left ..) (fits rank inside).rows_lt
  have lead_word : ∀ rank ∈ A, (h rank).isLead →
      (leadCounts (teamBlock h rows) (h rank).leads).sum < Word.limit := by
    intro rank inside lead
    rw [leadCounts, ranked.leads_ranks rank inside lead, List.map_congr_left fun lead _ =>
      length_teamBlock rows lead, ranked.sum_teamRows inside]
    exact Nat.lt_of_le_of_lt (Nat.le_add_right ..) (fits rank inside).rows_lt
  have lead_block : ∀ rank ∈ A, (h rank).isLead →
      (merged (ncols rank) rows (h rank).team).block =
      some (.ofRows (ncols rank) (teamBlock h rows rank)) := by
    intro rank inside lead
    have first : (h rank).team.rank = 0 := by simpa [ranked.isLead rank inside] using lead
    exact if_pos first
  have everywhere : ∀ rank ∈ A, ∀ other ∈ A,
      TeamsInOrder h (G rank).hub.ranks (fun member => (m member).rowStart)
      (fun member => (rows member).length) →
      TeamsInOrder h (G other).hub.ranks (fun member => (m member).rowStart)
      (fun member => (rows member).length) :=
    fun rank inside other inside' ordered member belongs =>
      ordered member (one rank inside member (ranked.ranks_eq inside' belongs).1)
  refine ((checkOrder_completes ranked stop word).bind (f := fun rank => Work.following fun _ =>
    Attached.uploadRows (inst rank) (m rank) (merged (ncols rank) rows (h rank).team).block)
      fun order checked => ?_).congr
    fun rank _ => Work.start_bind ..
  by_cases ordered : ∃ rank ∈ A, TeamsInOrder h (G rank).hub.ranks
      (fun member => (m member).rowStart) (fun member => (rows member).length)
  · obtain ⟨first, first_inside, ordered⟩ := ordered
    refine ((uploadRows_completes (m := m) ranked opened lead_block lead_word word).mono
      fun upload settled rank inside => ?_).congr fun rank inside => ?_
    · have holds := everywhere first first_inside rank inside ordered
      refine ⟨fun accepted => (settled rank inside).accepts accepted.2, fun fails => ?_⟩
      exact (settled rank inside).refuses fun uploads => fails ⟨holds, uploads⟩
    · obtain ⟨accepted, same⟩ :=
        (checked rank inside).accepts (everywhere first first_inside rank inside ordered)
      rw [show order rank = (.ok (), a rank) from Prod.ext accepted same, Work.following_ok]
  · refine .each (fun rank ended => Settles (a rank) ended
      (Accepted h ncols rows m handles (G rank).hub.ranks rank)
      (Received ncols (teamBlock h rows) h m handles (a rank) rank)) fun rank inside => ?_
    obtain ⟨cause, refused⟩ :=
      (checked rank inside).refuses fun holds => ordered ⟨rank, inside, holds⟩
    rw [refused]
    exact ⟨_, rfl, fun holds => absurd ⟨rank, inside, holds.1⟩ ordered, fun _ => ⟨cause, rfl⟩⟩

/-- Setting a matrix, once its rows have been taken from the share. -/
theorem Attached.start_setMatrix [Scalar S] (opened : Open A h handles a inst) {rank : Nat}
    (inside : rank ∈ A) {block : Csr S} (taken : (m rank).localBlock = .ok block) :
    (setMatrix (m rank)).start (a rank) =
      (mergeTeam (h rank).team block).run >>= fun outcome => Work.following (fun merge =>
        placeRows (h rank) (inst rank) (m rank) merge >>= fun _ =>
          recordMatrix ⟨merge.rows, (h rank).team.rank⟩) (outcome, a rank) := by
  rw [setMatrix, start_initialized_bind (opened.state rank inside), taken,
    Work.start_ofAttempt_bind,
    Work.following_ok, Work.start_ofTask_bind, opened.hierarchy rank inside]
  simp only [placeRows, bind_assoc]

/-- Ranks of one group whose columns are signed words, and those of a team columns for its lead, all
come to an end. Those on which the matrix is refused are as before. -/
theorem setMatrix_completes_of_signed [Scalar S] (ranked : Ranked node A G h)
    (opened : Open A h handles a inst) (ncols : Nat → Nat) {rows : Nat → List (List (Nat × S))}
    (block : ∀ rank ∈ A, (m rank).localBlock = .ok (.ofRows (ncols rank) (rows rank)))
    (small : ∀ rank ∈ A, ∀ row ∈ rows rank, ∀ entry ∈ row, entry.1 < 2 ^ 63)
    (tidy : ∀ rank ∈ A, (h rank).isLead → ∀ member ∈ (h rank).team.hub.ranks, ∀ row ∈ rows member,
      Tidy (ncols rank) row)
    (stop : ∀ rank ∈ A, (m rank).rowStart + (rows rank).length < Word.limit)
    (fits : ∀ rank ∈ A, Fits rows (G rank).hub.ranks)
    (one : ∀ rank ∈ A, ∀ other ∈ A, other ∈ (G rank).hub.ranks)
    (few : ∀ rank ∈ A, (a rank).solver.stats.matrixUploads + 1 < 2 ^ 32) :
    Completes A (fun rank => (Attached.setMatrix (m rank)).start (a rank)) fun v => ∀ rank ∈ A,
      Settles (a rank) (v rank) (Accepted h ncols rows m handles (G rank).hub.ranks rank) fun b =>
        ∃ after,
        Received ncols (teamBlock h rows) h m handles (a rank) rank after ∧
          b = after.loaded (teamLayout (h rank).team rows) := by
  have some_outcome : Nonempty (Attempt Unit × Attached S) := ⟨.ok (), a 0⟩
  have lead_tidy : ∀ rank ∈ A, (h rank).team.rank = 0 → ∀ member ∈ (h rank).team.hub.ranks,
      ∀ row ∈ rows member,
      Tidy (ncols rank) row :=
    fun rank inside first => tidy rank inside (by simpa [ranked.isLead rank inside] using first)
  refine ((mergeTeam_succeeds ranked.team ncols small lead_tidy
    (ranked.team_fits fits)).followedBy_eq (s := a)
    (f := fun rank merge => Attached.placeRows (h rank) (inst rank) (m rank) merge >>= fun _ =>
      Attached.recordMatrix ⟨merge.rows, (h rank).team.rank⟩) ?_).congr fun rank inside => by
      rw [Attached.start_setMatrix opened inside (block rank inside), Work.start_ofTask_bind]
  refine ((placeRows_completes ranked opened ncols stop fits one).bind
    (f := fun rank => Work.following fun _ => Attached.recordMatrix (teamLayout (h rank).team rows))
    fun placed settled => ?_).congr fun rank _ => Work.start_bind ..
  refine .each (fun rank ended => Settles (a rank) ended
    (Accepted h ncols rows m handles (G rank).hub.ranks rank) fun b => ∃ after,
      Received ncols (teamBlock h rows) h m handles (a rank) rank after ∧
        b = after.loaded (teamLayout (h rank).team rows)) fun rank inside => ?_
  by_cases accepted : Accepted h ncols rows m handles (G rank).hub.ranks rank
  · obtain ⟨ok, received⟩ := (settled rank inside).accepts accepted
    have counter : (placed rank).2.solver.stats.matrixUploads + 1 < 2 ^ 32 := by
      rw [received.stats_eq]
      exact few rank inside
    rw [show placed rank = (.ok (), (placed rank).2) from Prod.ext ok rfl, Work.following_ok,
      Attached.start_recordMatrix _ _ counter]
    exact ⟨_, rfl, fun _ => ⟨rfl, _, received, rfl⟩, fun fails => absurd accepted fails⟩
  · obtain ⟨cause, refused⟩ := (settled rank inside).refuses accepted
    rw [refused]
    exact ⟨_, rfl, fun holds => absurd holds accepted, fun _ => ⟨cause, rfl⟩⟩

/-- Ranks of one group that set a matrix together all come to an end. Those on which it is refused
are as before. -/
theorem setMatrix_completes [Scalar S] (ranked : Ranked node A G h)
    (opened : Open A h handles a inst) {ncols : Nat} {rows : Nat → List (List (Nat × S))}
    (spread : Spread A G ncols m rows) (one : ∀ rank ∈ A, ∀ other ∈ A, other ∈ (G rank).hub.ranks)
    (few : ∀ rank ∈ A, (a rank).solver.stats.matrixUploads + 1 < 2 ^ 32) :
    Completes A (fun rank => (Attached.setMatrix (m rank)).start (a rank)) fun v => ∀ rank ∈ A,
      Settles (a rank) (v rank) (Accepted h (fun _ => ncols) rows m handles (G rank).hub.ranks rank)
      fun b => ∃ after,
        Received (fun _ => ncols) (teamBlock h rows) h m handles (a rank) rank after ∧
          b = after.loaded (teamLayout (h rank).team rows) :=
  setMatrix_completes_of_signed ranked opened (fun _ => ncols) spread.block
    (fun rank inside row member entry within =>
      Nat.lt_of_lt_of_le ((spread.tidy rank inside row member).inside entry within) spread.small)
    (fun _ inside _ member belongs => spread.tidy member (ranked.team.of_mem inside belongs).1)
    spread.stop spread.fits one few

end DeviceTeams
