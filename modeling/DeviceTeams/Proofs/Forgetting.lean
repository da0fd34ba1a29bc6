import DeviceTeams.Proofs.Entries
import DeviceTeams.Proofs.Turns

/-!
# Solves do not depend on what was before

Two instances that were initialized with the same calls have their ranks in the same places. If they
hold the same matrix, or none, all ranks get the same answers from a solve, whatever has been set
and solved on one of them since.
-/
namespace DeviceTeams

variable {S : Type} {A : Finset Nat} {node : Nat → Nat} {G : Nat → Group} {h h' : Nat → Hierarchy}
  {nodes : List Nat}

/-! ## The same places -/

/-- Views with the same members have the same seats. -/
theorem Together.same_place {G' : Nat → Group} (t : Together node A G)
    (t' : Together node A G') {rank : Nat} (inside : rank ∈ A)
    (ranks : (G' rank).hub.ranks = (G rank).hub.ranks) :
    (G' rank).rank = (G rank).rank ∧ (G' rank).size = (G rank).size := by
  constructor
  · rw [← t'.idxOf inside, ranks, t.idxOf inside]
  · rw [Group.size_eq, Group.size_eq, ranks]

/-- Ranks that count their devices by the sizes of their machines have the same devices in both
hierarchies. -/
theorem Hierarchy.Housed.assignment_eq {count : Nat → Group → Attempt Nat}
    (housed : Housed node A G count h) (housed' : Housed node A G count h')
    (by_size : ∀ rank ∈ A, ∀ (mates mates' : Group) (devices : Nat), mates'.size = mates.size →
      count rank mates = .ok devices → count rank mates' = .ok devices) {rank : Nat}
      (inside : rank ∈ A) :
    (h' rank).assignment = (h rank).assignment := by
  have ranks : (h' rank).node.hub.ranks = (h rank).node.hub.ranks := by
    rw [housed'.mates_ranks rank inside, housed.mates_ranks rank inside]
  obtain ⟨seat, size⟩ := housed.mates.same_place housed'.mates inside ranks
  have devices := by_size rank inside _ _ _ size (housed.counts rank inside)
  rw [housed'.counts rank inside, Except.ok.injEq] at devices
  have assigned := housed'.assigned rank inside
  rw [devices, seat, size, housed.assigned rank inside, Except.ok.injEq] at assigned
  exact assigned.symm

/-- Two hierarchies in which the ranks have the same places. -/
structure Alike (ranks : Nat) (h h' : Nat → Hierarchy) : Prop where
  team_ranks : ∀ rank < ranks, (h' rank).team.hub.ranks = (h rank).team.hub.ranks
  team_rank : ∀ rank < ranks, (h' rank).team.rank = (h rank).team.rank
  isLead : ∀ rank < ranks, (h' rank).isLead = (h rank).isLead
  leads_rank : ∀ rank < ranks, (h rank).isLead → (h' rank).leads.rank = (h rank).leads.rank

theorem Alike.refl {ranks : Nat} (same : ∀ rank < ranks, h' rank = h rank) : Alike ranks h h' := by
  constructor <;> intro rank below <;> simp only [same rank below, implies_true]

theorem Alike.trans {ranks : Nat} {h'' : Nat → Hierarchy} (alike : Alike ranks h h')
    (alike' : Alike ranks h' h'') :
    Alike ranks h h'' := by
  constructor <;> intro rank below
  · exact (alike'.team_ranks rank below).trans (alike.team_ranks rank below)
  · exact (alike'.team_rank rank below).trans (alike.team_rank rank below)
  · exact (alike'.isLead rank below).trans (alike.isLead rank below)
  · intro lead
    have lead' : (h' rank).isLead := (alike.isLead rank below).trans lead
    exact (alike'.leads_rank rank below lead').trans (alike.leads_rank rank below lead)

/-- Ranks with the same devices have the same places. -/
theorem Ranked.alike (ranked : Ranked (fun rank => nodes.getD rank 0) (Finset.range nodes.length)
    (Group.world nodes) h)
    (ranked' : Ranked (fun rank => nodes.getD rank 0) (Finset.range nodes.length)
      (Group.world nodes) h')
    (same : ∀ rank < nodes.length, (h' rank).assignment = (h rank).assignment) :
    Alike nodes.length h h' := by
  have device : ∀ rank < nodes.length, (h' rank).device = (h rank).device := fun rank below =>
    congrArg Assignment.device (same rank below)
  have isLead : ∀ rank < nodes.length, (h' rank).isLead = (h rank).isLead := fun rank below =>
    congrArg Assignment.isLead (same rank below)
  have team_ranks : ∀ rank < nodes.length, (h' rank).team.hub.ranks = (h rank).team.hub.ranks := by
    intro rank below
    have inside := Finset.mem_range.mpr below
    rw [ranked'.team_ranks rank inside, ranked.team_ranks rank inside]
    refine List.filter_congr fun member belongs => ?_
    rw [device rank below, device member (List.mem_range.mp belongs)]
  refine ⟨team_ranks, fun rank below => ?_, isLead, fun rank below lead => ?_⟩
  · exact (ranked.team.same_place ranked'.team (Finset.mem_range.mpr below)
      (team_ranks rank below)).1
  · have lead' : (h' rank).isLead := (isLead rank below).trans lead
    have members : leadRanks h' nodes.length = leadRanks h nodes.length :=
      List.filter_congr fun member belongs => isLead member (List.mem_range.mp belongs)
    have leads : ((Finset.range nodes.length).filter fun rank => (h' rank).isLead) =
        (Finset.range nodes.length).filter fun rank => (h rank).isLead :=
      Finset.filter_congr fun member inside => by rw [isLead member (Finset.mem_range.mp inside)]
    refine (ranked.leads.same_place (leads ▸ ranked'.leads)
      (Finset.mem_filter.mpr ⟨Finset.mem_range.mpr below, lead⟩) ?_).1
    rw [(ranked'.leadRanks_found below lead').1, (ranked.leadRanks_found below lead).1, members]

namespace Alike

variable (alike : Alike nodes.length h h')
include alike

theorem leadOf_eq {rank : Nat} (below : rank < nodes.length) : leadOf h' rank = leadOf h rank := by
  rw [leadOf, leadOf, alike.team_ranks rank below]

theorem leadRanks_eq : leadRanks h' nodes.length = leadRanks h nodes.length :=
  List.filter_congr fun member belongs => alike.isLead member (List.mem_range.mp belongs)

/-- What is made of the teams of the leads is the same. -/
theorem map_leadRanks {α : Type} (f : List Nat → α) :
    ((leadRanks h' nodes.length).map fun lead => f (h' lead).team.hub.ranks) =
      (leadRanks h nodes.length).map fun lead => f (h lead).team.hub.ranks := by
  rw [alike.leadRanks_eq]
  refine List.map_congr_left fun lead among => ?_
  rw [alike.team_ranks lead (List.mem_range.mp (List.mem_filter.mp among).1)]

theorem segmentIn_eq (count : Nat → Nat) {rank : Nat} (below : rank < nodes.length)
    (whole : List S) :
    segmentIn (h' rank).team count rank whole = segmentIn (h rank).team count rank whole := by
  rw [segmentIn, segmentIn, segmentStart, segmentStart, alike.team_ranks rank below,
    alike.team_rank rank below]

/-- Rows that are where they belong are there in both hierarchies. -/
theorem tiles (ranked : Ranked (fun rank => nodes.getD rank 0) (Finset.range nodes.length)
    (Group.world nodes) h) {start count : Nat → Nat} {total : Nat}
    (tiles : Tiles h (List.range nodes.length) start count total) :
    Tiles h' (List.range nodes.length) start count total := by
  refine ⟨fun rank among => ?_, tiles.total⟩
  have lead : ∀ rank < nodes.length, (h' (leadOf h' rank)).leads.rank =
      (h (leadOf h rank)).leads.rank := by
    intro rank below
    have inside := Finset.mem_range.mpr below
    rw [alike.leadOf_eq below]
    exact alike.leads_rank _ (Finset.mem_range.mp (ranked.leadOf_inside inside))
      (ranked.isLead_leadOf inside)
  rw [tiles.starts rank among, rowsBefore, rowsBefore]
  refine congrArg (fun members => (List.map count members).sum)
    (List.filter_congr fun other belongs => ?_)
  have below := List.mem_range.mp among
  have below' := List.mem_range.mp belongs
  refine decide_eq_decide.mpr ?_
  rw [ComesBefore, ComesBefore, lead rank below, lead other below', alike.team_rank rank below,
    alike.team_rank other below']

theorem fitting (ranked : Ranked (fun rank => nodes.getD rank 0) (Finset.range nodes.length)
    (Group.world nodes) h) {m : Nat → RowShare S} (fitting : Fitting nodes h m) :
    Fitting nodes h' m := by
  obtain ⟨size, small, sizes, tiled⟩ := fitting.square
  exact ⟨fitting.consistent, size, small, sizes, alike.tiles ranked tiled⟩

end Alike

/-! ## The same answers -/

variable [Scalar S] {config : Attempt (Settings S)} {a a' : Nat → Attached S}

structure Responds (nodes : List Nat) (a : Nat → Attached S) (x b : Nat → List S)
    (answer : Nat → Attempt (Status × List S)) : Prop where
  answered : ∀ rank < nodes.length, answer rank ≠ .error .aborted
  completes : Completes (Finset.range nodes.length)
    (fun rank => (Attached.solve (x rank) (b rank)).start (a rank))
    fun v => ∀ rank < nodes.length, (v rank).1 = answer rank

theorem Responds.congr {x b : Nat → List S} {answer answer' : Nat → Attempt (Status × List S)}
    (responds : Responds nodes a x b answer)
    (same : ∀ rank < nodes.length, answer' rank = answer rank) :
    Responds nodes a x b answer' := by
  constructor
  · intro rank below
    rw [same rank below]
    exact responds.answered rank below
  · exact responds.completes.mono fun v values rank below =>
      (values rank below).trans (same rank below).symm

theorem Responds.attempted {x b : Nat → List S} {answer : Nat → Attempt (Status × List S)}
    (responds : Responds nodes a x b answer) :
    Completes (Finset.range nodes.length)
    (fun rank => (Attached.attempt (Attached.solve (x rank) (b rank))).start (a rank))
      fun v => ∃ after : Nat → Attached S, ∀ rank ∈ Finset.range nodes.length, v rank =
      (.ok (answer rank), after rank) := by
  refine (attempt_completes responds.completes fun v values rank inside => ?_).mono
    fun v ⟨u, values, told⟩ => ⟨fun rank => (u rank).2, fun rank inside => ?_⟩
  · rw [values rank (Finset.mem_range.mp inside)]
    exact responds.answered rank (Finset.mem_range.mp inside)
  · rw [told rank inside, values rank (Finset.mem_range.mp inside)]

/-- The ranks keep the answers next to what they know already. -/
theorem Responds.recorded {α : Type} {x b : Nat → List S} {answer : Nat → Attempt (Status × List S)}
    (responds : Responds nodes a x b answer) (known : α) :
    Completes (Finset.range nodes.length)
    (fun rank => (Attached.attempt (Attached.solve (x rank) (b rank)) >>=
      fun outcome => (pure (known, outcome) : Attached.Step S _)).start (a rank)) fun v =>
        ∃ after : Nat → Attached S,
        ∀ rank ∈ Finset.range nodes.length, v rank = (.ok (known, answer rank), after rank) := by
  refine (responds.attempted.bind
    (f := fun _ => Work.following fun outcome => pure (known, outcome))
    fun v ⟨after, told⟩ => ?_).congr fun rank _ => Work.start_bind ..
  refine .of_finished (v := fun rank => (.ok (known, answer rank), after rank))
    (fun rank inside => ?_) ⟨after, fun _ _ => rfl⟩
  rw [told rank inside]
  rfl

/-- An instance without a matrix refuses to solve. -/
theorem responds_none
    (states : ∀ rank < nodes.length, ∃ lead, (a rank).solver.state = some ⟨h rank, lead, none⟩)
    (x b : Nat → List S) : Responds nodes a x b fun _ => .error TopologyError.noMatrix := by
  constructor
  · intro rank _ wrong
    cases wrong
  · refine .of_finished (v := fun rank => (.error TopologyError.noMatrix, a rank))
      (fun rank inside => ?_) fun _ _ => rfl
    obtain ⟨lead, state⟩ := states rank (Finset.mem_range.mp inside)
    exact Attached.start_solve_none state _ _

namespace Solvable

variable {m : Nat → RowShare S} {new : Nat → Group} {rows : Nat → List (List (Nat × S))}
  {settings : Settings S}
  {handles : Nat → LeadHandles S} (solvable : Solvable nodes m h new rows settings handles a)
  {x b : Nat → List S}
include solvable

theorem responds_refused
    (some_misfit : misfits (fun rank => (m rank).localRows) x b (List.range nodes.length) ≠ 0) :
    Responds nodes a x b fun rank => .error (DimensionError.vectors
      (misfits (fun rank => (m rank).localRows) x b (List.range nodes.length))
      (x rank).length (b rank).length (m rank).localRows) := by
  constructor
  · intro rank _ wrong
    cases wrong
  · exact (solvable.solve_refused (Nat.pos_of_ne_zero some_misfit)).mono fun v values rank below =>
      congrArg Prod.fst (values rank (Finset.mem_range.mpr below))

/-- Every rank is answered with the status and with its segment of what its team's lead has
found. -/
theorem responds_solved (few : ∀ rank < nodes.length, (a rank).solver.stats.solves < 2 ^ 32 - 1)
    (fits : misfits (fun rank => (m rank).localRows) x b (List.range nodes.length) = 0)
    {status : Status} {iterations : Nat} {y : Parts S}
    (solved : (jointOf h rows nodes.length).solve settings
      (partsOf h nodes.length b) (partsOf h nodes.length x) = ((status, iterations), y)) :
    Responds nodes a x b fun rank =>
      .ok (status, segmentIn (h rank).team (fun rank => (m rank).localRows) rank
      (y (h (leadOf h rank)).leads.rank)) := by
  rw [misfits_eq_zero_iff] at fits
  constructor
  · intro rank _ wrong
    cases wrong
  · refine (solvable.solve_completes
      (fun rank below => fits rank (List.mem_range.mpr below)) solved).mono
      fun v values rank below => ?_
    have inside := Finset.mem_range.mpr below
    have ranked := solvable.holding.shared.ranked
    have seat := solvable.holding.seat _ (Finset.mem_range.mp (ranked.leadOf_inside inside))
      (ranked.isLead_leadOf inside)
    rw [values rank inside, Attached.resolved,
      (Stats.solved_of_few (few rank below) (solvable.counted rank below) status).1, seat]
    rfl

/-- Two instances with the same matrix give the same answers. -/
theorem answers_eq (valid : ∀ rank < nodes.length, (m rank).Valid) (alike : Alike nodes.length h h')
    {new' : Nat → Group} {rows' : Nat → List (List (Nat × S))} {handles' : Nat → LeadHandles S}
    (solvable' : Solvable nodes m h' new' rows' settings handles' a')
    (few : ∀ rank < nodes.length, (a rank).solver.stats.solves < 2 ^ 32 - 1)
    (few' : ∀ rank < nodes.length, (a' rank).solver.stats.solves < 2 ^ 32 - 1) :
    ∃ answer, Responds nodes a x b answer ∧ Responds nodes a' x b answer := by
  have one : jointOf h rows nodes.length = jointOf h' rows' nodes.length :=
    solvable.holding.joint_eq solvable'.holding valid valid
      (alike.map_leadRanks fun ranks => (ranks.map fun rank => (m rank).localRows).sum).symm
      fun _ _ _ => Iff.rfl
  have parts : ∀ z : Nat → List S, partsOf h' nodes.length z = partsOf h nodes.length z := fun z =>
    congrArg Parts.of (alike.map_leadRanks fun ranks => (ranks.map z).flatten)
  by_cases fits : misfits (fun rank => (m rank).localRows) x b (List.range nodes.length) = 0
  · rcases solved : (jointOf h rows nodes.length).solve settings (partsOf h nodes.length b)
      (partsOf h nodes.length x) with
      ⟨⟨status, iterations⟩, y⟩
    have solved' := solved
    rw [one, ← parts, ← parts] at solved'
    refine ⟨_, solvable.responds_solved few fits solved,
      (solvable'.responds_solved few' fits solved').congr fun rank below => ?_⟩
    have inside := Finset.mem_range.mpr below
    have ranked := solvable.holding.shared.ranked
    rw [alike.segmentIn_eq _ below, alike.leadOf_eq below,
      alike.leads_rank _ (Finset.mem_range.mp (ranked.leadOf_inside inside))
      (ranked.isLead_leadOf inside)]
  · exact ⟨_, solvable.responds_refused fits, solvable'.responds_refused fits⟩

end Solvable

/-- Two instances that hold the same give the same answers. -/
theorem Holds.answers_eq {last : Option (Nat → RowShare S)} (alike : Alike nodes.length h h')
    (holds : Holds nodes config h a last) (holds' : Holds nodes config h' a' last)
    (few : ∀ rank < nodes.length, (a rank).solver.stats.solves < 2 ^ 32 - 1)
    (few' : ∀ rank < nodes.length, (a' rank).solver.stats.solves < 2 ^ 32 - 1)
    (x b : Nat → List S) :
    ∃ answer, Responds nodes a x b answer ∧ Responds nodes a' x b answer := by
  cases holds with
  | nothing states =>
    cases holds' with
    | nothing states' => exact ⟨_, responds_none states x b, responds_none states' x b⟩
  | matrix fitting same solvable =>
    cases holds' with
    | matrix _ same' solvable' =>
      have valid : ∀ rank < nodes.length, _ := fun rank below =>
        RowShare.validate_eq_ok_iff.mp (fitting.consistent.checked rank below)
      have back : ∀ rank < nodes.length, _ := fun rank below => (same rank below).symm
      exact solvable.answers_eq valid (((Alike.refl back).trans alike).trans (.refl same'))
        solvable' few few'

/-! ## Instances that were initialized with the same calls -/

omit [Scalar S] in
/-- Which devices a rank counts depends on the size of its machine only. -/
theorem Call.count_of_size {call : Call} {fresh : Attached S} {mates mates' : Group} {devices : Nat}
    (size : mates'.size = mates.size) (counted : call.count fresh mates = .ok devices) :
    call.count fresh mates' = .ok devices := by
  rw [Call.count, Attempt.bind_eq_ok_iff] at counted
  obtain ⟨mode, entered, resolved⟩ := counted
  rw [Call.count, entered, Attempt.ok_bind]
  rcases Nat.eq_zero_or_pos
    (call.devices.found mode fresh.context.engine.visible mates.size) with none | some_device
  · have refused : resolveDevices fresh.context.engine.visible mode call.devices mates =
        mates.nodeName >>= fun name => .error (ConfigError.noAccelerators name) := if_pos none
    rw [refused] at resolved
    cases named : mates.nodeName <;> rw [named] at resolved <;> cases resolved
  · rw [resolveDevices_of_pos some_device] at resolved
    rw [resolveDevices_of_pos (size ▸ some_device), size, resolved]

/-- The states of ranks that have all initialized an instance on fresh contexts and have read one
config, each with its call on a machine with some accelerators. -/
structure Initialized (nodes : List Nat) (config : Attempt (Settings S)) (calls : Nat → Call)
    (visible : Nat → Nat) (a : Nat → Attached S) : Prop where
  world : ∀ rank, (calls rank).group = Group.world nodes rank
  settings : ∀ rank, (calls rank).settings = config
  ended : ∃ rounds rounds' : Rounds, Reaches (Finset.range nodes.length) rounds
    (fun rank => ((calls rank).work).start (.fresh (visible rank))) rounds' fun rank =>
      .finished (.ok (), a rank)

namespace Initialized

variable {calls : Nat → Call} {visible : Nat → Nat}

/-- The ranks have their places, and hold no matrix. -/
theorem standing (initialized : Initialized nodes config calls visible a)
    (word : nodes.length < Word.limit) :
    ∃ h, Ranked (fun rank => nodes.getD rank 0) (Finset.range nodes.length) (Group.world nodes) h ∧
      Hierarchy.Housed (fun rank => nodes.getD rank 0) (Finset.range nodes.length)
      (Group.world nodes)
        (fun rank => (calls rank).count (Attached.fresh (S := S) (visible rank))) h ∧
      Standing nodes config h 0 none a := by
  obtain ⟨rounds, rounds', reach⟩ := initialized.ended
  have groups : (fun rank => (calls rank).group) = Group.world nodes := funext initialized.world
  have t : Together (fun rank => nodes.getD rank 0) (Finset.range nodes.length) fun rank =>
    (calls rank).group :=
    groups ▸ Together.world nodes
  have few : ∀ rank ∈ Finset.range nodes.length,
      (calls rank).group.hub.ranks.length < Word.limit := by
    intro rank _
    rw [initialized.world rank, Hub.length_ranks]
    exact word
  obtain ⟨h, settings, new, established, housed⟩ :=
    established_of_ends t (sound_fresh visible) few reach fun _ _ => rfl
  rw [groups] at housed
  obtain ⟨_, _, states⟩ := established.fresh
  refine ⟨h, groups ▸ established.ranked, housed, ?_, fun rank below => ?_, fun rank below => ?_,
    .nothing fun rank below => ?_⟩
  · exact .initialized initialized.world initialized.settings reach fun _ _ => rfl
  · exact Nat.le_of_eq (states rank (Finset.mem_range.mpr below)).2.1
  · exact Nat.le_of_eq (established.counters (Finset.mem_range.mpr below)).1
  · exact ⟨_, (states rank (Finset.mem_range.mpr below)).2.2⟩

end Initialized

/-- Ranks that make one feasible call initialize an instance, whatever rounds they have seen. -/
theorem Call.Feasible.initializes (nodes : List Nat) (call : Call) {mode : Mode}
    {settings : Settings S} (visible : Nat → Nat) (word : nodes.length + 1 < Word.limit)
    (alike : ∀ rank < nodes.length, ∀ other < nodes.length,
      machine (nodes.getD · 0) other = machine (nodes.getD · 0) rank → visible other = visible rank)
    (feasible : ∀ rank, call.Feasible (visible rank) nodes.length mode settings) :
    Concurs (Finset.range nodes.length) (fun rank => (call.on (Group.world nodes rank)).work)
      (fun rank => .fresh (visible rank)) fun _ a =>
        Initialized nodes (.ok settings)
          (fun rank => call.on (Group.world nodes rank)) visible a := by
  have size : ∀ rank, (Group.world nodes rank).hub.ranks.length = nodes.length :=
    fun rank => Hub.length_ranks _
  intro rounds
  obtain ⟨rounds', v, reach, h, new, established⟩ := Call.Feasible.completes (S := S) call
    (a := fun rank => .fresh (visible rank)) (Together.world nodes) (sound_fresh visible)
    (fun rank _ => by rw [size]; exact word) (fun _ _ => rfl)
    (fun rank inside other inside' =>
      alike rank (Finset.mem_range.mp inside) other (Finset.mem_range.mp inside'))
    (fun rank _ => by rw [size]; exact feasible rank) rounds
  obtain ⟨_, _, states⟩ := established.fresh
  have ended : ∀ rank ∈ Finset.range nodes.length, v rank = (.ok (), (v rank).2) :=
    fun rank inside => Prod.ext (states rank inside).1 rfl
  refine ⟨rounds', v, reach, (), fun rank => (v rank).2, ended, fun _ => rfl, fun rank =>
    (feasible rank).loaded, rounds, rounds', reach.congr (fun _ _ => rfl) fun rank inside => ?_⟩
  rw [← ended rank inside]

theorem Call.Feasible.initialized (nodes : List Nat) (call : Call) {mode : Mode}
    {settings : Settings S} (visible : Nat → Nat) (word : nodes.length + 1 < Word.limit)
    (alike : ∀ rank < nodes.length, ∀ other < nodes.length,
      machine (nodes.getD · 0) other = machine (nodes.getD · 0) rank → visible other = visible rank)
    (feasible : ∀ rank, call.Feasible (visible rank) nodes.length mode settings) :
    ∃ a, Initialized nodes (.ok settings)
      (fun rank => call.on (Group.world nodes rank)) visible a := by
  obtain ⟨_, _, _, _, a, _, initialized⟩ :=
    Call.Feasible.initializes nodes call visible word alike feasible fun _ => 0
  exact ⟨a, initialized⟩

namespace Turn

/-- What a rank does in some calls and a solve after them, and how the calls and the solve end. -/
def session (turns : List (Turn S)) (x b : List S) (rank : Nat) :
    Attached.Step S (List Bool × Attempt (Status × List S)) := do
  let answers ← turns.mapM (·.play rank)
  let outcome ← Attached.attempt (Attached.solve x b)
  pure (answers, outcome)

def reload (last : Option (Nat → RowShare S)) (rank : Nat) : Attached.Step S Unit :=
  match last with
  | some m => Attached.setMatrix (m rank)
  | none => pure ()

/-- What a rank does on a new instance: it sets the matrix that was held last, and solves. -/
def anew (last : Option (Nat → RowShare S)) (x b : List S) (rank : Nat) :
    Attached.Step S (Attempt (Status × List S)) := do
  reload last rank
  Attached.attempt (Attached.solve x b)

end Turn

/-- A new instance takes the matrix that another one with the same places holds. -/
theorem Standing.reload {last : Option (Nat → RowShare S)}
    (standing : Standing nodes config h 0 none a)
    (fitting : ∀ m, last = some m → Fitting nodes h m) :
    Concurs (Finset.range nodes.length) (Turn.reload last) a fun _ a' =>
      (∀ rank < nodes.length, (a' rank).solver.stats.solves ≤ 1) ∧
        Holds nodes config h a' last := by
  cases last with
  | none =>
    exact .pure ⟨fun rank below => Nat.le_succ_of_le (standing.solves rank below), standing.holds⟩
  | some m =>
    refine (standing.holds.set standing.serving (fitting m rfl).consistent
      fun rank below => ?_).mono
      fun v ⟨accepted, fits, answers⟩ => ?_
    · exact Nat.lt_of_le_of_lt (standing.uploads rank below) (by decide)
    · have taken : accepted = true := fits.mpr (fitting m rfl)
      subst taken
      refine ⟨(), fun rank => (v rank).2, fun rank inside => ?_,
        fun rank below => ?_, answers.holds⟩
      · obtain ⟨told, _⟩ := answers.told rank (Finset.mem_range.mp inside)
        rcases found : v rank with ⟨failure | value, b⟩
        · rw [found] at told
          cases told
        · show (Except.ok value, b) = (Except.ok (), (v rank).2)
          rw [found]
      · exact Nat.le_trans (answers.solves rank below)
          (Nat.succ_le_succ (standing.solves rank below))

theorem Holds.fitting {last : Option (Nat → RowShare S)} (holds : Holds nodes config h a last) :
    ∀ m, last = some m → Fitting nodes h m := by
  intro m same
  cases holds with
  | nothing states => cases same
  | matrix fitting _ _ => exact Option.some.inj same ▸ fitting

/-- Two instances that were initialized with the same calls on fresh contexts: on one of them the
ranks make any calls, however these end, and then solve; on the other one they set the matrix that
the first one held last, and solve with the same vectors. All ranks get the same answers: the same
status and the same solution, or the same refusal. All shares of a matrix are checked, agree on its
size and are in one memory. -/
theorem solve_forgets {calls : Nat → Call} {visible : Nat → Nat} (word : nodes.length < Word.limit)
    (initialized : Initialized nodes config calls visible a)
    (initialized' : Initialized nodes config calls visible a') (turns : List (Turn S))
    (few : turns.length < 2 ^ 32 - 1) (consistent : ∀ m, Turn.set m ∈ turns → Consistent nodes m)
    (x b : Nat → List S) {hubs hubs' : Hubs S} {rounds rounds' : Rounds}
    (resting : hubs.Resting rounds) (resting' : hubs'.Resting rounds') :
    ∃ (answers : List Bool) (outcome : Nat →
      Attempt (Status × List S)) (after after' : Nat → Attached S),
      answers.length = turns.length ∧
      (World.ofPrograms nodes.length
        (fun rank => (Turn.session turns (x rank) (b rank) rank).start (a rank))
        hubs).EndsWith
        ((List.range nodes.length).map fun rank => some (.ok (answers, outcome rank), after rank)) ∧
      (World.ofPrograms nodes.length (fun rank =>
        (Turn.anew (Turn.lastHeld none turns answers) (x rank) (b rank) rank).start
          (a' rank)) hubs').EndsWith
          ((List.range nodes.length).map fun rank => some (.ok (outcome rank), after' rank)) := by
  obtain ⟨h, ranked, housed, standing⟩ := initialized.standing word
  obtain ⟨h', ranked', housed', standing'⟩ := initialized'.standing word
  have alike : Alike nodes.length h h' := ranked.alike ranked' fun rank below =>
    housed.assignment_eq housed' (fun _ _ _ _ _ size counted => Call.count_of_size size counted)
      (Finset.mem_range.mpr below)
  obtain ⟨rounds₁, w, reach, answers, b₁, same, length, played⟩ :=
    standing.run turns (by omega) consistent rounds
  obtain ⟨rounds₂, w', reach', _, b₂, same', solves', holds'⟩ :=
    standing'.reload (fun m held => alike.fitting ranked (played.holds.fitting m held)) rounds'
  obtain ⟨outcome, responds, responds'⟩ := played.holds.answers_eq alike holds'
    (fun rank below => Nat.lt_of_le_of_lt (played.solves rank below) (by omega))
    (fun rank below => Nat.lt_of_le_of_lt (solves' rank below) (by decide)) x b
  obtain ⟨_, v, last, after, values⟩ := reach.followed
    (f := fun rank answers => Attached.attempt (Attached.solve (x rank) (b rank)) >>=
      fun outcome => pure (answers, outcome))
    same (responds.recorded answers)
  obtain ⟨_, v', last', after', values'⟩ := reach'.followed
    (f := fun rank _ => Attached.attempt (Attached.solve (x rank) (b rank))) same'
    responds'.attempted
  refine ⟨answers, outcome, after, after', length, ?_, ?_⟩
  · refine Reaches.endsWith (last.congr (fun _ _ => rfl) fun rank inside => ?_) resting
    rw [values rank inside]
  · refine Reaches.endsWith (last'.congr (fun _ _ => rfl) fun rank inside => ?_) resting'
    rw [values' rank inside]

def unitRow (rank : Nat) : RowShare Float :=
  ⟨2, 2, rank, rank, .ofRows 1 [[(0, 1.0)]], .ofRows 0 [[]], #[]⟩

theorem consistent_unitRow (place : Nat → Nat) (below : ∀ rank < 2, place rank < 2) :
    Consistent [0, 0] fun rank => unitRow (place rank) := by
  have bytes : ∀ rank, (unitRow rank).bytes = (unitRow 0).bytes := fun _ => rfl
  refine ⟨fun rank inside => ?_, ⟨2, 2, by decide, by decide, fun _ _ => ⟨rfl, rfl⟩⟩, by
    simp only [bytes]; decide⟩
  have known : place rank = 0 ∨ place rank = 1 := by
    have := below rank inside
    omega
  rcases known with first | second
  · show (unitRow (place rank)).validate = _
    rw [first]
    rfl
  · show (unitRow (place rank)).validate = _
    rw [second]
    rfl

/-- Two ranks that share a device set the identity, try to set it with their rows exchanged, solve
with vectors that are too short and solve with vectors that fit. -/
theorem solve_forgets_pair : ∃ (a a' : Nat → Attached Float) (answers : List Bool)
    (outcome : Nat → Attempt (Status × List Float)) (after after' : Nat → Attached Float),
    answers.length = 4 ∧
    (World.ofPrograms 2
      (fun rank => (Turn.session [.set unitRow, .set fun rank => unitRow (1 - rank),
      .solve (fun _ => []) (fun _ => []), .solve (fun _ => [0.0]) (fun _ => [3.0])] [0.0]
      [1.0] rank).start (a rank)) []).EndsWith
        ((List.range 2).map fun rank => some (.ok (answers, outcome rank), after rank)) ∧
    (World.ofPrograms 2 (fun rank =>
        (Turn.anew (Turn.lastHeld none [.set unitRow, .set fun rank => unitRow (1 - rank),
      .solve (fun _ => []) (fun _ => []), .solve (fun _ => [0.0]) (fun _ => [3.0])] answers) [0.0]
      [1.0] rank).start (a' rank)) []).EndsWith
        ((List.range 2).map fun rank => some (.ok (outcome rank), after' rank)) := by
  obtain ⟨a, initialized⟩ :=
    Call.Feasible.initialized (S := Float) [0, 0] (Call.plain (Group.world [0, 0] 0) 1)
    (fun _ => 0) (by decide) (fun _ _ _ _ _ => rfl) fun _ =>
      Call.feasible_plain _ (by decide) (by decide)
  have consistent : ∀ m, Turn.set m ∈ [Turn.set unitRow, .set fun rank => unitRow (1 - rank),
      .solve (fun _ => []) (fun _ => []), .solve (fun _ => [0.0]) (fun _ => [3.0])] →
      Consistent [0, 0] m := by
    intro m among
    simp only [List.mem_cons, Turn.set.injEq, reduceCtorEq, List.not_mem_nil, or_false] at among
    rcases among with rfl | rfl
    · exact consistent_unitRow (fun rank => rank) fun _ below => below
    · exact consistent_unitRow (fun rank => 1 - rank) fun rank _ => by omega
  exact ⟨a, a, solve_forgets (by decide) initialized initialized _ (by decide) consistent
    (fun _ => [0.0]) (fun _ => [1.0]) Hubs.resting_nil Hubs.resting_nil⟩

end DeviceTeams
