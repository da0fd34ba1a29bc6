import DeviceTeams.Proofs.Holdings
import DeviceTeams.Proofs.TeamAssembly

/-!
# Resources of other groups

Leads reuse the resources that they hold if these were created for as many leads. The resources can
then belong to another group of the same size, and the rows of a team are uploaded to the place that
its lead has in that group.
-/
namespace DeviceTeams

variable {S : Type} {A : Finset Nat} {node : Nat → Nat} {G : Nat → Group} {h : Nat → Hierarchy}

def Context.held (c : Context) : Option Group := c.shared.map (·.resources.leads)

def TeamSolver.resources? (s : TeamSolver S) : Option Group := do
  (← (← s.state).lead).matrix.leads

/-! ## Which resources the leads receive -/

section

variable {a : Nat → Attached S} (settings : Nat → Settings S) (new : Nat → Group) {rank : Nat}

theorem opened_reused (lead : (h rank).isLead)
    (admits : admission (fun rank => (a rank).context) (h rank).leads.hub.ranks = .reuse)
    {g : Group} (found : (a rank).context.held = some g) :
    (opened a h settings new rank).1 = .ok () ∧
      (opened a h settings new rank).2.solver.resources? = some g ∧
      (opened a h settings new rank).2.context.held = some g := by
  obtain ⟨shared, holds, rfl⟩ := Option.map_eq_some_iff.mp found
  have admits' : admission (registeredContexts a) (h rank).leads.hub.ranks = .reuse := admits
  have holds' : (registeredContexts a rank).shared = some shared := holds
  rw [opened, if_pos lead, Context.admitted, admits', holds']
  refine ⟨rfl, rfl, ?_⟩
  show ((registeredContexts a rank).joined.shared.map _) = _
  rw [Context.joined, holds']
  rfl

theorem opened_created (lead : (h rank).isLead)
    (admits : admission (fun rank => (a rank).context) (h rank).leads.hub.ranks = .create) :
    (opened a h settings new rank).1 = .ok () ∧
      (opened a h settings new rank).2.solver.resources? = some (new rank) ∧
      (opened a h settings new rank).2.context.held = some (new rank) := by
  have admits' : admission (registeredContexts a) (h rank).leads.hub.ranks = .create := admits
  rw [opened, if_pos lead, Context.admitted, admits']
  exact ⟨rfl, rfl, rfl⟩

theorem opened_refused (lead : (h rank).isLead)
    (admits : admission (fun rank => (a rank).context) (h rank).leads.hub.ranks = .refuse) :
    ∃ holding leads, (opened a h settings new rank).1 =
      .error (TopologyError.layoutMismatch holding leads) := by
  have admits' : admission (registeredContexts a) (h rank).leads.hub.ranks = .refuse := admits
  rw [opened, if_pos lead, Context.admitted, admits']
  exact ⟨_, _, rfl⟩

end

/-- The leads of an instance are all refused, or all of them use resources of their own group. -/
def OwnResources (A : Finset Nat) (h : Nat → Hierarchy) (v : Nat → Attempt Unit × Attached S) :
    Prop :=
  (∀ rank ∈ A, (h rank).isLead → ∃ holding leads,
    (v rank).1 = .error (TopologyError.layoutMismatch holding leads)) ∨
  ∀ rank ∈ A, (h rank).isLead → (v rank).1 = .ok () ∧
    ∃ g, (v rank).2.solver.resources? = some g ∧ g.hub.ranks = (h rank).leads.hub.ranks

def HoldAsMany (A : Finset Nat) (h : Nat → Hierarchy) (c : Nat → Context) : Prop :=
  ∀ rank ∈ A, (h rank).isLead → ∃ g, (c rank).held = some g ∧ g.size = (h rank).leads.size

def HoldOwn (A : Finset Nat) (h : Nat → Hierarchy) (c : Nat → Context) : Prop :=
  ∀ rank ∈ A, (h rank).isLead → ∀ g, (c rank).held = some g → g.hub.ranks = (h rank).leads.hub.ranks

/-- The leads of one group are one group. -/
theorem Ranked.leads_ranks_eq (ranked : Ranked node A G h)
    (one : ∀ rank ∈ A, ∀ other ∈ A, other ∈ (G rank).hub.ranks) {first rank : Nat}
    (inside : first ∈ A) (lead : (h first).isLead) (inside' : rank ∈ A) (lead' : (h rank).isLead) :
    (h rank).leads.hub.ranks = (h first).leads.hub.ranks := by
  rw [ranked.leads_ranks rank inside' lead', ranked.leads_ranks first inside lead,
    (ranked.ranks_eq inside (one first inside rank inside')).2]

/-- Leads reuse what they hold if it was created for as many leads, whichever these were. -/
theorem reuse_iff {c : Nat → Context} (ranked : Ranked node A G h)
    (seated : ∀ rank ∈ A, (c rank).Seated rank)
    (one : ∀ rank ∈ A, ∀ other ∈ A, other ∈ (G rank).hub.ranks) {first : Nat} (inside : first ∈ A)
    (lead : (h first).isLead) :
    admission c (h first).leads.hub.ranks = .reuse ↔ HoldAsMany A h c := by
  have members : ∀ rank, rank ∈ (h first).leads.hub.ranks ↔ rank ∈ A ∧ (h rank).isLead := by
    intro rank
    rw [ranked.leads_ranks first inside lead, List.mem_filter]
    exact and_congr_left fun _ =>
      ⟨fun belongs => (ranked.ranks_eq inside belongs).1, one first inside rank⟩
  have size : ∀ rank ∈ A, (h rank).isLead →
      (h rank).leads.size = (h first).leads.hub.ranks.length := by
    intro rank inside' lead'
    rw [Group.size_eq, ranked.leads_ranks_eq one inside lead inside' lead']
  rw [admission_eq_reuse_iff]
  constructor
  · intro all rank inside' lead'
    obtain ⟨holds, recorded⟩ := all rank ((members rank).mpr ⟨inside', lead'⟩)
    obtain ⟨shared, found⟩ := Option.isSome_iff_exists.mp holds
    refine ⟨shared.resources.leads, by rw [Context.held, found]; rfl, ?_⟩
    rw [size rank inside' lead', ← recorded]
    exact (seated rank inside' shared found).2.symm
  · intro all rank member
    obtain ⟨inside', lead'⟩ := (members rank).mp member
    obtain ⟨g, found, same⟩ := all rank inside' lead'
    obtain ⟨shared, holds, rfl⟩ := Option.map_eq_some_iff.mp found
    refine ⟨by rw [holds]; rfl, ?_⟩
    rw [(seated rank inside' shared holds).2, same, size rank inside' lead']

section Established

variable [Scalar S] {calls : Nat → Call} {a : Nat → Attached S} {settings : Nat → Settings S}
  {new : Nat → Group}
  {v : Nat → Attempt Unit × Attached S} (established : Established node A calls a h settings new v)
  (seated : ∀ rank ∈ A, (a rank).context.Seated rank)
  (one : ∀ rank ∈ A, ∀ other ∈ A, other ∈ (calls rank).group.hub.ranks)
include established seated one

/-- Leads that hold resources for as many leads use these. -/
theorem Established.ownResources_iff_holdOwn (all : HoldAsMany A h fun rank => (a rank).context) :
    OwnResources A h v ↔ HoldOwn A h fun rank => (a rank).context := by
  have uses : ∀ rank ∈ A, (h rank).isLead → ∀ g, (a rank).context.held = some g →
      (v rank).1 = .ok () ∧ (v rank).2.solver.resources? = some g := by
    intro rank inside lead g found
    have reuses := (reuse_iff established.ranked seated one inside lead).mpr all
    obtain ⟨ok, used, _⟩ := opened_reused settings new lead reuses found
    rw [established.left rank inside]
    exact ⟨ok, used⟩
  constructor
  · rintro (refused | own) rank inside lead g found
    · obtain ⟨holding, leads, wrong⟩ := refused rank inside lead
      cases (uses rank inside lead g found).1.symm.trans wrong
    · obtain ⟨_, g', used, ranks⟩ := own rank inside lead
      cases (uses rank inside lead g found).2.symm.trans used
      exact ranks
  · intro holds
    refine .inr fun rank inside lead => ?_
    obtain ⟨g, found, _⟩ := all rank inside lead
    obtain ⟨ok, used⟩ := uses rank inside lead g found
    exact ⟨ok, g, used, holds rank inside lead g found⟩

/-- Leads that do not are refused, or open resources of their own group. -/
theorem Established.ownResources_of_not_holding
    (fails : ¬ HoldAsMany A h fun rank => (a rank).context) :
    OwnResources A h v := by
  by_cases some_lead : ∃ first ∈ A, (h first).isLead
  · obtain ⟨first, inside, lead⟩ := some_lead
    have same := fun rank (inside' : rank ∈ A) (lead' : (h rank).isLead) =>
      established.ranked.leads_ranks_eq one inside lead inside' lead'
    cases admits : admission (fun rank => (a rank).context) (h first).leads.hub.ranks with
    | reuse => exact absurd ((reuse_iff established.ranked seated one inside lead).mp admits) fails
    | create =>
      refine .inr fun rank inside' lead' => ?_
      have creates : admission (fun rank => (a rank).context)
          (h rank).leads.hub.ranks = .create := by
        rw [same rank inside' lead', admits]
      obtain ⟨ok, used, _⟩ := opened_created settings new lead' creates
      rw [established.left rank inside']
      exact ⟨ok, new rank, used, established.copied.ranks rank
        (Finset.mem_filter.mpr ⟨inside', lead'⟩) creates⟩
    | refuse =>
      refine .inl fun rank inside' lead' => ?_
      rw [established.left rank inside']
      exact opened_refused settings new lead' (by rw [same rank inside' lead', admits])
  · exact .inl fun rank inside lead => absurd ⟨rank, inside, lead⟩ some_lead

/-- The leads of an instance are refused or use resources of their own group, unless they hold
resources for as many leads of another group. -/
theorem Established.ownResources_iff : OwnResources A h v ↔
    (HoldAsMany A h (fun rank => (a rank).context) → HoldOwn A h fun rank => (a rank).context) := by
  by_cases all : HoldAsMany A h fun rank => (a rank).context
  · rw [established.ownResources_iff_holdOwn seated one all, forall_prop_of_true all]
  · exact iff_of_true (established.ownResources_of_not_holding seated one all) fun holds =>
      absurd holds all

end Established

/-! ## Where the rows go -/

/-- Checked shares of one matrix for the ranks of a group, which are in one memory. -/
structure Offered (A : Finset Nat) (G : Nat → Group) (m : Nat → RowShare S) (globalCols : Nat) :
    Prop where
  checked : ∀ rank ∈ A, (m rank).validate = .ok ()
  cols : ∀ rank ∈ A, (m rank).globalCols = globalCols
  small : globalCols < 2 ^ 63
  memory : ∀ rank ∈ A, ((G rank).hub.ranks.map fun member => (m member).bytes).sum < 2 ^ 64

def rowsOfFirst (h : Nat → Hierarchy) (m : Nat → RowShare S) (leads : Group) (place : Nat) : Nat :=
  ((leads.hub.ranks.take place).map (teamRows h fun member => (m member).localRows)).sum

theorem Offered.spread {m : Nat → RowShare S} {globalCols : Nat}
    (offered : Offered A G m globalCols) (t : Together node A G) :
    ∃ rows, Spread A G globalCols m rows ∧
      ∀ rank ∈ A, (rows rank).length = (m rank).localRows := by
  have valid : ∀ rank ∈ A, (m rank).Valid :=
    fun rank inside => RowShare.validate_eq_ok_iff.mp (offered.checked rank inside)
  have within : ∀ rank ∈ A, ∀ member ∈ (G rank).hub.ranks, member ∈ A :=
    fun rank inside member belongs => (t.of_mem inside belongs).1
  have total := fun rank (inside : rank ∈ A) =>
    sum_bytes fun member (belongs : member ∈ (G rank).hub.ranks) =>
      valid member (within rank inside member belongs)
  refine Spread.of_valid valid offered.cols (Nat.le_of_lt offered.small) within
    (fun rank inside => ?_)
    fun rank inside => ?_
  · have memory := offered.memory rank inside
    have bytes := total rank inside
    omega
  · have memory := offered.memory rank inside
    have bytes := total rank inside
    omega

/-- A lead that takes its rows has them behind the rows of the teams of the leads before it, but
they are uploaded behind those of as many teams as there are ranks before it in the group of its
resources. -/
theorem first_row_completes [Scalar S] (ranked : Ranked node A G h) (t : Together node A G)
    (one : ∀ rank ∈ A, ∀ other ∈ A, other ∈ (G rank).hub.ranks) {a : Nat → Attached S}
    {places : Nat → Group} (kept : ∀ rank ∈ A, (a rank).Kept (a rank).context (h rank)
      (if (h rank).isLead then some (places rank) else none))
    (own : ∀ rank ∈ A, (h rank).isLead → (places rank).hub.ranks[(places rank).rank]? = some rank)
    {m : Nat → RowShare S} {globalCols : Nat} (offered : Offered A G m globalCols)
    (few : ∀ rank ∈ A, (a rank).solver.stats.matrixUploads < 2 ^ 32 - 1) :
    Completes A (fun rank => (Attached.setMatrix (m rank)).start (a rank)) fun w =>
      ∀ rank ∈ A, (h rank).isLead →
      (w rank).1 = .ok () → ∃ system, (w rank).2.system? = some system ∧
        system.firstRow = rowsOfFirst h m (h rank).leads (places rank).rank ∧
        (m rank).rowStart = rowsOfFirst h m (h rank).leads (h rank).leads.rank := by
  obtain ⟨rows, spread, counts⟩ := offered.spread t
  obtain ⟨handles, inst, opened, place⟩ := Open.of_kept kept fun rank inside lead => by
    rw [Group.size_eq]
    exact (List.getElem?_eq_some_iff.mp (own rank inside lead)).1
  refine (setMatrix_completes ranked opened spread one fun rank inside => by
    have bound := few rank inside
    omega).mono fun w settled rank inside lead ok => ?_
  have first : ∀ place, ((leadCounts (teamBlock h rows) (h rank).leads).take place).sum =
      rowsOfFirst h m (h rank).leads place := by
    intro place
    rw [leadCounts, ← List.map_take, rowsOfFirst]
    refine congrArg List.sum (List.map_congr_left fun other belongs => ?_)
    obtain ⟨among, _⟩ :=
      ranked.leads.of_mem (Finset.mem_filter.mpr ⟨inside, lead⟩) (List.mem_of_mem_take belongs)
    rw [length_teamBlock, teamRows, teamRows]
    exact congrArg List.sum (List.map_congr_left fun member belongs =>
      counts member (ranked.team.of_mem (Finset.mem_filter.mp among).1 belongs).1)
  by_cases accepted : Accepted h (fun _ => globalCols) rows m handles (G rank).hub.ranks rank
  · obtain ⟨_, after, received, left⟩ := (settled rank inside).accepts accepted
    rw [Received, if_pos lead] at received
    obtain ⟨new, ⟨system, _, _, firstRow, _, loads⟩, same⟩ := received
    have in_order := accepted.2.1
    rw [ranked.leadOf_self inside lead] at in_order
    have starts := (in_order rank (ranked.leads.mem (Finset.mem_filter.mpr ⟨inside, lead⟩))).1
    refine ⟨system, ?_, ?_, ?_⟩
    · rw [left, same, loads]
      simp only [Attached.system?, Attached.loaded, Attached.withLead, opened.state rank inside]
      rfl
    · rw [firstRow, place rank inside lead, first]
    · rw [← first, starts]
  · obtain ⟨cause, refused⟩ := (settled rank inside).refuses accepted
    rw [refused] at ok
    cases ok

/-! ## Instances and their resources -/

def Process.Keep (p : Nat → Process S) (A : Finset Nat) (number : Nat → Nat) (h : Nat → Hierarchy)
    (places : Nat → Group) : Prop :=
  ∀ rank ∈ A, ((p rank).attached (number rank)).Kept (p rank).context (h rank)
    (if (h rank).isLead then some (places rank) else none)

/-- Setting matrices and solving leaves groups and resources as they are. -/
theorem Process.Keep.after [Scalar S] {p : Nat → Process S} {number : Nat → Nat}
    {places : Nat → Group} (keep : Process.Keep p A number h places) {uses : Nat → Use S}
    {rounds rounds' : Rounds} {v : Nat → Attempt Unit × Attached S}
    (reach : Reaches A rounds
      (fun rank => ((uses rank).work).start ((p rank).attached (number rank))) rounds'
      fun rank => .finished (v rank)) :
      Process.Keep (Process.after p A number v) A number h places := by
  intro rank inside
  have left := reach.always inside ((Use.keeps _) _ (keep rank inside))
  rw [Process.attached_after p number v inside]
  exact ⟨congrArg Process.context
    (show Process.after p A number v rank = _ from if_pos inside).symm, left.2⟩

section

variable [Scalar S] {calls : Nat → Call} {a : Nat → Attached S} {settings : Nat → Settings S}
  {new : Nat → Group} {v : Nat → Attempt Unit × Attached S} {rank : Nat} {g : Group}

/-- A rank without a failure has its instance. -/
theorem Established.state (established : Established node A calls a h settings new v)
    (inside : rank ∈ A) (ok : (h rank).isLead → (v rank).1 = .ok ()) :
    ∃ lead, (v rank).2.solver.state = some ⟨h rank, lead, none⟩ ∧
      ((h rank).isLead = false → lead = none) := by
  have left := established.left rank inside
  rw [opened] at left
  by_cases lead : (h rank).isLead
  · rw [if_pos lead] at left
    have succeeds := ok lead
    rw [left] at succeeds ⊢
    generalize (a rank).registered.answered (settings rank) (Context.admitted (registeredContexts a)
      (h rank).leads.hub.ranks (new rank) rank) = ended at succeeds ⊢
    obtain ⟨outcome, b⟩ := ended
    cases outcome with
    | error failure => cases succeeds
    | ok handles => exact ⟨handles, rfl, fun other => absurd lead (by simp [other])⟩
  · rw [if_neg lead] at left
    rw [left]
    exact ⟨none, rfl, fun _ => rfl⟩

/-- The resources that a lead uses give it its own seat. -/
theorem Established.own_seat (established : Established node A calls a h settings new v)
    (seated : (a rank).context.Seated rank) (inside : rank ∈ A) (lead : (h rank).isLead)
    (ok : (v rank).1 = .ok ()) (used : (v rank).2.solver.resources? = some g) :
    g.hub.ranks[g.rank]? = some rank := by
  rw [established.left rank inside] at ok used
  have member : rank ∈ A.filter fun rank => (h rank).isLead := Finset.mem_filter.mpr ⟨inside, lead⟩
  cases admits : admission (fun rank => (a rank).context) (h rank).leads.hub.ranks with
  | reuse =>
    obtain ⟨holds, _⟩ := admission_eq_reuse_iff.mp admits rank (established.ranked.leads.mem member)
    obtain ⟨shared, found⟩ := Option.isSome_iff_exists.mp holds
    have held : (a rank).context.held = some shared.resources.leads := congrArg (Option.map _) found
    cases (opened_reused settings new lead admits held).2.1.symm.trans used
    exact (seated shared found).1
  | create =>
    cases (opened_created settings new lead admits).2.1.symm.trans used
    exact established.copied.together.own rank (Finset.mem_filter.mpr ⟨member, admits⟩)
  | refuse =>
    obtain ⟨holding, leads, refused⟩ := opened_refused settings new lead admits
    cases ok.symm.trans refused

end

/-- Seats for one rank in groups with the same members in the same order are the same. -/
theorem Ranked.seat_eq (ranked : Ranked node A G h) {rank : Nat} (inside : rank ∈ A)
    (lead : (h rank).isLead) {g : Group} (own : g.hub.ranks[g.rank]? = some rank)
    (same : g.hub.ranks = (h rank).leads.hub.ranks) :
    g.rank = (h rank).leads.rank := by
  have member : rank ∈ A.filter fun rank => (h rank).isLead := Finset.mem_filter.mpr ⟨inside, lead⟩
  obtain ⟨below, found⟩ := List.getElem?_eq_some_iff.mp own
  have place : g.hub.ranks.idxOf rank = g.rank := by
    have distinct : g.hub.ranks.Nodup := same ▸ ranked.leads.nodup member
    rw [← found]
    exact distinct.idxOf_getElem g.rank below
  rw [← place, same, ranked.leads.idxOf member]

/-- Where the rows of all matrices go that are set on an instance: behind the rows of as many teams
as there are ranks before the lead in the group of its resources, while they belong behind those of
the leads before it. -/
def PlacesRows [Scalar S] (n : Nat) (A : Finset Nat) (number : Nat → Nat) (G : Nat → Group)
    (h : Nat → Hierarchy) (places : Nat → Group) : Prop :=
  ∀ (p : Nat → Process S) (m : Nat →
    RowShare S) (globalCols : Nat) (hubs : Hubs S) (rounds : Rounds),
    Process.Keep p A number h places → Offered A G m globalCols →
    (∀ rank ∈ A, ((p rank).instances (number rank)).stats.matrixUploads < 2 ^ 32 - 1) →
    hubs.Resting rounds →
    ∃ w : Nat → Attempt Unit × Attached S,
      (World.ofPrograms n
        (Process.programs p A number fun rank => Attached.setMatrix (m rank)) hubs).EndsWith
        ((List.range n).map fun rank => some (Process.ended p A number w rank)) ∧
      ∀ rank ∈ A, (h rank).isLead → (w rank).1 = .ok () →
        ∃ system, (w rank).2.system? = some system ∧
        system.firstRow = rowsOfFirst h m (h rank).leads (places rank).rank ∧
        (m rank).rowStart = rowsOfFirst h m (h rank).leads (h rank).leads.rank

/-- Processes come through the initialization of an instance with one feasible call, whatever they
have done before. -/
theorem History.initializes [Scalar S] {n : Nat} {visible : Nat → Nat} {p : Nat → Process S}
    (history : History n visible node p) (few : n ≤ Group.lastColor + 1)
    (within : A ⊆ Finset.range n) (number : Nat → Nat) (together : Together node A G)
    (alike : ∀ rank ∈ A, ∀ other ∈ A, machine node other = machine node rank →
      visible other = visible rank)
    (created : ∀ rank ∈ A, ((p rank).instances (number rank)).state = none)
    {call : Call} {mode : Mode} {settings : Settings S}
    (feasible : ∀ rank ∈ A, call.Feasible (visible rank) (G rank).hub.ranks.length mode settings) :
    Completes A (fun rank => ((call.on (G rank)).work).start ((p rank).attached (number rank)))
    fun v => ∃ h new,
      Established node A (fun rank => call.on (G rank))
      (fun rank => (p rank).attached (number rank)) h (fun _ => settings) new v := by
  have sees : ∀ rank, (p rank).context.engine.visible = visible rank :=
    fun rank => (history.steady rank).visible_eq
  have wide : Group.lastColor + 2 < Word.limit := by decide
  have feasible' : ∀ rank ∈ A, call.Feasible
      ((p rank).attached (number rank)).context.engine.visible
      (G rank).hub.ranks.length mode settings := fun rank inside => by
    show call.Feasible (p rank).context.engine.visible _ _ _
    rw [sees]
    exact feasible rank inside
  refine Call.Feasible.completes call together (fun rank _ => (history.steady rank).running_eq)
    (fun rank inside => ?_) created (fun rank inside other inside' same => ?_) feasible'
  · have bound := together.length_le within inside
    omega
  · show (p other).context.engine.visible = (p rank).context.engine.visible
    rw [sees, sees, alike rank inside other inside' same]

/-- After any number of calls from which all processes have returned, the ranks of a group
initialize an instance. Its leads are refused or use resources of their own group, unless all of
them hold resources for as many leads of another group. The rows of the teams go to their places in
the group of these resources. -/
theorem initialize_shares_iff [Scalar S] {n : Nat} {visible : Nat → Nat} {p : Nat → Process S}
    (history : History n visible node p) (few : n ≤ Group.lastColor + 1)
    (within : A ⊆ Finset.range n) (number : Nat → Nat) (together : Together node A G)
    (one : ∀ rank ∈ A, ∀ other ∈ A, other ∈ (G rank).hub.ranks)
    (alike : ∀ rank ∈ A, ∀ other ∈ A, machine node other = machine node rank →
      visible other = visible rank)
    (created : ∀ rank ∈ A, ((p rank).instances (number rank)).state = none)
    {call : Call} {mode : Mode} {settings : Settings S}
    (feasible : ∀ rank ∈ A, call.Feasible (visible rank) (G rank).hub.ranks.length mode settings)
    {hubs : Hubs S} {rounds : Rounds} (resting : hubs.Resting rounds) :
    ∃ (h : Nat → Hierarchy) (v : Nat → Attempt Unit × Attached S), Ranked node A G h ∧
      (World.ofPrograms n
        (Process.programs p A number fun rank => (call.on (G rank)).work) hubs).EndsWith
        ((List.range n).map fun rank => some (Process.ended p A number v rank)) ∧
      (OwnResources A h v ↔
        (HoldAsMany A h (fun rank => (p rank).context) → HoldOwn A h fun rank =>
          (p rank).context)) ∧
      ∀ places : Nat → Group, (∀ rank ∈ A, (h rank).isLead →
          (v rank).1 = .ok () ∧ (v rank).2.solver.resources? = some (places rank)) →
        Process.Keep (Process.after p A number v) A number h places ∧
        PlacesRows (S := S) n A number G h places ∧
        ∀ rank ∈ A, (h rank).isLead → (places rank).hub.ranks = (h rank).leads.hub.ranks →
          (places rank).rank = (h rank).leads.rank := by
  obtain ⟨rounds', v, reach, h, new, established⟩ :=
    history.initializes few within number together alike created feasible rounds
  have ranked : Ranked node A G h := established.ranked
  have seated : ∀ rank ∈ A, ((p rank).attached (number rank)).context.Seated rank := fun rank _ =>
    history.seated few rank
  refine ⟨h, v, ranked, Process.endsWith within reach resting,
    established.ownResources_iff seated one, fun places used =>
      ⟨fun rank inside => ?_,
        fun p' m globalCols hubs' rounds' keep offered counters resting' => ?_,
      fun rank inside lead same => ?_⟩⟩
  · obtain ⟨lead, state, other⟩ := established.state inside fun lead => (used rank inside lead).1
    rw [Process.attached_after p number v inside]
    refine ⟨(congrArg Process.context
      (show Process.after p A number v rank = _ from if_pos inside)).symm, _, state, rfl, ?_⟩
    cases leads : (h rank).isLead with
    | false =>
      rw [other leads]
      rfl
    | true =>
      have resources := (used rank inside leads).2
      rw [TeamSolver.resources?, state] at resources
      cases lead with
      | none => cases resources
      | some handles => exact resources
  · have own : ∀ rank ∈ A, (h rank).isLead →
      (places rank).hub.ranks[(places rank).rank]? = some rank :=
      fun rank inside lead => established.own_seat (seated rank inside) inside lead
        (used rank inside lead).1 (used rank inside lead).2
    obtain ⟨rounds'', w, reach', holds⟩ :=
      first_row_completes ranked together one keep own offered counters rounds'
    exact ⟨w, Process.endsWith within reach' resting', holds⟩
  · exact ranked.seat_eq inside lead
      (established.own_seat (seated rank inside) inside lead (used rank inside lead).1
      (used rank inside lead).2) same

/-- Two ranks on two machines that have done nothing yet receive resources of their own group. -/
theorem initialize_shares_pair : ∃ (h : Nat → Hierarchy) (v : Nat → Attempt Unit × Attached Float),
    (World.ofPrograms 2
      (Process.programs (fun _ => .fresh 0) (Finset.range 2) (fun _ => 0) fun rank =>
      ((Call.plain (Group.world [0, 1] 0) 1).on (Group.world [0, 1] rank)).work) []).EndsWith
      ((List.range 2).map fun rank =>
        some (Process.ended (fun _ => .fresh 0) (Finset.range 2) (fun _ => 0) v rank)) ∧
    OwnResources (Finset.range 2) h v := by
  have nothing : History (S := Float) 2 (fun _ => 0) (fun rank => [0, 1].getD rank 0) fun _ =>
    .fresh 0 := .fresh
  obtain ⟨h, v, _, ends, own, _⟩ := initialize_shares_iff nothing (by decide)
    (Finset.Subset.refl (Finset.range 2)) (fun _ => 0) (Together.world [0, 1])
    (fun _ _ other inside => List.mem_range.mpr (Finset.mem_range.mp inside))
    (fun _ _ _ _ _ => rfl) (fun _ _ => rfl)
    (fun _ _ => Call.feasible_plain (Group.world [0, 1] 0) Nat.one_pos
      (Nat.le_trans (Nat.min_le_left ..) (by decide))) Hubs.resting_nil
  exact ⟨h, v, ends, own.mpr fun _ _ _ _ _ held => nomatch held⟩

/-! ## Two groups with the same ranks -/

def Group.reversed (rank : Nat) : Group := ⟨1 - rank, .split (.world 2) 0 [1, 0], [1, 0]⟩

theorem Together.reversed :
    Together (fun rank => [0, 1].getD rank 0) (Finset.range 2) Group.reversed where
  own := by decide
  seat rank inside place member found := by
    have ranks : (Group.reversed rank).hub.ranks = [1, 0] := rfl
    rw [ranks] at found
    rcases place with _ | _ | place
    · cases found
      exact ⟨by decide, rfl, rfl⟩
    · cases found
      exact ⟨by decide, rfl, rfl⟩
    · cases found
  nodes := by decide

/-- Either of two machines has a single rank. -/
theorem machine_pair : ∀ rank ∈ Finset.range 2, ∀ other ∈ Finset.range 2,
    machine (fun rank => [0, 1].getD rank 0) other = machine (fun rank => [0, 1].getD rank 0) rank →
      other = rank := by
  decide

/-- Two ranks on two machines initialize an instance. Both create resources, for their group in the
order of the world, and a further instance can still be created. -/
theorem exists_history_pair : ∃ (p : Nat → Process Float) (new : Nat → Group),
    History 2 (fun _ => 0) (fun rank => [0, 1].getD rank 0) p ∧
    ∀ rank ∈ Finset.range 2, (p rank).context.held = some (new rank) ∧
      (new rank).hub.ranks = [0, 1] ∧ ((p rank).instances 1).state = none := by
  have first : History (S := Float) 2 (fun _ => 0) (fun rank => [0, 1].getD rank 0) fun _ =>
    .fresh 0 := .fresh
  have member : ∀ rank, rank ∈ [0, 1] → rank ∈ Finset.range 2 := by decide
  obtain ⟨rounds, v, reach, h, new, established⟩ :=
    first.initializes (by decide) (Finset.Subset.refl (Finset.range 2))
    (fun _ => 0) (Together.world [0, 1]) (fun _ _ _ _ _ => rfl) (fun _ _ => rfl)
    (fun _ _ => Call.feasible_plain (Group.world [0, 1] 0) Nat.one_pos
      (Nat.le_trans (Nat.min_le_left ..) (by decide))) fun _ => 0
  obtain ⟨lead, ranks⟩ := established.ranked.alone (fun _ _ => rfl)
    (fun rank inside other belongs => machine_pair rank inside other (member other belongs)) member
  have left : ∀ rank ∈ Finset.range 2, (v rank).1 = .ok () ∧
      (v rank).2.context.held = some (new rank) ∧ (new rank).hub.ranks = [0, 1] := by
    intro rank inside
    have creates : admission (fun rank => ((Process.fresh (S := Float) 0).attached 0).context)
        (h rank).leads.hub.ranks = .create :=
      (admission_eq_create_iff (by rw [ranks rank inside]; simp)).mpr fun _ _ => rfl
    obtain ⟨ok, _, held⟩ :=
      opened_created (fun _ => Settings.standard.toScalar) new (lead rank inside) creates
    rw [established.left rank inside]
    refine ⟨ok, held, ?_⟩
    rw [established.copied.ranks rank (Finset.mem_filter.mpr ⟨inside, lead rank inside⟩) creates]
    exact ranks rank inside
  have one : ∀ rank ∈ Finset.range 2, ∀ other ∈ Finset.range 2,
      other ∈ (Group.world [0, 1] rank).hub.ranks :=
    fun _ _ other inside => List.mem_range.mpr (Finset.mem_range.mp inside)
  have history := first.opened (Finset.Subset.refl _) (Together.world [0, 1]) one reach
      fun rank inside aborted => by
    cases (left rank inside).1.symm.trans aborted
  refine ⟨_, new, history, fun rank inside => ?_⟩
  rw [Process.after, if_pos inside]
  exact ⟨(left rank inside).2.1, (left rank inside).2.2, rfl⟩

/-- Two ranks on two machines initialize an instance and then another one in the other order. The
leads of the second one use the resources of the first one. -/
theorem initialize_shares_reversed : ∃ (p : Nat → Process Float) (h : Nat → Hierarchy)
    (v : Nat → Attempt Unit × Attached Float),
    History 2 (fun _ => 0) (fun rank => [0, 1].getD rank 0) p ∧
    (World.ofPrograms 2 (Process.programs p (Finset.range 2) (fun _ => 1) fun rank =>
      ((Call.plain (Group.reversed 0) 1).on (Group.reversed rank)).work) []).EndsWith
      ((List.range 2).map fun rank => some (Process.ended p (Finset.range 2) (fun _ => 1) v rank)) ∧
    ¬ OwnResources (Finset.range 2) h v := by
  obtain ⟨p, new, history, held⟩ := exists_history_pair
  have few : 2 ≤ Group.lastColor + 1 := by decide
  have member : ∀ rank, rank ∈ [1, 0] → rank ∈ Finset.range 2 := by decide
  obtain ⟨rounds, v, reach, h, new', established⟩ :=
    history.initializes few (Finset.Subset.refl (Finset.range 2))
    (fun _ => 1) Together.reversed (fun _ _ _ _ _ => rfl)
    (fun rank inside => (held rank inside).2.2)
    (fun _ _ => Call.feasible_plain (Group.reversed 0) Nat.one_pos
      (Nat.le_trans (Nat.min_le_left ..) (by decide))) fun _ => 0
  obtain ⟨lead, ranks⟩ := established.ranked.alone (fun _ _ => rfl)
    (fun rank inside other belongs => machine_pair rank inside other (member other belongs)) member
  refine ⟨p, h, v, history, Process.endsWith (Finset.Subset.refl _) reach Hubs.resting_nil,
    fun own => ?_⟩
  have same :=
    (established.ownResources_iff (fun rank _ => history.seated few rank) (by decide)).mp own
  -- Both leads hold resources for two leads, but in the order of the world.
  have as_many : HoldAsMany (Finset.range 2) h fun rank => (p rank).context :=
    fun rank inside _ => ⟨new rank, (held rank inside).1, by
      rw [Group.size, Group.size, ← Hub.length_ranks, ← Hub.length_ranks, (held rank inside).2.1,
        ranks rank inside]
      rfl⟩
  have inside : 0 ∈ Finset.range 2 := by decide
  have wrong := same as_many 0 inside (lead 0 inside) (new 0) (held 0 inside).1
  rw [(held 0 inside).2.1, ranks 0 inside] at wrong
  cases wrong

end DeviceTeams
