import DeviceTeams.Proofs.Hierarchies
import DeviceTeams.Proofs.Sharing
import DeviceTeams.Solver.Instance

/-!
# How an instance is initialized

A rank first checks on its own what it was asked for, then derives the groups with the others. What
is left happens among the leads: they read the settings and ask for resources.
-/
namespace DeviceTeams

variable {S : Type} [Scalar S] {A : Finset Nat} {node : Nat → Nat} {G : Nat → Group}

/-- What a rank asks for when it initializes an instance. -/
structure Call where
  group : Group
  mode : String
  path : String
  file : ConfigFile
  devices : DeviceRequest

namespace Call

def work (call : Call) : Attached.Step S Unit :=
  Attached.establish call.group call.mode call.path call.file call.devices

def entry (call : Call) (a : Attached S) : Attempt Mode := do
  if a.solver.isInitialized then throw (TopologyError.alreadyInitialized : Failure)
  let mode ← Mode.ofTag call.mode
  unless call.file.isFile do throw (ConfigError.missing call.path : Failure)
  pure mode

def count (call : Call) (a : Attached S) (node : Group) : Attempt Nat := do
  resolveDevices a.context.engine.visible (← call.entry a) call.devices node

def settings (call : Call) : Attempt (Settings S) :=
  Settings.toScalar <$> Settings.load call.path call.file

def opening (call : Call) (hierarchy : Hierarchy) : Attached.Step S Unit := do
  Attached.finish "set mode"
  Attached.finish "build topology"
  Attached.modifyContext Context.register
  let lead ← Attached.openIfLead call.path call.file hierarchy
  Attached.finish "engine init"
  Attached.modifySolver fun solver =>
    { solver with state := some { hierarchy, lead, layout := none } }

end Call

namespace Attached

/-- An instance that has its groups and is counted, but not yet open. -/
def registered (a : Attached S) : Attached S where
  context := a.context.register
  solver := (a.solver.finishPhase "set mode").finishPhase "build topology"

def ready (a : Attached S) (hierarchy : Hierarchy) (lead : Option (LeadHandles S)) :
    Attached S where
  context := a.context
  solver := { a.solver.finishPhase "engine init" with
    state := some { hierarchy, lead, layout := none } }

end Attached

def LeadHandles.fresh (settings : Settings S) (resources : Resources) : LeadHandles S where
  settings := settings
  matrix := .create resources
  rhs := .create
  solution := .create
  solver := .create resources settings
  rings := settings.rings

namespace Call

theorem start_work (call : Call) (a : Attached S) : (call.work).start a =
    match call.entry a with
    | .error failure => .finished (.error failure, a)
    | .ok _ => (Hierarchy.build call.group (call.count a)).run >>= fun outcome =>
        Work.following call.opening (outcome, a) := by
  have unfolded : ∀ mode, call.entry a = .ok mode → call.count a =
      resolveDevices a.context.engine.visible mode call.devices := fun mode entered => by
    funext node
    rw [count, entered, Attempt.ok_bind]
  rw [work, Attached.establish, Work.start_get_bind]
  by_cases initialized : a.solver.isInitialized
  · have refused : call.entry a = .error TopologyError.alreadyInitialized := by
      rw [entry, if_pos initialized]
      rfl
    rw [refused, if_pos initialized]
    rfl
  · rw [if_neg initialized]
    cases tag : Mode.ofTag call.mode with
    | error failure =>
      have refused : call.entry a = .error failure := by
        rw [entry, if_neg initialized, tag]
        rfl
      rw [refused]
      rfl
    | ok mode =>
      by_cases exists_file : call.file.isFile
      · have entered : call.entry a = .ok mode := by
          rw [entry, if_neg initialized, tag]
          simp [exists_file]
        rw [entered, unfolded mode entered]
        simp only [Work.start_ofAttempt_bind, Work.following_ok, if_pos exists_file,
          Work.start_get_bind]
        exact Work.start_ofTask_bind ..
      · have refused : call.entry a = .error (ConfigError.missing call.path) := by
          rw [entry, if_neg initialized, tag]
          simp [exists_file]
        rw [refused]
        simp only [Work.start_ofAttempt_bind, Work.following_ok, if_neg exists_file]
        rfl

theorem start_work_refused (call : Call) {a : Attached S} {failure : Failure}
    (refuses : call.entry a = .error failure) :
    (call.work).start a = .finished (.error failure, a) := by
  rw [start_work, refuses]

/-- A rank that passes its own checks waits for its group. -/
theorem start_work_waits (call : Call) {a : Attached S} {mode : Mode}
    (passes : call.entry a = .ok mode) :
    ∃ payload resume, (call.work).start a = .meet call.group.hub call.group.rank
      payload resume := by
  rw [start_work, passes]
  exact ⟨_, _, rfl⟩

def afterSurvey (call : Call) (a : Attached S) (survey : Attempt Hierarchy.Placement) :
    Program S (Attempt Unit × Attached S) :=
  Task.following Hierarchy.form survey >>= fun outcome => Work.following call.opening (outcome, a)

theorem afterSurvey_error (call : Call) (a : Attached S) (failure : Failure) :
    call.afterSurvey a (.error failure) = .finished (.error failure, a) := rfl

theorem afterSurvey_ok (call : Call) (a : Attached S) (p : Hierarchy.Placement) :
    call.afterSurvey a (.ok p) =
      (Hierarchy.form p).run >>= fun outcome => Work.following call.opening (outcome, a) := rfl

/-- A rank that knows its device waits for its group. -/
theorem afterSurvey_waits (call : Call) (a : Attached S) (p : Hierarchy.Placement) :
    ∃ payload resume, call.afterSurvey a (.ok p) = .meet p.global.hub p.global.rank payload
      resume := ⟨_, _, rfl⟩

theorem start_opening (call : Call) (hierarchy : Hierarchy) (a : Attached S) :
    (call.opening hierarchy).start a =
    (Attached.openIfLead call.path call.file hierarchy).start a.registered >>=
      fun ended => match ended with
        | (.ok lead, b) => .finished (.ok (), b.ready hierarchy lead)
        | (.error failure, b) => .finished (.error failure, b) := by
  rw [opening, Attached.finish, Attached.modifySolver, Work.start_modify_bind, Attached.finish,
    Attached.modifySolver,
    Work.start_modify_bind, Attached.modifyContext, Work.start_modify_bind, Work.start_bind]
  congr 1
  funext ended
  obtain ⟨outcome, b⟩ := ended
  cases outcome <;> rfl

end Call

namespace Attached

def dropped (a : Attached S) : Failure → Attached S
  | .aborted => a
  | .refused _ => { a with context := a.context.unregister }

/-- What a lead makes of the answer to its request for resources. -/
def answered (a : Attached S) (settings : Settings S) :
    Attempt Resources × Context → Attempt (Option (LeadHandles S)) × Attached S
  | (.ok resources, context) => (.ok (some (.fresh settings resources)), { a with context })
  | (.error failure, context) => (.error failure, ({ a with context } : Attached S).dropped failure)

theorem start_openLead {path : String} {file : ConfigFile} {hierarchy : Hierarchy} {leads : Group}
    (member : hierarchy.solver = some leads) {settings : Settings S}
    (loaded : Settings.toScalar <$> Settings.load path file = .ok settings) (a : Attached S) :
    (openLead path file hierarchy).start a = (Context.acquire leads).start a.context >>=
    fun answer =>
      match answer with
      | (.ok resources, context) => .finished (.ok (.fresh settings resources), { a with context })
      | (.error failure, context) => .finished (.error failure, { a with context }) := by
  rw [openLead, leadsOf, member, Work.start_ofAttempt_bind, Work.following_ok, loaded,
    Work.start_ofAttempt_bind, Work.following_ok, Work.start_bind]
  have step : (onContext (S := S) (Context.acquire leads)).start a =
      (Context.acquire leads).start a.context >>=
      fun answer => .finished (answer.1, { a with context := answer.2 }) := rfl
  rw [step, bind_assoc]
  congr 1
  funext answer
  obtain ⟨outcome, context⟩ := answer
  cases outcome <;> rfl

theorem start_openIfLead {path : String} {file : ConfigFile} {hierarchy : Hierarchy} {leads : Group}
    (lead : hierarchy.isLead) (member : hierarchy.solver = some leads) {settings : Settings S}
    (loaded : Settings.toScalar <$> Settings.load path file = .ok settings) (a : Attached S) :
    (openIfLead path file hierarchy).start a =
      (Context.acquire leads).start a.context >>=
      fun answer => .finished (a.answered settings answer) := by
  rw [openIfLead, if_pos lead, Work.start_tryCatch, Work.start_map, start_openLead member loaded,
    bind_assoc, bind_assoc]
  congr 1
  funext answer
  obtain ⟨outcome, context⟩ := answer
  cases outcome with
  | ok resources => rfl
  | error failure => cases failure <;> rfl

theorem start_openIfLead_unreadable {path : String} {file : ConfigFile}
    {hierarchy : Hierarchy} {leads : Group} (lead : hierarchy.isLead)
    (member : hierarchy.solver = some leads) {failure : Failure}
    (unreadable : (Settings.toScalar <$> Settings.load path file : Attempt (Settings S)) =
      .error failure)
    (a : Attached S) :
    (openIfLead path file hierarchy).start a = .finished (.error failure, a.dropped failure) := by
  have opened : (openLead path file hierarchy).start a = .finished (.error failure, a) := by
    rw [openLead, leadsOf, member, Work.start_ofAttempt_bind, Work.following_ok, unreadable,
      Work.start_ofAttempt_bind, Work.following_error]
  rw [openIfLead, if_pos lead, Work.start_tryCatch, Work.start_map, opened]
  cases failure <;> rfl

theorem start_openIfLead_other {path : String} {file : ConfigFile} {hierarchy : Hierarchy}
    (other : hierarchy.isLead = false) (a : Attached S) :
    (openIfLead path file hierarchy).start a = .finished (.ok none, a) := by
  rw [openIfLead, if_neg (by simp [other])]
  rfl

end Attached

namespace Call

/-- A lead that cannot read its settings gives up. -/
theorem start_opening_unreadable {call : Call} {hierarchy : Hierarchy} {leads : Group}
    (lead : hierarchy.isLead) (member : hierarchy.solver = some leads) {failure : Failure}
    (unreadable : (call.settings : Attempt (Settings S)) = .error failure) (a : Attached S) :
    (call.opening hierarchy).start a =
    .finished (.error failure, a.registered.dropped failure) := by
  rw [start_opening, Attached.start_openIfLead_unreadable lead member unreadable]
  rfl

/-- A rank that leads no team opens nothing. -/
theorem start_opening_other {call : Call} {hierarchy : Hierarchy} (other : hierarchy.isLead = false)
    (a : Attached S) :
    (call.opening hierarchy).start a = .finished (.ok (), a.registered.ready hierarchy none) := by
  rw [start_opening, Attached.start_openIfLead_other other]
  rfl

end Call

namespace Attached

def closed (hierarchy : Hierarchy) :
    Attempt (Option (LeadHandles S)) × Attached S → Attempt Unit × Attached S
  | (.ok lead, b) => (.ok (), b.ready hierarchy lead)
  | (.error failure, b) => (.error failure, b)

end Attached

def registeredContexts (a : Nat → Attached S) (rank : Nat) : Context := (a rank).context.register

/-- How a rank leaves the initialization when the settings can be read: a lead with the answer to
its request for resources, the others without. -/
def opened (a : Nat → Attached S) (h : Nat → Hierarchy) (settings : Nat → Settings S)
    (new : Nat → Group) (rank : Nat) : Attempt Unit × Attached S :=
  Attached.closed (h rank)
    (if (h rank).isLead then (a rank).registered.answered (settings rank)
        (Context.admitted (registeredContexts a) (h rank).leads.hub.ranks (new rank) rank)
      else (.ok none, (a rank).registered))

/-- All ranks come through the opening of their instances if the leads can read their settings. -/
theorem opening_completes (calls : Nat → Call) {a : Nat → Attached S} {h : Nat → Hierarchy}
    (shaped : Shaped node A G h) (sound : Sound A (registeredContexts a))
    (word : ∀ rank ∈ A, (G rank).hub.ranks.length < Word.limit) (settings : Nat → Settings S)
    (loaded : ∀ rank ∈ A, (h rank).isLead → (calls rank).settings = .ok (settings rank)) :
    Completes A (fun rank => ((calls rank).opening (h rank)).start (a rank)) fun v =>
      ∃ new : Nat → Group,
      Copied node (A.filter fun rank => (h rank).isLead) (registeredContexts a)
      (fun rank => (h rank).leads) new ∧
      ∀ rank ∈ A, v rank = opened a h settings new rank := by
  have lead_word : ∀ rank ∈ A.filter fun rank => (h rank).isLead,
      (h rank).leads.hub.ranks.length < Word.limit := by
    intro rank member
    obtain ⟨inside, lead⟩ := Finset.mem_filter.mp member
    rw [shaped.leads_ranks rank inside lead]
    exact Nat.lt_of_le_of_lt (List.length_filter_le ..) (word rank inside)
  have asked := Context.acquire_completes (S := S) (c := registeredContexts a) shaped.leads
    (fun rank member => sound rank (Finset.mem_filter.mp member).1) lead_word
  have leading : Completes (A.filter fun rank => (h rank).isLead)
      (fun rank => (Context.acquire (S := S) (h rank).leads).start (registeredContexts a rank) >>=
        fun answer =>
        .finished (Attached.closed (h rank) ((a rank).registered.answered (settings rank) answer)))
      fun v => ∃ new : Nat → Group,
        Copied node (A.filter fun rank => (h rank).isLead) (registeredContexts a)
        (fun rank => (h rank).leads) new ∧
        ∀ rank ∈ A.filter fun rank => (h rank).isLead, v rank = opened a h settings new rank := by
    refine asked.map fun answer ⟨new, copied, answers⟩ => ⟨new, copied, fun rank member => ?_⟩
    simp only [answers rank member, opened, if_pos (Finset.mem_filter.mp member).2]
  refine ((leading.congr fun rank member => ?_).part (Finset.filter_subset ..)
    (w := fun rank => Attached.closed (h rank) (.ok none, (a rank).registered))
    fun rank inside outside => ?_).mono
    fun v ⟨u, ⟨new, copied, values⟩, leads, others⟩ => ⟨new, copied, fun rank inside => ?_⟩
  · obtain ⟨inside, lead⟩ := Finset.mem_filter.mp member
    have member := shaped.solver_leads inside lead
    rw [Call.start_opening, Attached.start_openIfLead lead member
      (loaded rank inside lead), bind_assoc]
    congr 1
    funext answer
    generalize (a rank).registered.answered (settings rank) answer = ended
    obtain ⟨outcome, b⟩ := ended
    cases outcome <;> rfl
  · have other : (h rank).isLead = false := by
      simpa using fun lead => outside (Finset.mem_filter.mpr ⟨inside, lead⟩)
    exact Call.start_opening_other other (a rank)
  · by_cases lead : (h rank).isLead
    · have member : rank ∈ A.filter fun rank => (h rank).isLead :=
        Finset.mem_filter.mpr ⟨inside, lead⟩
      rw [leads rank member, values rank member]
    · rw [others rank inside fun member => lead (Finset.mem_filter.mp member).2,
        opened, if_neg lead]

/-- Ranks that pass the checks of their own come to know their devices, or why they have none. -/
theorem reaches_surveyed (calls : Nat → Call) {a : Nat → Attached S}
    (t : Together node A fun rank => (calls rank).group)
    (entered : ∀ rank ∈ A, ∃ mode, (calls rank).entry (a rank) = .ok mode) (rounds : Rounds) :
    ∃ (rounds' : Rounds) (global mates : Nat → Group),
      Hierarchy.Divided node A (fun rank => (calls rank).group) global mates ∧
      Reaches A rounds (fun rank => ((calls rank).work).start (a rank)) rounds' fun rank =>
        (calls rank).afterSurvey (a rank)
          (Hierarchy.surveyed (global rank) (mates rank) ((calls rank).count (a rank))) := by
  obtain ⟨rounds', outcome, reach, groups, outcomes, divided⟩ :=
    Hierarchy.divide_succeeds (S := S) t rounds
  refine ⟨rounds', fun rank => (groups rank).1, fun rank => (groups rank).2, divided, ?_⟩
  have first := reach.andThen fun rank outcome =>
    Task.following
      (fun parts =>
        Hierarchy.survey parts.1 parts.2 ((calls rank).count (a rank)) >>= Hierarchy.form)
      outcome >>= fun outcome => Work.following (calls rank).opening (outcome, a rank)
  refine (first.congr (fun rank inside => ?_) fun rank inside => ?_).trans
    (Hierarchy.survey_followed (f := fun rank => (calls rank).afterSurvey (a rank))
      (.refl fun _ _ => rfl))
  · obtain ⟨mode, found⟩ := entered rank inside
    rw [Call.start_work, found]
    simp only [Hierarchy.build_eq, Task.run_bind, bind_assoc]
  · simp only [outcomes rank inside, Program.finished_bind, Task.following_ok,
      Task.run_bind, bind_assoc]
    rfl

/-- What ranks hold that have initialized an instance together. -/
structure Established (node : Nat → Nat) (A : Finset Nat) (calls : Nat → Call)
    (a : Nat → Attached S) (h : Nat → Hierarchy) (settings : Nat → Settings S) (new : Nat → Group)
    (v : Nat → Attempt Unit × Attached S) : Prop where
  ranked : Ranked node A (fun rank => (calls rank).group) h
  copied : Copied node (A.filter fun rank => (h rank).isLead) (registeredContexts a)
    (fun rank => (h rank).leads) new
  entered : ∀ rank ∈ A, ∃ mode, (calls rank).entry (a rank) = .ok mode
  loaded : ∀ rank ∈ A, (h rank).isLead → (calls rank).settings = .ok (settings rank)
  left : ∀ rank ∈ A, v rank = opened a h settings new rank

/-- The devices that ranks find on their machines: some, the same on every rank of a machine, and no
more of them in use than there are colors. -/
structure Equipped (node : Nat → Nat) (A : Finset Nat) (calls : Nat → Call) (a : Nat → Attached S)
    (mates : Nat → Group) (devices : Nat → Nat) : Prop where
  counts : ∀ rank ∈ A, (calls rank).count (a rank) (mates rank) = .ok (devices rank)
  positive : ∀ rank ∈ A, 0 < devices rank
  same : ∀ rank ∈ A, ∀ member ∈ (mates rank).hub.ranks, devices member = devices rank
  few : ∀ rank ∈ A, min (devices rank) (mates rank).size ≤ Group.lastColor + 1

/-- Ranks that pass their own checks and find devices come to the groups of their instance, where
every rank has the device that is due to it on its machine. -/
theorem reaches_formed (calls : Nat → Call) {a : Nat → Attached S}
    (t : Together node A fun rank => (calls rank).group)
    (word : ∀ rank ∈ A, (calls rank).group.hub.ranks.length + 1 < Word.limit)
    (entered : ∀ rank ∈ A, ∃ mode, (calls rank).entry (a rank) = .ok mode)
    (equipped : ∀ mates : Nat → Group, Together node A mates →
      (∀ rank ∈ A, (mates rank).hub.ranks = (calls rank).group.hub.ranks.filter fun member =>
        machine node member == machine node rank) →
          ∃ devices, Equipped node A calls a mates devices)
    (rounds : Rounds) : ∃ (rounds' : Rounds) (mates : Nat → Group) (h : Nat → Hierarchy),
      Ranked node A (fun rank => (calls rank).group) h ∧ Together node A mates ∧
      (∀ rank ∈ A, (mates rank).hub.ranks = (calls rank).group.hub.ranks.filter fun member =>
        machine node member == machine node rank) ∧
      (∀ rank ∈ A, (calls rank).count (a rank) (mates rank) = .ok (h rank).deviceCount ∧
        Assignment.of (h rank).deviceCount (mates rank).size (mates rank).rank =
        .ok (h rank).assignment) ∧
      Reaches A rounds (fun rank => ((calls rank).work).start (a rank)) rounds'
        fun rank => ((calls rank).opening (h rank)).start (a rank) := by
  obtain ⟨rounds₁, global, mates, divided, reach⟩ := reaches_surveyed calls t entered rounds
  obtain ⟨devices, equipment⟩ := equipped mates divided.mates divided.mates_ranks
  have word' : ∀ rank ∈ A, (mates rank).size + 1 < Word.limit := by
    intro rank inside
    have size := Group.size_le_of_filter (divided.mates_ranks rank inside)
    have := word rank inside
    omega
  obtain ⟨p, placed, counted, colors, surveys⟩ :=
    Hierarchy.surveyed_of_counts divided equipment.counts
    equipment.positive equipment.same word' equipment.few
  obtain ⟨rounds₂, outcome, reach', h, outcomes, solver, team, parts, ranked⟩ :=
    Hierarchy.form_succeeds (S := S) placed counted colors rounds₁
  refine ⟨rounds₂, mates, h, ranked, divided.mates, divided.mates_ranks, fun rank inside => ?_,
    reach.trans ((reach'.andThen fun rank outcome =>
      Work.following (calls rank).opening (outcome, a rank)).congr
      (fun rank inside => ?_) fun rank inside => ?_)⟩
  · have survey := Hierarchy.surveyed_eq_ok_iff.mp (surveys rank inside)
    rw [parts rank inside]
    exact ⟨survey.2.2.2.1, survey.2.2.2.2⟩
  · rw [surveys rank inside, Call.afterSurvey_ok]
  · rw [outcomes rank inside, Program.finished_bind, Work.following_ok]

/-- Ranks that pass their own checks, find devices and can read the settings come through the
initialization, each with one of the devices and with the answers that their leads receive. -/
theorem establish_completes (calls : Nat → Call) {a : Nat → Attached S}
    (t : Together node A fun rank => (calls rank).group)
    (sound : Sound A fun rank => (a rank).context)
    (word : ∀ rank ∈ A, (calls rank).group.hub.ranks.length + 1 < Word.limit)
    (entered : ∀ rank ∈ A, ∃ mode, (calls rank).entry (a rank) = .ok mode)
    (equipped : ∀ mates : Nat → Group, Together node A mates →
      (∀ rank ∈ A, (mates rank).hub.ranks = (calls rank).group.hub.ranks.filter fun member =>
        machine node member == machine node rank) →
          ∃ devices, Equipped node A calls a mates devices)
    {settings : Nat → Settings S}
    (loaded : ∀ rank ∈ A, (calls rank).settings = .ok (settings rank)) :
    Completes A (fun rank => ((calls rank).work).start (a rank)) fun v =>
      ∃ h new, Established node A calls a h settings new v ∧ ∀ rank ∈ A, ∃ mates devices,
        (calls rank).count (a rank) mates = .ok devices ∧ (h rank).device < devices := by
  intro rounds
  obtain ⟨rounds₁, mates, h, ranked, _, ranks, counted, reach⟩ :=
    reaches_formed calls t word entered equipped rounds
  obtain ⟨rounds₂, v, reach', new, copied, left⟩ := opening_completes calls ranked.toShaped
    (fun rank inside => sound rank inside)
    (fun rank inside => Nat.lt_of_succ_lt (word rank inside)) settings
    (fun rank inside _ => loaded rank inside) rounds₁
  refine ⟨rounds₂, v, reach.trans reach', h, new,
    ⟨ranked, copied, entered, fun rank inside _ => loaded rank inside, left⟩,
    fun rank inside =>
      ⟨mates rank, _, (counted rank inside).1,
        (Assignment.device_within (counted rank inside).2 ?_).1⟩⟩
  have size : (mates rank).size ≤ (calls rank).group.hub.ranks.length :=
    Group.size_le_of_filter (ranks rank inside)
  have := word rank inside
  omega

/-- If all ranks have initialized an instance, it is because their groups fit, each of them has its
device and the leads have their resources. -/
theorem established_of_ends {calls : Nat → Call} {a : Nat → Attached S}
    (t : Together node A fun rank => (calls rank).group)
    (sound : Sound A fun rank => (a rank).context)
    (word : ∀ rank ∈ A, (calls rank).group.hub.ranks.length < Word.limit) {rounds rounds' : Rounds}
    {v : Nat → Attempt Unit × Attached S}
    (reach : Reaches A rounds (fun rank => ((calls rank).work).start (a rank)) rounds' fun rank =>
      .finished (v rank))
    (succeeded : ∀ rank ∈ A, (v rank).1 = .ok ()) :
    ∃ h settings new, Established node A calls a h settings new v ∧
      Hierarchy.Housed node A (fun rank => (calls rank).group)
      (fun rank => (calls rank).count (a rank)) h := by
  have entered : ∀ rank ∈ A, ∃ mode, (calls rank).entry (a rank) = .ok mode := by
    intro rank inside
    cases found : (calls rank).entry (a rank) with
    | ok mode => exact ⟨mode, rfl⟩
    | error failure =>
      have wrong := succeeded rank inside
      rw [reach.value_of_finished inside ((calls rank).start_work_refused found)] at wrong
      cases wrong
  have first : Reaches A rounds (fun rank =>
      (Hierarchy.build (calls rank).group ((calls rank).count (a rank))).run >>= fun outcome =>
        Work.following (calls rank).opening (outcome, a rank)) rounds' fun rank =>
          .finished (v rank) :=
    reach.congr (fun rank inside => by
      obtain ⟨mode, found⟩ := entered rank inside
      rw [Call.start_work, found]) fun _ _ => rfl
  have rejects := Hierarchy.rejects_following (f := fun rank => (calls rank).opening) (a := a)
    fun rank inside => ⟨(), succeeded rank inside⟩
  obtain ⟨rounds₁, h, ranked, housed, second⟩ := Hierarchy.build_rest t rejects first
  have loads : ∀ rank ∈ A, ∃ settings, (h rank).isLead → (calls rank).settings (S := S) =
      .ok settings := by
    intro rank inside
    cases found : (calls rank).settings (S := S) with
    | ok settings => exact ⟨settings, fun _ => rfl⟩
    | error failure =>
      refine ⟨⟨0, Scalar.zero, 0⟩, fun lead => ?_⟩
      have member := ranked.solver_leads inside lead
      have wrong := succeeded rank inside
      rw [second.value_of_finished inside
        (Call.start_opening_unreadable lead member found (a rank))] at wrong
      cases wrong
  have : Nonempty (Settings S) := ⟨⟨0, Scalar.zero, 0⟩⟩
  choose! settings loaded using loads
  have opens : Completes A (fun rank => ((calls rank).opening (h rank)).start (a rank)) _ :=
    opening_completes calls ranked.toShaped (fun rank inside => sound rank inside)
      word settings loaded
  obtain ⟨w, ⟨new, copied, values⟩, same⟩ := opens.value second
  exact ⟨h, settings, new, ⟨ranked, copied, entered, loaded, fun rank inside =>
    (same rank inside).trans (values rank inside)⟩, housed⟩

end DeviceTeams
