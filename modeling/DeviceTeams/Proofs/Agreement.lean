import DeviceTeams.Proofs.Processes

/-!
# When the ranks agree on an initialization

Ranks of one group initialize an instance with one call. Some of their checks concern single ranks,
machines or leads only, and the others do not learn of them. The ranks all succeed or all are
refused exactly if such a check does not divide them.
-/
namespace DeviceTeams

variable {S : Type}

/-! ## Refusals -/

theorem Call.entry_refused {call : Call} {a : Attached S} {failure : Failure}
    (h : call.entry a = .error failure) :
    ∃ cause, failure = .refused cause := by
  rw [entry] at h
  split at h
  · cases h
    exact ⟨_, rfl⟩
  · cases tag : Mode.ofTag call.mode with
    | error failure' =>
      rw [tag] at h
      cases h
      rw [Mode.ofTag] at tag
      split at tag
      · cases tag
      · split at tag
        · cases tag
        · cases tag
          exact ⟨_, rfl⟩
    | ok mode =>
      rw [tag] at h
      simp only [Attempt.ok_bind] at h
      split at h
      · cases h
      · cases h
        exact ⟨_, rfl⟩

theorem Settings.load_refused {path : String} {file : ConfigFile} {failure : Failure}
    (h : load path file = .error failure) : ∃ cause, failure = .refused cause := by
  rw [load] at h
  cases read : file.read path with
  | error failure' =>
    rw [read] at h
    cases h
    cases file with
    | text => cases read
    | missing | directory | undecodable =>
      cases read
      exact ⟨_, rfl⟩
  | ok content =>
    rw [read, Attempt.ok_bind, ofToml] at h
    split at h
    · cases h
      exact ⟨_, rfl⟩
    · next settings _ =>
      rw [check] at h
      split at h
      · cases h
        exact ⟨_, rfl⟩
      · cases h

theorem Call.settings_refused [Scalar S] {call : Call} {failure : Failure}
    (h : (call.settings : Attempt (Settings S)) = .error failure) :
    ∃ cause, failure = .refused cause := by
  rw [settings] at h
  cases found : Settings.load call.path call.file with
  | ok settings =>
    rw [found] at h
    cases h
  | error failure' =>
    rw [found] at h
    cases h
    exact Settings.load_refused found

/-! ## What divides the ranks -/

/-- The ranks on the machine of a rank, in the order of its group. -/
def mates (node : Nat → Nat) (G : Nat → Group) (rank : Nat) : List Nat :=
  (G rank).hub.ranks.filter fun member => machine node member == machine node rank

namespace Call

variable (call : Call) (node : Nat → Nat) (G : Nat → Group) (a : Nat → Attached S) (A : Finset Nat)

def devicesOf (rank : Nat) : Nat :=
  match Mode.ofTag call.mode with
  | .ok mode => call.devices.found mode (a rank).context.engine.visible (mates node G rank).length
  | .error _ => 0

variable {node G a} in
theorem devicesOf_eq {rank : Nat} {mode : Mode} (entered : call.entry (a rank) = .ok mode) :
    call.devicesOf node G a rank =
      call.devices.found mode (a rank).context.engine.visible (mates node G rank).length := by
  have known : Mode.ofTag call.mode = .ok mode := by
    rw [entry] at entered
    split at entered
    · cases entered
    · cases tag : Mode.ofTag call.mode with
      | error failure =>
        rw [tag] at entered
        cases entered
      | ok mode' =>
        rw [tag, Attempt.ok_bind] at entered
        split at entered
        · cases entered
          rfl
        · cases entered
  rw [devicesOf, known]

variable {node G a} in
theorem count_of_pos {rank : Nat} {mode : Mode}
    (entered : call.entry (a rank) = .ok mode) {m : Group}
    (size : m.size = (mates node G rank).length) (some_device : 0 < call.devicesOf node G a rank) :
    call.count (a rank) m = .ok (call.devicesOf node G a rank) := by
  rw [call.devicesOf_eq entered, ← size] at some_device ⊢
  rw [count, entered, Attempt.ok_bind, resolveDevices_of_pos some_device]

variable {node G a} in
theorem count_of_zero {rank : Nat} {mode : Mode}
    (entered : call.entry (a rank) = .ok mode) {m : Group}
    (size : m.size = (mates node G rank).length) {name : String} (named : m.nodeName = .ok name)
    (none : call.devicesOf node G a rank = 0) :
    call.count (a rank) m = .error (ConfigError.noAccelerators name) := by
  rw [call.devicesOf_eq entered, ← size] at none
  rw [count, entered, Attempt.ok_bind, resolveDevices_of_zero named none]

def leads (rank : Nat) : Bool :=
  match Assignment.of (call.devicesOf node G a rank) (mates node G rank).length
    ((mates node G rank).idxOf rank) with
  | .ok assignment => assignment.isLead
  | .error _ => false

/-- The leads cannot read the settings, or they are refused resources. -/
def LeadsRefused [Scalar S] (rank : Nat) : Prop :=
  (∃ failure, (call.settings : Attempt (Settings S)) = .error failure) ∨
    admission (fun member => (a member).context) ((G rank).hub.ranks.filter (call.leads node G a)) =
    .refuse

/-- The ranks of a group are not divided by a check that concerns a rank, a machine or the leads
only: none of them passes its own checks, or no machine has a device, or all of them are leads, or
the leads are not refused. -/
inductive Undivided [Scalar S] : Prop
  | refused (none : ∀ rank ∈ A, ∃ failure, call.entry (a rank) = .error failure)
  | deviceless (entered : ∀ rank ∈ A, ∃ mode, call.entry (a rank) = .ok mode)
      (none : ∀ rank ∈ A, call.devicesOf node G a rank = 0)
  | spread (entered : ∀ rank ∈ A, ∃ mode, call.entry (a rank) = .ok mode)
      (enough : ∀ rank ∈ A, (mates node G rank).length ≤ call.devicesOf node G a rank)
  | opened (entered : ∀ rank ∈ A, ∃ mode, call.entry (a rank) = .ok mode)
      (some_device : ∀ rank ∈ A, 0 < call.devicesOf node G a rank)
      (admitted : ∀ rank ∈ A, ¬ call.LeadsRefused node G a rank)

end Call

/-- All ranks have succeeded, or all of them have been refused. -/
def Agree {σ : Type} (A : Finset Nat) (left : Nat → Option (Attempt Unit × σ)) : Prop :=
  (∀ rank ∈ A, ∃ b, left rank = some (.ok (), b)) ∨ ∀ rank ∈ A, ∃ cause b, left rank =
    some (.error (.refused cause), b)

/-- Ranks that are refused leave the others waiting for them. -/
theorem halts_of_refusals {β σ : Type} {A : Finset Nat} {x : Nat → Attempt β}
    {P : Nat → Program S (Attempt Unit × σ)} {b : Nat → σ}
    (refused : ∀ rank ∈ A, ∀ failure, x rank = .error failure →
      (∃ cause, failure = .refused cause) ∧ P rank = .finished (.error failure, b rank))
    (some_refused : ∃ rank ∈ A, ∃ failure, x rank = .error failure)
    (waits : ∀ rank ∈ A, ∀ value, x rank = .ok value → ∃ hub seat payload resume,
      P rank = .meet hub seat payload resume ∧ hub.ranks[seat]? = some rank ∧
        ∃ refusing ∈ hub.ranks, refusing ∈ A ∧ ∃ failure, x refusing = .error failure)
          (rounds : Rounds) :
    ∃ left, Halts A rounds P left ∧
      (Agree A left ↔ ∀ rank ∈ A, ∃ failure, x rank = .error failure) ∧
      ∀ rank ∈ A, (left rank).isSome ↔ ∃ failure, x rank = .error failure := by
  obtain ⟨refusing, inside, failure, refuses⟩ := some_refused
  let left : Nat → Option (Attempt Unit × σ) := fun rank =>
    match x rank with
    | .error failure => some (.error failure, b rank)
    | .ok _ => none
  have value_error : ∀ rank failure, x rank = .error failure →
    left rank = some (.error failure, b rank) :=
    fun rank failure found => by simp only [left, found]
  have value_ok : ∀ rank value, x rank = .ok value → left rank = none :=
    fun rank value found => by simp only [left, found]
  refine ⟨left, ⟨rounds, P, .refl fun _ _ => rfl, fun rank member => ?_⟩, ?_, fun rank _ => ?_⟩
  · cases found : x rank with
    | error failure =>
      rw [value_error rank failure found]
      exact .finished (refused rank member failure found).2
    | ok value =>
      obtain ⟨hub, seat, payload, resume, meets, own, absent, belongs, among, failure', refuses'⟩ :=
        waits rank member value found
      rw [value_ok rank value found]
      exact .waiting meets own belongs among (refused absent among failure' refuses').2
  · constructor
    · rintro (succeeded | all) rank member
      · obtain ⟨b, value⟩ := succeeded refusing inside
        cases (value_error refusing failure refuses).symm.trans value
      · obtain ⟨cause, b, value⟩ := all rank member
        cases found : x rank with
        | error failure => exact ⟨failure, rfl⟩
        | ok _ => cases (value_ok rank _ found).symm.trans value
    · intro all
      refine .inr fun rank member => ?_
      obtain ⟨failure, found⟩ := all rank member
      obtain ⟨⟨cause, rfl⟩, _⟩ := refused rank member failure found
      exact ⟨cause, b rank, value_error rank _ found⟩
  · cases found : x rank with
    | error failure => simp [value_error rank failure found]
    | ok value => simp [value_ok rank value found]

/-- The ranks of one group, no more of them than there are colors. All ranks of a machine see the
same devices. -/
structure OneGroup (node : Nat → Nat) (A : Finset Nat) (G : Nat → Group) (a : Nat → Attached S) :
    Prop where
  together : Together node A G
  one : ∀ rank ∈ A, ∀ other ∈ A, other ∈ (G rank).hub.ranks
  colors : ∀ rank ∈ A, (G rank).hub.ranks.length ≤ Group.lastColor + 1
  alike : ∀ rank ∈ A, ∀ other ∈ A, machine node other = machine node rank →
    (a other).context.engine.visible = (a rank).context.engine.visible
  sound : Sound A fun rank => (a rank).context

namespace OneGroup

variable {A : Finset Nat} {node : Nat → Nat} {G : Nat → Group} {a : Nat → Attached S} {call : Call}

theorem word (group : OneGroup node A G a) {rank : Nat} (inside : rank ∈ A) :
    (G rank).hub.ranks.length + 1 < Word.limit := by
  have colors := group.colors rank inside
  have wide : Group.lastColor + 2 < Word.limit := by decide
  omega

theorem mates_word (group : OneGroup node A G a) {rank : Nat} (inside : rank ∈ A) :
    (mates node G rank).length + 1 < Word.limit := by
  have ranks : (mates node G rank).length ≤ (G rank).hub.ranks.length := List.length_filter_le ..
  have word := group.word inside
  omega

variable [Scalar S]

/-- The ranks that pass their own checks wait for one that does not. -/
theorem halts_of_entry (group : OneGroup node A G a) {refusing : Nat} (inside : refusing ∈ A)
    {failure : Failure} (refuses : call.entry (a refusing) = .error failure) (rounds : Rounds) :
    ∃ left,
      Halts A rounds (fun rank => ((call.on (G rank)).work).start (a rank)) left ∧
      (Agree A left ↔ ∀ rank ∈ A, ∃ failure, call.entry (a rank) = .error failure) := by
  have ends : ∀ rank ∈ A, ∀ failure, call.entry (a rank) = .error failure →
      (∃ cause, failure = .refused cause) ∧
      ((call.on (G rank)).work).start (a rank) = .finished (.error failure, a rank) := by
    intro rank member failure entry
    exact ⟨Call.entry_refused entry, (call.on (G rank)).start_work_refused entry⟩
  have waits : ∀ rank ∈ A, ∀ mode, call.entry (a rank) = .ok mode → ∃ hub seat payload resume,
      ((call.on (G rank)).work).start (a rank) = .meet hub seat payload resume ∧
      hub.ranks[seat]? = some rank ∧
        ∃ refusing ∈ hub.ranks, refusing ∈ A ∧ ∃ failure, call.entry (a refusing) =
          .error failure := by
    intro rank member mode entry
    obtain ⟨payload, resume, meets⟩ := (call.on (G rank)).start_work_waits entry
    exact ⟨_, _, payload, resume, meets, group.together.own rank member, refusing,
      group.one rank member refusing inside, inside, failure, refuses⟩
  obtain ⟨left, halts, agrees, _⟩ :=
    halts_of_refusals ends ⟨refusing, inside, failure, refuses⟩ waits rounds
  exact ⟨left, halts, agrees⟩

omit [Scalar S] in
theorem size_eq_mates {sharing : Nat → Group}
    (ranks : ∀ rank ∈ A, (sharing rank).hub.ranks = mates node G rank) {rank : Nat}
    (inside : rank ∈ A) : (sharing rank).size = (mates node G rank).length := by
  rw [Group.size_eq, ranks rank inside]

omit [Scalar S] in
/-- The survey refuses a rank whose machine has no device. -/
theorem surveyed_of_zero (entered : ∀ rank ∈ A, ∃ mode, call.entry (a rank) = .ok mode)
    {sharing : Nat → Group} (together : Together node A sharing)
    (ranks : ∀ rank ∈ A, (sharing rank).hub.ranks = mates node G rank) {rank : Nat}
    (inside : rank ∈ A) (none : call.devicesOf node G a rank = 0) (global : Group) : ∃ name,
      Hierarchy.surveyed global (sharing rank) ((call.on (G rank)).count (a rank)) =
        .error (ConfigError.noAccelerators name) := by
  obtain ⟨mode, passes⟩ := entered rank inside
  have named := together.nodeName_eq inside
  have counted : (call.on (G rank)).count (a rank) (sharing rank) = _ :=
    call.count_of_zero passes (size_eq_mates ranks inside) named none
  refine ⟨"node" ++ toString (node rank), ?_⟩
  rw [Hierarchy.surveyed, named, Attempt.ok_bind, counted]
  rfl

omit [Scalar S] in
/-- The survey lets a rank pass whose machine has devices. -/
theorem surveyed_of_pos (group : OneGroup node A G a)
    (entered : ∀ rank ∈ A, ∃ mode, call.entry (a rank) = .ok mode) {sharing : Nat → Group}
    (together : Together node A sharing)
    (ranks : ∀ rank ∈ A, (sharing rank).hub.ranks = mates node G rank) {rank : Nat}
    (inside : rank ∈ A) (some_device : 0 < call.devicesOf node G a rank) (global : Group) :
    ∃ p, Hierarchy.surveyed global (sharing rank) ((call.on (G rank)).count (a rank)) = .ok p := by
  obtain ⟨mode, passes⟩ := entered rank inside
  have size := size_eq_mates ranks inside
  have counted : (call.on (G rank)).count (a rank) (sharing rank) = _ :=
    call.count_of_pos passes size some_device
  obtain ⟨p, known, _⟩ :=
    Hierarchy.exists_surveyed together inside counted some_device (size ▸ group.mates_word inside)
    global
  exact ⟨p, known⟩

omit [Scalar S] in
theorem surveyed_error_iff (group : OneGroup node A G a)
    (entered : ∀ rank ∈ A, ∃ mode, call.entry (a rank) = .ok mode) {sharing : Nat → Group}
    (together : Together node A sharing)
    (ranks : ∀ rank ∈ A, (sharing rank).hub.ranks = mates node G rank) {rank : Nat}
    (inside : rank ∈ A) (global : Group) :
    (∃ failure, Hierarchy.surveyed global (sharing rank) ((call.on (G rank)).count (a rank)) =
      .error failure) ↔
      call.devicesOf node G a rank = 0 := by
  rcases Nat.eq_zero_or_pos (call.devicesOf node G a rank) with zero | some_device
  · obtain ⟨name, refused⟩ := surveyed_of_zero entered together ranks inside zero global
    exact iff_of_true ⟨_, refused⟩ zero
  · obtain ⟨p, known⟩ := group.surveyed_of_pos entered together ranks inside some_device global
    refine iff_of_false (fun fails => ?_) (Nat.ne_of_gt some_device)
    obtain ⟨failure, wrong⟩ := fails
    cases known.symm.trans wrong

/-- The ranks of machines with devices wait for one whose machine has none. -/
theorem halts_of_deviceless (group : OneGroup node A G a)
    (entered : ∀ rank ∈ A, ∃ mode, call.entry (a rank) = .ok mode) {bare : Nat} (inside : bare ∈ A)
    (none : call.devicesOf node G a bare = 0) (rounds : Rounds) : ∃ left,
      Halts A rounds (fun rank => ((call.on (G rank)).work).start (a rank)) left ∧
      (Agree A left ↔ ∀ rank ∈ A, call.devicesOf node G a rank = 0) := by
  obtain ⟨rounds', global, sharing, divided, reach⟩ :=
    reaches_surveyed (S := S) (fun rank => call.on (G rank))
    group.together entered rounds
  let survey : Nat → Attempt Hierarchy.Placement := fun rank =>
    Hierarchy.surveyed (global rank) (sharing rank) ((call.on (G rank)).count (a rank))
  have refused_iff : ∀ rank ∈ A, (∃ failure, survey rank = .error failure) ↔
    call.devicesOf node G a rank = 0 :=
    fun rank member =>
      group.surveyed_error_iff entered divided.mates divided.mates_ranks member (global rank)
  have ends : ∀ rank ∈ A, ∀ failure, survey rank = .error failure →
      (∃ cause, failure = .refused cause) ∧
      (call.on (G rank)).afterSurvey (a rank) (survey rank) =
      .finished (.error failure, a rank) := by
    intro rank member failure found
    have zero := (refused_iff rank member).mp ⟨failure, found⟩
    obtain ⟨name, known⟩ :=
      surveyed_of_zero entered divided.mates divided.mates_ranks member zero (global rank)
    cases known.symm.trans found
    refine ⟨⟨_, rfl⟩, ?_⟩
    rw [found, Call.afterSurvey_error]
  have bare_refused : ∃ failure, survey bare = .error failure := (refused_iff bare inside).mpr none
  have waits : ∀ rank ∈ A, ∀ p, survey rank = .ok p → ∃ hub seat payload resume,
      (call.on (G rank)).afterSurvey (a rank) (survey rank) = .meet hub seat payload resume ∧
      hub.ranks[seat]? = some rank ∧ ∃ refusing ∈ hub.ranks, refusing ∈ A ∧
      ∃ failure, survey refusing = .error failure := by
    intro rank member p found
    have copy : p.global = global rank := (Hierarchy.surveyed_eq_ok_iff.mp found).1
    obtain ⟨payload, resume, meets⟩ := (call.on (G rank)).afterSurvey_waits (a rank) p
    refine ⟨_, _, payload, resume, found ▸ meets, ?_, bare, ?_, inside, bare_refused⟩
    · rw [copy]
      exact divided.global.own rank member
    · rw [copy, divided.global_ranks rank member]
      exact group.one rank member bare inside
  obtain ⟨left, halts, agrees, _⟩ :=
    halts_of_refusals ends ⟨bare, inside, bare_refused⟩ waits rounds'
  exact ⟨left, halts.after reach, agrees.trans (forall₂_congr refused_iff)⟩

omit [Scalar S] in
theorem mates_eq (group : OneGroup node A G a) {rank : Nat} (inside : rank ∈ A) {member : Nat}
    (belongs : member ∈ mates node G rank) :
    member ∈ A ∧ machine node member = machine node rank ∧
    mates node G member = mates node G rank := by
  obtain ⟨belongs, same⟩ := List.mem_filter.mp belongs
  obtain ⟨within, hub⟩ := group.together.of_mem inside belongs
  rw [beq_iff_eq] at same
  exact ⟨within, same, by rw [mates, mates, hub, same]⟩

omit [Scalar S] in
/-- The ranks of a machine find the same devices there. -/
theorem devicesOf_eq (group : OneGroup node A G a) {rank : Nat} (inside : rank ∈ A) {member : Nat}
    (belongs : member ∈ mates node G rank) :
    call.devicesOf node G a member = call.devicesOf node G a rank := by
  obtain ⟨within, same, ranks⟩ := group.mates_eq inside belongs
  rw [Call.devicesOf, Call.devicesOf, ranks, group.alike rank inside member within same]

omit [Scalar S] in
/-- The devices that ranks count on their machines. -/
theorem equipped (group : OneGroup node A G a)
    (entered : ∀ rank ∈ A, ∃ mode, call.entry (a rank) = .ok mode)
    (some_device : ∀ rank ∈ A, 0 < call.devicesOf node G a rank) {sharing : Nat → Group}
    (ranks : ∀ rank ∈ A, (sharing rank).hub.ranks = mates node G rank) :
    Equipped node A (fun rank => call.on (G rank)) a sharing (call.devicesOf node G a) where
  counts rank inside := by
    obtain ⟨mode, passes⟩ := entered rank inside
    exact call.count_of_pos passes (size_eq_mates ranks inside) (some_device rank inside)
  positive := some_device
  same rank inside member belongs := group.devicesOf_eq inside (ranks rank inside ▸ belongs)
  few rank inside := by
    have few : (sharing rank).size ≤ (G rank).hub.ranks.length :=
      Group.size_le_of_filter (ranks rank inside)
    have colors := group.colors rank inside
    omega

omit [Scalar S] in
/-- Ranks that have their groups lead as their devices tell. -/
theorem isLead_eq (entered : ∀ rank ∈ A, ∃ mode, call.entry (a rank) = .ok mode)
    (some_device : ∀ rank ∈ A, 0 < call.devicesOf node G a rank) {sharing : Nat → Group}
    (together : Together node A sharing)
    (ranks : ∀ rank ∈ A, (sharing rank).hub.ranks = mates node G rank) {h : Hierarchy} {rank : Nat}
    (inside : rank ∈ A)
    (counted : (call.on (G rank)).count (a rank) (sharing rank) = .ok h.deviceCount)
    (assigned : Assignment.of h.deviceCount (sharing rank).size (sharing rank).rank =
      .ok h.assignment) :
    h.isLead = call.leads node G a rank := by
  obtain ⟨mode, passes⟩ := entered rank inside
  have size := size_eq_mates ranks inside
  have own : call.count (a rank) (sharing rank) = _ :=
    call.count_of_pos passes size (some_device rank inside)
  have count : h.deviceCount = call.devicesOf node G a rank := by
    have same := counted.symm.trans own
    injection same
  have seat : (mates node G rank).idxOf rank = (sharing rank).rank :=
    ranks rank inside ▸ together.idxOf inside
  rw [count, size, ← seat] at assigned
  rw [Call.leads, assigned]
  rfl

omit [Scalar S] in
/-- Who leads among the ranks of a machine, by seats. -/
theorem leads_eq (group : OneGroup node A G a) {rank : Nat} (inside : rank ∈ A) {seat member : Nat}
    (found : (mates node G rank)[seat]? = some member) {assignment : Assignment}
    (assigned : Assignment.of (call.devicesOf node G a rank) (mates node G rank).length seat =
      .ok assignment) :
    member ∈ A ∧ call.leads node G a member = assignment.isLead := by
  obtain ⟨below, here⟩ := List.getElem?_eq_some_iff.mp found
  have belongs := List.mem_of_getElem? found
  obtain ⟨within, _, same⟩ := group.mates_eq inside belongs
  have distinct : (mates node G rank).Nodup := (group.together.nodup inside).filter _
  have place : (mates node G rank).idxOf member = seat := here ▸ distinct.idxOf_getElem seat below
  refine ⟨within, ?_⟩
  rw [Call.leads, same, group.devicesOf_eq inside belongs, place, assigned]

omit [Scalar S] in
theorem own_seat (group : OneGroup node A G a) {rank : Nat} (inside : rank ∈ A) :
    ∃ seat : Nat, (mates node G rank)[seat]? = some rank := by
  have own : rank ∈ mates node G rank := List.mem_filter.mpr ⟨group.together.mem inside, by simp⟩
  exact List.mem_iff_getElem?.mp own

omit [Scalar S] in
/-- The first rank of a machine is a lead. -/
theorem exists_lead (group : OneGroup node A G a) {rank : Nat} (inside : rank ∈ A)
    (some_device : 0 < call.devicesOf node G a rank) : ∃ lead ∈ A, call.leads node G a lead := by
  obtain ⟨seat, own⟩ := group.own_seat inside
  have some_rank : 0 < (mates node G rank).length :=
    Nat.lt_of_le_of_lt (Nat.zero_le seat) (List.getElem?_eq_some_iff.mp own).1
  obtain ⟨device, offset, assigned, _, _, place, _⟩ :=
    Assignment.of_spec some_device some_rank (group.mates_word inside)
  have first := List.getElem?_eq_getElem some_rank
  obtain ⟨within, leads⟩ := group.leads_eq inside first assigned
  refine ⟨_, within, leads.trans ?_⟩
  rw [beq_iff_eq]
  omega

omit [Scalar S] in
/-- All ranks lead exactly if every machine has a device for each of its ranks. -/
theorem all_lead_iff (group : OneGroup node A G a)
    (some_device : ∀ rank ∈ A, 0 < call.devicesOf node G a rank) :
    (∀ rank ∈ A, call.leads node G a rank) ↔
      ∀ rank ∈ A, (mates node G rank).length ≤ call.devicesOf node G a rank := by
  have seats := fun rank (inside : rank ∈ A) =>
    Assignment.all_lead_iff (some_device rank inside) (group.mates_word inside)
  constructor
  · intro all rank inside
    refine (seats rank inside).mp fun seat below assignment assigned => ?_
    obtain ⟨within, leads⟩ := group.leads_eq inside (List.getElem?_eq_getElem below) assigned
    exact leads.symm.trans (all _ within)
  · intro enough rank inside
    obtain ⟨seat, own⟩ := group.own_seat inside
    have below := (List.getElem?_eq_some_iff.mp own).1
    obtain ⟨device, offset, assigned, _⟩ :=
      Assignment.of_spec (some_device rank inside) below (group.mates_word inside)
    exact (group.leads_eq inside own assigned).2.trans
      ((seats rank inside).mpr (enough rank inside) seat below _ assigned)

/-- Leads that cannot read their settings are refused, and the other ranks open their instances. -/
theorem opening_unreadable {h : Nat → Hierarchy} (shaped : Shaped node A G h) {cause : Error}
    (unreadable : (call.settings : Attempt (Settings S)) = .error (.refused cause)) :
    Completes A (fun rank => ((call.on (G rank)).opening (h rank)).start (a rank)) fun v =>
      ∀ rank ∈ A,
      (v rank).1 = if (h rank).isLead then .error (.refused cause) else .ok () := by
  refine .of_finished (v := fun rank => if (h rank).isLead
    then (.error (.refused cause), (a rank).registered.dropped (.refused cause))
    else (.ok (), (a rank).registered.ready (h rank) none)) (fun rank inside => ?_) fun rank _ => ?_
  · by_cases lead : (h rank).isLead
    · rw [if_pos lead]
      exact Call.start_opening_unreadable lead (shaped.solver_leads inside lead) unreadable (a rank)
    · rw [if_neg lead]
      exact Call.start_opening_other (by simpa using lead) (a rank)
  · by_cases lead : (h rank).isLead <;> simp [lead]

omit [Scalar S] in
/-- A rank that opens its instance is refused if it is a lead and the leads are refused
resources. -/
theorem opened_outcome {h : Nat → Hierarchy} {settings : Nat → Settings S}
    {new : Nat → Group} {rank : Nat} (own : (h rank).isLead → rank ∈ (h rank).leads.hub.ranks) :
    ((h rank).isLead ∧ admission (registeredContexts a) (h rank).leads.hub.ranks = .refuse →
      ∃ cause, (opened a h settings new rank).1 = .error (.refused cause)) ∧
    (¬ ((h rank).isLead ∧ admission (registeredContexts a) (h rank).leads.hub.ranks = .refuse) →
      (opened a h settings new rank).1 = .ok ()) := by
  rw [opened]
  refine ⟨fun refused => ?_, fun kept => ?_⟩
  · rw [if_pos refused.1, Context.admitted, refused.2]
    exact ⟨_, rfl⟩
  · by_cases lead : (h rank).isLead
    · rw [if_pos lead, Context.admitted]
      cases admits : admission (registeredContexts a) (h rank).leads.hub.ranks with
      | refuse => exact absurd ⟨lead, admits⟩ kept
      | create => rfl
      | reuse =>
        obtain ⟨shared, found⟩ :=
          Option.isSome_iff_exists.mp (admission_eq_reuse_iff.mp admits rank (own lead)).1
        rw [found]
        rfl
    · rw [if_neg lead]
      rfl

/-- Where all ranks find devices, the leads are refused or not, and all others succeed. -/
theorem completes_of_devices (group : OneGroup node A G a)
    (entered : ∀ rank ∈ A, ∃ mode, call.entry (a rank) = .ok mode)
    (some_device : ∀ rank ∈ A, 0 < call.devicesOf node G a rank) :
    Completes A (fun rank => ((call.on (G rank)).work).start (a rank)) fun v => ∀ rank ∈ A,
      (call.leads node G a rank ∧ call.LeadsRefused node G a rank →
        ∃ cause, (v rank).1 = .error (.refused cause)) ∧
      (¬ (call.leads node G a rank ∧ call.LeadsRefused node G a rank) → (v rank).1 = .ok ()) := by
  intro rounds
  obtain ⟨rounds₁, sharing, h, ranked, together, ranks, counted, reach⟩ := reaches_formed (S := S)
    (fun rank => call.on (G rank)) group.together (fun rank inside => group.word inside) entered
    (fun sharing _ ranks => ⟨_, group.equipped entered some_device ranks⟩) rounds
  have isLead : ∀ rank ∈ A, (h rank).isLead = call.leads node G a rank := fun rank inside =>
    isLead_eq entered some_device together ranks inside (counted rank inside).1
      (counted rank inside).2
  cases read : (call.settings : Attempt (Settings S)) with
  | error failure =>
    obtain ⟨cause, rfl⟩ := Call.settings_refused read
    obtain ⟨rounds₂, v, reach', outcomes⟩ :=
      opening_unreadable (a := a) ranked.toShaped read rounds₁
    refine ⟨rounds₂, v, reach.trans reach', fun rank inside => ?_⟩
    rw [outcomes rank inside, isLead rank inside]
    refine ⟨fun turned => ⟨cause, if_pos turned.1⟩, fun kept =>
      if_neg fun leads => kept ⟨leads, .inl ⟨_, read⟩⟩⟩
  | ok settings =>
    obtain ⟨rounds₂, v, reach', new, copied, left⟩ :=
      opening_completes (a := a) (fun rank => call.on (G rank))
      ranked.toShaped (fun rank inside => group.sound rank inside)
      (fun rank inside => Nat.lt_of_succ_lt (group.word inside))
      (fun _ => settings) (fun rank inside _ => read) rounds₁
    refine ⟨rounds₂, v, reach.trans reach', fun rank inside => ?_⟩
    have refused_iff : call.leads node G a rank → (call.LeadsRefused node G a rank ↔
        admission (registeredContexts a) (h rank).leads.hub.ranks = .refuse) := by
      intro leads
      have leads_ranks : (h rank).leads.hub.ranks = (G rank).hub.ranks.filter
          (call.leads node G a) := by
        refine (ranked.leads_ranks rank inside ((isLead rank inside).trans leads)).trans ?_
        exact List.filter_congr fun member belongs =>
          isLead member (group.together.of_mem inside belongs).1
      rw [leads_ranks]
      refine ⟨fun turned => turned.resolve_left fun unreadable => ?_, .inr⟩
      obtain ⟨failure, wrong⟩ := unreadable
      cases read.symm.trans wrong
    rw [left rank inside, and_congr_right refused_iff, ← isLead rank inside]
    exact opened_outcome fun lead => ranked.leads.mem (Finset.mem_filter.mpr ⟨inside, lead⟩)

/-- The leads are refused together. -/
theorem leadsRefused_iff (group : OneGroup node A G a) {rank other : Nat} (inside : rank ∈ A)
    (inside' : other ∈ A) :
    call.LeadsRefused node G a other ↔ call.LeadsRefused node G a rank := by
  rw [Call.LeadsRefused, Call.LeadsRefused,
    (group.together.of_mem inside (group.one rank inside other inside')).2]

/-- Where all ranks find devices, they agree if all of them are leads or the leads are not
refused. -/
theorem agree_of_devices (group : OneGroup node A G a)
    (entered : ∀ rank ∈ A, ∃ mode, call.entry (a rank) = .ok mode)
    (some_device : ∀ rank ∈ A, 0 < call.devicesOf node G a rank)
    {v : Nat → Attempt Unit × Attached S}
    (refused : ∀ rank ∈ A, call.leads node G a rank ∧ call.LeadsRefused node G a rank →
      ∃ cause, (v rank).1 = .error (.refused cause))
    (succeeded : ∀ rank ∈ A, ¬ (call.leads node G a rank ∧ call.LeadsRefused node G a rank) →
      (v rank).1 = .ok ()) :
    Agree A (fun rank => some (v rank)) ↔ call.Undivided node G a A := by
  have is_ok : ∀ rank b, some (v rank) = some (.ok (), b) →
      (v rank).1 = .ok () := fun rank b same => by
    injection same with same
    rw [same]
  have is_refused : ∀ rank cause b, some (v rank) = some (.error (.refused cause), b) →
      (v rank).1 = .error (.refused cause) := fun rank cause b same => by
    injection same with same
    rw [same]
  constructor
  · rintro (all_ok | all_refused)
    · refine .opened entered some_device fun rank inside turned => ?_
      obtain ⟨lead, within, leads⟩ := group.exists_lead inside (some_device rank inside)
      obtain ⟨cause, wrong⟩ :=
        refused lead within ⟨leads, (group.leadsRefused_iff inside within).mpr turned⟩
      obtain ⟨b, same⟩ := all_ok lead within
      cases (is_ok lead b same).symm.trans wrong
    · refine .spread entered ((group.all_lead_iff some_device).mp fun rank inside => ?_)
      by_contra other
      obtain ⟨cause, b, same⟩ := all_refused rank inside
      cases (is_refused rank cause b same).symm.trans
        (succeeded rank inside fun both => other both.1)
  · have value_ok : ∀ rank, (v rank).1 = .ok () → ∃ b, some (v rank) = some (.ok (), b) :=
      fun rank same => ⟨(v rank).2, by rw [← same]⟩
    rintro (none | ⟨_, none⟩ | ⟨_, enough⟩ | ⟨_, _, admitted⟩)
    · refine .inr fun rank inside => ?_
      obtain ⟨failure, refuses⟩ := none rank inside
      obtain ⟨mode, passes⟩ := entered rank inside
      cases refuses.symm.trans passes
    · exact .inr fun rank inside =>
        absurd (none rank inside) (Nat.ne_of_gt (some_device rank inside))
    · have leads := (group.all_lead_iff some_device).mpr enough
      by_cases turned : ∃ rank ∈ A, call.LeadsRefused node G a rank
      · obtain ⟨turning, within, turned⟩ := turned
        refine .inr fun rank inside => ?_
        obtain ⟨cause, same⟩ :=
          refused rank inside ⟨leads rank inside, (group.leadsRefused_iff within inside).mpr turned⟩
        exact ⟨cause, (v rank).2, by rw [← same]⟩
      · exact .inl fun rank inside =>
          value_ok rank (succeeded rank inside fun both => turned ⟨rank, inside, both.2⟩)
    · exact .inl fun rank inside =>
        value_ok rank (succeeded rank inside fun both => admitted rank inside both.2)

/-- Ranks of one group that initialize an instance with the same call agree exactly if no check
divides them. -/
theorem halts (group : OneGroup node A G a) (call : Call) (rounds : Rounds) : ∃ left,
    Halts A rounds (fun rank => ((call.on (G rank)).work).start (a rank)) left ∧
    (Agree A left ↔ call.Undivided node G a A) := by
  by_cases entered : ∀ rank ∈ A, ∃ mode, call.entry (a rank) = .ok mode
  · by_cases some_device : ∀ rank ∈ A, 0 < call.devicesOf node G a rank
    · obtain ⟨rounds', v, reach, left⟩ := group.completes_of_devices entered some_device rounds
      exact ⟨fun rank => some (v rank), .of_finished reach,
        group.agree_of_devices entered some_device
        (fun rank inside => (left rank inside).1) fun rank inside => (left rank inside).2⟩
    · obtain ⟨bare, inside, none⟩ : ∃ bare ∈ A, call.devicesOf node G a bare = 0 := by
        simpa only [not_forall, Nat.not_lt, Nat.le_zero, exists_prop] using some_device
      obtain ⟨left, halts, agrees⟩ := group.halts_of_deviceless entered inside none rounds
      refine ⟨left, halts, agrees.trans ⟨fun all => .deviceless entered all, fun undivided => ?_⟩⟩
      cases undivided with
      | refused none' =>
        obtain ⟨failure, refuses⟩ := none' bare inside
        obtain ⟨mode, passes⟩ := entered bare inside
        cases refuses.symm.trans passes
      | deviceless _ all => exact all
      | spread _ enough =>
        obtain ⟨seat, own⟩ := group.own_seat inside
        have below := (List.getElem?_eq_some_iff.mp own).1
        have bound := enough bare inside
        omega
      | opened _ positive => exact absurd none (Nat.ne_of_gt (positive bare inside))
  · obtain ⟨refusing, inside, failure, refuses⟩ : ∃ rank ∈ A, ∃ failure, call.entry (a rank) =
        .error failure := by
      simp only [not_forall] at entered
      obtain ⟨rank, inside, fails⟩ := entered
      cases found : call.entry (a rank) with
      | error failure => exact ⟨rank, inside, failure, found⟩
      | ok mode => exact absurd ⟨mode, found⟩ fails
    obtain ⟨left, halts, agrees⟩ := group.halts_of_entry inside refuses rounds
    refine ⟨left, halts, agrees.trans ⟨.refused, fun undivided => ?_⟩⟩
    cases undivided with
    | refused all => exact all
    | deviceless entered' => exact absurd entered' entered
    | spread entered' => exact absurd entered' entered
    | opened entered' => exact absurd entered' entered

end OneGroup

/-! ## Initializations on processes -/

theorem agree_map {σ τ : Type} {A : Finset Nat} {left : Nat → Option (Attempt Unit × σ)}
    {left' : Nat → Option (Attempt Unit × τ)} {f : Nat → σ → τ}
    (same : ∀ rank ∈ A, left' rank = (left rank).map fun ended => (ended.1, f rank ended.2)) :
    Agree A left' ↔ Agree A left := by
  have outcomes : ∀ outcome, ∀ rank ∈ A,
      (∃ b, left' rank = some (outcome, b)) ↔ ∃ b, left rank = some (outcome, b) := by
    intro outcome rank inside
    rw [same rank inside]
    cases left rank with
    | none => simp
    | some ended => simp [Prod.ext_iff]
  have refused : ∀ rank ∈ A, (∃ cause b, left' rank = some (.error (.refused cause), b)) ↔
      ∃ cause b, left rank = some (.error (.refused cause), b) := fun rank inside =>
    exists_congr fun cause => outcomes _ rank inside
  exact or_congr (forall₂_congr (outcomes _)) (forall₂_congr refused)

namespace Process

variable [Scalar S] {n : Nat} {visible : Nat → Nat} {p : Nat → Process S} {A : Finset Nat}
  {node : Nat → Nat} {G : Nat → Group}

/-- Processes with steady contexts that initialize an instance with the same call agree exactly if
no check divides them. -/
theorem halts_initialize (steady : ∀ rank ∈ A, (p rank).context.Steady (visible rank))
    (few : n ≤ Group.lastColor + 1) (within : A ⊆ Finset.range n) (number : Nat → Nat)
    (together : Together node A G) (one : ∀ rank ∈ A, ∀ other ∈ A, other ∈ (G rank).hub.ranks)
    (alike : ∀ rank ∈ A, ∀ other ∈ A, machine node other = machine node rank →
      visible other = visible rank)
    (call : Call) (rounds : Rounds) : ∃ left,
      Halts (Finset.range n) rounds (programs p A number fun rank => (call.on (G rank)).work) left ∧
      (Agree A left ↔ call.Undivided node G (fun rank => (p rank).attached (number rank)) A) := by
  have group : OneGroup node A G fun rank => (p rank).attached (number rank) := by
    refine ⟨together, one, fun rank inside => ?_, fun rank inside other inside' same => ?_,
      fun rank inside => ?_⟩
    · exact Nat.le_trans (together.length_le within inside) few
    · have own := (steady rank inside).visible_eq
      have other_sees := (steady other inside').visible_eq
      exact other_sees.trans ((alike rank inside other inside' same).trans own.symm)
    · exact (steady rank inside).running_eq
  obtain ⟨left, halts, agrees⟩ := group.halts call rounds
  let after : Nat → Attached S → Process S := fun rank b => (p rank).put (number rank) b
  have worked := halts.map fun rank ended => (ended.1, after rank ended.2)
  have own : ∀ rank ∈ A, programs p A number (fun rank => (call.on (G rank)).work) rank =
      ((call.on (G rank)).work).start ((p rank).attached (number rank)) >>= fun ended =>
        .finished (ended.1, after rank ended.2) := fun rank inside => if_pos inside
  have idle : ∀ rank ∈ Finset.range n, rank ∉ A →
      programs p A number (fun rank => (call.on (G rank)).work) rank = .finished (.ok (), p rank) :=
    fun rank _ outside => if_neg outside
  exact ⟨_, (worked.after (.refl own)).part within idle,
    (agree_map (f := after) fun rank inside => if_pos inside).trans
    agrees⟩

end Process

/-- After any number of calls from which all processes have returned, the ranks of a group
initialize an instance with the same call. Whatever the order of their steps, they all succeed or
are all refused exactly if no check divides them. -/
theorem initialize_agree_iff [Scalar S] {n : Nat} {visible node : Nat → Nat} {p : Nat → Process S}
    (history : History n visible node p) (few : n ≤ Group.lastColor + 1) {A : Finset Nat}
    (within : A ⊆ Finset.range n) (number : Nat → Nat) {G : Nat → Group}
    (together : Together node A G) (one : ∀ rank ∈ A, ∀ other ∈ A, other ∈ (G rank).hub.ranks)
    (alike : ∀ rank ∈ A, ∀ other ∈ A, machine node other = machine node rank →
      visible other = visible rank)
    (call : Call) {hubs : Hubs S} {rounds : Rounds} (resting : hubs.Resting rounds) : ∃ left,
      (World.ofPrograms n
        (Process.programs p A number fun rank => (call.on (G rank)).work) hubs).EndsWith
        ((List.range n).map left) ∧
      (Agree A left ↔ call.Undivided node G (fun rank => (p rank).attached (number rank)) A) := by
  obtain ⟨left, halts, agrees⟩ :=
    Process.halts_initialize (fun rank _ => history.steady rank) few within number together
    one alike call rounds
  exact ⟨left, halts.endsWith resting, agrees⟩

/-- Two ranks of one machine with a device for each of them agree. -/
theorem initialize_agree_pair : ∃ left,
    (World.ofPrograms 2
      (Process.programs (fun _ => .fresh (S := Float) 0) (Finset.range 2) (fun _ => 0) fun rank =>
      ((Call.plain (Group.world [0, 0] 0) 2).on (Group.world [0, 0] rank)).work) []).EndsWith
        ((List.range 2).map left) ∧
    Agree (Finset.range 2) left := by
  have nothing : History (S := Float) 2 (fun _ => 0) (fun rank => [0, 0].getD rank 0) fun _ =>
    .fresh 0 := .fresh
  obtain ⟨left, ends, agrees⟩ := initialize_agree_iff nothing (by decide)
    (Finset.Subset.refl (Finset.range 2)) (fun _ => 0) (Together.world [0, 0])
    (fun _ _ other inside => List.mem_range.mpr (Finset.mem_range.mp inside)) (fun _ _ _ _ _ => rfl)
    (Call.plain (Group.world [0, 0] 0) 2) Hubs.resting_nil
  refine ⟨left, ends, agrees.mpr (.spread (fun rank _ => ⟨.host, ?_⟩) fun rank _ => ?_)⟩
  · exact Call.entry_of_created _ (Mode.ofTag_tag .host) rfl rfl
  · exact List.length_filter_le ..

/-- The call of the host mode for one device, with a tolerance that is refused. -/
def Call.misread (group : Group) : Call :=
  ⟨group, Mode.host.tag, "solver.toml", .text "[solver]\ntolerance = -1.0\n", .exactly 1⟩

/-- Two ranks of one machine that share a device: only the lead learns that the tolerance is
refused. -/
theorem initialize_disagree_pair : ∃ left,
    (World.ofPrograms 2
      (Process.programs (fun _ => .fresh (S := Float) 0) (Finset.range 2) (fun _ => 0) fun rank =>
      ((Call.misread (Group.world [0, 0] 0)).on (Group.world [0, 0] rank)).work) []).EndsWith
        ((List.range 2).map left) ∧
    ¬ Agree (Finset.range 2) left := by
  have steady : ∀ rank ∈ Finset.range 2,
    ((fun _ => .fresh 0 : Nat → Process Float) rank).context.Steady 0 :=
    fun _ _ => ⟨rfl, rfl, rfl⟩
  obtain ⟨left, halts, agrees⟩ :=
    Process.halts_initialize steady (by decide) (Finset.Subset.refl (Finset.range 2))
    (fun _ => 0) (Together.world [0, 0])
    (fun _ _ other inside => List.mem_range.mpr (Finset.mem_range.mp inside))
    (fun _ _ _ _ _ => rfl) (Call.misread (Group.world [0, 0] 0)) fun _ => 0
  have entered : ∀ rank, (Call.misread (Group.world [0, 0] 0)).entry
      ((Process.fresh (S := Float) 0).attached rank) = .ok .host := fun rank =>
    Call.entry_of_created _ (Mode.ofTag_tag .host) rfl rfl
  have unreadable : ((Call.misread (Group.world [0, 0] 0)).settings : Attempt
      (Settings Float)).isOk = false := by
    decide +kernel
  have first : 0 ∈ Finset.range 2 := by decide
  refine ⟨left, halts.endsWith Hubs.resting_nil, fun agree => ?_⟩
  cases agrees.mp agree with
  | refused none =>
    obtain ⟨failure, refuses⟩ := none 0 first
    cases (entered 0).symm.trans refuses
  | deviceless _ none => exact absurd (none 0 first) (by decide)
  | spread _ enough => exact absurd (enough 0 first) (by decide)
  | opened _ _ admitted =>
    refine admitted 0 first (.inl ?_)
    cases read : ((Call.misread (Group.world [0, 0] 0)).settings : Attempt (Settings Float)) with
    | error failure => exact ⟨failure, rfl⟩
    | ok settings =>
      rw [read] at unreadable
      cases unreadable

end DeviceTeams
