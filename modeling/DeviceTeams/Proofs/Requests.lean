import DeviceTeams.Proofs.Initialization

/-!
# One call on all ranks

Ranks that initialize an instance with the same call find the same number of devices on a machine.
If there is one, and the settings can be read, they come through it.
-/
namespace DeviceTeams

namespace DeviceRequest

def found (request : DeviceRequest) (mode : Mode) (visible size : Nat) : Nat :=
  match request with
  | exactly count => count
  | automatic => if mode.isDevice then visible else size

variable {request : DeviceRequest} {mode : Mode} {visible : Nat}

theorem found_mono {size size' : Nat} (less : size ≤ size') :
    request.found mode visible size ≤ request.found mode visible size' := by
  cases request with
  | exactly count => exact Nat.le_refl _
  | automatic =>
    rw [found, found]
    split
    · exact Nat.le_refl _
    · exact less

/-- Whether there are devices does not depend on the number of ranks. -/
theorem found_pos_iff {size : Nat} (some_rank : 0 < size) :
    0 < request.found mode visible size ↔ 0 < request.found mode visible 1 := by
  cases request with
  | exactly count => rfl
  | automatic =>
    rw [found, found]
    split
    · rfl
    · exact iff_of_true some_rank Nat.one_pos

end DeviceRequest

variable {S : Type} [Scalar S] {A : Finset Nat} {node : Nat → Nat} {G : Nat → Group}

theorem resolveDevices_of_pos {visible : Nat} {mode : Mode}
    {request : DeviceRequest} {mates : Group}
    (some_device : 0 < request.found mode visible mates.size) :
    resolveDevices visible mode request mates = .ok (request.found mode visible mates.size) :=
  if_neg (Nat.ne_of_gt some_device)

theorem resolveDevices_of_zero {visible : Nat} {mode : Mode} {request : DeviceRequest}
    {mates : Group} {name : String} (named : mates.nodeName = .ok name)
    (none : request.found mode visible mates.size = 0) :
    resolveDevices visible mode request mates = .error (ConfigError.noAccelerators name) := by
  refine (if_pos none).trans ?_
  rw [named]
  rfl

namespace Settings

/-- The standard settings pass their own check. -/
theorem check_standard : standard.check = .ok () := if_neg (by decide +kernel)

theorem parse_empty : Toml.parse? "" = some [] := rfl

/-- An empty file leaves all settings as they are. -/
theorem load_empty (path : String) : load path (.text "") = .ok standard := by
  rw [load, ConfigFile.read]
  show ofToml "" = _
  rw [ofToml, parse_empty]
  show (standard.check >>= fun _ => pure standard) = _
  rw [check_standard]
  rfl

end Settings

namespace Call

def on (call : Call) (group : Group) : Call := { call with group }

omit [Scalar S] in
theorem entry_of_created (call : Call) {mode : Mode} (known : Mode.ofTag call.mode = .ok mode)
    (file : call.file.isFile = true) {a : Attached S} (created : a.solver.state = none) :
    call.entry a = .ok mode := by
  have closed : ¬ a.solver.isInitialized := by
    rw [TeamSolver.isInitialized, created]
    exact Bool.false_ne_true
  rw [entry, if_neg closed, known]
  simp [file]

/-- Settings come from a file. -/
theorem isFile_of_settings {call : Call} {settings : Settings S}
    (loaded : call.settings = .ok settings) :
    call.file.isFile = true := by
  rw [Call.settings, Settings.load] at loaded
  cases found : call.file with
  | missing | directory =>
    rw [found] at loaded
    cases loaded
  | undecodable | text => rfl

/-- A call that ranks come through: its mode is known, its settings can be read, and there are
devices for them, no more of them in use than there are colors. -/
structure Feasible (call : Call) (visible ranks : Nat) (mode : Mode) (settings : Settings S) :
    Prop where
  known : Mode.ofTag call.mode = .ok mode
  loaded : call.settings = .ok settings
  devices : 0 < call.devices.found mode visible 1
  colors : min (call.devices.found mode visible ranks) ranks ≤ Group.lastColor + 1

/-- Ranks come through the initialization of an instance with one feasible call, each with one of
the devices that it finds. -/
theorem Feasible.equips (call : Call) {a : Nat → Attached S} {mode : Mode} {settings : Settings S}
    (t : Together node A G) (sound : Sound A fun rank => (a rank).context)
    (word : ∀ rank ∈ A, (G rank).hub.ranks.length + 1 < Word.limit)
    (created : ∀ rank ∈ A, (a rank).solver.state = none)
    (alike : ∀ rank ∈ A, ∀ other ∈ A, machine node other = machine node rank →
      (a other).context.engine.visible = (a rank).context.engine.visible)
    (feasible : ∀ rank ∈ A,
      call.Feasible (a rank).context.engine.visible (G rank).hub.ranks.length mode settings) :
    Completes A (fun rank => ((call.on (G rank)).work).start (a rank)) fun v => ∃ h new,
      Established node A (fun rank => call.on (G rank)) a h (fun _ => settings) new v ∧
      ∀ rank ∈ A, ∃ mates devices,
        (call.on (G rank)).count (a rank) mates = .ok devices ∧ (h rank).device < devices := by
  have entered : ∀ rank ∈ A, (call.on (G rank)).entry (a rank) = .ok mode := fun rank inside =>
    (call.on (G rank)).entry_of_created (feasible rank inside).known
      (isFile_of_settings (feasible rank inside).loaded) (created rank inside)
  refine establish_completes (fun rank => call.on (G rank)) t sound word
    (fun rank inside => ⟨mode, entered rank inside⟩) (fun mates together ranks => ?_)
    fun rank inside => (feasible rank inside).loaded
  have size : ∀ rank ∈ A, 0 < (mates rank).size ∧
      (mates rank).size ≤ (G rank).hub.ranks.length := by
    intro rank inside
    exact ⟨Nat.zero_lt_of_lt (together.rank_lt_size inside), Group.size_le_of_filter
      (ranks rank inside)⟩
  have found : ∀ rank ∈ A, 0 < call.devices.found mode (a rank).context.engine.visible
    (mates rank).size :=
    fun rank inside => (DeviceRequest.found_pos_iff (size rank inside).1).mpr
      (feasible rank inside).devices
  refine ⟨fun rank => call.devices.found mode (a rank).context.engine.visible (mates rank).size,
    ?_, found, ?_, ?_⟩
  · intro rank inside
    rw [Call.count, entered rank inside]
    exact resolveDevices_of_pos (found rank inside)
  · intro rank inside member belongs
    obtain ⟨member_inside, same⟩ := together.of_mem inside belongs
    rw [ranks rank inside, List.mem_filter, beq_iff_eq] at belongs
    rw [alike rank inside member member_inside belongs.2, Group.size, Group.size, same]
  · intro rank inside
    refine Nat.le_trans (Nat.le_min.mpr ⟨?_, ?_⟩) (feasible rank inside).colors
    · exact Nat.le_trans (Nat.min_le_left ..) (DeviceRequest.found_mono (size rank inside).2)
    · exact Nat.le_trans (Nat.min_le_right ..) (size rank inside).2

theorem Feasible.completes (call : Call) {a : Nat → Attached S} {mode : Mode}
    {settings : Settings S} (t : Together node A G) (sound : Sound A fun rank => (a rank).context)
    (word : ∀ rank ∈ A, (G rank).hub.ranks.length + 1 < Word.limit)
    (created : ∀ rank ∈ A, (a rank).solver.state = none)
    (alike : ∀ rank ∈ A, ∀ other ∈ A, machine node other = machine node rank →
      (a other).context.engine.visible = (a rank).context.engine.visible)
    (feasible : ∀ rank ∈ A,
      call.Feasible (a rank).context.engine.visible (G rank).hub.ranks.length mode settings) :
    Completes A (fun rank => ((call.on (G rank)).work).start (a rank)) fun v => ∃ h new,
      Established node A (fun rank => call.on (G rank)) a h (fun _ => settings) new v :=
  (Feasible.equips call t sound word created alike feasible).mono fun _ ⟨h, new, established, _⟩ =>
    ⟨h, new, established⟩

def plain (group : Group) (count : Nat) : Call :=
  ⟨group, Mode.host.tag, "solver.toml", .text "", .exactly count⟩

theorem feasible_plain (group : Group) {count : Nat} (some_device : 0 < count) {visible ranks : Nat}
    (colors : min count ranks ≤ Group.lastColor + 1) :
    (plain group count).Feasible visible ranks .host (Settings.standard.toScalar : Settings S) where
  known := Mode.ofTag_tag .host
  loaded := by
    rw [Call.settings, plain, Settings.load_empty]
    rfl
  devices := some_device
  colors := colors

end Call
end DeviceTeams
