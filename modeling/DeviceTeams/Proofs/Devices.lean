import DeviceTeams.Proofs.Blocks

/-!
# How processes are dealt out to devices

Each process of a node computes its device on its own, and the devices end up with the blocks into
which the processes would be cut by their start and length: the process lies in the block of its
device, and it leads if it is the first one there. This holds for all numbers of devices and
processes but one, where the width of the only block is not a word.
-/
namespace DeviceTeams.Assignment

variable {devices processes device : Nat}

/-- The processes are as many as words can count, and all have to share one device. -/
def Crowded (devices processes : Nat) : Prop := devices = 1 ∧ processes + 1 = Word.limit

/-- The widest band fits into a word unless one device has all processes that a word can count. -/
theorem width_lt (some_device : 0 < devices) (word : processes < Word.limit)
    (roomy : ¬ Crowded devices processes) :
    processes / devices + 1 < Word.limit := by
  rcases Nat.lt_or_ge 1 devices with several | one
  · rcases Nat.eq_zero_or_pos processes with none | some_process
    · rw [none, Nat.zero_div]
      decide
    · have fewer : processes / devices < processes := Nat.div_lt_self some_process several
      omega
  · have single : devices = 1 := by omega
    rw [single, Nat.div_one]
    have differ : processes + 1 ≠ Word.limit := fun full => roomy ⟨single, full⟩
    omega

/-- One process more than the width of the only band would have to be counted. -/
theorem of_crowded {rank : Nat} (crowded : Crowded devices processes) (inside : rank < processes) :
    Assignment.of devices processes rank = .abort := by
  obtain ⟨rfl, full⟩ := crowded
  have several : ¬ processes ≤ 1 := by
    intro few
    rw [Word.limit] at full
    omega
  have overflow : Word.add (processes / 1) 1 = .abort := by
    rw [Word.add, Word.below, Nat.div_one, full, if_neg (Nat.lt_irrefl _)]
  rw [Assignment.of, if_neg Nat.one_ne_zero, if_neg (Nat.not_le.mpr inside), if_neg several]
  simp only [overflow]
  rfl

/-- The bands of the devices in use do not depend on how many more devices there are. -/
theorem band_in_use (used : device < min devices processes) :
    band (min devices processes) processes device = band devices processes device := by
  rcases Nat.le_total devices processes with more | enough
  · rw [Nat.min_eq_left more]
  · rw [Nat.min_eq_right enough] at used ⊢
    simp only [band, bandStart_of_le (Nat.le_refl processes) (Nat.le_of_lt used),
      bandStart_of_le (Nat.le_refl processes) (Nat.succ_le_of_lt used), bandStart_of_le enough
      (Nat.le_of_lt used), bandStart_of_le enough (Nat.succ_le_of_lt used)]

/-- The devices in use have the blocks into which the processes are cut. -/
theorem blockSpan_in_use (used : device < min devices processes) (word : processes < Word.limit) :
    blockSpan processes (min devices processes) device = .ok (band devices processes device) := by
  rw [blockSpan_eq_band used word, band_in_use used]

theorem contains_band_iff {rank : Nat} : (band devices processes device).contains rank = true ↔
    bandStart devices processes device ≤ rank ∧
    rank < bandStart devices processes (device + 1) := by
  rw [Span.contains, Bool.and_eq_true, decide_eq_true_eq, decide_eq_true_eq]
  rfl

/-- The bands get narrower by at most one process. -/
theorem band_balanced {other : Nat} (order : device ≤ other) :
    (band devices processes other).length ≤ (band devices processes device).length ∧
      (band devices processes device).length ≤ (band devices processes other).length + 1 := by
  refine ⟨?_, length_band_le⟩
  rw [length_band, length_band]
  split <;> split <;> omega

/-- The processes of a node have their devices in blocks. -/
structure Dealt (devices processes : Nat) (block : Nat → Span) : Prop where
  /-- The processes are cut into one block for each device in use. -/
  cut : ∀ device < min devices processes, blockSpan processes (min devices processes) device =
    .ok (block device)
  /-- A process has the device in whose block it lies and no other one, and it leads if it is the
  first one there. -/
  assigned : ∀ rank < processes, ∃ device < min devices processes,
    Assignment.of devices processes rank = .ok ⟨device, rank == (block device).start⟩ ∧
      ∀ other < min devices processes, (block other).contains rank ↔ other = device
  some_process : ∀ device < min devices processes,
    (block device).start < (block device).stop ∧ (block device).stop ≤ processes
  /-- The sizes differ by at most one, the larger blocks first. -/
  balanced : ∀ device other, device ≤ other → other < min devices processes →
    (block other).length ≤ (block device).length ∧ (block device).length ≤ (block other).length + 1
  /-- The first process of a device leads, and no other one of that device does. -/
  led : ∀ device < min devices processes, ∃ first < processes,
    Assignment.of devices processes first = .ok ⟨device, true⟩ ∧
      ∀ rank < processes, ∀ leads, Assignment.of devices processes rank = .ok ⟨device, leads⟩ →
        first ≤ rank ∧ (leads = true → rank = first)

/-- A process lies in the band of its device alone. -/
theorem of_eq_band {rank : Nat} (some_device : 0 < devices) (inside : rank < processes)
    (word : processes < Word.limit) (room : processes / devices + 1 < Word.limit) :
    ∃ device < min devices processes,
      Assignment.of devices processes rank =
      .ok ⟨device, rank == (band devices processes device).start⟩ ∧
      ∀ other, (band devices processes other).contains rank ↔ other = device := by
  obtain ⟨device, offset, assigned, among, below, place, before⟩ :=
    exists_offset some_device inside word room
  have leads : (offset == 0) = (rank == (band devices processes device).start) := by
    rw [Bool.eq_iff_iff, beq_iff_eq, beq_iff_eq, place]
    show offset = 0 ↔ bandStart devices processes device + offset =
      bandStart devices processes device
    omega
  refine ⟨device, Nat.lt_min.mpr ⟨among, below⟩, leads ▸ assigned, fun other => ?_⟩
  have after : bandStart devices processes device ≤ rank := by omega
  rw [contains_band_iff]
  constructor
  · intro within
    exact device_unique within.1 within.2 after before
  · rintro rfl
    exact ⟨after, before⟩

/-- The processes of a node are dealt out to its devices in balanced blocks, each of them led by its
first process. With one device and as many processes as a word can count the width of the block
overflows, on every process. -/
theorem deals_blocks (some_device : 0 < devices) (word : processes < Word.limit) :
    (¬ Crowded devices processes → ∃ block, Dealt devices processes block) ∧
      (Crowded devices processes →
        ∀ rank < processes, Assignment.of devices processes rank = .abort) := by
  refine ⟨fun roomy => ⟨band devices processes, ?_⟩, fun crowded rank inside =>
    of_crowded crowded inside⟩
  have room := width_lt some_device word roomy
  have stop : ∀ device < min devices processes, bandStart devices processes
      (device + 1) ≤ processes := by
    intro device used
    calc bandStart devices processes (device + 1)
      _ ≤ bandStart devices processes (min devices processes) := bandStart_mono used
      _ = processes := bandStart_used some_device
  constructor
  · exact fun device used => blockSpan_in_use used word
  · intro rank inside
    obtain ⟨device, used, assigned, alone⟩ := of_eq_band some_device inside word room
    exact ⟨device, used, assigned, fun other _ => alone other⟩
  · exact fun device used => ⟨bandStart_lt used, stop device used⟩
  · exact fun device other order _ => band_balanced order
  · intro device used
    have first : bandStart devices processes device < processes :=
      Nat.lt_of_lt_of_le (bandStart_lt used) (stop device used)
    obtain ⟨own, _, assigned, alone⟩ := of_eq_band some_device first word room
    obtain rfl : device = own :=
      (alone device).mp (contains_band_iff.mpr ⟨Nat.le_refl _, bandStart_lt used⟩)
    refine ⟨bandStart devices processes device, first, ?_, fun rank inside leads here => ?_⟩
    · rw [assigned, band, beq_self_eq_true]
    · obtain ⟨_, _, assigned', alone'⟩ := of_eq_band some_device inside word room
      cases here.symm.trans assigned'
      have within := contains_band_iff.mp ((alone' device).mpr rfl)
      exact ⟨within.1, fun starts => beq_iff_eq.mp starts⟩

/-- Five processes share two devices. -/
theorem deals_blocks_five : 0 < 2 ∧ 5 < Word.limit ∧ ¬ Crowded 2 5 ∧ ∃ block, Dealt 2 5 block := by
  have roomy : ¬ Crowded 2 5 := by
    rintro ⟨single, _⟩
    cases single
  exact ⟨by decide, by decide, roomy, (deals_blocks (by decide) (by decide)).1 roomy⟩

end DeviceTeams.Assignment
