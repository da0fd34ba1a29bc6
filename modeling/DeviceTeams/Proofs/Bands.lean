import DeviceTeams.Matrix.Csr
import DeviceTeams.Proofs.Attempts
import DeviceTeams.Teams.Bands
import Mathlib.Tactic.Ring

/-!
# Bands of processes

The processes of a node that share a device follow each other without gaps, and exactly the first of
them leads.
-/
namespace DeviceTeams.Assignment

variable {devices processes rank : Nat}

def bandStart (devices processes device : Nat) : Nat :=
  device * (processes / devices) + min device (processes % devices)

theorem bandStart_mono {device device' : Nat} (h : device ≤ device') :
    bandStart devices processes device ≤ bandStart devices processes device' :=
  Nat.add_le_add (Nat.mul_le_mul_right _ h) (by omega)

/-- With at least as many devices as processes there is one process in each of the first bands. -/
theorem bandStart_of_le (enough : processes ≤ devices) {device : Nat} (h : device ≤ processes) :
    bandStart devices processes device = device := by
  unfold bandStart
  rcases Nat.lt_or_eq_of_le enough with fewer | equal
  · rw [Nat.div_eq_of_lt fewer, Nat.mod_eq_of_lt fewer]
    omega
  · subst equal
    rcases Nat.eq_zero_or_pos processes with none | some_process
    · subst none
      have : device = 0 := by omega
      subst this
      rfl
    · rw [Nat.div_self some_process, Nat.mod_self]
      omega

theorem bandStart_succ (device : Nat) : bandStart devices processes (device + 1) =
    bandStart devices processes device +
    (processes / devices + if device < processes % devices then 1 else 0) := by
  simp only [bandStart, Nat.add_mul, Nat.one_mul]
  split <;> omega

/-- The bands of the devices in use have all processes. -/
theorem bandStart_used (some_device : 0 < devices) :
    bandStart devices processes (min devices processes) = processes := by
  rcases Nat.le_total processes devices with enough | more
  · rw [Nat.min_eq_right enough, bandStart_of_le enough (Nat.le_refl _)]
  · have total := Nat.div_add_mod processes devices
    have fewer := Nat.mod_lt processes some_device
    rw [Nat.min_eq_left more, bandStart, Nat.min_eq_right (Nat.le_of_lt fewer)]
    exact total

/-- A device in use has a process. -/
theorem bandStart_lt {device : Nat} (used : device < min devices processes) :
    bandStart devices processes device < bandStart devices processes (device + 1) := by
  rw [bandStart_succ]
  rcases Nat.lt_or_ge processes devices with enough | more
  · rw [Nat.mod_eq_of_lt enough, if_pos (by omega), Nat.div_eq_of_lt enough]
    omega
  · have several : 0 < processes / devices := Nat.div_pos more (by omega)
    omega

/-- The first bands are wider than the others by one process. -/
theorem bandStart_wide {device : Nat} (wide : device ≤ processes % devices) :
    bandStart devices processes device = device * (processes / devices + 1) := by
  rw [bandStart, Nat.min_eq_left wide, Nat.mul_add, Nat.mul_one]

theorem bandStart_narrow {device : Nat} (narrow : processes % devices ≤ device) :
    bandStart devices processes device = device * (processes / devices) + processes % devices := by
  rw [bandStart, Nat.min_eq_right narrow]

/-- Where a process is in the wide bands. -/
theorem wide_place (before : rank < (processes / devices + 1) * (processes % devices)) :
    rank / (processes / devices + 1) < processes % devices ∧
      rank = bandStart devices processes (rank / (processes / devices + 1)) + rank %
      (processes / devices + 1) ∧
      rank < bandStart devices processes (rank / (processes / devices + 1) + 1) := by
  have device : rank / (processes / devices + 1) < processes % devices :=
    Nat.div_lt_of_lt_mul before
  have offset : rank % (processes / devices + 1) < processes / devices + 1 :=
    Nat.mod_lt rank (Nat.succ_pos _)
  have place := Nat.div_add_mod' rank (processes / devices + 1)
  refine ⟨device, ?_, ?_⟩
  · rw [bandStart_wide (Nat.le_of_lt device), place]
  · rw [bandStart_wide device, Nat.succ_mul]
    omega

/-- The wide bands and the others together have all processes. -/
theorem wide_narrow (some_device : 0 < devices) (processes : Nat) :
    (processes / devices + 1) * (processes % devices) + (devices - processes % devices) *
    (processes / devices) = processes := by
  obtain ⟨rest, known⟩ := Nat.exists_eq_add_of_le (Nat.le_of_lt (Nat.mod_lt processes some_device))
  have total := Nat.div_add_mod processes devices
  generalize processes / devices = basic at total ⊢
  generalize processes % devices = remain at total known ⊢
  rw [← total, known, Nat.add_sub_cancel_left]
  ring

/-- Where a process is in the bands behind the wide ones. -/
theorem narrow_place (some_device : 0 < devices) (several : 0 < processes / devices)
    (inside : rank < processes) {past : Nat}
    (behind : rank = (processes / devices + 1) * (processes % devices) + past) :
    past / (processes / devices) + processes % devices < devices ∧
      rank = bandStart devices processes (past / (processes / devices) + processes % devices) +
        past % (processes / devices) ∧
      rank < bandStart devices processes
      (past / (processes / devices) + processes % devices + 1) := by
  have total := wide_narrow some_device processes
  have fewer := Nat.mod_lt processes some_device
  have device : past / (processes / devices) < devices - processes % devices :=
    Nat.div_lt_of_lt_mul (by rw [Nat.mul_comm]; omega)
  have offset : past % (processes / devices) < processes / devices := Nat.mod_lt past several
  have place := Nat.div_add_mod' past (processes / devices)
  have wide : (processes / devices + 1) * (processes % devices) =
      processes % devices * (processes / devices) + processes % devices := by ring
  refine ⟨by omega, ?_, ?_⟩
  · rw [bandStart_narrow (Nat.le_add_left ..), Nat.add_mul]
    omega
  · rw [bandStart_narrow (Nat.le_succ_of_le (Nat.le_add_left ..)), Nat.succ_mul, Nat.add_mul]
    omega

/-- A process lies in the band of its device, and it leads if it is the first one there, as long as
the width of the widest band is a word. -/
theorem exists_offset (some_device : 0 < devices) (inside : rank < processes)
    (word : processes < Word.limit) (room : processes / devices + 1 < Word.limit) :
    ∃ device offset, Assignment.of devices processes rank = .ok ⟨device, offset == 0⟩ ∧
      device < devices ∧ device < processes ∧ rank = bandStart devices processes device + offset ∧
      rank < bandStart devices processes (device + 1) := by
  rw [Assignment.of, if_neg (by omega), if_neg (by omega)]
  by_cases enough : processes ≤ devices
  · refine ⟨rank, 0, by rw [if_pos enough]; rfl, by omega, inside, ?_, ?_⟩
    · rw [bandStart_of_le enough (by omega), Nat.add_zero]
    · rw [bandStart_of_le enough (by omega)]
      omega
  · have total := wide_narrow some_device processes
    have fewer := Nat.mod_lt processes some_device
    have wide_end : (processes / devices + 1) * (processes % devices) < Word.limit := by omega
    simp only [if_neg enough, Word.add_of_lt room, Word.mul_of_lt wide_end, Attempt.ok_bind]
    by_cases before : rank < (processes / devices + 1) * (processes % devices)
    · obtain ⟨device, place, next⟩ := wide_place before
      exact ⟨_, _, by rw [if_pos before]; rfl, by omega, by omega, place, next⟩
    · obtain ⟨past, behind⟩ := Nat.exists_eq_add_of_le (Nat.le_of_not_lt before)
      have several : 0 < processes / devices := Nat.div_pos (by omega) some_device
      obtain ⟨device, place, next⟩ := narrow_place some_device several inside behind
      refine ⟨_, _, ?_, device, by omega, place, next⟩
      rw [if_neg before, behind, Nat.add_sub_cancel_left]
      rfl

theorem of_spec (some_device : 0 < devices) (inside : rank < processes)
    (word : processes + 1 < Word.limit) :
    ∃ device offset, Assignment.of devices processes rank = .ok ⟨device, offset == 0⟩ ∧
      device < devices ∧ device < processes ∧ rank = bandStart devices processes device + offset ∧
      rank < bandStart devices processes (device + 1) :=
  exists_offset some_device inside (Nat.lt_of_succ_lt word)
    (Nat.lt_of_le_of_lt (Nat.succ_le_succ (Nat.div_le_self ..)) word)

/-- A process has one of the devices, and no more of them are in use than there are processes. -/
theorem device_within {a : Assignment} (here : Assignment.of devices processes rank = .ok a)
    (word : processes + 1 < Word.limit) : a.device < devices ∧ a.device < processes := by
  have some_device : 0 < devices := by
    by_contra none
    rw [Assignment.of, if_pos (by omega)] at here
    cases here
  have inside : rank < processes := by
    by_contra outside
    rw [Assignment.of, if_neg (by omega), if_pos (by omega)] at here
    cases here
  obtain ⟨device, offset, assigned, among, below, _⟩ := of_spec some_device inside word
  cases here.symm.trans assigned
  exact ⟨among, below⟩

/-- Processes of one band share a device. -/
theorem device_unique {device device' : Nat} (after : bandStart devices processes device ≤ rank)
    (before : rank < bandStart devices processes (device + 1))
    (after' : bandStart devices processes device' ≤ rank)
    (before' : rank < bandStart devices processes (device' + 1)) : device = device' := by
  rcases Nat.lt_trichotomy device device' with less | same | more
  · have later : bandStart devices processes (device + 1) ≤ bandStart devices processes device' :=
      bandStart_mono less
    omega
  · exact same
  · have later : bandStart devices processes (device' + 1) ≤ bandStart devices processes device :=
      bandStart_mono more
    omega

/-- The processes of a device. -/
def band (devices processes device : Nat) : Span :=
  ⟨bandStart devices processes device, bandStart devices processes (device + 1)⟩

/-- The processes with a device are those of its band. -/
theorem device_eq_iff {device : Nat} (some_device : 0 < devices) (inside : rank < processes)
    (word : processes + 1 < Word.limit) {a : Assignment}
    (here : Assignment.of devices processes rank = .ok a) :
    a.device = device ↔ (band devices processes device).start ≤ rank ∧
    rank < (band devices processes device).stop := by
  obtain ⟨own, offset, assigned, _, _, place, before⟩ := of_spec some_device inside word
  cases here.symm.trans assigned
  have after : bandStart devices processes own ≤ rank := by omega
  constructor
  · rintro rfl
    exact ⟨after, before⟩
  · intro among
    exact device_unique after before among.1 among.2

/-- Bands of devices in use have the same length, or one of them has one process more. -/
theorem length_band_le {device device' : Nat} :
    (band devices processes device).length ≤ (band devices processes device').length + 1 := by
  simp only [Span.length, band, bandStart_succ]
  split <;> split <;> omega

/-- A process leads exactly if no process before it has its device. -/
theorem isLead_iff (some_device : 0 < devices) (inside : rank < processes)
    (word : processes + 1 < Word.limit) {a : Assignment}
    (here : Assignment.of devices processes rank = .ok a) :
    a.isLead = true ↔ ∀ earlier < rank, ∀ b, Assignment.of devices processes earlier = .ok b →
    b.device ≠ a.device := by
  obtain ⟨device, offset, assigned, _, _, place, before⟩ := of_spec some_device inside word
  cases here.symm.trans assigned
  constructor
  · intro leads earlier first b there same
    obtain ⟨device', offset', assigned', _, _, place', before'⟩ :=
      of_spec some_device (Nat.lt_trans first inside) word
    cases there.symm.trans assigned'
    simp only [beq_iff_eq] at leads
    simp only at same
    subst same
    omega
  · intro none
    simp only [beq_iff_eq]
    by_contra later
    have first : bandStart devices processes device < rank := by omega
    obtain ⟨device', offset', assigned', _, _, place', before'⟩ :=
      of_spec some_device (Nat.lt_trans first inside) word
    have after' : bandStart devices processes device' ≤ bandStart devices processes device := by
      omega
    have own : bandStart devices processes device < bandStart devices processes
      (device + 1) := by omega
    exact none _ first _ assigned' (device_unique after' before' (Nat.le_refl _) own)

/-- All processes lead exactly if there is a device for each of them. -/
theorem all_lead_iff (some_device : 0 < devices) (word : processes + 1 < Word.limit) :
    (∀ rank < processes, ∀ a, Assignment.of devices processes rank = .ok a → a.isLead = true) ↔
      processes ≤ devices := by
  constructor
  · intro all
    by_contra more
    -- The second process shares the first device.
    have second : 1 < processes := by omega
    obtain ⟨device, offset, assigned, _, _, place, _⟩ := of_spec some_device second word
    have leads := all 1 second _ assigned
    simp only [beq_iff_eq] at leads
    subst leads
    have wide : 2 ≤ bandStart devices processes 1 := by
      have total := Nat.div_add_mod processes devices
      rw [bandStart, Nat.one_mul]
      rcases Nat.lt_trichotomy (processes / devices) 1 with none | one | several
      · have few : processes < devices := by
          have small := (Nat.div_lt_iff_lt_mul some_device).mp none
          omega
        omega
      · rw [one] at total ⊢
        omega
      · omega
    rcases Nat.eq_zero_or_pos device with first | later
    · subst first
      simp [bandStart] at place
    · have after : bandStart devices processes 1 ≤ bandStart devices processes device :=
        bandStart_mono later
      omega
  · intro enough rank inside a assigned
    obtain ⟨device, offset, assigned', _, below, place, _⟩ := of_spec some_device inside word
    cases assigned.symm.trans assigned'
    rw [Assignment.of, if_neg (by omega), if_neg (by omega), if_pos enough] at assigned
    simp only [Attempt.pure_eq, Except.ok.injEq, mk.injEq] at assigned
    exact assigned.2.symm

end DeviceTeams.Assignment
