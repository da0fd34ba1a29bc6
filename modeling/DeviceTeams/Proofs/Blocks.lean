import DeviceTeams.Layout.Blocks
import DeviceTeams.Proofs.Bands
import Mathlib.Algebra.BigOperators.Group.List.Basic

/-!
# Blocks in order

Items are cut into blocks as the processes of a node are cut into bands. The blocks follow each
other without gaps and have all items, and the nodes of ranks that are placed in blocks ascend.
-/
namespace DeviceTeams

namespace Assignment

variable {devices processes : Nat}

/-- The bands of all devices have all processes. -/
theorem bandStart_all (some_device : 0 < devices) :
    bandStart devices processes devices = processes := by
  have fewer := Nat.mod_lt processes some_device
  rw [bandStart, Nat.min_eq_right (Nat.le_of_lt fewer)]
  exact Nat.div_add_mod processes devices

theorem length_band (device : Nat) :
    (band devices processes device).length = processes / devices + if device < processes % devices
    then 1 else 0 := by
  rw [Span.length, band, bandStart_succ]
  exact Nat.add_sub_cancel_left ..

/-- A band starts where the bands before it end. -/
theorem sum_length_band (device : Nat) :
    ((List.range device).map fun before => (band devices processes before).length).sum =
      bandStart devices processes device := by
  induction device with
  | zero => simp [bandStart]
  | succ device ih =>
    rw [List.range_succ, List.map_append, List.sum_append, ih, bandStart_succ, List.map_singleton,
      List.sum_singleton, length_band]

/-- The processes of the first devices, each by its device. -/
theorem length_placed (count : Nat) :
    ((List.range count).flatMap fun device =>
      List.replicate (band devices processes device).length device).length =
      bandStart devices processes count := by
  rw [List.length_flatMap]
  simp only [List.length_replicate]
  exact sum_length_band count

theorem stop_band_le {device : Nat} (among : device < devices) :
    (band devices processes device).stop ≤ processes :=
  calc bandStart devices processes (device + 1)
    _ ≤ bandStart devices processes devices := bandStart_mono among
    _ = processes := bandStart_all (Nat.zero_lt_of_lt among)

theorem start_band_le (device : Nat) :
    (band devices processes device).start ≤ (band devices processes device).stop :=
  bandStart_mono (Nat.le_succ device)

end Assignment

open Assignment (band)

/-- A block is a band. -/
theorem blockSpan_eq_band {total parts index : Nat} (inside : index < parts)
    (word : total < Word.limit) :
    blockSpan total parts index = .ok (band parts total index) := by
  have some_part : max parts 1 = parts := Nat.max_eq_left (by omega)
  have stop : Assignment.bandStart parts total (index + 1) ≤ total := Assignment.stop_band_le inside
  rw [Assignment.bandStart_succ] at stop
  have start : Assignment.bandStart parts total index = index * (total / parts) + min index
    (total % parts) := rfl
  have width : (if index < total % parts then total / parts + 1 else total / parts) =
      total / parts + if index < total % parts then 1 else 0 := by
    split <;> rfl
  simp only [blockSpan, some_part]
  rw [Word.mul_of_lt (by omega), Attempt.ok_bind, Word.add_of_lt (by omega),
    Attempt.ok_bind, width, ← start,
    Word.add_of_lt (by omega), Attempt.ok_bind, ← Assignment.bandStart_succ]
  rfl

section

variable (ranks nodes : Nat)

/-- Ranks are placed on nodes in blocks. -/
theorem contiguousNodes_eq : contiguousNodes ranks nodes =
    (List.range (min (max nodes 1) (max ranks 1))).flatMap fun node =>
      List.replicate (band (min (max nodes 1) (max ranks 1)) ranks node).length node := by
  rw [contiguousNodes]
  refine List.flatMap_congr fun node _ => ?_
  rw [Assignment.length_band]
  split <;> rfl

theorem length_contiguousNodes : (contiguousNodes ranks nodes).length = ranks := by
  rw [contiguousNodes_eq, Assignment.length_placed, Assignment.bandStart_all (by omega)]

theorem ascending_contiguousNodes : (contiguousNodes ranks nodes).Pairwise (· ≤ ·) := by
  rw [contiguousNodes_eq, List.pairwise_flatMap]
  constructor
  · intro node _
    exact List.pairwise_replicate.mpr (.inr (Nat.le_refl node))
  · refine List.pairwise_lt_range.imp fun less first among second among' => ?_
    rw [List.eq_of_mem_replicate among, List.eq_of_mem_replicate among']
    exact Nat.le_of_lt less

end

end DeviceTeams
