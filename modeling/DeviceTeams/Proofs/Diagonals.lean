import DeviceTeams.Proofs.CheckedReals
import DeviceTeams.Proofs.ExactPasses
import DeviceTeams.Proofs.SpreadMatrices

/-!
# Diagonal systems

The preconditioner of a diagonal matrix is its inverse. The first direction of a solve therefore
leads from any guess to the solution, in a step of length one, and a single pass is enough. Only one
of the tests for a breakdown stands before it: it compares the square of the first residual with a
bound that does not depend on the right-hand side, as the tolerance does. A guess that misses the
tolerance by a residual whose square is below the bound stays what it is.
-/
namespace DeviceTeams

open Matrix

variable {K S : Type} [Field K] [LinearOrder K] [IsStrictOrderedRing K] [Scalar S]
  {reading : Reading K S} {n : Nat}

namespace Reading

theorem mul_inverse {a : K} (large : reading.tiny < |a|) : a * reading.inverse a = 1 := by
  rw [inverse, if_pos large]
  exact mul_one_div_cancel (reading.ne_zero_of_large (not_lt.mpr large.le))

variable {d : Fin n → K} (large : ∀ row, reading.tiny < |d row|)
include large

theorem diagonal_mulVec_jacobi (f : Fin n → K) :
    diagonal d *ᵥ reading.jacobi (diagonal d) f = f := by
  funext row
  rw [mulVec_diagonal, jacobi, diagonal_apply_eq, mul_left_comm, mul_inverse (large row), mul_one]

/-- The preconditioned residual of a guess is what it lacks of the solution. -/
theorem add_jacobi_residual (b x : Fin n → K) :
    x + reading.jacobi (diagonal d) (b - diagonal d *ᵥ x) = fun row => b row / d row := by
  funext row
  have some_value : d row ≠ 0 := reading.ne_zero_of_large (not_lt.mpr (large row).le)
  rw [Pi.add_apply, jacobi, diagonal_apply_eq, Pi.sub_apply, mulVec_diagonal,
    sub_mul, mul_right_comm,
    mul_inverse (large row), one_mul, add_sub_cancel, inverse, if_pos (large row), mul_one_div]

/-- The first pass breaks down at once or lands on the solution. -/
theorem pass_diagonal {target : K} (positive : 0 < target) (r x : Fin n → K) :
    reading.pass (diagonal d) r target 0 (.first r) x =
      if r ⬝ᵥ r < reading.tiny then (.inl (.failed, 0), x)
      else (.inl (.success, 1), x + reading.jacobi (diagonal d) r) := by
  have direction : r + (r ⬝ᵥ r / 1 * (1 / 1)) • ((0 : Fin n → K) - (1 : K) • (0 : Fin n → K)) =
      r := by
    rw [smul_zero, sub_zero, smul_zero, add_zero]
  have magnitude : |r ⬝ᵥ r| = r ⬝ᵥ r := abs_of_nonneg (dotProduct_self_nonneg r)
  rw [pass, PaperCarry.first]
  dsimp only
  rw [direction, diagonal_mulVec_jacobi large, magnitude]
  split
  · rfl
  next some_square =>
  have length : r ⬝ᵥ r / r ⬝ᵥ r = 1 := div_self (reading.ne_zero_of_large (by rwa [magnitude]))
  have nothing_left : reading.norm (r - (1 : K) • r) = 0 := by
    rw [one_smul, sub_self, norm, zero_dotProduct, reading.root_zero]
  rw [length, nothing_left, if_pos positive, one_smul, Nat.zero_add]

end Reading

/-- What leads that bear the rows of a diagonal matrix come out with. -/
theorem Joint.solve_diagonal {j : Joint S} {d : Fin j.size → K}
    (bears : j.Bears reading (diagonal d)) (entries : ∀ row, reading.tiny < |d row|)
    {b : Fin j.size → K} (large : reading.tiny ≤ reading.norm b) {tolerance : K}
    (positive : 0 < tolerance) {maxIters : Nat} (some_pass : 0 < maxIters) (rings : Nat)
    (x : Fin j.size → K) :
    j.solve ⟨maxIters, reading.number tolerance, rings⟩ (j.parts reading b) (j.parts reading x) =
      if reading.norm (b - diagonal d *ᵥ x) < tolerance * reading.norm b then
      ((.success, 0), j.parts reading x)
      else if (b - diagonal d *ᵥ x) ⬝ᵥ (b - diagonal d *ᵥ x) < reading.tiny then
      ((.failed, 0), j.parts reading x)
      else ((.success, 1), j.parts reading fun row => b row / d row) := by
  obtain ⟨left, rfl⟩ := Nat.exists_eq_succ_of_ne_zero some_pass.ne'
  have target : 0 < tolerance * reading.norm b := mul_pos positive (reading.tiny_pos.trans_le large)
  rw [solve, bears.opening_eq reading large]
  by_cases near : reading.norm (b - diagonal d *ᵥ x) < tolerance * reading.norm b
  · rw [if_pos near, if_pos near]
  · have shadow : (reading.carried j (.first (b - diagonal d *ᵥ x))).residual = j.parts reading
      (b - diagonal d *ᵥ x) := rfl
    have some_factor : (PaperCarry.first (b - diagonal d *ᵥ x)).rho ≠ 0 := one_ne_zero
    have first := bears.pass_eq reading (b - diagonal d *ᵥ x) (tolerance * reading.norm b) 0
      some_factor some_factor x
    rw [Reading.pass_diagonal entries target, Reading.add_jacobi_residual entries] at first
    rw [if_neg near, if_neg near]
    dsimp only
    rw [shadow, iterate, first]
    by_cases small : (b - diagonal d *ᵥ x) ⬝ᵥ (b - diagonal d *ᵥ x) < reading.tiny
    · rw [if_pos small, if_pos small]
      rfl
    · rw [if_neg small, if_neg small]
      rfl

/-! ## All leads -/

namespace Ensemble

variable {world : Nat} {node : Nat → Nat} {L : Finset Nat} {N : Nat → Group} {hub : Hub}
  {system : Nat → System S} (ensemble : Ensemble node L N hub n system) {d : Fin n → K}
  (spread : reading.Spread (diagonal d) L system)
  (within : L ⊆ Finset.range world) {hubs : Hubs S} {rounds : Rounds}
  (resting : hubs.Resting rounds) (entries : ∀ row, reading.tiny < |d row|) {b : Fin n → K}
  (large : reading.tiny ≤ reading.norm b) {tolerance : K}
  (positive : 0 < tolerance) {maxIters : Nat} (some_pass : 0 < maxIters)
  (rings : Nat) (x : Fin n → K)
include ensemble spread within resting entries large positive some_pass

/-- What the leads of a diagonal system come out with, in the three cases that there are. -/
theorem diagonal_ends (room : n * 8 < 2 ^ 63) :
    EndsAmong world L hubs
    (reading.solving system N ⟨maxIters, reading.number tolerance, rings⟩ b x) fun rank =>
        if reading.norm (b - diagonal d *ᵥ x) < tolerance * reading.norm b then
          (.ok (.success, 0), reading.segment (system rank) x)
        else if (b - diagonal d *ᵥ x) ⬝ᵥ (b - diagonal d *ᵥ x) < reading.tiny then
          (.ok (.failed, 0), reading.segment (system rank) x)
        else (.ok (.success, 1), reading.segment (system rank) fun row => b row / d row) := by
  have joint := Joint.solve_diagonal (ensemble.bears (spread.some_lead large) spread) entries large
    positive some_pass rings x
  by_cases near : reading.norm (b - diagonal d *ᵥ x) < tolerance * reading.norm b
  · rw [if_pos near] at joint
    simp only [if_pos near]
    exact ensemble.solve_ends spread within resting large maxIters rings tolerance x room joint
  by_cases small : (b - diagonal d *ᵥ x) ⬝ᵥ (b - diagonal d *ᵥ x) < reading.tiny
  · rw [if_neg near, if_pos small] at joint
    simp only [if_neg near, if_pos small]
    exact ensemble.solve_ends spread within resting large maxIters rings tolerance x room joint
  · rw [if_neg near, if_neg small] at joint
    simp only [if_neg near, if_neg small]
    exact ensemble.solve_ends spread within resting large maxIters rings tolerance x room joint

/-- The leads of a diagonal system come out with the solution after one iteration, or after none
with their guess: with success if it meets the tolerance, and with a breakdown if it does not but
the square of its residual is tiny. If the whole vectors do not fit into memory they abort. -/
theorem solves_diagonal :
    (n * 8 < 2 ^ 63 →
      EndsAmong world L hubs
      (reading.solving system N ⟨maxIters, reading.number tolerance, rings⟩ b x) fun rank =>
        if reading.norm (b - diagonal d *ᵥ x) < tolerance * reading.norm b then
          (.ok (.success, 0), reading.segment (system rank) x)
        else if (b - diagonal d *ᵥ x) ⬝ᵥ (b - diagonal d *ᵥ x) < reading.tiny then
          (.ok (.failed, 0), reading.segment (system rank) x)
        else (.ok (.success, 1), reading.segment (system rank) fun row => b row / d row)) ∧
    (¬ n * 8 < 2 ^ 63 → ∃ y : Nat → List S,
      EndsAmong world L hubs
      (reading.solving system N ⟨maxIters, reading.number tolerance, rings⟩ b x)
        fun rank => (.abort, y rank)) :=
  ⟨ensemble.diagonal_ends spread within resting entries large positive some_pass rings x,
    ensemble.solve_aborts spread within resting large maxIters rings tolerance x⟩

end Ensemble

/-- Two leads find the reciprocals of the entries for a right-hand side of ones. -/
theorem Ensemble.solves_diagonal_pair :
    EndsAmong 2 (Finset.range 2) []
      (CheckedReal.reading.solving diagonalPair (Group.world [0, 1]) ⟨1000, .value (1 / 10), 8⟩
        (1 : Fin 2 → ℝ) 0)
      fun rank => (.ok (.success, 1), CheckedReal.reading.segment (diagonalPair rank)
        fun row : Fin 2 => 1 / ((row : ℝ) + 2)) := by
  have entries : ∀ row : Fin 2, CheckedReal.reading.tiny < |(row : ℝ) + 2| := by
    intro row
    have least : (0 : ℝ) ≤ row := Nat.cast_nonneg _
    rw [abs_of_nonneg (by linarith)]
    exact lt_of_lt_of_le (show (1 / 10 ^ 30 : ℝ) < 2 by norm_num) (by linarith)
  have residual : (1 : Fin 2 → ℝ) - diagonal (fun row : Fin 2 => (row : ℝ) + 2) *ᵥ 0 = 1 := by
    rw [mulVec_zero, sub_zero]
  have positive : 0 < CheckedReal.reading.norm (1 : Fin 2 → ℝ) :=
    CheckedReal.reading.tiny_pos.trans_le diagonalPair.large_ones
  have far : ¬ CheckedReal.reading.norm (1 : Fin 2 → ℝ) < 1 / 10 * CheckedReal.reading.norm
      (1 : Fin 2 → ℝ) := by
    linarith
  have square : ¬ (1 : Fin 2 → ℝ) ⬝ᵥ 1 < CheckedReal.reading.tiny := by
    rw [dotProduct, Fin.sum_univ_two, Pi.one_apply, Pi.one_apply]
    exact not_lt.mpr (show (1 / 10 ^ 30 : ℝ) ≤ 1 * 1 + 1 * 1 by norm_num)
  have ends :=
    (solves_diagonal diagonalPair.ensemble diagonalPair.spread (Finset.Subset.refl _)
      Hubs.resting_nil entries
    diagonalPair.large_ones (show (0 : ℝ) < 1 / 10 by norm_num) (show 0 < 1000 by decide)
    8 0).1 (by decide)
  rw [residual] at ends
  simp only [if_neg far, if_neg square] at ends
  exact ends

/-- A lead that is to solve `x = 10⁻¹⁶` from the guess zero meets a breakdown before its first
iteration and keeps its guess, since the square of the residual is tiny. The right-hand side is not,
and the lead can end in no other way. -/
theorem Ensemble.breaks_down_small :
    CheckedReal.reading.tiny ≤ CheckedReal.reading.norm (fun _ : Fin 1 => (1 / 10 ^ 16 : ℝ)) ∧
    EndsAmong 1 (Finset.range 1) []
    (CheckedReal.reading.solving (CheckedReal.reading.oneRow (fun _ => 1) 1)
      (Group.world [0]) ⟨1000, .value (1 / 10 ^ 10), 8⟩ (fun _ : Fin 1 => (1 / 10 ^ 16 : ℝ)) 0)
      (fun rank => (.ok (.failed, 0),
        CheckedReal.reading.segment (CheckedReal.reading.oneRow (fun _ => 1) 1 rank)
        (0 : Fin 1 → ℝ))) ∧
    ¬ ∃ (iterations : Nat) (y : Nat → List CheckedReal),
      EndsAmong 1 (Finset.range 1) []
      (CheckedReal.reading.solving (CheckedReal.reading.oneRow (fun _ => 1) 1)
        (Group.world [0]) ⟨1000, .value (1 / 10 ^ 10), 8⟩ (fun _ : Fin 1 => (1 / 10 ^ 16 : ℝ)) 0)
        fun rank => (.ok (.success, iterations), y rank) := by
  have square : (fun _ : Fin 1 => (1 / 10 ^ 16 : ℝ)) ⬝ᵥ (fun _ : Fin 1 => (1 / 10 ^ 16 : ℝ)) =
      1 / 10 ^ 32 := by
    rw [dotProduct, Fin.sum_univ_one]
    norm_num
  have large : CheckedReal.reading.tiny ≤ CheckedReal.reading.norm
      (fun _ : Fin 1 => (1 / 10 ^ 16 : ℝ)) := by
    refine CheckedReal.large_of_square ?_
    rw [square]
    norm_num
  have entries : ∀ _ : Fin 1, CheckedReal.reading.tiny < |(1 : ℝ)| := fun _ => by
    rw [abs_one]
    exact show (1 / 10 ^ 30 : ℝ) < 1 by norm_num
  have residual : (fun _ : Fin 1 => (1 / 10 ^ 16 : ℝ)) - diagonal (fun _ : Fin 1 => (1 : ℝ)) *ᵥ 0 =
      fun _ => 1 / 10 ^ 16 := by
    rw [mulVec_zero, sub_zero]
  have some_norm := CheckedReal.reading.tiny_pos.trans_le large
  have far : ¬ CheckedReal.reading.norm (fun _ : Fin 1 => (1 / 10 ^ 16 : ℝ)) <
      1 / 10 ^ 10 * CheckedReal.reading.norm (fun _ : Fin 1 => (1 / 10 ^ 16 : ℝ)) := by
    refine not_lt.mpr (mul_le_of_le_one_left some_norm.le ?_)
    norm_num
  have small : (fun _ : Fin 1 => (1 / 10 ^ 16 : ℝ)) ⬝ᵥ (fun _ : Fin 1 => (1 / 10 ^ 16 : ℝ)) <
      CheckedReal.reading.tiny := by
    rw [square]
    exact show (1 / 10 ^ 32 : ℝ) < 1 / 10 ^ 30 by norm_num
  have ensemble : Ensemble ([0].getD · 0) (Finset.range 1) (Group.world [0]) (.world 1) 1
    (CheckedReal.reading.oneRow (fun _ => 1) 1) := CheckedReal.reading.ensemble_oneRow _ [0]
  have ends :=
    ensemble.diagonal_ends (CheckedReal.reading.spread_oneRow fun _ => 1) (Finset.Subset.refl _)
    Hubs.resting_nil entries large (show (0 : ℝ) < 1 / 10 ^ 10 by norm_num)
    (show 0 < 1000 by decide) 8 0 (by decide)
  rw [residual] at ends
  simp only [if_neg far, if_pos small] at ends
  refine ⟨large, ends, ?_⟩
  rintro ⟨iterations, y, succeeds⟩
  have same := ends.unique succeeds (Finset.mem_range.mpr Nat.one_pos) Nat.one_pos
  cases congrArg Prod.fst same

end DeviceTeams
