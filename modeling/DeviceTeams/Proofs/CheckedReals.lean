import DeviceTeams.Proofs.SpreadMatrices
import Mathlib.Analysis.Real.Sqrt

/-!
# Real numbers that notice a quotient by zero

Scalars that are real numbers as long as nothing is divided by zero and no root is taken of a
negative number. From then on they are undefined, and so is all that is computed from them.
-/
namespace DeviceTeams

open Matrix

/-- A real number, or what cannot be computed. -/
inductive CheckedReal
  | value (a : ℝ)
  | undefined

namespace CheckedReal

def lift (f : ℝ → ℝ) : CheckedReal → CheckedReal
  | value a => value (f a)
  | undefined => undefined

def lift₂ (f : ℝ → ℝ → ℝ) : CheckedReal → CheckedReal → CheckedReal
  | value a, value b => value (f a b)
  | _, _ => undefined

noncomputable def quotient : CheckedReal → CheckedReal → CheckedReal
  | value a, value b => if b = 0 then undefined else value (a / b)
  | _, _ => undefined

noncomputable def root : CheckedReal → CheckedReal
  | value a => if a < 0 then undefined else value (Real.sqrt a)
  | undefined => undefined

/-- Nothing is less than what cannot be computed, as with doubles that are not numbers. -/
noncomputable def less : CheckedReal → CheckedReal → Bool
  | value a, value b => decide (a < b)
  | _, _ => false

noncomputable instance : Scalar CheckedReal where
  add := lift₂ (· + ·)
  sub := lift₂ (· - ·)
  mul := lift₂ (· * ·)
  div := quotient
  neg := lift (- ·)
  zero := value 0
  one := value 1
  sumStart := value 0
  tiny := value (1 / 10 ^ 30)
  root := root
  magnitude := lift (|·|)
  less := less
  isFinite
    | value _ => true
    | undefined => false
  ofFloat _ := undefined

noncomputable def reading : Reading ℝ CheckedReal where
  number := value
  root := Real.sqrt
  tiny := 1 / 10 ^ 30
  tiny_pos := by positivity
  root_nonneg a _ := Real.sqrt_nonneg a
  root_mul_root _ nonneg := Real.mul_self_sqrt nonneg
  zero := rfl
  one := rfl
  sumStart := rfl
  tiny_eq := rfl
  add _ _ := rfl
  sub _ _ := rfl
  mul _ _ := rfl
  neg _ := rfl
  div _ _ some_value := if_neg some_value
  root_eq _ nonneg := if_neg (not_lt.mpr nonneg)
  magnitude _ := rfl
  less _ _ := rfl
  isFinite _ := rfl

/-- The root of a sum of squares is not tiny if the sum is no less than the square of what is. -/
theorem large_of_square {n : Nat} {b : Fin n → ℝ} (large : (1 / 10 ^ 30) ^ 2 ≤ b ⬝ᵥ b) :
    reading.tiny ≤ reading.norm b :=
  (Real.le_sqrt' reading.tiny_pos).mpr large

/-- A vector with a large square is not small against another one. -/
theorem far_of_square {n : Nat} {f g : Fin n → ℝ} {factor : ℝ} (nonneg : 0 ≤ factor)
    (large : factor ^ 2 * (g ⬝ᵥ g) ≤ f ⬝ᵥ f) : ¬ reading.norm f < factor * reading.norm g := by
  have scaled : factor * √(g ⬝ᵥ g) = √(factor ^ 2 * (g ⬝ᵥ g)) := by
    rw [Real.sqrt_mul (sq_nonneg factor), Real.sqrt_sq nonneg]
  show ¬ √(f ⬝ᵥ f) < factor * √(g ⬝ᵥ g)
  rw [scaled]
  exact not_lt.mpr (Real.sqrt_le_sqrt large)

end CheckedReal

noncomputable def diagonalPair (lead : Nat) : System CheckedReal :=
  CheckedReal.reading.oneRow (fun row => row + 2) 2 lead

namespace diagonalPair

theorem ensemble :
    Ensemble ([0, 1].getD · 0) (Finset.range 2) (Group.world [0, 1]) (.world 2) 2 diagonalPair :=
  CheckedReal.reading.ensemble_oneRow _ [0, 1]

theorem spread : CheckedReal.reading.Spread (diagonal fun row : Fin 2 => (row : ℝ) + 2)
    (Finset.range 2) diagonalPair :=
  CheckedReal.reading.spread_oneRow fun row => (row : ℝ) + 2

theorem large_ones : CheckedReal.reading.tiny ≤ CheckedReal.reading.norm (1 : Fin 2 → ℝ) := by
  refine CheckedReal.large_of_square ?_
  rw [dotProduct, Fin.sum_univ_two, Pi.one_apply, Pi.one_apply]
  norm_num

end diagonalPair

/-- Two leads have one row each of a triangular matrix of ones. -/
noncomputable def triangularPair (lead : Nat) : System CheckedReal :=
  .ofRows 2 lead [if lead = 0 then [(0, .value 1), (1, .value 1)] else [(1, .value 1)]]

namespace triangularPair

theorem tidy : ∀ row < 2,
    Tidy 2 (if row = 0 then [(0, CheckedReal.value 1), (1, .value 1)] else [(1, .value 1)]) := by
  intro row below
  have place : row = 0 ∨ row = 1 := by omega
  rcases place with rfl | rfl
  · exact ⟨by simp, by simp⟩
  · exact ⟨by simp, by simp⟩

theorem ensemble :
    Ensemble ([0, 1].getD · 0) (Finset.range 2) (Group.world [0, 1]) (.world 2) 2 triangularPair :=
  .ofRow [0, 1] tidy

theorem spread : CheckedReal.reading.Spread !![1, 1; 0, 1] (Finset.range 2) triangularPair := by
  refine .ofRow tidy fun row column => ?_
  fin_cases row <;> fin_cases column
  · exact .inl (by simp [CheckedReal.reading])
  · exact .inl (by simp [CheckedReal.reading])
  · exact .inr ⟨rfl, by simp⟩
  · exact .inl (by simp [CheckedReal.reading])

end triangularPair
end DeviceTeams
