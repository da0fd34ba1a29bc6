import DeviceTeams.Proofs.ExactScalars
import Mathlib.Tactic.Ring

/-!
# The iteration on paper

A pass of the iteration, written down for whole vectors over an ordered field as one would on paper.
Leads whose scalars are read as the numbers of the field do what it says, each with its parts of the
vectors. The last two of the factors that a pass is handed have to be other than zero for that, and
the ones that it hands over are.
-/
namespace DeviceTeams

open Matrix

variable {K S : Type} [Field K] [LinearOrder K] [Scalar S] (reading : Reading K S)

/-- Vectors and factors that a pass on paper hands to the next one. -/
structure PaperCarry (n : Nat) (K : Type) where
  residual : Fin n → K
  direction : Fin n → K
  image : Fin n → K
  rho : K
  alpha : K
  omega : K

def PaperCarry.first {n : Nat} (residual : Fin n → K) : PaperCarry n K := ⟨residual, 0, 0, 1, 1, 1⟩

namespace Reading

section

variable {n : Nat} (A : Matrix (Fin n) (Fin n) K)

def jacobi (f : Fin n → K) : Fin n → K := fun row => f row * reading.inverse (A row row)

def pass (shadow : Fin n → K) (target : K) (finished : Nat) (carry : PaperCarry n K)
    (x : Fin n → K) :
    ((Status × Nat) ⊕ PaperCarry n K) × (Fin n → K) :=
  let rho := shadow ⬝ᵥ carry.residual
  if |rho| < reading.tiny then (.inl (.failed, finished), x) else
  let beta := rho / carry.rho * (carry.alpha / carry.omega)
  let direction := carry.residual + beta • (carry.direction - carry.omega • carry.image)
  let directionHat := reading.jacobi A direction
  let image := A *ᵥ directionHat
  let projection := shadow ⬝ᵥ image
  if |projection| < reading.tiny then (.inl (.failed, finished), x) else
  let alpha := rho / projection
  let half := carry.residual - alpha • image
  if reading.norm half < target then (.inl (.success, finished + 1), x + alpha • directionHat) else
  let halfHat := reading.jacobi A half
  let halfImage := A *ᵥ halfHat
  let square := halfImage ⬝ᵥ halfImage
  if |square| < reading.tiny then (.inl (.failed, finished), x) else
  let omega := halfImage ⬝ᵥ half / square
  let residual := half - omega • halfImage
  let y := x + alpha • directionHat + omega • halfHat
  if reading.norm residual < target then (.inl (.success, finished + 1), y) else
  if |omega| < reading.tiny then (.inl (.failed, finished + 1), y) else
  (.inr ⟨residual, direction, image, rho, alpha, omega⟩, y)

end

variable {reading} {j : Joint S} {A : Matrix (Fin j.size) (Fin j.size) K}

/-- The scalars and the parts of vectors that leads with the bands of a system have of a carry. -/
def carried (reading : Reading K S) (j : Joint S) (carry : PaperCarry j.size K) :
    Joint.Carry S where
  residual := j.parts reading carry.residual
  direction := j.parts reading carry.direction
  image := j.parts reading carry.image
  rho := reading.number carry.rho
  alpha := reading.number carry.alpha
  omega := reading.number carry.omega

theorem parts_zero (seat : Nat) : j.parts reading 0 seat =
    List.replicate (j.parts reading (0 : Fin j.size → K) seat).length Scalar.zero := by
  refine List.eq_replicate_iff.mpr ⟨rfl, fun a member => ?_⟩
  obtain ⟨row, rfl⟩ := List.mem_ofFn.mp (List.mem_of_mem_drop (List.mem_of_mem_take member))
  exact reading.zero.symm

theorem length_parts (f g : Fin j.size → K) (seat : Nat) :
    (j.parts reading f seat).length = (j.parts reading g seat).length := by
  simp only [Joint.parts, Joint.cut, List.length_take, List.length_drop, length_vector]

theorem carried_first (residual : Fin j.size → K) :
    reading.carried j (.first residual) = .first (j.parts reading residual) := by
  have blank : j.parts reading 0 = fun seat =>
      List.replicate (j.parts reading residual seat).length Scalar.zero := by
    funext seat
    rw [parts_zero, length_parts 0 residual]
  rw [carried, Joint.Carry.first, reading.one, ← blank]
  rfl

/-- The next direction is computed without a quotient by zero. -/
theorem aim_carried {carry : PaperCarry j.size K} (some_rho : carry.rho ≠ 0)
    (some_omega : carry.omega ≠ 0) (rho : K) :
    (reading.carried j carry).aim (reading.number rho) = j.parts reading
      (carry.residual + (rho / carry.rho * (carry.alpha / carry.omega)) •
        (carry.direction - carry.omega • carry.image)) := by
  have factor : reading.number rho / reading.number carry.rho *
      (reading.number carry.alpha / reading.number carry.omega) =
      reading.number (rho / carry.rho * (carry.alpha / carry.omega)) := by
    rw [reading.div _ _ some_rho, reading.div _ _ some_omega, reading.mul]
  show Joint.addScaled Scalar.one (j.parts reading carry.residual) (fun seat => (Joint.addScaled
    (-reading.number carry.omega) (j.parts reading carry.image)
    (j.parts reading carry.direction) seat).map
      (· * (reading.number rho / reading.number carry.rho *
        (reading.number carry.alpha / reading.number carry.omega)))) = _
  rw [factor, Joint.subScaled_parts, Joint.map_mul_parts, reading.one, Joint.addScaled_parts,
    one_smul, add_comm]

end Reading

/-- Leads that bear the rows of a matrix do in a pass what the pass on paper says. -/
theorem Joint.Bears.pass_eq [IsStrictOrderedRing K] {j : Joint S}
    {A : Matrix (Fin j.size) (Fin j.size) K} (bears : j.Bears reading A) (shadow : Fin j.size → K)
    (target : K) (finished : Nat) {carry : PaperCarry j.size K} (some_rho : carry.rho ≠ 0)
    (some_omega : carry.omega ≠ 0) (x : Fin j.size → K) :
    j.pass (j.parts reading shadow) (reading.number target) finished (reading.carried j carry)
    (j.parts reading x) =
      ((reading.pass A shadow target finished carry x).1.map id (reading.carried j),
        j.parts reading (reading.pass A shadow target finished carry x).2) := by
  have precondition : ∀ f, j.precondition (j.parts reading f) = j.parts reading
    (reading.jacobi A f) :=
    bears.precondition_parts
  have residual : (reading.carried j carry).residual = j.parts reading carry.residual := rfl
  have aimed : ∀ rho, (reading.carried j carry).aim (reading.number rho) = _ :=
    Reading.aim_carried some_rho some_omega
  rw [Joint.pass, Reading.pass]
  dsimp only
  rw [residual, bears.dot_parts, reading.vanishes]
  simp only [decide_eq_true_eq]
  split
  · rfl
  rw [aimed, precondition, bears.product_parts, bears.dot_parts, reading.vanishes]
  simp only [decide_eq_true_eq]
  split
  · rfl
  next some_projection =>
  rw [reading.div _ _ (reading.ne_zero_of_large some_projection), Joint.subScaled_parts,
    bears.norm_parts, reading.less, Joint.addScaled_parts]
  simp only [decide_eq_true_eq]
  split
  · rfl
  rw [precondition, bears.product_parts, bears.dot_parts, bears.dot_parts, reading.vanishes]
  simp only [decide_eq_true_eq]
  split
  · rfl
  next some_square =>
  rw [reading.div _ _ (reading.ne_zero_of_large some_square), Joint.subScaled_parts,
    bears.norm_parts, reading.isFinite, reading.less, reading.vanishes, Joint.addScaled_parts]
  simp only [Bool.not_true, decide_eq_true_eq, if_neg Bool.false_ne_true]
  split
  · rfl
  split
  · rfl
  · rfl

/-- What leads that bear the rows of a matrix do before the first pass. -/
theorem Joint.Bears.opening_eq [IsStrictOrderedRing K] {j : Joint S}
    {A : Matrix (Fin j.size) (Fin j.size) K} (bears : j.Bears reading A) {b : Fin j.size → K}
    (large : reading.tiny ≤ reading.norm b) (maxIters rings : Nat) (tolerance : K)
    (x : Fin j.size → K) :
    j.opening ⟨maxIters, reading.number tolerance, rings⟩ (j.parts reading b) (j.parts reading x) =
      if reading.norm (b - A *ᵥ x) < tolerance * reading.norm b then
      (.inl (.success, 0), j.parts reading x)
      else (.inr (reading.number (tolerance * reading.norm b),
        reading.carried j (.first (b - A *ᵥ x))),
        j.parts reading x) := by
  rw [Joint.opening]
  dsimp only
  rw [bears.norm_parts, reading.tiny_eq, reading.less, decide_eq_false (not_lt.mpr large),
    if_neg Bool.false_ne_true,
    bears.residual_parts, bears.norm_parts, reading.mul, reading.less, Reading.carried_first]
  simp only [decide_eq_true_eq]

end DeviceTeams
