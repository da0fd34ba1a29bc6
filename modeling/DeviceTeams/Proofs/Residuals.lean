import DeviceTeams.Proofs.CheckedReals
import DeviceTeams.Proofs.ExactPasses
import DeviceTeams.Proofs.Heads
import DeviceTeams.Proofs.SpreadMatrices

/-!
# Residuals

The iteration updates its residual and its solution apart from each other. In exact arithmetic they
belong together at the head of every pass: the residual is what the solution leaves of the
right-hand side. The leads therefore report success only if the solution meets the tolerance, and
that they have not converged only if it does not. The induction is on the passes that are left, and
`Reading.Honest` is what it carries.
-/
namespace DeviceTeams

open Matrix

variable {K S : Type} [Field K] [LinearOrder K] [IsStrictOrderedRing K] [Scalar S]
  (reading : Reading K S)

/-- What all leads have at the head of a pass, on paper: what the pass is handed, and the
solution. -/
abbrev PaperHead (n : Nat) (K : Type) : Type := PaperCarry n K × (Fin n → K)

namespace Reading

section

variable {n : Nat} (A : Matrix (Fin n) (Fin n) K) (b : Fin n → K) (target : K)

/-- The residual is the one of the solution and misses the target, and no factor that is divided by
is zero. -/
structure Honest (head : PaperHead n K) : Prop where
  residual : head.1.residual = b - A *ᵥ head.2
  far : ¬ reading.norm head.1.residual < target
  rho : head.1.rho ≠ 0
  omega : head.1.omega ≠ 0

def Verdict (y : Fin n → K) : Status → Prop
  | .success => reading.norm (b - A *ᵥ y) < target
  | .notConverged => ¬ reading.norm (b - A *ᵥ y) < target
  | .failed => True
  | .diverged => False

def Keeps : ((Status × Nat) ⊕ PaperCarry n K) × (Fin n → K) → Prop
  | (.inl (status, _), y) => reading.Verdict A b target y status
  | (.inr next, y) => reading.Honest A b target (next, y)

variable {A b target}

omit [LinearOrder K] [IsStrictOrderedRing K] in
/-- A step of the solution along a direction takes the image of the direction from the residual. -/
theorem residual_step {r x : Fin n → K} (residual : r = b - A *ᵥ x) (factor : K) (f : Fin n → K) :
    r - factor • A *ᵥ f = b - A *ᵥ (x + factor • f) := by
  rw [residual, mulVec_add, mulVec_smul, sub_sub]

/-- A pass keeps residual and solution together, and its answer is true of the solution. -/
theorem keeps_pass {carry : PaperCarry n K} {x : Fin n → K}
    (honest : reading.Honest A b target (carry, x)) (shadow : Fin n → K) (finished : Nat) :
    reading.Keeps A b target (reading.pass A shadow target finished carry x) := by
  have half : ∀ factor f, carry.residual - factor • A *ᵥ f = b - A *ᵥ (x + factor • f) :=
    residual_step honest.residual
  rw [pass]
  dsimp only
  split
  · trivial
  next some_rho =>
  split
  · trivial
  split
  · next reached =>
    rw [half] at reached
    exact reached
  split
  · trivial
  split
  · next reached =>
    rw [residual_step (half _ _)] at reached
    exact reached
  next far =>
  split
  · trivial
  next some_omega =>
  exact ⟨residual_step (half _ _) _ _, far, reading.ne_zero_of_large some_rho,
    reading.ne_zero_of_large some_omega⟩

end

def headed (j : Joint S) (head : PaperHead j.size K) : Joint.Head S :=
  (reading.carried j head.1, j.parts reading head.2)

end Reading

/-! ## All passes -/

namespace Joint.Bears

variable {reading} {j : Joint S} {A : Matrix (Fin j.size) (Fin j.size) K}
  (bears : j.Bears reading A) {b : Fin j.size → K}
include bears

/-- From an honest head on all heads are honest, and the answer is true of the solution. -/
theorem iterate_honest {target : K} (shadow : Fin j.size → K) (left finished : Nat)
    {carry : PaperCarry j.size K} {x : Fin j.size → K}
    (honest : reading.Honest A b target (carry, x)) :
    ∃ (status : Status) (iterations : Nat) (y : Fin j.size → K) (heads : List (PaperHead j.size K)),
      j.iterate (j.parts reading shadow) (reading.number target) finished left
      (reading.carried j carry) (j.parts reading x) = ((status, iterations), j.parts reading y) ∧
      j.heads (j.parts reading shadow) (reading.number target) finished left
      (reading.carried j carry) (j.parts reading x) = heads.map (reading.headed j) ∧
      (∀ head ∈ heads, reading.Honest A b target head) ∧ reading.Verdict A b target y status := by
  induction left generalizing finished carry x with
  | zero =>
    have misses := honest.far
    rw [honest.residual] at misses
    exact ⟨.notConverged, finished, x, [], rfl, rfl, fun _ among =>
      absurd among List.not_mem_nil, misses⟩
  | succ left ih =>
    have kept := reading.keeps_pass honest shadow finished
    rw [iterate, heads, bears.pass_eq reading shadow target finished honest.rho honest.omega x]
    rcases passed : reading.pass A shadow target finished carry
      x with ⟨⟨status, iterations⟩ | next, y⟩
    · rw [passed] at kept
      exact ⟨status, iterations, y, [(carry, x)], rfl, rfl, fun head among =>
        List.mem_singleton.mp among ▸ honest, kept⟩
    · rw [passed] at kept
      obtain ⟨status, iterations, z, heads, ends, begun, all, verdict⟩ := ih (finished + 1) kept
      refine ⟨status, iterations, z, (carry, x) :: heads, ends, congrArg _ begun,
        fun head among => ?_, verdict⟩
      rcases List.mem_cons.mp among with rfl | later
      · exact honest
      · exact all head later

/-- All heads of a solve are honest, and its answer is true of the solution. -/
theorem solve_honest (large : reading.tiny ≤ reading.norm b) (maxIters rings : Nat) (tolerance : K)
    (x : Fin j.size → K) :
    ∃ (status : Status) (iterations : Nat) (y : Fin j.size → K) (heads : List (PaperHead j.size K)),
      j.solve ⟨maxIters, reading.number tolerance, rings⟩ (j.parts reading b) (j.parts reading x) =
        ((status, iterations), j.parts reading y) ∧
      j.solveHeads ⟨maxIters, reading.number tolerance, rings⟩ (j.parts reading b)
      (j.parts reading x) = heads.map (reading.headed j) ∧
      (∀ head ∈ heads, reading.Honest A b (tolerance * reading.norm b) head) ∧
        reading.Verdict A b (tolerance * reading.norm b) y status := by
  rw [solve, solveHeads, bears.opening_eq reading large]
  by_cases near : reading.norm (b - A *ᵥ x) < tolerance * reading.norm b
  · rw [if_pos near]
    exact ⟨.success, 0, x, [], rfl, rfl, fun _ among => absurd among List.not_mem_nil, near⟩
  · rw [if_neg near]
    exact bears.iterate_honest (b - A *ᵥ x) maxIters 0 ⟨rfl, near, one_ne_zero, one_ne_zero⟩

end Joint.Bears

/-! ## All leads -/

namespace Reading

variable {reading} {n : Nat}

def headAt (reading : Reading K S) (system : System S) (head : PaperHead n K) : BiCgStab.Head S :=
  (⟨reading.segment system head.1.residual, reading.segment system head.1.direction,
    reading.segment system head.1.image,
    reading.number head.1.rho, reading.number head.1.alpha, reading.number head.1.omega⟩,
    reading.segment system head.2)

/-- What a lead does to solve and to hand over, besides, what it has at the heads of its passes. -/
def watching (reading : Reading K S) (system : Nat → System S) (N : Nat → Group)
    (settings : Settings S) (b x : Fin n → K) (lead : Nat) :
    Program S (Attempt ((Status × Nat) × List (BiCgStab.Head S)) × List S) :=
  (BiCgStab.watchedSolve (system lead) (N lead) settings (reading.segment (system lead) b)).start
    (reading.segment (system lead) x)

end Reading

namespace Ensemble

variable {reading} {n world : Nat} {node : Nat → Nat} {L : Finset Nat} {N : Nat → Group} {hub : Hub}
  {system : Nat → System S} (ensemble : Ensemble node L N hub n system)
  {A : Matrix (Fin n) (Fin n) K}
  (spread : reading.Spread A L system) (within : L ⊆ Finset.range world) {hubs : Hubs S}
  {rounds : Rounds}
  (resting : hubs.Resting rounds) {b : Fin n → K} (large : reading.tiny ≤ reading.norm b)
  (maxIters rings : Nat) (tolerance : K) (x : Fin n → K)
include ensemble spread within resting large

/-- The leads find their segments of what the joint solve has at the heads of its passes. -/
theorem watchedSolve_ends (room : n * 8 < 2 ^ 63) {status : Status}
    {iterations : Nat} {y : Fin n → K} {heads : List (PaperHead n K)}
    (joint : (Joint.ofLeads hub n system).solve ⟨maxIters, reading.number tolerance, rings⟩
      ((Joint.ofLeads hub n system).parts reading b)
      ((Joint.ofLeads hub n system).parts reading x) =
        ((status, iterations), (Joint.ofLeads hub n system).parts reading y))
    (begun : (Joint.ofLeads hub n system).solveHeads ⟨maxIters, reading.number tolerance, rings⟩
      ((Joint.ofLeads hub n system).parts reading b)
      ((Joint.ofLeads hub n system).parts reading x) =
        heads.map (reading.headed (Joint.ofLeads hub n system))) :
    EndsAmong world L hubs
    (reading.watching system N ⟨maxIters, reading.number tolerance, rings⟩ b x)
      fun rank => (.ok ((status, iterations), heads.map (reading.headAt (system rank))),
        reading.segment (system rank) y) := by
  have some_lead := spread.some_lead large
  have bears := ensemble.bears some_lead spread
  obtain ⟨w, _, values, plain, _⟩ :=
    (ensemble.held.watchedSolve_unison (ensemble.sound some_lead room)
    ⟨maxIters, reading.number tolerance, rings⟩ (bears.fits b)
    (bears.fits x)).endsAmong within resting
  have own_heads : ∀ rank ∈ L, (heads.map (reading.headed (Joint.ofLeads hub n system))).map
      (·.at (N rank).rank) = heads.map (reading.headAt (system rank)) := by
    intro rank inside
    rw [List.map_map]
    refine List.map_congr_left fun head _ => ?_
    simp only [Reading.headAt, ← ensemble.parts_eq inside]
    rfl
  refine plain.congr (fun rank inside => ?_) fun rank inside => ?_
  · rw [Reading.watching, ← ensemble.parts_eq inside b, ← ensemble.parts_eq inside x,
      ensemble.system_eq inside]
  · rw [values rank inside, joint, begun, own_heads rank inside, ← ensemble.parts_eq inside y]

/-- At the head of every pass the residual is the one of the solution, and the status that the leads
come out with is true of the solution. Nothing is assumed of a quotient by zero, which need not be a
number, and yet the leads have nothing but numbers at every head and at the end. They come out at
all unless the whole vectors are too long for the memory; then all of them abort. -/
theorem solves_honestly :
    (n * 8 < 2 ^ 63 →
      ∃ (status : Status) (iterations : Nat) (y : Fin n → K) (heads : List (PaperHead n K)),
      (∀ head ∈ heads, head.1.residual = b - A *ᵥ head.2 ∧ head.1.rho ≠ 0 ∧ head.1.omega ≠ 0) ∧
      (status = .success → reading.norm (b - A *ᵥ y) < tolerance * reading.norm b) ∧
      (status = .notConverged → tolerance * reading.norm b ≤ reading.norm (b - A *ᵥ y)) ∧
      status ≠ .diverged ∧
      EndsAmong world L hubs
      (reading.solving system N ⟨maxIters, reading.number tolerance, rings⟩ b x)
        (fun rank => (.ok (status, iterations), reading.segment (system rank) y)) ∧
      EndsAmong world L hubs
      (reading.watching system N ⟨maxIters, reading.number tolerance, rings⟩ b x)
        fun rank => (.ok ((status, iterations), heads.map (reading.headAt (system rank))),
          reading.segment (system rank) y)) ∧
    (¬ n * 8 < 2 ^ 63 → ∃ y : Nat → List S,
      EndsAmong world L hubs
      (reading.solving system N ⟨maxIters, reading.number tolerance, rings⟩ b x)
        fun rank => (.abort, y rank)) := by
  refine ⟨fun room => ?_, fun full =>
    ensemble.solve_aborts spread within resting large maxIters rings tolerance x full⟩
  obtain ⟨status, iterations, y, heads, joint, begun, honest, verdict⟩ :=
    (ensemble.bears (spread.some_lead large) spread).solve_honest large maxIters rings tolerance x
  refine ⟨status, iterations, y, heads, fun head among => ?_, ?_, ?_, ?_,
    ensemble.solve_ends spread within resting large maxIters rings tolerance x room joint,
    ensemble.watchedSolve_ends spread within resting large maxIters rings tolerance x
    room joint begun⟩
  · exact ⟨(honest head among).residual, (honest head among).rho, (honest head among).omega⟩
  · rintro rfl
    exact verdict
  · rintro rfl
    exact not_lt.mp verdict
  · rintro rfl
    exact verdict

end Ensemble

/-! ## Two leads that need a second pass -/

namespace triangularPair

theorem jacobi_eq (f : Fin 2 → ℝ) : CheckedReal.reading.jacobi !![1, 1; 0, 1] f = f := by
  have tiny : CheckedReal.reading.tiny < 1 := show (1 / 10 ^ 30 : ℝ) < 1 by norm_num
  have one : CheckedReal.reading.inverse 1 = 1 := by
    rw [Reading.inverse, abs_one, if_pos tiny, one_div_one]
  funext row
  fin_cases row <;> exact (congrArg _ one).trans (mul_one _)

/-- The first pass hands on: its solution is still off by a third in one entry. -/
theorem first_pass : ∃ next y, CheckedReal.reading.pass !![1, 1; 0, 1] 1
    (1 / 10 * CheckedReal.reading.norm (1 : Fin 2 → ℝ)) 0 (.first 1) 0 = (.inr next, y) := by
  have small : ∀ a : ℝ, 1 / 9 ≤ |a| → ¬ |a| < CheckedReal.reading.tiny := fun a large =>
    not_lt.mpr (le_trans (show (1 / 10 ^ 30 : ℝ) ≤ 1 / 9 by norm_num) large)
  have direction : (1 : Fin 2 → ℝ) + ((1 : Fin 2 → ℝ) ⬝ᵥ 1 / 1 * (1 / 1)) •
      ((0 : Fin 2 → ℝ) - (1 : ℝ) • (0 : Fin 2 → ℝ)) = 1 := by
    rw [smul_zero, sub_zero, smul_zero, add_zero]
  have square : (1 : Fin 2 → ℝ) ⬝ᵥ 1 = 2 := by
    rw [dotProduct, Fin.sum_univ_two]
    norm_num
  have image : !![1, 1; 0, 1] *ᵥ (1 : Fin 2 → ℝ) = ![2, 1] := by
    ext row
    fin_cases row <;> norm_num [mulVec, dotProduct, Fin.sum_univ_two]
  have projection : (1 : Fin 2 → ℝ) ⬝ᵥ ![2, 1] = 3 := by
    rw [dotProduct, Fin.sum_univ_two]
    norm_num
  have half : (1 : Fin 2 → ℝ) - (2 / 3 : ℝ) • ![2, 1] = ![-1 / 3, 1 / 3] := by
    ext row
    fin_cases row <;> norm_num
  have halfImage : !![1, 1; 0, 1] *ᵥ ![-1 / 3, 1 / 3] = ![0, (1 / 3 : ℝ)] := by
    ext row
    fin_cases row <;> norm_num [mulVec, dotProduct, Fin.sum_univ_two]
  have halfSquare : ![0, (1 / 3 : ℝ)] ⬝ᵥ ![0, 1 / 3] = 1 / 9 := by
    rw [dotProduct, Fin.sum_univ_two]
    norm_num
  have halfProjection : ![0, (1 / 3 : ℝ)] ⬝ᵥ ![-1 / 3, 1 / 3] = 1 / 9 := by
    rw [dotProduct, Fin.sum_univ_two]
    norm_num
  have residual : ![-1 / 3, 1 / 3] - (1 / 9 / (1 / 9) : ℝ) • ![0, 1 / 3] = ![-1 / 3, (0 : ℝ)] := by
    ext row
    fin_cases row <;> norm_num
  have far_half : ¬ CheckedReal.reading.norm ![-1 / 3, (1 / 3 : ℝ)] <
      1 / 10 * CheckedReal.reading.norm (1 : Fin 2 → ℝ) := by
    refine CheckedReal.far_of_square (by norm_num) ?_
    rw [square, dotProduct, Fin.sum_univ_two]
    norm_num
  have far : ¬ CheckedReal.reading.norm ![-1 / 3, (0 : ℝ)] <
      1 / 10 * CheckedReal.reading.norm (1 : Fin 2 → ℝ) := by
    refine CheckedReal.far_of_square (by norm_num) ?_
    rw [square, dotProduct, Fin.sum_univ_two]
    norm_num
  rw [Reading.pass, PaperCarry.first]
  dsimp only
  rw [direction, jacobi_eq, image, projection, square, if_neg (small 2 (by norm_num)),
    if_neg (small 3 (by norm_num)),
    half, if_neg far_half, jacobi_eq, halfImage, halfSquare, halfProjection,
    if_neg (small (1 / 9) (by norm_num)),
    residual, if_neg far, if_neg (small (1 / 9 / (1 / 9)) (by norm_num))]
  exact ⟨_, _, rfl⟩

/-- So the leads come to a second pass. -/
theorem one_lt_heads :
    1 < ((Joint.ofLeads (.world 2) 2 triangularPair).solveHeads ⟨1000, .value (1 / 10), 8⟩
    ((Joint.ofLeads (.world 2) 2 triangularPair).parts CheckedReal.reading 1)
    ((Joint.ofLeads (.world 2) 2 triangularPair).parts CheckedReal.reading 0)).length := by
  have large := diagonalPair.large_ones
  have bears := ensemble.bears (spread.some_lead large) spread
  have far : ¬ CheckedReal.reading.norm (1 : Fin 2 → ℝ) < 1 / 10 * CheckedReal.reading.norm
      (1 : Fin 2 → ℝ) := by
    have positive := CheckedReal.reading.tiny_pos.trans_le large
    linarith
  have start : (1 : Fin 2 → ℝ) - !![1, 1; 0, 1] *ᵥ 0 = 1 := by rw [mulVec_zero, sub_zero]
  have opening := bears.opening_eq CheckedReal.reading large 1000 8 (1 / 10) 0
  rw [start, if_neg far] at opening
  obtain ⟨next, y, passed⟩ := first_pass
  have some_factor : (PaperCarry.first (1 : Fin 2 → ℝ)).rho ≠ 0 := one_ne_zero
  have pass := bears.pass_eq CheckedReal.reading 1
    (1 / 10 * CheckedReal.reading.norm (1 : Fin 2 → ℝ)) 0 some_factor some_factor 0
  rw [passed] at pass
  have settings : CheckedReal.value (1 / 10) = CheckedReal.reading.number (1 / 10) := rfl
  rw [Joint.solveHeads, settings, opening]
  exact Joint.one_lt_heads pass 998

end triangularPair

/-- Two leads compute with reals that notice a quotient by zero, and come to a second pass. -/
theorem Ensemble.solves_honestly_triangular : ∃ (status : Status) (iterations : Nat) (y : Fin 2 → ℝ)
    (heads : List (PaperHead 2 ℝ)), 1 < heads.length ∧
    (∀ head ∈ heads, head.1.residual = 1 - !![1, 1; 0, 1] *ᵥ head.2 ∧ head.1.rho ≠ 0 ∧
      head.1.omega ≠ 0) ∧
    (status = .success → CheckedReal.reading.norm (1 - !![1, 1; 0, 1] *ᵥ y) <
      1 / 10 * CheckedReal.reading.norm (1 : Fin 2 → ℝ)) ∧ status ≠ .diverged ∧
    EndsAmong 2 (Finset.range 2) []
      (CheckedReal.reading.watching triangularPair (Group.world [0, 1]) ⟨1000, .value (1 / 10), 8⟩
        (1 : Fin 2 → ℝ) 0)
      fun rank => (.ok ((status, iterations),
        heads.map (CheckedReal.reading.headAt (triangularPair rank))),
        CheckedReal.reading.segment (triangularPair rank) y) := by
  obtain ⟨status, iterations, y, heads, honest, reached, _, some_number, _, watched⟩ :=
    (solves_honestly triangularPair.ensemble triangularPair.spread
      (Finset.Subset.refl _) Hubs.resting_nil
      diagonalPair.large_ones 1000 8 (1 / 10) 0).1 (by decide)
  refine ⟨status, iterations, y, heads, ?_, honest, reached, some_number, watched⟩
  have large := diagonalPair.large_ones
  obtain ⟨status', iterations', y', heads', joint, begun, _⟩ := (triangularPair.ensemble.bears
    (triangularPair.spread.some_lead large) triangularPair.spread).solve_honest large
    1000 8 (1 / 10) 0
  have same := watched.unique (triangularPair.ensemble.watchedSolve_ends triangularPair.spread
    (Finset.Subset.refl _) Hubs.resting_nil large 1000 8 (1 / 10) 0 (by decide) joint begun)
    (show 0 ∈ Finset.range 2 by decide) (by decide)
  have count := congrArg List.length (congrArg Prod.snd (Except.ok.inj (congrArg Prod.fst same)))
  have several := triangularPair.one_lt_heads
  rw [show CheckedReal.value (1 / 10) = CheckedReal.reading.number (1 / 10) from rfl, begun,
    List.length_map] at several
  rw [List.length_map, List.length_map] at count
  omega

end DeviceTeams
