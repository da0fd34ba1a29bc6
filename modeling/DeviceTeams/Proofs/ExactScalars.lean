import DeviceTeams.Proofs.Tilings
import Mathlib.Algebra.Order.Field.Basic
import Mathlib.LinearAlgebra.Matrix.Notation

/-!
# Scalars that compute exactly

The solver is written for any scalars. Some of them are read here as the numbers of an ordered field
with square roots, on which the operations of the solver are those of the field. Nothing is said of
a quotient by zero: it may be a number or not, so whatever is shown to be a number has been computed
without one. Vectors of numbers are cut along the bands of a joint system, and on the parts the
leads compute what is computed with the whole vectors.
-/
namespace DeviceTeams

open Matrix

/-- The numbers of an ordered field as scalars. -/
structure Reading (K S : Type) [Field K] [LinearOrder K] [Scalar S] where
  number : K → S
  root : K → K
  tiny : K
  tiny_pos : 0 < tiny
  root_nonneg : ∀ a, 0 ≤ a → 0 ≤ root a
  root_mul_root : ∀ a, 0 ≤ a → root a * root a = a
  zero : Scalar.zero = number 0
  one : Scalar.one = number 1
  sumStart : Scalar.sumStart = number 0
  tiny_eq : Scalar.tiny = number tiny
  add : ∀ a b, number a + number b = number (a + b)
  sub : ∀ a b, number a - number b = number (a - b)
  mul : ∀ a b, number a * number b = number (a * b)
  neg : ∀ a, -number a = number (-a)
  div : ∀ a b, b ≠ 0 → number a / number b = number (a / b)
  root_eq : ∀ a, 0 ≤ a → Scalar.root (number a) = number (root a)
  magnitude : ∀ a, Scalar.magnitude (number a) = number |a|
  less : ∀ a b, Scalar.less (number a) (number b) = decide (a < b)
  isFinite : ∀ a, Scalar.isFinite (number a) = true

namespace Reading

variable {K S : Type} [Field K] [LinearOrder K] [Scalar S] (reading : Reading K S) {n : Nat}

/-! ## Numbers -/

theorem root_zero : reading.root 0 = 0 := mul_self_eq_zero.mp (reading.root_mul_root 0 (le_refl 0))

theorem vanishes (a : K) : BiCgStab.vanishes (reading.number a) = decide (|a| < reading.tiny) := by
  rw [BiCgStab.vanishes, reading.magnitude, reading.tiny_eq, reading.less]

theorem ne_zero_of_large [IsStrictOrderedRing K] {a : K} (large : ¬ |a| < reading.tiny) :
    a ≠ 0 := by
  rintro rfl
  rw [abs_zero] at large
  exact large reading.tiny_pos

/-- The inverse of a diagonal entry, one where it is too small. -/
def inverse (a : K) : K := if reading.tiny < |a| then 1 / a else 1

theorem inverseOf_number [IsStrictOrderedRing K] (a : K) :
    System.inverseOf (some (reading.number a)) = reading.number (reading.inverse a) := by
  rw [System.inverseOf, reading.magnitude, reading.tiny_eq, reading.less, reading.one, inverse]
  by_cases large : reading.tiny < |a|
  · have some_value : a ≠ 0 := by
      rintro rfl
      rw [abs_zero] at large
      exact lt_asymm large reading.tiny_pos
    rw [decide_eq_true large, if_pos rfl, if_pos large, reading.div 1 a some_value]
  · rw [decide_eq_false large, if_neg Bool.false_ne_true, if_neg large]

theorem inverseOf_none [IsStrictOrderedRing K] :
    System.inverseOf (none : Option S) = reading.number (reading.inverse 0) := by
  rw [System.inverseOf, reading.one, inverse, abs_zero, if_neg (not_lt.mpr reading.tiny_pos.le)]

theorem foldl_add_numbers {α : Type} (terms : List α) (term : α → K) (sum : K) :
    terms.foldl (fun sum a => sum + reading.number (term a)) (reading.number sum) =
      reading.number (sum + (terms.map term).sum) := by
  induction terms generalizing sum with
  | nil => rw [List.foldl_nil, List.map_nil, List.sum_nil, add_zero]
  | cons first rest ih =>
    rw [List.foldl_cons, reading.add, ih, List.map_cons, List.sum_cons, add_assoc]

theorem total_numbers (terms : List K) :
    Scalar.total (terms.map reading.number) = reading.number terms.sum := by
  have sum := reading.foldl_add_numbers terms (fun a => a) 0
  rwa [List.map_id', zero_add, ← reading.sumStart, ← List.foldl_map] at sum

/-! ## Vectors -/

def vector (f : Fin n → K) : List S := List.ofFn fun row => reading.number (f row)

theorem length_vector (f : Fin n → K) : (reading.vector f).length = n := List.length_ofFn

theorem vector_getElem? (f : Fin n → K) (row : Fin n) :
    (reading.vector f)[row.val]? = some (reading.number (f row)) := by
  rw [vector, List.getElem?_ofFn, dif_pos row.isLt]

theorem vector_getD (f : Fin n → K) (row : Fin n) :
    (reading.vector f).getD row.val Scalar.zero = reading.number (f row) := by
  rw [List.getD_eq_getElem?_getD, vector_getElem?, Option.getD_some]

theorem zipWith_vector {op : S → S → S} {f g h : Fin n → K}
    (same : ∀ row, op (reading.number (f row)) (reading.number (g row)) = reading.number (h row)) :
    List.zipWith op (reading.vector f) (reading.vector g) = reading.vector h := by
  refine List.ext_getElem
    (by rw [List.length_zipWith, length_vector, length_vector, length_vector, Nat.min_self])
    fun row bound _ => ?_
  simp only [vector, List.getElem_zipWith, List.getElem_ofFn, same]

theorem map_vector {op : S → S} {f g : Fin n → K}
    (same : ∀ row, op (reading.number (f row)) = reading.number (g row)) :
    (reading.vector f).map op = reading.vector g := by
  rw [vector, List.map_ofFn]
  exact congrArg List.ofFn (funext same)

theorem dotProduct_self_nonneg [IsStrictOrderedRing K] (f : Fin n → K) : 0 ≤ f ⬝ᵥ f :=
  Finset.sum_nonneg fun row _ => mul_self_nonneg (f row)

def norm (f : Fin n → K) : K := reading.root (f ⬝ᵥ f)

/-! ## Rows -/

/-- The entries are those of a row of a matrix; what is not stored is zero. -/
structure Row (line : Fin n → K) (entries : List (Nat × S)) : Prop where
  tidy : Tidy n entries
  value : ∀ (column : Fin n) (a : S), (column.val, a) ∈ entries → a = reading.number (line column)
  stored : ∀ column : Fin n, line column ≠ 0 → (column.val, reading.number (line column)) ∈ entries

variable {reading}

/-- A row times a vector of numbers. -/
theorem Row.rowTimes_eq {line : Fin n → K} {entries : List (Nat × S)}
    (row : reading.Row line entries) (f : Fin n → K) :
    rowTimes (reading.vector f) entries = reading.number (line ⬝ᵥ f) := by
  let term : Nat → K :=
    fun column => if below : column < n then line ⟨column, below⟩ * f ⟨column, below⟩ else 0
  have terms : rowTimes (reading.vector f) entries =
      entries.foldl (fun sum entry => sum + reading.number (term entry.1)) (reading.number 0) := by
    rw [rowTimes, reading.zero]
    refine List.foldl_ext _ _ _ fun sum entry member => ?_
    have below := row.tidy.inside entry member
    have factor := reading.vector_getD f ⟨entry.1, below⟩
    rw [row.value ⟨entry.1, below⟩ entry.2 member, ← reading.zero, factor, reading.mul]
    simp only [term, dif_pos below]
  have columns : (entries.map fun entry => term entry.1) = (entries.map (·.1)).map term := by
    rw [List.map_map]
    rfl
  have distinct : (entries.map (·.1)).Nodup :=
    List.pairwise_map.mpr (row.tidy.ascending.imp fun less => Nat.ne_of_lt less)
  have among_stored : (entries.map (·.1)).toFinset ⊆ Finset.range n := by
    intro column member
    obtain ⟨entry, among, rfl⟩ := List.mem_map.mp (List.mem_toFinset.mp member)
    exact Finset.mem_range.mpr (row.tidy.inside entry among)
  have rest : ∀ column ∈ Finset.range n, column ∉ (entries.map (·.1)).toFinset →
      term column = 0 := by
    intro column within absent
    have below := Finset.mem_range.mp within
    have nothing : line ⟨column, below⟩ = 0 := by
      by_contra some_value
      exact absent
        (List.mem_toFinset.mpr (List.mem_map.mpr ⟨_, row.stored ⟨column, below⟩ some_value, rfl⟩))
    simp only [term, dif_pos below, nothing, zero_mul]
  have all : ∑ column ∈ Finset.range n, term column = line ⬝ᵥ f := by
    rw [Finset.sum_range, dotProduct]
    exact Finset.sum_congr rfl fun column _ => dif_pos column.isLt
  rw [terms, reading.foldl_add_numbers entries fun entry => term entry.1, zero_add, columns,
    ← List.sum_toFinset _ distinct, Finset.sum_subset among_stored rest, all]

end Reading

/-! ## Parts -/

namespace Joint

variable {K S : Type} [Field K] [LinearOrder K] [Scalar S] (reading : Reading K S) {j : Joint S}

def parts (j : Joint S) (f : Fin j.size → K) : Parts S := j.cut (reading.vector f)

/-- The bands of the system tile the rows of a matrix, and each of them holds its rows and the
inverses of the diagonal. -/
structure Bears (j : Joint S) (A : Matrix (Fin j.size) (Fin j.size) K) : Prop where
  tiled : j.Tiled
  rows : ∀ seat place entries, (j.band seat).rows[place]? = some entries →
    ∃ row : Fin j.size, row.val = (j.band seat).firstRow + place ∧ reading.Row (A row) entries
  diagonal : ∀ seat, (j.band seat).inverseDiagonal = j.parts reading
    (fun row => reading.inverse (A row row)) seat

variable {reading} {A : Matrix (Fin j.size) (Fin j.size) K}

theorem addScaled_parts (factor : K) (f g : Fin j.size → K) :
    addScaled (reading.number factor) (j.parts reading f) (j.parts reading g) = j.parts reading
    (g + factor • f) := by
  have entries : List.zipWith (fun yi xi => yi + reading.number factor * xi) (reading.vector g)
      (reading.vector f) = reading.vector (g + factor • f) := reading.zipWith_vector fun row => by
    rw [reading.mul, reading.add]
    rfl
  rw [parts, parts, parts, ← entries, cut_zipWith]
  rfl

theorem subScaled_parts (factor : K) (f g : Fin j.size → K) :
    addScaled (-reading.number factor) (j.parts reading f) (j.parts reading g) = j.parts reading
    (g - factor • f) := by
  rw [reading.neg, addScaled_parts, neg_smul, sub_eq_add_neg]

theorem map_mul_parts (factor : K) (f : Fin j.size → K) :
    (fun seat => (j.parts reading f seat).map (· * reading.number factor)) = j.parts reading
    (factor • f) := by
  have entries : (reading.vector f).map (· * reading.number factor) = reading.vector (factor • f) :=
    reading.map_vector fun row => by
      rw [reading.mul, mul_comm]
      rfl
  rw [parts, parts, ← entries, cut_map]

namespace Bears

variable (bears : j.Bears reading A)
include bears

theorem fits (f : Fin j.size → K) :
    j.Fits (j.parts reading f) := bears.tiled.fits_cut (reading.length_vector f)

theorem dot_parts (f g : Fin j.size → K) :
    j.dot (j.parts reading f) (j.parts reading g) = reading.number (f ⬝ᵥ g) := by
  have products : List.zipWith (· * ·) (reading.vector f) (reading.vector g) =
      (List.ofFn fun row => f row * g row).map reading.number := by
    rw [List.map_ofFn]
    exact reading.zipWith_vector fun row => reading.mul ..
  have local_dot : ∀ seat, BiCgStab.dotLocal (j.parts reading f seat) (j.parts reading g seat) =
      reading.number (((List.ofFn fun row => f row * g row).drop (j.band seat).firstRow).take
        (j.band seat).rows.length).sum := by
    intro seat
    have piece := congrFun (cut_zipWith (j := j) (· * ·) (reading.vector f) (reading.vector g)) seat
    rw [BiCgStab.dotLocal, parts, parts, ← piece, products, cut, ← List.map_drop, ← List.map_take,
      reading.total_numbers]
  rw [Joint.dot]
  simp only [local_dot]
  rw [← Function.comp_def reading.number, ← List.map_map, reading.total_numbers,
    bears.tiled.sum_pieces List.length_ofFn, List.sum_ofFn]
  rfl

theorem norm_parts [IsStrictOrderedRing K] (f : Fin j.size → K) :
    j.norm (j.parts reading f) = reading.number (reading.norm f) := by
  rw [Joint.norm, bears.dot_parts, reading.root_eq _ (Reading.dotProduct_self_nonneg f)]
  rfl

theorem precondition_parts (f : Fin j.size → K) :
    j.precondition (j.parts reading f) = j.parts reading fun row =>
      f row * reading.inverse (A row row) := by
  have entries : List.zipWith (· * ·) (reading.vector f)
      (reading.vector fun row => reading.inverse (A row row)) =
      reading.vector fun row => f row * reading.inverse (A row row) :=
    reading.zipWith_vector fun row => reading.mul ..
  funext seat
  rw [Joint.precondition, System.precondition]
  show List.zipWith _ _ (j.band seat).inverseDiagonal = _
  rw [bears.diagonal, parts, parts, parts, ← entries, cut_zipWith]

theorem whole_parts (f : Fin j.size → K) : j.whole (j.parts reading f) = reading.vector f := by
  refine bears.tiled.whole_cut ?_ (reading.length_vector f) fun a member => ?_
  · rw [reading.zero, reading.add, add_zero]
  · obtain ⟨row, rfl⟩ := List.mem_ofFn.mp member
    rw [reading.zero, reading.add, reading.add, zero_add, add_zero]
    exact ⟨rfl, rfl⟩

theorem product_parts (f : Fin j.size → K) :
    j.product (j.parts reading f) = j.parts reading (A *ᵥ f) := by
  funext seat
  refine List.ext_getElem? fun place => ?_
  rw [product, bears.whole_parts, List.getElem?_map, parts, cut]
  cases found : (j.band seat).rows[place]? with
  | some entries =>
    obtain ⟨row, here, line⟩ := bears.rows seat place entries found
    have below := (List.getElem?_eq_some_iff.mp found).1
    rw [List.getElem?_take_of_lt below, List.getElem?_drop, ← here,
      reading.vector_getElem?, Option.map_some, line.rowTimes_eq]
    rfl
  | none =>
    have beyond := List.getElem?_eq_none_iff.mp found
    rw [List.getElem?_eq_none ((List.length_take_le ..).trans beyond), Option.map_none]

theorem residual_parts (b f : Fin j.size → K) :
    j.residual (j.parts reading b) (j.parts reading f) = j.parts reading (b - A *ᵥ f) := by
  have entries : List.zipWith (· - ·) (reading.vector b) (reading.vector (A *ᵥ f)) =
    reading.vector (b - A *ᵥ f) :=
    reading.zipWith_vector fun row => reading.sub ..
  funext seat
  rw [Joint.residual, bears.product_parts, parts, parts, parts, ← entries, cut_zipWith]

end Bears
end Joint
end DeviceTeams
