import DeviceTeams.Proofs.Iteration
import Mathlib.Algebra.BigOperators.Group.Finset.Basic
import Mathlib.Algebra.BigOperators.Group.Finset.Sigma

/-!
# Bands that tile the rows

If every row lies in exactly one band the parts of a vector make it up again, in whatever order the
bands come. The sum of the parts that the leads have placed between zeros is the vector itself, and
sums over all parts are sums over all entries.
-/
namespace DeviceTeams

/-! ## Lists -/

section

variable {S : Type} [Scalar S]

/-- A sum of vectors of one length, entry by entry. -/
theorem getElem?_foldl_zipWith {parts : List (List S)} {start : List S} {row : Nat}
    (lengths : ∀ part ∈ parts, part.length = start.length) (below : row < start.length) :
    (parts.foldl (List.zipWith (· + ·)) start)[row]? =
      some ((parts.map (·.getD row Scalar.zero)).foldl (· + ·) (start.getD row Scalar.zero)) := by
  induction parts generalizing start with
  | nil =>
    rw [List.foldl_nil, List.map_nil, List.foldl_nil, List.getD_eq_getElem?_getD,
      List.getElem?_eq_getElem below, Option.getD_some]
  | cons part rest ih =>
    have here : part.length = start.length := lengths part List.mem_cons_self
    have same : (List.zipWith (· + ·) start part).length = start.length := by
      rw [List.length_zipWith, here, Nat.min_self]
    have entry : (List.zipWith (· + ·) start part).getD row Scalar.zero =
        start.getD row Scalar.zero + part.getD row Scalar.zero := by
      simp only [List.getD_eq_getElem?_getD, List.getElem?_zipWith, List.getElem?_eq_getElem below,
        List.getElem?_eq_getElem (here ▸ below), Option.getD_some]
    rw [List.foldl_cons,
      ih (fun other member => (lengths other (List.mem_cons_of_mem _ member)).trans same.symm)
      (same ▸ below), entry, List.map_cons, List.foldl_cons]

/-- A sum of zeros, one of which is replaced, is what stands in its place. -/
theorem foldl_add_single {p : Nat → Prop} [DecidablePred p] {a z : S} (zeros : z + z = z)
    (before : z + a = a) (after : a + z = a) {seats : List Nat} (nodup : seats.Nodup) {seat : Nat}
    (member : seat ∈ seats) (only : ∀ other ∈ seats, p other ↔ other = seat) :
    (seats.map fun other => if p other then a else z).foldl (· + ·) z = a := by
  have none_left : ∀ (rest : List Nat) {sum : S}, sum + z = sum → (∀ other ∈ rest, ¬ p other) →
      (rest.map fun other => if p other then a else z).foldl (· + ·) sum = sum := by
    intro rest sum still absent
    induction rest with
    | nil => rfl
    | cons first rest ih =>
      rw [List.map_cons, List.foldl_cons, if_neg (absent first List.mem_cons_self), still]
      exact ih fun other among => absent other (List.mem_cons_of_mem _ among)
  obtain ⟨front, back, rfl⟩ := List.append_of_mem member
  obtain ⟨_, nodup_back, apart⟩ := List.nodup_append.mp nodup
  have chosen : p seat := (only seat member).mpr rfl
  rw [List.map_append, List.foldl_append, none_left front zeros, List.map_cons, List.foldl_cons,
    if_pos chosen, before]
  · refine none_left back after fun other among holds => ?_
    obtain rfl := (only other (List.mem_append_right _ (List.mem_cons_of_mem _ among))).mp holds
    exact (List.nodup_cons.mp nodup_back).1 among
  · intro other among holds
    obtain rfl := (only other (List.mem_append_left _ among)).mp holds
    exact apart other among other List.mem_cons_self rfl

end

/-- The sum of a piece of a list, by the positions of its entries. -/
theorem sum_take_drop {K : Type} [AddCommMonoid K] (items : List K) (start count : Nat) :
    ((items.drop start).take count).sum =
      ∑ row ∈ Finset.range items.length, if start ≤ row ∧ row < start + count
      then items.getD row 0 else 0 := by
  induction items generalizing start count with
  | nil => simp
  | cons first rest ih =>
    rw [List.length_cons, Finset.sum_range_succ', List.getD_cons_zero]
    simp only [List.getD_cons_succ]
    cases start with
    | zero =>
      cases count with
      | zero => simp
      | succ count =>
        rw [List.drop_zero, List.take_succ_cons, List.sum_cons,
          if_pos ⟨Nat.le_refl _, by omega⟩, add_comm]
        congr 1
        have tail := ih 0 count
        rw [List.drop_zero] at tail
        rw [tail]
        exact Finset.sum_congr rfl fun row _ => if_congr (by omega) rfl rfl
    | succ start =>
      rw [List.drop_succ_cons, if_neg (by omega), add_zero, ih]
      exact Finset.sum_congr rfl fun row _ => if_congr (by omega) rfl rfl

theorem sum_eq_sum_getD {K : Type} [AddCommMonoid K] (items : List K) :
    items.sum = ∑ row ∈ Finset.range items.length, items.getD row 0 := by
  have whole := sum_take_drop items 0 items.length
  rw [List.drop_zero, List.take_length] at whole
  rw [whole]
  refine Finset.sum_congr rfl fun row among => if_pos ⟨Nat.zero_le _, ?_⟩
  rw [Nat.zero_add]
  exact Finset.mem_range.mp among

/-! ## Parts -/

namespace Joint

variable {S : Type} {j : Joint S}

def Covers (j : Joint S) (seat row : Nat) : Prop :=
  (j.band seat).firstRow ≤ row ∧ row < (j.band seat).firstRow + (j.band seat).rows.length

instance (j : Joint S) (seat row : Nat) : Decidable (j.Covers seat row) :=
  inferInstanceAs (Decidable (_ ∧ _))

/-- The bands lie inside of the system, and every row lies in exactly one of them. -/
structure Tiled (j : Joint S) : Prop where
  inside : ∀ seat < j.leads, (j.band seat).firstRow + (j.band seat).rows.length ≤ j.size
  covered : ∀ row < j.size, ∃ seat < j.leads, ∀ other < j.leads, j.Covers other row ↔ other = seat

theorem cut_zipWith (f : S → S → S) (x y : List S) :
    j.cut (List.zipWith f x y) = fun seat => List.zipWith f (j.cut x seat) (j.cut y seat) := by
  funext seat
  rw [cut, List.drop_zipWith, List.take_zipWith]
  rfl

theorem cut_map (f : S → S) (x : List S) : j.cut (x.map f) = fun seat => (j.cut x seat).map f := by
  funext seat
  rw [cut, ← List.map_drop, ← List.map_take]
  rfl

namespace Tiled

variable (tiled : j.Tiled)
include tiled

theorem fits_cut {x : List S} (length : x.length = j.size) : j.Fits (j.cut x) := by
  intro seat below
  have inside := tiled.inside seat below
  rw [cut, List.length_take, List.length_drop, length]
  omega

variable [Scalar S]

/-- What a lead places between zeros, entry by entry. -/
theorem getD_placed {x : List S} (length : x.length = j.size) {seat : Nat} (within : seat < j.leads)
    (row : Nat) : (j.placed (j.cut x) seat).getD row Scalar.zero =
      if j.Covers seat row then x.getD row Scalar.zero else Scalar.zero := by
  have inside := tiled.inside seat within
  have count := tiled.fits_cut length seat within
  simp only [List.getD_eq_getElem?_getD, placed, List.append_assoc]
  rcases Nat.lt_or_ge row (j.band seat).firstRow with before | after
  · rw [List.getElem?_append_left (by rwa [List.length_replicate]),
      List.getElem?_replicate, if_pos before, if_neg fun covers => Nat.not_lt.mpr covers.1 before]
    rfl
  rw [List.getElem?_append_right (by rwa [List.length_replicate]), List.length_replicate]
  rcases Nat.lt_or_ge (row - (j.band seat).firstRow) (j.band seat).rows.length with own | behind
  · rw [List.getElem?_append_left (by rwa [count]), if_pos ⟨after, by omega⟩, cut,
      List.getElem?_take_of_lt own, List.getElem?_drop, Nat.add_sub_cancel' after]
  · have apart : ¬ j.Covers seat row := fun covers => by
      have stop := covers.2
      omega
    rw [List.getElem?_append_right (by rwa [count]), List.getElem?_replicate, if_neg apart]
    split <;> rfl

/-- The parts of a vector of scalars to which zero adds nothing make it up. -/
theorem whole_cut (zeros : (Scalar.zero : S) + Scalar.zero = Scalar.zero) {x : List S}
    (length : x.length = j.size) (neutral : ∀ a ∈ x, Scalar.zero + a = a ∧ a + Scalar.zero = a) :
    j.whole (j.cut x) = x := by
  have lengths : ∀ part ∈ (List.range j.leads).map (j.placed (j.cut x)),
      part.length = (List.replicate j.size (Scalar.zero : S)).length := by
    intro part member
    obtain ⟨seat, among, rfl⟩ := List.mem_map.mp member
    have within := List.mem_range.mp among
    have inside := tiled.inside seat within
    have count := tiled.fits_cut length seat within
    rw [placed, List.length_append, List.length_append, List.length_replicate,
      List.length_replicate, List.length_replicate]
    omega
  refine List.ext_getElem? fun row => ?_
  rcases Nat.lt_or_ge row j.size with below | beyond
  · obtain ⟨seat, within, only⟩ := tiled.covered row below
    have here : x[row]? = some (x.getD row Scalar.zero) := by
      rw [List.getD_eq_getElem?_getD, List.getElem?_eq_getElem (length.symm ▸ below),
        Option.getD_some]
    obtain ⟨before, after⟩ := neutral _ (List.mem_of_getElem? here)
    have start : (List.replicate j.size (Scalar.zero : S)).getD row Scalar.zero = Scalar.zero := by
      rw [List.getD_eq_getElem?_getD, List.getElem?_replicate]
      split <;> rfl
    have terms : ((List.range j.leads).map (j.placed (j.cut x))).map (·.getD row Scalar.zero) =
        (List.range j.leads).map fun seat =>
          if j.Covers seat row then x.getD row Scalar.zero else Scalar.zero := by
      rw [List.map_map]
      exact List.map_congr_left fun other among =>
        tiled.getD_placed length (List.mem_range.mp among) row
    rw [whole, getElem?_foldl_zipWith lengths (by rwa [List.length_replicate]), start, terms, here,
      foldl_add_single zeros before after List.nodup_range (List.mem_range.mpr within)
      fun other among =>
        only other (List.mem_range.mp among)]
  · have short : (j.whole (j.cut x)).length = j.size :=
      length_foldl_add (fun part member => (lengths part member).trans (List.length_replicate ..))
        (List.length_replicate ..)
    rw [List.getElem?_eq_none (short.symm ▸ beyond), List.getElem?_eq_none (length.symm ▸ beyond)]

omit [Scalar S] in
/-- A sum over all parts is the sum over all entries. -/
theorem sum_pieces {K : Type} [AddCommMonoid K] {items : List K} (length : items.length = j.size) :
    ((List.range j.leads).map fun seat =>
      ((items.drop (j.band seat).firstRow).take (j.band seat).rows.length).sum).sum =
        items.sum := by
  have by_rows : ((List.range j.leads).map fun seat =>
      ((items.drop (j.band seat).firstRow).take (j.band seat).rows.length).sum).sum =
      ∑ seat ∈ Finset.range j.leads, ∑ row ∈ Finset.range j.size, if j.Covers seat row
        then items.getD row 0 else 0 := by
    rw [← length]
    exact congrArg List.sum (List.map_congr_left fun seat _ => sum_take_drop items _ _)
  rw [by_rows, Finset.sum_comm, sum_eq_sum_getD, length]
  refine Finset.sum_congr rfl fun row among => ?_
  obtain ⟨seat, within, only⟩ := tiled.covered row (Finset.mem_range.mp among)
  rw [Finset.sum_eq_single seat]
  · exact if_pos ((only seat within).mpr rfl)
  · exact fun other among differ =>
      if_neg fun covers => differ ((only other (Finset.mem_range.mp among)).mp covers)
  · exact fun outside => absurd (Finset.mem_range.mpr within) outside

end Tiled
end Joint
end DeviceTeams
