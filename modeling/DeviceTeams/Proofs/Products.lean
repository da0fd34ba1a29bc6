import DeviceTeams.Proofs.CheckedReals
import Mathlib.Data.List.SplitLengths

/-!
# The product of all leads

A matrix is cut along the rows of a partition, and every lead prepares its piece. The leads put the
whole vector together from their parts of it, so that the pieces of the product that they compute
are those of the product with the whole matrix.
-/
namespace DeviceTeams

variable {S : Type}

/-! ## Pieces of a block -/

theorem drop_runningTotals (start : Nat) (front rest : List Nat) :
    (runningTotals start (front ++ rest)).drop front.length = runningTotals
    (start + front.sum) rest := by
  induction front generalizing start with
  | nil => rfl
  | cons count front ih =>
    rw [List.cons_append, runningTotals, List.length_cons, List.drop_succ_cons, ih,
      List.sum_cons, Nat.add_assoc]

theorem take_runningTotals (start : Nat) (front rest : List Nat) :
    (runningTotals start (front ++ rest)).take (front.length + 1) = runningTotals start front := by
  induction front generalizing start with
  | nil =>
    obtain ⟨later, found⟩ := runningTotals_eq_cons start rest
    rw [List.nil_append, found]
    rfl
  | cons count front ih =>
    rw [List.cons_append, runningTotals, List.length_cons, List.take_succ_cons, ih, runningTotals]

theorem map_sub_runningTotals (base start : Nat) (counts : List Nat) :
    (runningTotals (base + start) counts).map (· - base) = runningTotals start counts := by
  induction counts generalizing start with
  | nil => simp [runningTotals]
  | cons count rest ih =>
    rw [runningTotals, List.map_cons, Nat.add_assoc, ih, Nat.add_sub_cancel_left, runningTotals]

namespace Csr

def restrict (m : Csr S) (s : Span) : Csr S :=
  let start := m.rowPointers.getD s.start 0
  let stop := m.rowPointers.getD s.stop 0
  { nrows := s.length
    ncols := m.ncols
    rowPointers := (m.rowPointers.extract s.start (s.stop + 1)).map (· - start)
    colIndices := m.colIndices.extract start stop
    values := m.values.extract start stop }

variable {ncols : Nat} {rows : List (List (Nat × S))}

theorem getD_rowPointers_ofRows {row : Nat} (inside : row ≤ rows.length) :
    (ofRows ncols rows).rowPointers.getD row 0 = (rows.take row).flatten.length := by
  rw [Array.getD_eq_getD_getElem?, ofRows, List.getElem?_toArray,
    getElem?_runningTotals, List.length_map,
    if_pos inside, Option.getD_some, Nat.zero_add, ← List.map_take, List.length_flatten]

/-- The middle part of a block of rows. -/
theorem restrict_append (front middle back : List (List (Nat × S))) :
    (ofRows ncols (front ++ (middle ++ back))).restrict
    ⟨front.length, front.length + middle.length⟩ = ofRows ncols middle := by
  have start : (ofRows ncols (front ++ (middle ++ back))).rowPointers.getD front.length 0 =
      front.flatten.length := by
    rw [getD_rowPointers_ofRows (by simp), List.take_left]
  have stop : (ofRows ncols (front ++ (middle ++ back))).rowPointers.getD
      (front.length + middle.length) 0 = front.flatten.length + middle.flatten.length := by
    rw [getD_rowPointers_ofRows (by simp), ← List.append_assoc,
      ← List.length_append, List.take_left, List.flatten_append, List.length_append]
  have pointers : ((ofRows ncols (front ++ (middle ++ back))).rowPointers.extract front.length
      (front.length + middle.length + 1)).map (· - front.flatten.length) =
      (ofRows ncols middle).rowPointers := by
    refine Array.toList_inj.mp ?_
    have window : front.length + middle.length + 1 - front.length =
        (middle.map List.length).length + 1 := by
      rw [List.length_map]
      omega
    have dropped := drop_runningTotals 0 (front.map List.length) ((middle ++ back).map List.length)
    rw [List.length_map, ← List.map_append, ← List.length_flatten, Nat.zero_add] at dropped
    rw [Array.toList_map, Array.toList_extract, List.extract_eq_take_drop, window]
    simp only [ofRows, dropped]
    rw [List.map_append, take_runningTotals]
    exact map_sub_runningTotals front.flatten.length 0 _
  have part : ∀ {γ : Type} (f : Nat × S → γ),
      ((front ++ (middle ++ back)).flatten.map f).toArray.extract
      front.flatten.length (front.flatten.length + middle.flatten.length) =
      (middle.flatten.map f).toArray := by
    intro γ f
    refine Array.toList_inj.mp ?_
    rw [List.flatten_append, List.flatten_append]
    generalize front.flatten = before
    generalize middle.flatten = entries
    generalize back.flatten = after
    simp [List.extract_eq_take_drop]
  rw [restrict]
  simp only [start, stop, pointers]
  simp only [ofRows, part, Span.length, Nat.add_sub_cancel_left]

end Csr

variable [Scalar S]

/-! ## Bands one after the other -/

/-- Bands that come one after the other tile the rows. -/
theorem Joint.tiled_ofBands (bands : List (List (List (Nat × S)))) :
    (Joint.ofBands bands).Tiled := by
  refine ⟨fun seat below => inside_ofBands below, fun row below => ?_⟩
  obtain ⟨seat, inside, only⟩ := exists_owner below
  rw [List.length_map] at inside
  refine ⟨seat, inside, fun other _ => ?_⟩
  have count : (bands.map List.length).getD other 0 = (bands.getD other []).length := by
    simp only [List.getD_eq_getElem?_getD, List.getElem?_map]
    cases bands[other]? <;> rfl
  rw [← only other, count]
  rfl

namespace Joint

omit [Scalar S] in
def rowsOf (j : Joint S) (seat : Nat) : Span :=
  ⟨(j.band seat).firstRow, (j.band seat).firstRow + (j.band seat).rows.length⟩

omit [Scalar S] in
theorem cut_eq (j : Joint S) (items : List S) (seat : Nat) :
    j.cut items seat = (j.rowsOf seat).cut items := by
  rw [cut, Span.cut, rowsOf, Nat.add_sub_cancel_left]

variable {bands : List (List (List (Nat × S)))} {seat : Nat} (below : seat < bands.length)

theorem firstRow_ofBands (bands : List (List (List (Nat × S)))) (seat : Nat) :
    ((ofBands bands).band seat).firstRow = (bands.take seat).flatten.length := by
  rw [List.length_flatten, List.map_take]
  rfl

include below

theorem restrict_rowsOf (ncols : Nat) :
    (Csr.ofRows ncols bands.flatten).restrict ((ofBands bands).rowsOf seat) =
    .ofRows ncols (bands.getD seat []) := by
  rw [flatten_of_found (getElem?_of_lt_leads below), rowsOf, firstRow_ofBands]
  exact Csr.restrict_append ..

theorem cut_rowsOf {γ : Type} (f : List (Nat × S) → γ) :
    ((ofBands bands).rowsOf seat).cut (bands.flatten.map f) = (bands.getD seat []).map f := by
  rw [flatten_of_found (getElem?_of_lt_leads below), rowsOf, firstRow_ofBands, Span.cut,
    Nat.add_sub_cancel_left]
  show (List.drop _ _).take (bands.getD seat []).length = _
  generalize (bands.take seat).flatten = front
  generalize (bands.drop (seat + 1)).flatten = back
  simp

theorem range_ofBands : (RowPartition.mk (runningTotals 0 (bands.map List.length))).range seat =
    .ok ((ofBands bands).rowsOf seat) :=
  partOf_runningTotals (by rw [List.getElem?_map, getElem?_of_lt_leads below]; rfl)

omit below in
/-- The leads' parts of what is computed row by row make up the whole. -/
theorem flatten_cut_rowsOf {γ : Type} (f : List (Nat × S) → γ) :
    ((List.range bands.length).map fun seat =>
    ((ofBands bands).rowsOf seat).cut (bands.flatten.map f)).flatten = bands.flatten.map f := by
  have parts : ((List.range bands.length).map fun seat =>
      ((ofBands bands).rowsOf seat).cut (bands.flatten.map f)) =
      bands.map (List.map f) := by
    refine List.ext_getElem (by simp) fun seat _ inside => ?_
    rw [List.length_map] at inside
    rw [List.getElem_map, List.getElem_range, cut_rowsOf inside, List.getElem_map,
      List.getD_eq_getElem?_getD, List.getElem?_eq_getElem inside, Option.getD_some]
  rw [parts, List.map_flatten]

/-- Leads whose bands follow one another compute their parts of the product with the whole
vector. -/
theorem product_ofBands {x : List S} (length : x.length = (ofBands bands).size)
    (neutral : ∀ a ∈ Scalar.zero :: x, Scalar.zero + a = a ∧ a + Scalar.zero = a) :
    (ofBands bands).product ((ofBands bands).cut x) seat =
      ((ofBands bands).rowsOf seat).cut (bands.flatten.map (rowTimes x)) := by
  have gathered : (ofBands bands).whole ((ofBands bands).cut x) = x :=
    (tiled_ofBands bands).whole_cut (neutral _ List.mem_cons_self).1 length fun a among =>
      neutral a (List.mem_cons_of_mem _ among)
  rw [product, gathered, cut_rowsOf below]
  rfl

end Joint

/-! ## The product -/

variable {L : Finset Nat} {node : Nat → Nat} {N : Nat → Group}

namespace Joint.HeldBy

variable {bands : List (List (List (Nat × S)))} (held : (Joint.ofBands bands).HeldBy node L N)
include held

/-- Every lead comes to its part of what the whole rows make of the whole vector. -/
theorem apply_ofBands {n : Nat} (within : L ⊆ Finset.range n) {hubs : Hubs S} {rounds : Rounds}
    (resting : hubs.Resting rounds) (sound : (Joint.ofBands bands).Sound) {x : List S}
    (length : x.length = (Joint.ofBands bands).size)
    (neutral : ∀ a ∈ Scalar.zero :: x, Scalar.zero + a = a ∧ a + Scalar.zero = a) :
    EndsAmong n L hubs (fun rank => (((Joint.ofBands bands).system (N rank).rank).apply (N rank)
        (((Joint.ofBands bands).rowsOf (N rank).rank).cut x)).run)
      fun rank => .ok (((Joint.ofBands bands).rowsOf (N rank).rank).cut
        (bands.flatten.map (rowTimes x))) := by
  have fits := (Joint.tiled_ofBands bands).fits_cut length
  obtain ⟨v, ⟨w, values, parts⟩, ends⟩ :=
    Completes.endsAmong (held.apply_succeeds sound fits) within resting
  refine ends.congr (fun rank _ => by simp only [Joint.cut_eq]) fun rank inside => ?_
  rw [values rank inside, parts rank inside,
    Joint.product_ofBands (held.seat_lt inside) length neutral]

/-- The parts of the leads, in the order of the leads, make up what is computed row by row. -/
theorem flatten_parts {γ : Type} (f : List (Nat × S) → γ) {rank : Nat} (inside : rank ∈ L) :
    ((N rank).hub.ranks.map fun member =>
      ((Joint.ofBands bands).rowsOf (N member).rank).cut (bands.flatten.map f)).flatten =
        bands.flatten.map f := by
  have seats := held.together.map_seat (fun seat =>
    ((Joint.ofBands bands).rowsOf seat).cut (bands.flatten.map f)) inside
  rw [seats, held.leads rank inside]
  exact Joint.flatten_cut_rowsOf f

end Joint.HeldBy

omit [Scalar S] in
/-- A partition cuts the rows into bands. -/
theorem exists_bands {rows : List (List (Nat × S))} {counts : List Nat}
    (total : counts.sum = rows.length) :
    ∃ bands : List (List (List (Nat × S))), rows = bands.flatten ∧ counts = bands.map List.length :=
  ⟨counts.splitLengths rows, (List.flatten_splitLengths _ _ (Nat.le_of_eq total.symm)).symm,
    (List.map_splitLengths_length _ _ (Nat.le_of_eq total)).symm⟩

/-- A matrix is cut along a partition of its rows, and every lead prepares its piece. What the leads
compute from their parts of a vector, put together in the order of the leads, is the product of the
whole matrix with the whole vector, in which every row is summed from the left to the right. The
whole vector has to fit into memory, like any list of doubles. -/
theorem apply_pieces {n : Nat} (together : Together node L N)
    (within : L ⊆ Finset.range n) {hubs : Hubs S} {rounds : Rounds} (resting : hubs.Resting rounds)
    {m : Csr S} (valid : m.validate = .ok ()) (square : m.ncols = m.nrows) {counts : List Nat}
    (leads : ∀ rank ∈ L, counts.length = (N rank).size) (total : counts.sum = m.nrows) {x : List S}
    (length : x.length = m.nrows) (memory : Word.request x.length 8 = .ok ())
    (neutral : ∀ a ∈ Scalar.zero :: x, Scalar.zero + a = a ∧ a + Scalar.zero = a) :
    ∃ (partition : RowPartition) (span : Nat → Span) (system : Nat → System S) (whole : List S),
      RowPartition.ofCounts counts = .ok partition ∧
      (∀ rank ∈ L, partition.range (N rank).rank = .ok (span rank) ∧
        System.prepare (m.restrict (span rank)) (span rank).start m.nrows = .ok (system rank)) ∧
      m.spmv x = .ok whole ∧
      (∀ row < m.nrows, ∃ entries, m.rowEntries row = .ok entries ∧
        whole[row]? = some (rowTimes x entries)) ∧
      EndsAmong n L hubs (fun rank => ((system rank).apply (N rank) ((span rank).cut x)).run)
        (fun rank => .ok ((span rank).cut whole)) ∧
      ∀ rank ∈ L, ((N rank).hub.ranks.map fun member => (span member).cut whole).flatten =
        whole := by
  obtain ⟨rows, same, word, tidy⟩ := Csr.validate_eq_ok_iff.mp valid
  obtain ⟨bands, rfl, rfl⟩ := exists_bands (total.trans (congrArg Csr.nrows same))
  generalize m.ncols = ncols at same square tidy
  subst same
  obtain rfl : ncols = (bands.map List.length).sum := square.trans total.symm
  have room : (bands.map List.length).sum * 8 < 2 ^ 63 := by
    rw [total, ← length]
    exact Word.request_eq_ok_iff.mp memory
  have sound : (Joint.ofBands bands).Sound := Joint.sound_ofBands (fun band among row member =>
    tidy row (List.mem_flatten.mpr ⟨band, among, member⟩)) room
  have held : (Joint.ofBands bands).HeldBy node L N := by
    refine ⟨together, fun rank inside => ?_⟩
    rw [Hub.length_ranks]
    exact (leads rank inside).symm.trans (List.length_map ..)
  have fits : x.length = (Joint.ofBands bands).size := length.trans total.symm
  refine ⟨⟨runningTotals 0 (bands.map List.length)⟩, fun rank =>
    (Joint.ofBands bands).rowsOf (N rank).rank,
    fun rank => (Joint.ofBands bands).system (N rank).rank, bands.flatten.map (rowTimes x), ?_,
    fun rank inside => ⟨Joint.range_ofBands (held.seat_lt inside), ?_⟩, ?_, fun row below => ?_,
    held.apply_ofBands within resting sound fits neutral, fun rank inside =>
      held.flatten_parts _ inside⟩
  · exact RowPartition.ofCounts_eq (Word.lt_limit_of_bytes room)
  · have own := Joint.system_ofBands (Joint.getElem?_of_lt_leads (held.seat_lt inside))
    rw [Joint.restrict_rowsOf (held.seat_lt inside), ← total]
    exact (System.prepare_eq ..).trans (congrArg Except.ok own.symm)
  · exact Csr.spmv_ofRows (fun row member => (tidy row member).inside) fits
  · have found := List.getElem?_eq_getElem (l := bands.flatten) below
    exact ⟨_, Csr.rowEntries_ofRows found, by rw [List.getElem?_map, found, Option.map_some]⟩

def threeRows : Csr CheckedReal :=
  .ofRows 3 [[(0, .value 1), (1, .value 1)], [(1, .value 1)], [(2, .value 1)]]

/-- The first of three leads has two of the rows, the second one none. -/
theorem apply_pieces_uneven :
    ∃ (span : Nat → Span) (system : Nat → System CheckedReal) (whole : List CheckedReal),
    (∀ rank < 3, System.prepare (threeRows.restrict (span rank)) (span rank).start 3 =
      .ok (system rank)) ∧
    threeRows.spmv [.value 1, .value 0, .value (-1)] = .ok whole ∧
    EndsAmong 3 (Finset.range 3) []
      (fun rank => ((system rank).apply (Group.world [0, 0, 1] rank)
        ((span rank).cut [.value 1, .value 0, .value (-1)])).run)
      (fun rank => .ok ((span rank).cut whole)) := by
  have neutral : ∀ a ∈ Scalar.zero :: [CheckedReal.value 1, .value 0, .value (-1)],
      Scalar.zero + a = a ∧ a + Scalar.zero = a := by
    have number : ∀ r : ℝ, Scalar.zero + CheckedReal.value r = .value r ∧
      CheckedReal.value r + Scalar.zero = .value r :=
      fun r => ⟨congrArg CheckedReal.value (zero_add r), congrArg CheckedReal.value (add_zero r)⟩
    simp only [List.forall_mem_cons]
    exact ⟨number 0, number 1, number 0, number (-1), fun _ member => nomatch member⟩
  have leads : ∀ rank ∈ Finset.range 3, [2, 0, 1].length = (Group.world [0, 0, 1] rank).size :=
    fun _ _ => rfl
  obtain ⟨_, span, system, whole, _, prepares, multiplies, _, ends, _⟩ :=
    apply_pieces (Together.world [0, 0, 1]) (Finset.Subset.refl _) Hubs.resting_nil
      (m := threeRows) rfl rfl leads rfl rfl rfl neutral
  exact ⟨span, system, whole, fun rank below => (prepares rank (Finset.mem_range.mpr below)).2,
    multiplies, ends⟩

end DeviceTeams
