import DeviceTeams.CommandLine.Run
import DeviceTeams.Proofs.Blocks
import DeviceTeams.Proofs.TeamAssembly
import DeviceTeams.Proofs.Turns

/-!
# The blocks of the Laplacian

The ranks of a run cut the Laplacian into blocks of rows. If their teams are unbroken every block is
where it belongs, also where there are more ranks than rows, and the ranks can find out how far a
solution is off.
-/
namespace DeviceTeams

variable {S : Type} [Scalar S] {A : Finset Nat} {node : Nat → Nat} {G : Nat → Group}
  {h : Nat → Hierarchy} {nodes : List Nat}

/-! ## Contributions as matrices -/

namespace RowShare.Collects

variable {m : RowShare S} {globalRows globalCols : Nat} {rows : Span} {triplets : List (Triplet S)}
  {lines : List (List (Nat × S))} (collects : m.Collects globalRows globalCols rows triplets lines)
include collects

theorem localRows_eq : m.localRows = rows.length := by
  obtain ⟨stored, block, _, count, _⟩ := collects.valid.exists_rows
  have same : Csr.ofRows m.globalCols stored = .ofRows globalCols lines :=
    Except.ok.inj (block.symm.trans collects.block)
  rw [← count, ← collects.count]
  exact congrArg Csr.nrows same

theorem localNnz_le : m.localNnz ≤ triplets.length := by
  obtain ⟨stored, block, _, _, entries⟩ := collects.valid.exists_rows
  have same : Csr.ofRows m.globalCols stored = .ofRows globalCols lines :=
    Except.ok.inj (block.symm.trans collects.block)
  have values := congrArg (fun block => block.values.size) same
  simp only [Csr.size_values_ofRows, ← List.length_flatten] at values
  rw [← entries, values]
  exact collects.short

end RowShare.Collects

/-- What the ranks contribute is a matrix that they can set. -/
theorem Contributions.fitting {size : Nat} {rows cols : Nat → Span}
    {triplets : Nat → List (Triplet S)}
    (contributions : Contributions h nodes.length size rows cols triplets) {m : Nat → RowShare S}
    {lines : Nat → List (List (Nat × S))}
    (collects : ∀ rank < nodes.length, (m rank).Collects size size (rows rank)
      (triplets rank) (lines rank)) :
    Fitting nodes h m := by
  have memory := contributions.memory
  have small : size < 2 ^ 63 := by omega
  have sizes : ∀ rank < nodes.length, (m rank).globalRows = size ∧
      (m rank).globalCols = size := fun rank below =>
    ⟨(collects rank below).globalRows_eq, (collects rank below).globalCols_eq⟩
  have tiles := (contributions.tiles_shares collects).congr fun rank among =>
    (collects rank (List.mem_range.mp among)).localRows_eq.trans
      (collects rank (List.mem_range.mp among)).count.symm
  have pointers : ((List.range nodes.length).map fun rank => (m rank).localRows + 1).sum =
      size + nodes.length := by
    rw [List.sum_map_add, tiles.total]
    simp
  have entries : ((List.range nodes.length).map fun rank => (m rank).localNnz).sum ≤
      ((List.range nodes.length).map fun rank => (triplets rank).length).sum :=
    List.sum_le_sum fun rank among => (collects rank (List.mem_range.mp among)).localNnz_le
  refine ⟨⟨fun rank below => ?_, ⟨size, size, small, small, sizes⟩, ?_⟩, size, small, sizes, tiles⟩
  · exact RowShare.validate_eq_ok_iff.mpr (collects rank below).valid
  · rw [sum_bytes fun rank among => (collects rank (List.mem_range.mp among)).valid, pointers]
    omega

namespace CommandLine

open Assignment (band)

/-! ## Rows of the Laplacian -/

variable {n : Nat} {rows : Span}

theorem mem_laplacianRow {row : Nat} (below : row < n) {t : Triplet S}
    (member : t ∈ laplacianRow n row) :
    t.row = row ∧ t.column < n := by
  simp only [laplacianRow, List.mem_append, List.mem_singleton, List.mem_ite_nil_right] at member
  rcases member with (⟨_, rfl⟩ | rfl) | ⟨next, rfl⟩
  · exact ⟨rfl, by simp only; omega⟩
  · exact ⟨rfl, below⟩
  · exact ⟨rfl, next⟩

theorem length_laplacianRow_le (row : Nat) :
    (laplacianRow n row : List (Triplet S)).length ≤ 3 := by
  simp only [laplacianRow, List.length_append, List.length_singleton]
  split <;> split <;> simp

def blockEntries (n : Nat) (rows : Span) : List (Triplet S) :=
  (List.range' rows.start rows.length).flatMap (laplacianRow n)

theorem laplacianRows_eq (room : 72 * rows.length < 2 ^ 63) :
    laplacianRows n rows = .ok (blockEntries n rows : List (Triplet S)) := by
  rw [laplacianRows, Word.mul_of_lt (by rw [Word.limit]; omega), Attempt.ok_bind,
    Word.request_of_lt (by omega)]
  rfl

theorem mem_blockEntries (stop : rows.stop ≤ n) {t : Triplet S} (member : t ∈ blockEntries n rows) :
    rows.contains t.row = true ∧ t.column < n := by
  obtain ⟨row, among, belongs⟩ := List.mem_flatMap.mp member
  have within := List.mem_range'_1.mp among
  rw [Span.length] at within
  obtain ⟨rfl, column⟩ := mem_laplacianRow (by omega) belongs
  refine ⟨?_, column⟩
  simp only [Span.contains, Bool.and_eq_true, decide_eq_true_eq]
  omega

theorem length_blockEntries_le :
    (blockEntries n rows : List (Triplet S)).length ≤ 3 * rows.length := by
  have each : ((List.range' rows.start rows.length).map fun row =>
      (laplacianRow n row : List (Triplet S)).length).sum ≤
      ((List.range' rows.start rows.length).map fun _ => 3).sum :=
    List.sum_le_sum fun row _ => length_laplacianRow_le row
  rw [List.map_const', List.sum_replicate_nat, List.length_range'] at each
  rw [blockEntries, List.length_flatMap]
  omega

/-! ## Blocks of ranks -/

variable {total : Nat}

/-- The blocks of all ranks make up the Laplacian. -/
theorem contributions_blocks
    (ranked : Ranked (fun rank => nodes.getD rank 0) (Finset.range nodes.length)
      (Group.world nodes) h)
    (unbroken : Unbroken nodes.length h) (some_rank : 0 < nodes.length)
    (few : nodes.length < 2 ^ 32) (memory : 72 * total < 2 ^ 63) :
    Contributions h nodes.length total (band nodes.length total) (band nodes.length total)
      fun rank => (blockEntries total (band nodes.length total rank) : List (Triplet S)) := by
  have whole : ((List.range nodes.length).map fun rank =>
      (band nodes.length total rank).length).sum = total := by
    rw [Assignment.sum_length_band, Assignment.bandStart_all some_rank]
  have entries : ((List.range nodes.length).map fun rank =>
      (blockEntries total (band nodes.length total rank) : List (Triplet S)).length).sum ≤ 3 *
        total := by
    have own : ∀ rank ∈ List.range nodes.length,
        (blockEntries total (band nodes.length total rank) :
        List (Triplet S)).length ≤ 3 * (band nodes.length total rank).length :=
        fun _ _ => length_blockEntries_le
    have each := List.sum_le_sum own
    rwa [List.sum_map_mul_left, whole] at each
  refine ⟨?_, fun rank below => ?_, fun rank below t member => ?_, by omega⟩
  · exact ranked.tiles_of_unbroken unbroken
      (fun rank _ => (Assignment.sum_length_band rank).symm) whole
  · have stop : (band nodes.length total rank).stop ≤ total := Assignment.stop_band_le below
    exact ⟨Nat.le_trans (Assignment.start_band_le rank) stop, stop⟩
  · exact mem_blockEntries (Assignment.stop_band_le below) member

/-! ## The residual -/

/-- A rank can tell what is left of the equation of a row if it has all entries of the solution. -/
theorem exists_squaredDefect {entries : List (Triplet S)} {x : Array S}
    (columns : ∀ t ∈ entries, t.column < x.size) (row : Nat) :
    ∃ square, squaredDefect entries x row = .ok square := by
  have terms : (entries.filter (·.row == row)).mapM (fun entry => do
      pure (entry.value * (← .ofOption x[entry.column]?)) : Triplet S → Attempt S) =
      .ok ((entries.filter (·.row == row)).map fun entry =>
        entry.value * x.getD entry.column Scalar.zero) := by
    refine Attempt.mapM_of fun entry member => ?_
    have within := columns entry (List.mem_filter.mp member).1
    rw [Array.getElem?_eq_getElem within, Attempt.ofOption_some, Attempt.ok_bind,
      Array.getD_eq_getD_getElem?, Array.getElem?_eq_getElem within]
    rfl
  rw [squaredDefect, terms]
  exact ⟨_, rfl⟩

/-- All ranks come to the residual of a solution whose parts are as long as their blocks. -/
theorem residual_succeeds (t : Together node A G) {rows : Nat → Span}
    {entries : Nat → List (Triplet S)} {x : Nat → List S}
    (fits : ∀ rank ∈ A, (rows rank).start ≤ (rows rank).stop ∧ (rows rank).stop ≤ n ∧
      (x rank).length = (rows rank).length)
    (columns : ∀ rank ∈ A, ∀ t ∈ entries rank, t.column < n) :
    Succeeds A (fun rank => residual (G rank) n (rows rank) (entries rank) (x rank)) fun _ =>
      True := by
  let spread : Nat → List S := fun rank => List.replicate (rows rank).start Scalar.zero ++ x rank ++
    List.replicate (n - (rows rank).stop) Scalar.zero
  have lengths : ∀ rank ∈ A, (spread rank).length = n := by
    intro rank inside
    have own := fits rank inside
    rw [Span.length] at own
    simp only [spread, List.length_append, List.length_replicate]
    omega
  refine (t.sumVector spread lengths).bind fun whole sums => ?_
  have size : ∀ rank ∈ A, (whole rank).toArray.size = n := by
    intro rank inside
    rw [sums rank inside, List.size_toArray]
    refine Joint.length_foldl_add (fun part among => ?_) (List.length_replicate ..)
    obtain ⟨other, belongs, rfl⟩ := List.mem_map.mp among
    exact lengths other (t.of_mem inside belongs).1
  have squares : ∀ rank ∈ A, ∃ squares, (List.range' (rows rank).start (rows rank).length).mapM
      (squaredDefect (entries rank) (whole rank).toArray) = .ok squares := by
    intro rank inside
    have each := exists_squaredDefect fun t member =>
      (columns rank inside t member).trans_eq (size rank inside).symm
    choose square defined using each
    exact ⟨_, Attempt.mapM_of fun row _ => defined row⟩
  choose! square defined using squares
  refine (Succeeds.ofAttempt (w := square) defined fun _ _ => rfl).bind_eq ?_
  exact (t.sum fun rank => (square rank).foldl (· + ·) Scalar.zero).bind fun total _ =>
    .pure trivial

end CommandLine
end DeviceTeams
