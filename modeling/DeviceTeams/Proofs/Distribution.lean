import DeviceTeams.Proofs.Assembly
import DeviceTeams.Proofs.Shares

/-!
# Shares assembled from triplets

A process that hands in contributions to its own rows gets a share whose rows in global columns are
the rows of their sums, wherever its diagonal columns lie.
-/
namespace DeviceTeams

variable {S : Type}

/-! ## Contributions in other numberings -/

section Sums

variable [Scalar S] {row column : Nat}

/-- Renumbered contributions have the same sums. -/
theorem sumAt_map {triplets : List (Triplet S)} {f : Triplet S → Triplet S} {row' column' : Nat}
    (values : ∀ t, (f t).value = t.value)
    (places : ∀ t ∈ triplets, (f t).At row column ↔ t.At row' column') :
    sumAt (triplets.map f) row column = sumAt triplets row' column' := by
  have from_any : ∀ sum, sumFrom row column sum (triplets.map f) =
      sumFrom row' column' sum triplets := by
    induction triplets with
    | nil => exact fun _ => rfl
    | cons first rest ih =>
      intro sum
      rw [List.map_cons, sumFrom, sumFrom, values, ih fun t member =>
        places t (List.mem_cons_of_mem _ member)]
      simp only [places first List.mem_cons_self]
  exact from_any none

/-- Contributions to other places can be left out. -/
theorem sumAt_filter {triplets : List (Triplet S)} {keep : Triplet S → Bool}
    (kept : ∀ t ∈ triplets, t.At row column → keep t = true) :
    sumAt (triplets.filter keep) row column = sumAt triplets row column := by
  refine sumAt_congr ?_
  rw [List.filter_filter]
  refine List.filter_congr fun t member => ?_
  by_cases here : t.At row column
  · simp [here, kept t member here]
  · simp [here]

end Sums

namespace RowShare

/-! ## The column map -/

theorem mem_dropRepeats {n : Nat} {numbers : List Nat} : n ∈ dropRepeats numbers ↔ n ∈ numbers := by
  fun_induction dropRepeats numbers with
  | case1 => rfl
  | case2 => rfl
  | case3 first rest ih =>
    rw [ih]
    simp
  | case4 first next rest differ ih =>
    rw [List.mem_cons, ih, ← List.mem_cons]

theorem pairwise_dropRepeats {numbers : List Nat} (sorted : numbers.Pairwise (· ≤ ·)) :
    (dropRepeats numbers).Pairwise (· < ·) := by
  fun_induction dropRepeats numbers with
  | case1 => exact .nil
  | case2 n => exact List.pairwise_singleton ..
  | case3 first rest ih => exact ih (List.pairwise_cons.mp sorted).2
  | case4 first next rest differ ih =>
    obtain ⟨least, later⟩ := List.pairwise_cons.mp sorted
    refine List.pairwise_cons.mpr ⟨fun n member => ?_, ih later⟩
    have first_le := least next List.mem_cons_self
    rcases List.mem_cons.mp (mem_dropRepeats.mp member) with rfl | among
    · omega
    · have := (List.pairwise_cons.mp later).1 n among
      omega

variable {cols : Span} {triplets : List (Triplet S)}

theorem mem_mapColumns {column : Nat} : column ∈ mapColumns cols triplets ↔
    (∃ t ∈ triplets, t.column = column) ∧ cols.contains column = false := by
  rw [mapColumns, mem_dropRepeats, List.mem_mergeSort]
  simp

theorem pairwise_mapColumns : (mapColumns cols triplets).Pairwise (· < ·) := by
  refine pairwise_dropRepeats ((List.pairwise_mergeSort ?_ ?_ _).imp of_decide_eq_true)
  · intro a b c
    simpa using Nat.le_trans
  · intro a b
    simpa using Nat.le_total a b

theorem getD_idxOf {columns : List Nat} {column : Nat} (member : column ∈ columns) :
    columns.toArray.getD (columns.idxOf column) 0 = column := by
  have inside := List.idxOf_lt_length_of_mem member
  simp [Array.getD_eq_getD_getElem?, List.getElem?_eq_getElem inside, List.getElem_idxOf]

/-! ## The halves of a row -/

section Halves

variable {rows : Span} {row column : Nat}

theorem mem_diagonalPart {t : Triplet S} (member : t ∈ diagonalPart rows cols triplets) :
    ∃ t' ∈ triplets,
    t.row = t'.row - rows.start ∧ cols.start + t.column = t'.column ∧ t.column < cols.length := by
  obtain ⟨t', among, rfl⟩ := List.mem_map.mp member
  obtain ⟨belongs, within⟩ := List.mem_filter.mp among
  simp only [Span.contains, Bool.and_eq_true, decide_eq_true_eq] at within
  have inside : t'.column - cols.start < cols.stop - cols.start := by omega
  exact ⟨t', belongs, rfl, Nat.add_sub_cancel' within.1, inside⟩

theorem mem_offDiagonalPart {t : Triplet S}
    (member : t ∈ offDiagonalPart rows cols (mapColumns cols triplets) triplets) : ∃ t' ∈ triplets,
    t.row = t'.row - rows.start ∧ t'.column ∈ mapColumns cols triplets ∧
      t.column = (mapColumns cols triplets).idxOf t'.column := by
  obtain ⟨t', among, rfl⟩ := List.mem_map.mp member
  obtain ⟨belongs, without⟩ := List.mem_filter.mp among
  exact ⟨t', belongs, rfl, mem_mapColumns.mpr ⟨⟨t', belongs, rfl⟩, by simpa using without⟩, rfl⟩

variable (rows cols triplets) in
theorem length_parts : (diagonalPart rows cols triplets).length +
    (offDiagonalPart rows cols (mapColumns cols triplets) triplets).length = triplets.length := by
  rw [diagonalPart, offDiagonalPart, List.length_map, List.length_map]
  exact (List.length_eq_length_filter_add fun t : Triplet S => cols.contains t.column).symm

variable [Scalar S]

theorem sumAt_diagonalPart (own : ∀ t ∈ triplets, rows.start ≤ t.row)
    (inside : column < cols.length) :
    sumAt (diagonalPart rows cols triplets) row column =
      sumAt triplets (rows.start + row) (cols.start + column) := by
  rw [Span.length] at inside
  have renumbered : sumAt (diagonalPart rows cols triplets) row column =
      sumAt (triplets.filter fun t => cols.contains t.column) (rows.start + row)
      (cols.start + column) := by
    refine sumAt_map (fun _ => rfl) fun t member => ?_
    obtain ⟨among, within⟩ := List.mem_filter.mp member
    have := own t among
    simp only [Span.contains, Bool.and_eq_true, decide_eq_true_eq] at within
    simp only [Triplet.At]
    omega
  rw [renumbered, sumAt_filter fun t _ here => ?_]
  rw [here.2]
  simp only [Span.contains, Bool.and_eq_true, decide_eq_true_eq]
  omega

theorem sumAt_offDiagonalPart (own : ∀ t ∈ triplets, rows.start ≤ t.row)
    (mapped : column ∈ mapColumns cols triplets) :
    sumAt (offDiagonalPart rows cols (mapColumns cols triplets) triplets) row
        ((mapColumns cols triplets).idxOf column) = sumAt triplets (rows.start + row) column := by
  have outside := (mem_mapColumns.mp mapped).2
  have renumbered : sumAt (offDiagonalPart rows cols (mapColumns cols triplets) triplets) row
      ((mapColumns cols triplets).idxOf column) =
      sumAt (triplets.filter fun t => !cols.contains t.column) (rows.start + row) column := by
    refine sumAt_map (fun _ => rfl) fun t member => ?_
    obtain ⟨among, without⟩ := List.mem_filter.mp member
    have := own t among
    have belongs : t.column ∈ mapColumns cols triplets :=
      mem_mapColumns.mpr ⟨⟨t, among, rfl⟩, by simpa using without⟩
    simp only [Triplet.At, List.idxOf_inj belongs]
    omega
  rw [renumbered, sumAt_filter fun t _ here => ?_]
  rw [here.2, outside]
  rfl

/-- The halves of a row of sums make up the row of sums. -/
theorem sumsUp_joined {m : RowShare S} {diagonal offDiagonal : List (Nat × S)}
    (start : m.colStart = cols.start) (map : m.columnMap = (mapColumns cols triplets).toArray)
    (own : ∀ t ∈ triplets, rows.start ≤ t.row)
    (sums : SumsUp (diagonalPart rows cols triplets) row diagonal)
    (sums' : SumsUp (offDiagonalPart rows cols (mapColumns cols triplets) triplets) row offDiagonal)
    (ascends : (m.joined diagonal offDiagonal).Pairwise fun a b => a.1 < b.1) :
    SumsUp triplets (rows.start + row) (m.joined diagonal offDiagonal) := by
  refine ⟨ascends, fun column value => ?_⟩
  rw [mem_joined, mem_shifted, mem_widened, start, map]
  constructor
  · rintro (⟨c, member, rfl⟩ | ⟨c, member, rfl⟩)
    · have found := (sums.stored c value).mp member
      obtain ⟨t, among, here⟩ := isSome_sumAt.mp (Option.isSome_iff_exists.mpr ⟨value, found⟩)
      obtain ⟨_, _, _, _, inside⟩ := mem_diagonalPart among
      rw [here.2] at inside
      rwa [sumAt_diagonalPart own inside] at found
    · have found := (sums'.stored c value).mp member
      obtain ⟨t, among, here⟩ := isSome_sumAt.mp (Option.isSome_iff_exists.mpr ⟨value, found⟩)
      obtain ⟨t', _, _, mapped, place⟩ := mem_offDiagonalPart among
      rw [here.2] at place
      rw [place, sumAt_offDiagonalPart own mapped] at found
      rwa [place, getD_idxOf mapped]
  · intro found
    obtain ⟨t, among, here⟩ := isSome_sumAt.mp (Option.isSome_iff_exists.mpr ⟨value, found⟩)
    by_cases within : cols.contains column = true
    · have bounds := within
      simp only [Span.contains, Bool.and_eq_true, decide_eq_true_eq] at bounds
      have inside : column - cols.start < cols.length := by
        rw [Span.length]
        omega
      have same : cols.start + (column - cols.start) = column := Nat.add_sub_cancel' bounds.1
      refine .inl ⟨column - cols.start, (sums.stored _ _).mpr ?_, same.symm⟩
      rw [sumAt_diagonalPart own inside, same, found]
    · have mapped : column ∈ mapColumns cols triplets :=
        mem_mapColumns.mpr ⟨⟨t, among, here.2⟩, by simpa using within⟩
      refine .inr ⟨(mapColumns cols triplets).idxOf column, (sums'.stored _ _).mpr ?_,
        (getD_idxOf mapped).symm⟩
      rw [sumAt_offDiagonalPart own mapped, found]

end Halves

/-! ## Shares -/

/-- A share with the sums of the triplets in the rows of a span. -/
structure Collects [Scalar S] (m : RowShare S) (globalRows globalCols : Nat) (rows : Span)
    (triplets : List (Triplet S)) (lines : List (List (Nat × S))) : Prop where
  valid : m.Valid
  globalRows_eq : m.globalRows = globalRows
  globalCols_eq : m.globalCols = globalCols
  rowStart_eq : m.rowStart = rows.start
  block : m.localBlock = .ok (.ofRows globalCols lines)
  count : lines.length = rows.length
  sums : Assembles triplets rows.start lines
  short : lines.flatten.length ≤ triplets.length

def ofHalves (globalRows globalCols : Nat) (rows cols : Span) (columnMap : List Nat)
    (diagonals offDiagonals : List (List (Nat × S))) : RowShare S where
  globalRows := globalRows
  globalCols := globalCols
  rowStart := rows.start
  colStart := cols.start
  diagonal := .ofRows cols.length diagonals
  offDiagonal := .ofRows columnMap.length offDiagonals
  columnMap := columnMap.toArray

structure Halves [Scalar S] (rows cols : Span) (triplets : List (Triplet S))
    (diagonals offDiagonals : List (List (Nat × S))) : Prop where
  count : diagonals.length = rows.length
  count' : offDiagonals.length = rows.length
  sums : Assembles (diagonalPart rows cols triplets) 0 diagonals
  sums' : Assembles (offDiagonalPart rows cols (mapColumns cols triplets) triplets) 0 offDiagonals
  short : diagonals.flatten.length + offDiagonals.flatten.length ≤ triplets.length

section Shares

variable [Scalar S] {globalRows globalCols : Nat} {rows : Span}
  {diagonals offDiagonals : List (List (Nat × S))}

omit [Scalar S] in
theorem own_row (inside : ∀ t ∈ triplets, rows.contains t.row = true ∧ t.column < globalCols) :
    ∀ t ∈ triplets, rows.start ≤ t.row ∧ t.row - rows.start < rows.length := by
  intro t member
  have within := (inside t member).1
  simp only [Span.contains, Bool.and_eq_true, decide_eq_true_eq] at within
  rw [Span.length]
  omega

/-- Triplets in the rows of a process are distributed to two blocks of sums, and only then is the
share checked. -/
theorem ofTriplets_halves (globalRows : Nat) (cols : Span)
    (inside : ∀ t ∈ triplets, rows.contains t.row = true ∧ t.column < globalCols)
    (room : (rows.length + 1) * 8 < 2 ^ 63) :
    ∃ diagonals offDiagonals, Halves rows cols triplets diagonals offDiagonals ∧
      ofTriplets globalRows globalCols rows cols triplets =
        assemble (ofHalves globalRows globalCols rows cols (mapColumns cols triplets) diagonals
          offDiagonals) := by
  have own := own_row inside
  obtain ⟨diagonals, makes, count, sums, short⟩ :=
    Csr.ofTriplets_spec (diagonalPart rows cols triplets)
    (fun t member => by
      obtain ⟨t', among, same, _⟩ := mem_diagonalPart member
      exact same ▸ (own t' among).2) room cols.length
  obtain ⟨offDiagonals, makes', count', sums', short'⟩ := Csr.ofTriplets_spec
    (offDiagonalPart rows cols (mapColumns cols triplets) triplets)
    (fun t member => by
      obtain ⟨t', among, same, _⟩ := mem_offDiagonalPart member
      exact same ▸ (own t' among).2) room (mapColumns cols triplets).length
  refine ⟨diagonals, offDiagonals, ⟨count, count', sums, sums', ?_⟩, ?_⟩
  · rw [← length_parts cols triplets rows]
    exact Nat.add_le_add short short'
  · have clean : (triplets.find? fun t => !rows.contains t.row || globalCols ≤ t.column) = none :=
      List.find?_eq_none.mpr fun t member => by
        obtain ⟨within, bound⟩ := inside t member
        simp [within, bound]
    rw [ofTriplets, clean]
    simp only [makes, makes', Attempt.ok_bind]
    rfl

namespace Halves

variable (halves : Halves rows cols triplets diagonals offDiagonals)
include halves

theorem tidy : ∀ row ∈ diagonals, Tidy cols.length row := by
  intro row member
  obtain ⟨place, found⟩ := List.mem_iff_getElem?.mp member
  refine (halves.sums place row found).tidy fun t among => ?_
  obtain ⟨_, _, _, _, bound⟩ := mem_diagonalPart among
  exact bound

theorem tidy' : ∀ row ∈ offDiagonals, Tidy (mapColumns cols triplets).length row := by
  intro row member
  obtain ⟨place, found⟩ := List.mem_iff_getElem?.mp member
  refine (halves.sums' place row found).tidy fun t among => ?_
  obtain ⟨_, _, _, mapped, same⟩ := mem_offDiagonalPart among
  exact same ▸ List.idxOf_lt_length_of_mem mapped

/-- Both blocks pass the check, wherever the ranges of the process lie. -/
theorem validate (room : (rows.length + 1) * 8 < 2 ^ 63) :
    (Csr.ofRows cols.length diagonals).validate = .ok () ∧
      (Csr.ofRows (mapColumns cols triplets).length offDiagonals).validate = .ok () := by
  have word : rows.length + 1 < Word.limit := Word.lt_limit_of_bytes room
  exact ⟨Csr.validate_ofRows.mpr ⟨halves.count ▸ word, halves.tidy⟩,
    Csr.validate_ofRows.mpr ⟨halves.count' ▸ word, halves.tidy'⟩⟩

/-- The share passes its check if both ranges lie in the matrix. -/
theorem valid (inside : ∀ t ∈ triplets, rows.contains t.row = true ∧ t.column < globalCols)
    (rowStop : rows.start + rows.length ≤ globalRows)
    (colStop : cols.start + cols.length ≤ globalCols)
    (rowWord : rows.start + rows.length < Word.limit)
    (colWord : cols.start + cols.length < Word.limit) (room : (rows.length + 1) * 8 < 2 ^ 63) :
    (ofHalves globalRows globalCols rows cols (mapColumns cols triplets) diagonals
      offDiagonals).Valid where
  diagonal := (halves.validate room).1
  offDiagonal := (halves.validate room).2
  sameRows := halves.count.trans halves.count'.symm
  rowStop_lt := Nat.lt_of_le_of_lt (Nat.le_of_eq (congrArg _ halves.count)) rowWord
  rowStop_le := Nat.le_trans (Nat.le_of_eq (congrArg _ halves.count)) rowStop
  colStop_lt := colWord
  colStop_le := colStop
  mapped := rfl
  ascending := pairwise_mapColumns
  outside := fun c member => by
    obtain ⟨⟨t, among, same⟩, without⟩ := mem_mapColumns.mp member
    simp only [Span.contains, Bool.and_eq_false_iff, decide_eq_false_iff_not] at without
    refine ⟨same ▸ (inside t among).2, ?_⟩
    show c < cols.start ∨ cols.start + cols.length ≤ c
    rw [Span.length]
    omega

/-- A share that passes its check has the sums of the triplets. -/
theorem collects (inside : ∀ t ∈ triplets, rows.contains t.row = true ∧ t.column < globalCols)
    (valid : (ofHalves globalRows globalCols rows cols (mapColumns cols triplets) diagonals
      offDiagonals).Valid) :
    ∃ lines, (ofHalves globalRows globalCols rows cols (mapColumns cols triplets) diagonals
      offDiagonals).Collects globalRows globalCols rows triplets lines := by
  refine ⟨_, valid, rfl, rfl, rfl, valid.localBlock_eq rfl rfl, ?_, fun place line found => ?_, ?_⟩
  · rw [List.length_zipWith, halves.count, halves.count', Nat.min_self]
  · obtain ⟨diagonal, offDiagonal, here, here', rfl⟩ := List.getElem?_zipWith_eq_some.mp found
    refine sumsUp_joined rfl rfl (fun t member => (own_row inside t member).1) ?_ ?_ ?_
    · have half := halves.sums place diagonal here
      rwa [Nat.zero_add] at half
    · have half := halves.sums' place offDiagonal here'
      rwa [Nat.zero_add] at half
    · exact (valid.tidy_joined (halves.tidy _ (List.mem_of_getElem? here))
        (halves.tidy' _ (List.mem_of_getElem? here'))).ascending
  · rw [length_flatten_joined (halves.count.trans halves.count'.symm)]
    exact halves.short

end Halves

/-- A share is assembled from any triplets in its rows. -/
theorem ofTriplets_spec
    (inside : ∀ t ∈ triplets, rows.contains t.row = true ∧ t.column < globalCols)
    (rowStop : rows.start + rows.length ≤ globalRows)
    (colStop : cols.start + cols.length ≤ globalCols)
    (rowWord : rows.start + rows.length < Word.limit)
    (colWord : cols.start + cols.length < Word.limit) (room : (rows.length + 1) * 8 < 2 ^ 63) :
    ∃ m lines, ofTriplets globalRows globalCols rows cols triplets = .ok m ∧
      m.Collects globalRows globalCols rows triplets lines := by
  obtain ⟨diagonals, offDiagonals, halves, makes⟩ := ofTriplets_halves globalRows cols inside room
  have valid := halves.valid inside rowStop colStop rowWord colWord room
  obtain ⟨lines, collects⟩ := halves.collects inside valid
  refine ⟨_, lines, ?_, collects⟩
  rw [makes, assemble, validate_eq_ok_iff.mpr valid]
  rfl

end Shares
end RowShare
end DeviceTeams
