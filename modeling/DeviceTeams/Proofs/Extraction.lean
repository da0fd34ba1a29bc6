import DeviceTeams.Proofs.Distribution

/-!
# The block of a share

The block with global columns is put together without sorting. That its rows ascend follows from
what the check of the share says: both halves of a row ascend, so does the column map, and the map
stays outside the diagonal columns. For a share made of triplets the block is the one that is
assembled from the triplets directly, so cutting the rows in two and putting them together again
loses nothing, wherever the diagonal columns lie.
-/
namespace DeviceTeams

/-- The last row or column of a range is a word; an empty range ends where it starts. -/
theorem Span.stop_lt {s : Span} (start : s.start < Word.limit) (stop : s.stop < Word.limit) :
    s.start + s.length < Word.limit := by
  rw [Span.length]
  omega

namespace RowShare

variable {S : Type} {m : RowShare S}

/-! ## Checked shares -/

/-- A block has the rows of a share: the entries of both halves of a row, each once, by ascending
global column. -/
structure Extracts (m : RowShare S) (block : Csr S) : Prop where
  valid : block.validate = .ok ()
  nrows_eq : block.nrows = m.localRows
  ncols_eq : block.ncols = m.globalCols
  nnz_eq : block.nnz = m.localNnz
  rows : ∀ row < m.localRows, ∃ diagonal offDiagonal entries,
    m.diagonal.rowEntries row = .ok diagonal ∧
    m.offDiagonal.rowEntries row = .ok offDiagonal ∧
    (∀ entry ∈ offDiagonal, entry.1 < m.columnMap.size) ∧
    block.rowEntries row = .ok entries ∧ entries.Pairwise (fun a b => a.1 < b.1) ∧
    entries.Perm (m.shifted diagonal ++ m.widened offDiagonal)

/-- One row of the block: its halves joined. -/
theorem Valid.extracts_row (valid : m.Valid) {diagonals offDiagonals : List (List (Nat × S))}
    (halves : m.diagonal = .ofRows m.diagonal.ncols diagonals)
    (halves' : m.offDiagonal = .ofRows m.offDiagonal.ncols offDiagonals) {row : Nat}
    {diagonal offDiagonal : List (Nat × S)} (here : diagonals[row]? = some diagonal)
    (here' : offDiagonals[row]? = some offDiagonal) :
    m.diagonal.rowEntries row = .ok diagonal ∧ m.offDiagonal.rowEntries row = .ok offDiagonal ∧
      (∀ entry ∈ offDiagonal, entry.1 < m.columnMap.size) ∧
      (Csr.ofRows m.globalCols (List.zipWith m.joined diagonals offDiagonals)).rowEntries row =
        .ok (m.joined diagonal offDiagonal) ∧
      (m.joined diagonal offDiagonal).Pairwise fun a b => a.1 < b.1 := by
  have joins : (List.zipWith m.joined diagonals offDiagonals)[row]? =
    some (m.joined diagonal offDiagonal) :=
    List.getElem?_zipWith_eq_some.mpr ⟨_, _, here, here', rfl⟩
  have tidy' : Tidy m.offDiagonal.ncols offDiagonal := by
    have check := valid.offDiagonal
    rw [halves'] at check
    exact (Csr.validate_ofRows.mp check).2 _ (List.mem_of_getElem? here')
  refine ⟨?_, ?_, fun entry member => valid.mapped ▸ tidy'.inside entry member,
    Csr.rowEntries_ofRows joins,
    (valid.tidy_rows halves halves' _ (List.mem_of_getElem? joins)).ascending⟩
  · rw [halves, Csr.rowEntries_ofRows here]
  · rw [halves', Csr.rowEntries_ofRows here']

theorem assemble_eq_ok_iff {parts : RowShare S} :
    assemble parts = .ok m ↔ parts.Valid ∧ m = parts := by
  rw [assemble, Attempt.bind_eq_ok_iff, ← validate_eq_ok_iff]
  constructor
  · rintro ⟨⟨⟩, checked, same⟩
    exact ⟨checked, (Except.ok.inj same).symm⟩
  · rintro ⟨checked, same⟩
    exact ⟨(), checked, same ▸ rfl⟩

/-- The block of every accepted share has the rows of the share. -/
theorem localBlock_extracts {parts : RowShare S} (accepted : assemble parts = .ok m) :
    ∃ block, m.localBlock = .ok block ∧ m.Extracts block := by
  obtain ⟨valid, rfl⟩ := assemble_eq_ok_iff.mp accepted
  obtain ⟨diagonals, halves, word, _⟩ := Csr.validate_eq_ok_iff.mp valid.diagonal
  obtain ⟨offDiagonals, halves', _⟩ := Csr.validate_eq_ok_iff.mp valid.offDiagonal
  have count : diagonals.length = m.localRows := by rw [localRows, halves]; rfl
  have count' : offDiagonals.length = m.localRows := by rw [localRows, valid.sameRows, halves']; rfl
  have lines : (List.zipWith m.joined diagonals offDiagonals).length = m.localRows := by
    rw [List.length_zipWith, count, count', Nat.min_self]
  refine ⟨_, valid.localBlock_eq halves halves', ?_, lines, rfl, ?_, fun row inside => ?_⟩
  · exact Csr.validate_ofRows.mpr ⟨by rwa [lines, ← count], valid.tidy_rows halves halves'⟩
  · rw [Csr.nnz, Csr.size_values_ofRows, ← List.length_flatten,
      length_flatten_joined (count.trans count'.symm), localNnz,
      Csr.nnz, Csr.nnz, halves, halves', Csr.size_values_ofRows, Csr.size_values_ofRows,
      List.length_flatten, List.length_flatten]
  · have here := List.getElem?_eq_getElem (l := diagonals) (Nat.lt_of_lt_of_eq inside count.symm)
    have here' :=
      List.getElem?_eq_getElem (l := offDiagonals) (Nat.lt_of_lt_of_eq inside count'.symm)
    obtain ⟨own, other, mapped, joins, ascends⟩ := valid.extracts_row halves halves' here here'
    exact ⟨_, _, _, own, other, mapped, joins, ascends, joined_perm _ _⟩

def bothSides : RowShare Float where
  globalRows := 3
  globalCols := 4
  rowStart := 1
  colStart := 1
  diagonal := ⟨2, 2, #[0, 2, 2], #[0, 1], #[1.0, 2.0]⟩
  offDiagonal := ⟨2, 2, #[0, 2, 3], #[0, 1, 0], #[3.0, 4.0, 5.0]⟩
  columnMap := #[0, 3]

theorem localBlock_extracts_bothSides : assemble bothSides = .ok bothSides ∧
    ∃ block, bothSides.localBlock = .ok block ∧ bothSides.Extracts block :=
  ⟨rfl, localBlock_extracts (show assemble bothSides = .ok bothSides from rfl)⟩

/-! ## Shares made of triplets -/

section Triplets

variable {globalRows globalCols : Nat} {rows cols : Span} {triplets : List (Triplet S)}

/-- Entries in the rows of a process and in the columns of a matrix that both ranges of the process
lie in. -/
structure Contained (globalRows globalCols : Nat) (rows cols : Span) (triplets : List (Triplet S)) :
    Prop where
  entries : ∀ t ∈ triplets, rows.contains t.row = true ∧ t.column < globalCols
  rowStop : rows.start + rows.length ≤ globalRows
  colStop : cols.start + cols.length ≤ globalCols

/-- Contributions with rows counted from the first row of the process have the same sums. -/
theorem sumAt_shiftRow [Scalar S] {row column : Nat} (own : ∀ t ∈ triplets, rows.start ≤ t.row) :
    sumAt (triplets.map (·.shiftRow rows.start)) row column = sumAt triplets
    (rows.start + row) column := by
  refine sumAt_map (fun _ => rfl) fun t member => ?_
  have := own t member
  simp only [Triplet.At, Triplet.shiftRow]
  omega

/-- The block that is assembled from the triplets directly has the rows of a share that collects
them. -/
theorem Collects.ofTriplets_shiftRow [Scalar S] {lines : List (List (Nat × S))}
    (collects : m.Collects globalRows globalCols rows triplets lines)
    (inside : ∀ t ∈ triplets, rows.contains t.row = true ∧ t.column < globalCols)
    (room : (rows.length + 1) * 8 < 2 ^ 63) :
    Csr.ofTriplets rows.length globalCols (triplets.map (·.shiftRow rows.start)) =
    .ok (.ofRows globalCols lines) := by
  have own := own_row inside
  obtain ⟨lines', made, count, sums, _⟩ :=
    Csr.ofTriplets_spec (triplets.map (·.shiftRow rows.start))
    (fun t member => by
      obtain ⟨t', among, rfl⟩ := List.mem_map.mp member
      exact (own t' among).2) room globalCols
  have same : lines' = lines := by
    refine sums.unique (fun place line found => ?_) (count.trans collects.count.symm)
    refine (collects.sums place line found).congr fun column => ?_
    rw [Nat.zero_add]
    exact sumAt_shiftRow fun t member => (own t member).1
  rw [made, same]

/-- Halves whose ranges do not both lie in the matrix make no share. -/
theorem Halves.assemble_refused [Scalar S] {diagonals offDiagonals : List (List (Nat × S))}
    (halves : Halves rows cols triplets diagonals offDiagonals)
    (rowWord : rows.start + rows.length < Word.limit)
    (colWord : cols.start + cols.length < Word.limit) (room : (rows.length + 1) * 8 < 2 ^ 63)
    (outside : ¬ (rows.start + rows.length ≤ globalRows ∧ cols.start + cols.length ≤ globalCols)) :
    ∃ cause : MatrixError,
      assemble (ofHalves globalRows globalCols rows cols (mapColumns cols triplets)
        diagonals offDiagonals) = .error cause := by
  obtain ⟨own, others⟩ := halves.validate room
  have nrows : (Csr.ofRows cols.length diagonals).nrows = rows.length := halves.count
  have nrows' : (Csr.ofRows (mapColumns cols triplets).length offDiagonals).nrows = rows.length :=
    halves.count'
  have ncols : (Csr.ofRows cols.length diagonals).ncols = cols.length := rfl
  -- The halves pass their own checks, so the first range that leaves the matrix decides.
  by_cases rowStop : rows.start + rows.length ≤ globalRows
  · have colStop : globalCols < cols.start + cols.length :=
      Nat.lt_of_not_le fun colStop => outside ⟨rowStop, colStop⟩
    refine ⟨.columnsOutside cols.start (cols.start + cols.length) globalCols, ?_⟩
    simp only [assemble, RowShare.validate, ofHalves, own, others, nrows, nrows', ncols,
      Word.add_of_lt rowWord,
      Word.add_of_lt colWord, Nat.not_lt.mpr rowStop, colStop, ↓reduceIte, Attempt.ok_bind,
      Attempt.throw_eq, Attempt.error_bind]
  · refine ⟨.rowsOutside rows.start (rows.start + rows.length) globalRows, ?_⟩
    simp only [assemble, RowShare.validate, ofHalves, own, others, nrows, nrows',
      Word.add_of_lt rowWord,
      Nat.lt_of_not_le rowStop, ↓reduceIte, Attempt.ok_bind, Attempt.throw_eq, Attempt.error_bind]

/-- Triplets are made into a share exactly if they are contained, and the block of that share is the
one that is assembled from them directly. -/
theorem ofTriplets_localBlock [Scalar S] (globalRows globalCols : Nat) {rows cols : Span}
    (triplets : List (Triplet S)) (rowWords : rows.start < Word.limit ∧ rows.stop < Word.limit)
    (colWords : cols.start < Word.limit ∧ cols.stop < Word.limit)
    (room : Word.request (rows.length + 1) 8 = .ok ()) :
    (Contained globalRows globalCols rows cols triplets →
      ∃ m block, ofTriplets globalRows globalCols rows cols triplets = .ok m ∧
        m.localBlock = .ok block ∧
        Csr.ofTriplets rows.length globalCols (triplets.map (·.shiftRow rows.start)) = .ok block) ∧
    (¬ Contained globalRows globalCols rows cols triplets →
      ∃ cause : MatrixError, ofTriplets globalRows globalCols rows cols triplets =
        .error cause) := by
  have rowWord := Span.stop_lt rowWords.1 rowWords.2
  have colWord := Span.stop_lt colWords.1 colWords.2
  have space := Word.request_eq_ok_iff.mp room
  constructor
  · rintro ⟨inside, rowStop, colStop⟩
    obtain ⟨m, lines, made, collects⟩ :=
      ofTriplets_spec inside rowStop colStop rowWord colWord space
    exact ⟨m, _, made, collects.block, collects.ofTriplets_shiftRow inside space⟩
  · intro outside
    cases found : triplets.find? fun t => !rows.contains t.row || globalCols ≤ t.column with
    | some t =>
      refine ⟨.entryOutside t.row t.column rows.start rows.stop globalCols, ?_⟩
      rw [ofTriplets, found]
      rfl
    | none =>
      have inside : ∀ t ∈ triplets, rows.contains t.row = true ∧ t.column < globalCols := by
        intro t member
        simpa using List.find?_eq_none.mp found t member
      obtain ⟨diagonals, offDiagonals, halves, makes⟩ :=
        ofTriplets_halves globalRows cols inside space
      rw [makes]
      refine halves.assemble_refused rowWord colWord space ?_
      rintro ⟨rowStop, colStop⟩
      exact outside ⟨inside, rowStop, colStop⟩

def scattered : List (Triplet Float) :=
  [⟨2, 3, 1.0⟩, ⟨1, 0, 2.0⟩, ⟨1, 2, 3.0⟩, ⟨2, 1, 4.0⟩, ⟨1, 2, 5.0⟩]

theorem ofTriplets_localBlock_scattered :
    (∃ m block, ofTriplets 3 4 ⟨1, 3⟩ ⟨1, 3⟩ scattered = .ok m ∧ m.localBlock = .ok block ∧
      Csr.ofTriplets 2 4 (scattered.map (·.shiftRow 1)) = .ok block) ∧
    ∃ cause : MatrixError, ofTriplets 2 4 ⟨1, 3⟩ ⟨1, 3⟩ scattered = .error cause := by
  constructor
  · apply (ofTriplets_localBlock 3 4 scattered (by decide) (by decide) rfl).1
    constructor <;> decide
  · apply (ofTriplets_localBlock 2 4 scattered (by decide) (by decide) rfl).2
    intro contained
    exact absurd contained.rowStop (by decide)

end Triplets

end RowShare
end DeviceTeams
