import DeviceTeams.Matrix.RowShare
import DeviceTeams.Proofs.Rows

/-!
# The rows of a share

A share that passes its check stores every row twice cut: the columns of the process' own range in
one block and the others, compressed, in the other. Put together again the two halves of a row are
tidy in global columns.
-/
namespace DeviceTeams.RowShare

variable {S : Type} {m : RowShare S}

/-- What the check of a share says about it. -/
structure Valid (m : RowShare S) : Prop where
  diagonal : m.diagonal.validate = .ok ()
  offDiagonal : m.offDiagonal.validate = .ok ()
  sameRows : m.diagonal.nrows = m.offDiagonal.nrows
  rowStop_lt : m.rowStart + m.diagonal.nrows < Word.limit
  rowStop_le : m.rowStart + m.diagonal.nrows ≤ m.globalRows
  colStop_lt : m.colStart + m.diagonal.ncols < Word.limit
  colStop_le : m.colStart + m.diagonal.ncols ≤ m.globalCols
  mapped : m.offDiagonal.ncols = m.columnMap.size
  ascending : m.columnMap.toList.Pairwise (· < ·)
  outside : ∀ c ∈ m.columnMap.toList, c < m.globalCols ∧
    (c < m.colStart ∨ m.colStart + m.diagonal.ncols ≤ c)

/-- The search of the check for a column that the column map must not have. -/
theorem find_outside_iff : (m.columnMap.toList.find? fun c =>
      m.globalCols ≤ c || (Span.mk m.colStart (m.colStart + m.diagonal.ncols)).contains c) = none ↔
    ∀ c ∈ m.columnMap.toList, c < m.globalCols ∧
      (c < m.colStart ∨ m.colStart + m.diagonal.ncols ≤ c) := by
  simp only [List.find?_eq_none, Span.contains, Bool.or_eq_true, decide_eq_true_eq,
    Bool.and_eq_true]
  exact forall₂_congr fun c _ => by omega

theorem validate_eq_ok_iff : m.validate = .ok () ↔ m.Valid := by
  rw [validate]
  simp only [Attempt.bind_eq_ok_iff (x := Csr.validate _), Attempt.bind_eq_ok_iff
    (x := Word.add _ _),
    Word.add_eq_ok_iff, Attempt.throw_eq, Attempt.error_bind, Attempt.ite_error_eq_ok_iff,
    Attempt.error_ite_eq_ok_iff, Csr.ascending_iff]
  constructor
  · rintro ⟨_, diagonal, _, offDiagonal, sameRows, _, ⟨rowWord, rfl⟩, rowStop, _,
      ⟨colWord, rfl⟩, colStop, mapped, ascending, rest⟩
    cases found : m.columnMap.toList.find? fun c =>
        m.globalCols ≤ c || (Span.mk m.colStart (m.colStart + m.diagonal.ncols)).contains c with
    | some column =>
      rw [found] at rest
      cases rest
    | none =>
      exact ⟨diagonal, offDiagonal, sameRows, rowWord, Nat.not_lt.mp rowStop, colWord,
        Nat.not_lt.mp colStop, mapped, ascending, find_outside_iff.mp found⟩
  · intro valid
    refine ⟨(), valid.diagonal, (), valid.offDiagonal, valid.sameRows, _, ⟨valid.rowStop_lt, rfl⟩,
      Nat.not_lt.mpr valid.rowStop_le, _, ⟨valid.colStop_lt, rfl⟩,
      Nat.not_lt.mpr valid.colStop_le, valid.mapped, valid.ascending, ?_⟩
    rw [find_outside_iff.mpr valid.outside]
    rfl

/-- The entries of the off-diagonal half of a row in global columns. -/
def widened (m : RowShare S) (offDiagonal : List (Nat × S)) : List (Nat × S) :=
  offDiagonal.map fun entry => (m.columnMap.getD entry.1 0, entry.2)

def shifted (m : RowShare S) (diagonal : List (Nat × S)) : List (Nat × S) :=
  diagonal.map fun entry => (m.colStart + entry.1, entry.2)

def joined (m : RowShare S) (diagonal offDiagonal : List (Nat × S)) : List (Nat × S) :=
  (m.widened offDiagonal).takeWhile (fun entry => entry.1 < m.colStart) ++ m.shifted diagonal ++
    (m.widened offDiagonal).dropWhile (fun entry => entry.1 < m.colStart)

/-- Joining the halves of a row only brings their entries into order. -/
theorem joined_perm (diagonal offDiagonal : List (Nat × S)) :
    (m.joined diagonal offDiagonal).Perm (m.shifted diagonal ++ m.widened offDiagonal) := by
  have parts := List.takeWhile_append_dropWhile (p := fun entry : Nat × S => entry.1 < m.colStart)
    (l := m.widened offDiagonal)
  have turned : (m.joined diagonal offDiagonal).Perm
      (m.shifted diagonal ++ (m.widened offDiagonal).takeWhile
        (fun entry => entry.1 < m.colStart) ++
        (m.widened offDiagonal).dropWhile (fun entry => entry.1 < m.colStart)) :=
    List.perm_append_comm.append_right _
  rwa [List.append_assoc, parts] at turned

theorem mem_joined {diagonal offDiagonal : List (Nat × S)} {entry : Nat × S} :
    entry ∈ m.joined diagonal offDiagonal ↔ entry ∈ m.shifted diagonal ∨
    entry ∈ m.widened offDiagonal :=
  (m.joined_perm diagonal offDiagonal).mem_iff.trans List.mem_append

theorem mem_shifted {diagonal : List (Nat × S)} {column : Nat} {value : S} :
    (column, value) ∈ m.shifted diagonal ↔ ∃ c, (c, value) ∈ diagonal ∧
    column = m.colStart + c := by
  simp only [shifted, List.mem_map, Prod.mk.injEq, Prod.exists]
  constructor
  · rintro ⟨c, _, member, rfl, rfl⟩
    exact ⟨c, member, rfl⟩
  · rintro ⟨c, member, rfl⟩
    exact ⟨c, value, member, rfl, rfl⟩

theorem mem_widened {offDiagonal : List (Nat × S)} {column : Nat} {value : S} :
    (column, value) ∈ m.widened offDiagonal ↔ ∃ c, (c, value) ∈ offDiagonal ∧
    column = m.columnMap.getD c 0 := by
  simp only [widened, List.mem_map, Prod.mk.injEq, Prod.exists]
  constructor
  · rintro ⟨c, _, member, rfl, rfl⟩
    exact ⟨c, member, rfl⟩
  · rintro ⟨c, member, rfl⟩
    exact ⟨c, value, member, rfl, rfl⟩

theorem le_of_mem_dropWhile {entries : List (Nat × S)} {bound : Nat}
    (ascends : entries.Pairwise fun a b => a.1 < b.1) {entry : Nat × S}
    (member : entry ∈ entries.dropWhile fun entry => entry.1 < bound) : bound ≤ entry.1 := by
  induction entries with
  | nil => cases member
  | cons first rest ih =>
    rw [List.pairwise_cons] at ascends
    rw [List.dropWhile_cons] at member
    split at member
    · exact ih ascends.2 member
    · next stop =>
      rw [decide_eq_true_eq, Nat.not_lt] at stop
      rcases List.mem_cons.mp member with rfl | later
      · exact stop
      · exact Nat.le_trans stop (Nat.le_of_lt (ascends.1 entry later))

theorem length_joined (diagonal offDiagonal : List (Nat × S)) :
    (m.joined diagonal offDiagonal).length = diagonal.length + offDiagonal.length := by
  rw [(m.joined_perm diagonal offDiagonal).length_eq, List.length_append, shifted,
    widened, List.length_map, List.length_map]

/-- Joining the halves of rows keeps all entries. -/
theorem length_flatten_joined {diagonals offDiagonals : List (List (Nat × S))}
    (same : diagonals.length = offDiagonals.length) :
    (List.zipWith m.joined diagonals offDiagonals).flatten.length =
      diagonals.flatten.length + offDiagonals.flatten.length := by
  induction diagonals generalizing offDiagonals with
  | nil =>
    cases offDiagonals with
    | nil => rfl
    | cons row rest => cases same
  | cons row rest ih =>
    cases offDiagonals with
    | nil => cases same
    | cons row' rest' =>
      have later := ih (Nat.succ.inj same)
      simp only [List.zipWith_cons_cons, List.flatten_cons, List.length_append,
        length_joined, later]
      omega

namespace Valid

variable (valid : m.Valid) {diagonal offDiagonal : List (Nat × S)}
include valid

theorem columnMap_lt {c c' : Nat} (less : c < c') (inside : c' < m.columnMap.size) :
    m.columnMap.getD c 0 < m.columnMap.getD c' 0 := by
  have before : c < m.columnMap.size := Nat.lt_trans less inside
  rw [Array.getD_eq_getD_getElem?, Array.getD_eq_getD_getElem?, Array.getElem?_eq_getElem before,
    Array.getElem?_eq_getElem inside]
  exact List.pairwise_iff_getElem.mp valid.ascending c c' before inside less

omit valid in
theorem columnMap_mem {c : Nat} (inside : c < m.columnMap.size) :
    m.columnMap.getD c 0 ∈ m.columnMap.toList := by
  rw [Array.getD_eq_getD_getElem?, Array.getElem?_eq_getElem inside]
  exact Array.getElem_mem_toList inside

/-- A row in global columns is tidy. -/
theorem tidy_joined (tidy : Tidy m.diagonal.ncols diagonal)
    (tidy' : Tidy m.offDiagonal.ncols offDiagonal) :
    Tidy m.globalCols (m.joined diagonal offDiagonal) := by
  have below : ∀ entry ∈ offDiagonal, entry.1 < m.columnMap.size := fun entry member =>
    valid.mapped ▸ tidy'.inside entry member
  have wide : (m.widened offDiagonal).Pairwise fun a b => a.1 < b.1 :=
    List.pairwise_map.mpr (tidy'.ascending.imp_of_mem fun _ member less =>
      valid.columnMap_lt less (below _ member))
  have own : (m.shifted diagonal).Pairwise fun a b => a.1 < b.1 :=
    List.pairwise_map.mpr (tidy.ascending.imp fun less => Nat.add_lt_add_left less _)
  have own_range : ∀ entry ∈ m.shifted diagonal,
      m.colStart ≤ entry.1 ∧ entry.1 < m.colStart + m.diagonal.ncols := by
    rintro ⟨column, value⟩ member
    obtain ⟨c, found, rfl⟩ := mem_shifted.mp member
    have inside := tidy.inside _ found
    exact ⟨Nat.le_add_right .., Nat.add_lt_add_left inside _⟩
  have wide_range : ∀ entry ∈ m.widened offDiagonal,
      entry.1 < m.globalCols ∧
      (entry.1 < m.colStart ∨ m.colStart + m.diagonal.ncols ≤ entry.1) := by
    rintro ⟨column, value⟩ member
    obtain ⟨c, found, rfl⟩ := mem_widened.mp member
    exact valid.outside _ (columnMap_mem (below _ found))
  have left : ∀ entry ∈ (m.widened offDiagonal).takeWhile (fun entry => entry.1 < m.colStart),
      entry.1 < m.colStart := by
    intro entry member
    simpa using List.all_eq_true.mp List.all_takeWhile entry member
  have right : ∀ entry ∈ (m.widened offDiagonal).dropWhile (fun entry => entry.1 < m.colStart),
      m.colStart + m.diagonal.ncols ≤ entry.1 := by
    intro entry member
    have after := le_of_mem_dropWhile wide member
    have range := (wide_range entry ((List.dropWhile_sublist _).subset member)).2
    omega
  constructor
  · rw [joined, List.append_assoc]
    refine List.pairwise_append.mpr ⟨wide.sublist (List.takeWhile_sublist _), ?_, ?_⟩
    · refine List.pairwise_append.mpr ⟨own, wide.sublist (List.dropWhile_sublist _),
        fun a memberA b memberB => ?_⟩
      exact Nat.lt_of_lt_of_le (own_range a memberA).2 (right b memberB)
    · intro a memberA b memberB
      have before := left a memberA
      rcases List.mem_append.mp memberB with among | among
      · exact Nat.lt_of_lt_of_le before (own_range b among).1
      · have := right b among
        omega
  · intro entry member
    rcases mem_joined.mp member with among | among
    · have := (own_range entry among).2
      have := valid.colStop_le
      omega
    · exact (wide_range entry among).1

theorem globalRow_eq (tidy' : Tidy m.offDiagonal.ncols offDiagonal) :
    m.globalRow diagonal offDiagonal = .ok (m.joined diagonal offDiagonal) := by
  have mapped : offDiagonal.mapM (fun entry => do
      pure ((← .ofOption m.columnMap[entry.1]?), entry.2) : Nat × S → Attempt (Nat × S)) =
      .ok (m.widened offDiagonal) := by
    refine Attempt.mapM_of fun entry member => ?_
    have inside : entry.1 < m.columnMap.size := valid.mapped ▸ tidy'.inside entry member
    simp only [Array.getD_eq_getD_getElem?, Array.getElem?_eq_getElem inside]
    rfl
  exact Attempt.bind_eq_ok_iff.mpr ⟨_, mapped, rfl⟩

/-- The block of a share in global columns has the joined rows. -/
theorem localBlock_eq {diagonals offDiagonals : List (List (Nat × S))}
    (halves : m.diagonal = .ofRows m.diagonal.ncols diagonals)
    (halves' : m.offDiagonal = .ofRows m.offDiagonal.ncols offDiagonals) :
    m.localBlock = .ok (.ofRows m.globalCols (List.zipWith m.joined diagonals offDiagonals)) := by
  have tidy' : ∀ row ∈ offDiagonals, Tidy m.offDiagonal.ncols row := by
    have check := valid.offDiagonal
    rw [halves'] at check
    exact (Csr.validate_ofRows.mp check).2
  have rows : m.diagonal.rows = .ok diagonals := by rw [halves, Csr.rows_ofRows]
  have rows' : m.offDiagonal.rows = .ok offDiagonals := by rw [halves', Csr.rows_ofRows]
  have count : diagonals.length = m.diagonal.nrows := by rw [halves]; rfl
  have count' : offDiagonals.length = m.offDiagonal.nrows := by rw [halves']; rfl
  have joins : (diagonals.zip offDiagonals).mapM (fun halves => m.globalRow halves.1 halves.2) =
      .ok (List.zipWith m.joined diagonals offDiagonals) := by
    rw [Attempt.mapM_of (g := fun row => m.joined row.1 row.2) fun row member =>
      valid.globalRow_eq (tidy' _ (List.of_mem_zip member).2)]
    rw [List.zip, List.map_zipWith]
  rw [localBlock, rows, rows', Attempt.ok_bind, Attempt.ok_bind]
  refine Attempt.bind_eq_ok_iff.mpr ⟨_, joins, ?_⟩
  simp only [Csr.ofRows, localRows, List.length_zipWith, count, count',
    ← valid.sameRows, Nat.min_self]
  rfl

/-- Tidy halves make tidy rows. -/
theorem tidy_rows {diagonals offDiagonals : List (List (Nat × S))}
    (halves : m.diagonal = .ofRows m.diagonal.ncols diagonals)
    (halves' : m.offDiagonal = .ofRows m.offDiagonal.ncols offDiagonals) :
    ∀ row ∈ List.zipWith m.joined diagonals offDiagonals, Tidy m.globalCols row := by
  have tidy : ∀ row ∈ diagonals, Tidy m.diagonal.ncols row := by
    have check := valid.diagonal
    rw [halves] at check
    exact (Csr.validate_ofRows.mp check).2
  have tidy' : ∀ row ∈ offDiagonals, Tidy m.offDiagonal.ncols row := by
    have check := valid.offDiagonal
    rw [halves'] at check
    exact (Csr.validate_ofRows.mp check).2
  intro row member
  rw [← List.map_uncurry_zip_eq_zipWith] at member
  obtain ⟨halves, among, rfl⟩ := List.mem_map.mp member
  have both := List.of_mem_zip among
  exact valid.tidy_joined (tidy _ both.1) (tidy' _ both.2)

/-- The rows of a share in global columns. -/
theorem exists_rows :
    ∃ rows : List (List (Nat × S)), m.localBlock = .ok (.ofRows m.globalCols rows) ∧
    (∀ row ∈ rows, Tidy m.globalCols row) ∧ rows.length = m.localRows ∧
    rows.flatten.length = m.localNnz := by
  obtain ⟨diagonals, halves, _⟩ := Csr.validate_eq_ok_iff.mp valid.diagonal
  obtain ⟨offDiagonals, halves', _⟩ := Csr.validate_eq_ok_iff.mp valid.offDiagonal
  have count : diagonals.length = m.diagonal.nrows := by rw [halves]; rfl
  have count' : offDiagonals.length = m.offDiagonal.nrows := by rw [halves']; rfl
  have same : diagonals.length = offDiagonals.length := by rw [count, count', valid.sameRows]
  have entries : diagonals.flatten.length = m.diagonal.nnz := by
    rw [halves, Csr.nnz, Csr.size_values_ofRows, List.length_flatten]
  have entries' : offDiagonals.flatten.length = m.offDiagonal.nnz := by
    rw [halves', Csr.nnz, Csr.size_values_ofRows, List.length_flatten]
  refine ⟨_, valid.localBlock_eq halves halves', valid.tidy_rows halves halves', ?_, ?_⟩
  · rw [List.length_zipWith, ← same, Nat.min_self, count, localRows]
  · rw [length_flatten_joined same, entries, entries', localNnz]

end Valid
end DeviceTeams.RowShare
