import DeviceTeams.Proofs.Assembly
import DeviceTeams.Proofs.Iteration
import DeviceTeams.Proofs.Lookups

/-!
# The readings of a block

A block is read in three ways: a place is looked up, all rows are written out, and the rows are
multiplied by a vector. What a block that passes the check stores in its rows is a value for some of
the places, and every reading gives these values: the search finds them, the rows that are written
out show them among defaults, and a product adds them up in the order of their columns.
-/
namespace DeviceTeams

variable {T : Type} {ncols : Nat} {row : List (Nat × T)}

/-! ## One row -/

namespace Tidy

/-- The value in a column of a row is the one that is stored with that column. -/
theorem lookup_eq_some_iff (tidy : Tidy ncols row) {column : Nat} {value : T} :
    row.lookup column = some value ↔ (column, value) ∈ row := by
  have ascends := tidy.ascending
  clear tidy
  induction row with
  | nil => simp
  | cons first rest ih =>
    obtain ⟨least, later⟩ := List.pairwise_cons.mp ascends
    obtain ⟨column', value'⟩ := first
    rw [List.lookup_cons, List.mem_cons, Prod.mk.injEq]
    by_cases here : column = column'
    · subst here
      have absent : (column, value) ∉ rest :=
        fun member => Nat.lt_irrefl column (least (column, value) member)
      simp only [beq_self_eq_true, Option.some.injEq, true_and, absent, or_false]
      exact eq_comm
    · simp only [beq_eq_false_iff_ne.mpr here, here, false_and, false_or]
      exact ih later

theorem lookup_eq_none (tidy : Tidy ncols row) {column : Nat} (outside : ncols ≤ column) :
    row.lookup column = none := by
  cases found : row.lookup column with
  | none => rfl
  | some value =>
    exact absurd (tidy.inside _ (tidy.lookup_eq_some_iff.mp found)) (Nat.not_lt.mpr outside)

end Tidy

/-- A row is written entry by entry into a line that is long enough. -/
theorem foldlM_write {line : Array T} (inside : ∀ entry ∈ row, entry.1 < line.size) :
    (row.foldlM (fun line (column, value) =>
      if column < line.size then .ok (line.set! column value) else .abort) line :
        Attempt (Array T)) =
      .ok (row.foldl (fun line entry => line.set! entry.1 entry.2) line) := by
  induction row generalizing line with
  | nil => rfl
  | cons entry rest ih =>
    obtain ⟨column, value⟩ := entry
    have bound : column < line.size := inside _ List.mem_cons_self
    rw [List.foldlM_cons, List.foldl_cons]
    simp only [if_pos bound, Attempt.ok_bind]
    refine ih fun other member => ?_
    rw [Array.set!_eq_setIfInBounds, Array.size_setIfInBounds]
    exact inside other (List.mem_cons_of_mem _ member)

/-- A line in which a row has been written shows the values of the row and, elsewhere, what was
there before. -/
theorem getElem?_written (tidy : Tidy ncols row) {cells : Array T}
    (size : cells.size = ncols) (column : Nat) :
    (row.foldl (fun line entry => line.set! entry.1 entry.2) cells)[column]? =
    (row.lookup column).or cells[column]? := by
  induction row generalizing cells with
  | nil => rfl
  | cons entry rest ih =>
    obtain ⟨least, later⟩ := List.pairwise_cons.mp tidy.ascending
    have tidy' : Tidy ncols rest :=
      ⟨later, fun other member => tidy.inside other (List.mem_cons_of_mem _ member)⟩
    have bound : entry.1 < cells.size := size ▸ tidy.inside entry List.mem_cons_self
    rw [List.foldl_cons,
      ih tidy' (by rw [Array.set!_eq_setIfInBounds, Array.size_setIfInBounds, size]),
      Array.set!_eq_setIfInBounds, List.lookup_cons]
    by_cases here : column = entry.1
    · have unwritten : rest.lookup column = none := by
        cases again : rest.lookup column with
        | none => rfl
        | some value => exact absurd (least _ (tidy'.lookup_eq_some_iff.mp again)) (by simp [here])
      rw [unwritten, here, beq_self_eq_true, Option.none_or,
        Array.getElem?_setIfInBounds_self_of_lt bound]
      rfl
    · rw [Array.getElem?_setIfInBounds_ne (Ne.symm here), beq_eq_false_iff_ne.mpr here]

/-- A row written out over defaults. -/
theorem line_eq [Entry T] (tidy : Tidy ncols row) :
    (row.foldl (fun line entry => line.set! entry.1 entry.2)
      (Array.replicate ncols (Entry.absent : T))).toList =
      (List.range ncols).map fun column => (row.lookup column).getD Entry.absent := by
  refine List.ext_getElem? fun column => ?_
  rw [Array.getElem?_toList, getElem?_written tidy Array.size_replicate, Array.getElem?_replicate,
    List.getElem?_map]
  rcases Nat.lt_or_ge column ncols with inside | outside
  · rw [if_pos inside, List.getElem?_range inside, Option.map_some]
    cases row.lookup column <;> rfl
  · rw [if_neg (Nat.not_lt.mpr outside), tidy.lookup_eq_none outside,
      List.getElem?_eq_none (by simpa using outside)]
    rfl

def rowTerms [Mul T] (line : Nat → Option T) (x : List T) : List T :=
  x.zipIdx.filterMap fun (factor, column) => (line column).map fun value => value * factor

/-- Going through the columns in order finds the entries of a row in their order. -/
theorem filterMap_lookup (tidy : Tidy ncols row) {x : List T} (length : x.length = ncols) :
    (x.zipIdx.filterMap fun (_, column) => (row.lookup column).map fun value => (column, value)) =
    row := by
  have columns : x.zipIdx.Pairwise fun a b => a.2 < b.2 := by
    refine List.pairwise_map.mp ?_
    rw [List.zipIdx_map_snd]
    exact List.pairwise_lt_range'
  refine eq_of_ascending ?_ tidy.ascending fun column value => ?_
  · rw [List.pairwise_filterMap]
    refine columns.imp fun less entry found entry' found' => ?_
    obtain ⟨_, _, rfl⟩ := Option.map_eq_some_iff.mp found
    obtain ⟨_, _, rfl⟩ := Option.map_eq_some_iff.mp found'
    exact less
  · rw [List.mem_filterMap, ← tidy.lookup_eq_some_iff]
    constructor
    · rintro ⟨⟨factor, place⟩, _, found⟩
      obtain ⟨value', looked, same⟩ := Option.map_eq_some_iff.mp found
      cases same
      exact looked
    · intro looked
      have below : column < x.length := length ▸ tidy.inside _ (tidy.lookup_eq_some_iff.mp looked)
      refine ⟨(x[column], column), List.mem_zipIdx_iff_getElem?.mpr
        (List.getElem?_eq_getElem below), ?_⟩
      exact congrArg (Option.map _) looked

/-- A row times a vector is the sum of its products, from left to right. -/
theorem rowTimes_eq [Scalar T] (tidy : Tidy ncols row) {x : List T} (length : x.length = ncols) :
    rowTimes x row = (rowTerms (row.lookup ·) x).foldl (· + ·) Scalar.zero := by
  have terms : rowTerms (row.lookup ·) x = row.map fun entry =>
      entry.2 * x.getD entry.1 Scalar.zero := by
    conv_rhs => rw [← filterMap_lookup tidy length]
    rw [List.map_filterMap, rowTerms]
    refine List.filterMap_congr fun ⟨factor, column⟩ member => ?_
    have read : x.getD column Scalar.zero = factor := by
      rw [List.getD_eq_getElem?_getD, List.mem_zipIdx_iff_getElem?.mp member, Option.getD_some]
    rw [Option.map_map, ← read]
    rfl
  rw [terms, List.foldl_map]
  rfl

/-! ## All rows -/

namespace Csr

variable {rows : List (List (Nat × T))} {place : Nat}

theorem get?_eq_lookup (found : rows[place]? = some row) (tidy : Tidy ncols row) (column : Nat) :
    (ofRows ncols rows).get? place column = .ok (row.lookup column) := by
  obtain ⟨answer, looked⟩ : ∃ answer, (ofRows ncols rows).get? place column = .ok answer :=
    get?_ofRows found column
  rw [looked]
  refine congrArg _ (Option.ext fun value => ?_)
  rw [tidy.lookup_eq_some_iff, ← get?_eq_some_iff found tidy, looked, Except.ok.injEq]

/-- The places of a row hold its entries, one after the other. -/
theorem mem_iff_exists_place (ncols : Nat) (found : rows[place]? = some row)
    {column : Nat} {value : T} :
    (column, value) ∈ row ↔ ∃ position,
      (Span.mk (rows.take place).flatten.length
        ((rows.take place).flatten.length + row.length)).contains position ∧
      (ofRows ncols rows).colIndices[position]? = some column ∧
      (ofRows ncols rows).values[position]? = some value := by
  have held : ∀ {inner : Nat} {entry : Nat × T}, row[inner]? = some entry →
      (ofRows ncols rows).colIndices[(rows.take place).flatten.length + inner]? = some entry.1 ∧
      (ofRows ncols rows).values[(rows.take place).flatten.length + inner]? = some entry.2 := by
    intro inner entry here
    have stored := getElem?_flatten_of_found found here
    simp only [ofRows, List.getElem?_toArray, List.getElem?_map, stored, Option.map_some, and_self]
  constructor
  · intro member
    obtain ⟨inner, here⟩ := List.mem_iff_getElem?.mp member
    have inside := (List.getElem?_eq_some_iff.mp here).1
    refine ⟨_, ?_, held here⟩
    simp only [Span.contains, Bool.and_eq_true, decide_eq_true_eq]
    omega
  · rintro ⟨position, within, columns, values⟩
    simp only [Span.contains, Bool.and_eq_true, decide_eq_true_eq] at within
    obtain ⟨inner, rfl⟩ := Nat.exists_eq_add_of_le within.1
    have inside : inner < row.length := by omega
    have here := List.getElem?_eq_getElem inside
    obtain ⟨column', value'⟩ := held here
    rw [columns, Option.some.injEq] at column'
    rw [values, Option.some.injEq] at value'
    rw [column', value']
    exact List.getElem_mem inside

/-- A column stands at most once among the places of a row. -/
theorem WellStored.place_unique {m : Csr T} (stored : m.WellStored) {span : Span}
    (spans : m.rowSpan place = .ok span) {first second column : Nat} (within : span.contains first)
    (within' : span.contains second) (here : m.colIndices[first]? = some column)
    (there : m.colIndices[second]? = some column) : first = second := by
  simp only [Span.contains, Bool.and_eq_true, decide_eq_true_eq] at within within'
  rcases Nat.lt_trichotomy first second with before | same | after
  · exact absurd (stored.ascending _ _ spans _ _ _ _ within.1 before within'.2 here there)
      (Nat.lt_irrefl column)
  · exact same
  · exact absurd (stored.ascending _ _ spans _ _ _ _ within'.1 after within.2 there here)
      (Nat.lt_irrefl column)

/-- What the rows of a block store at each place, and what is read there. -/
structure Reads [Entry T] (m : Csr T) (entry : Nat → Nat → Option T) : Prop where
  looked : ∀ row < m.nrows, ∀ column, m.get? row column = .ok (entry row column)
  /-- The value of a place stands with its column among the places of the row, and the column stands
  there once. -/
  stored : ∀ row < m.nrows, ∃ span, m.rowSpan row = .ok span ∧ ∀ column,
    (∀ value, entry row column = some value ↔ ∃ position, span.contains position ∧
      m.colIndices[position]? = some column ∧ m.values[position]? = some value) ∧
    ∀ first second, span.contains first → span.contains second →
      m.colIndices[first]? = some column →
      m.colIndices[second]? = some column → first = second
  /-- A block whose lines do not fit into memory cannot be written out. -/
  dense : m.toDense = (Word.request m.ncols 8 >>= fun _ => .ok ((List.range m.nrows).map fun row =>
    (List.range m.ncols).map fun column => (entry row column).getD Entry.absent))

theorem toDense_ofRows [Entry T] (tidy : ∀ row ∈ rows, Tidy ncols row) :
    (ofRows ncols rows).toDense = (Word.request ncols 8 >>= fun _ => .ok (rows.map fun row =>
      (List.range ncols).map fun column => (row.lookup column).getD Entry.absent)) := by
  rw [toDense, rows_ofRows]
  refine congrArg _ (funext fun _ => Attempt.mapM_of fun row member => ?_)
  have inside : ∀ entry ∈ row, entry.1 < (Array.replicate ncols (Entry.absent : T)).size := by
    rw [Array.size_replicate]
    exact (tidy row member).inside
  rw [← line_eq (tidy row member)]
  exact congrArg (Array.toList <$> ·) (foldlM_write inside)

/-- What the rows of a list give in their order, by the place of the row. -/
theorem map_rows {α : Type} (f : List (Nat × T) → α) :
    rows.map f = (List.range rows.length).map fun place => f (rows.getD place []) := by
  refine List.ext_getElem? fun place => ?_
  rw [List.getElem?_map, List.getElem?_map]
  rcases Nat.lt_or_ge place rows.length with inside | outside
  · rw [List.getElem?_range inside, List.getElem?_eq_getElem inside,
      Option.map_some, Option.map_some,
      List.getD_eq_getElem?_getD, List.getElem?_eq_getElem inside, Option.getD_some]
  · rw [List.getElem?_eq_none outside, List.getElem?_eq_none (by simpa using outside)]
    rfl

/-- All readings of a block that passes the check agree. Its rows store values at some places, every
column at most once. Looking up a place gives what is stored there, the rows that are written out
show the same with the default elsewhere, and the product with a vector adds up, for every row from
zero and by ascending column, exactly the stored values times the numbers of the vector. -/
theorem readings_agree [Entry T] {m : Csr T} (valid : m.validate = .ok ()) :
    ∃ entry : Nat → Nat → Option T,
    m.Reads entry ∧ ∀ [Scalar T] (x : List T), x.length = m.ncols → m.spmv x =
      .ok ((List.range m.nrows).map fun row =>
        (rowTerms (entry row) x).foldl (· + ·) Scalar.zero) := by
  have stored := (validate_eq_ok_iff_wellStored.mp valid).2
  obtain ⟨rows, same, _, tidy⟩ := validate_eq_ok_iff.mp valid
  have nrows : m.nrows = rows.length := congrArg nrows same
  have found : ∀ place < m.nrows, rows[place]? = some (rows.getD place []) := by
    intro place below
    rw [nrows] at below
    rw [List.getD_eq_getElem?_getD, List.getElem?_eq_getElem below, Option.getD_some]
  have tidy' : ∀ place < m.nrows, Tidy m.ncols (rows.getD place []) := fun place below =>
    tidy _ (List.mem_of_getElem? (found place below))
  refine ⟨fun place column => (rows.getD place []).lookup column, ⟨?_, ?_, ?_⟩, ?_⟩
  · intro place below column
    rw [same]
    exact get?_eq_lookup (found place below) (tidy' place below) column
  · intro place below
    have spans : m.rowSpan place = _ :=
      (congrArg (rowSpan · place) same).trans (rowSpan_ofRows (found place below))
    refine ⟨_, spans, fun column =>
      ⟨fun value => ?_, fun first second within within' here there => ?_⟩⟩
    · rw [(tidy' place below).lookup_eq_some_iff, mem_iff_exists_place m.ncols
        (found place below), ← same]
    · exact stored.place_unique spans within within' here there
  · calc m.toDense
      _ = (ofRows m.ncols rows).toDense := congrArg toDense same
      _ = _ := toDense_ofRows tidy
      _ = _ := by rw [map_rows, nrows]
  · intro _ x length
    calc m.spmv x
      _ = (ofRows m.ncols rows).spmv x := congrArg (spmv · x) same
      _ = .ok (rows.map (rowTimes x)) :=
      spmv_ofRows (fun row member => (tidy row member).inside) length
      _ = .ok (rows.map fun row => (rowTerms (row.lookup ·) x).foldl (· + ·) Scalar.zero) :=
        congrArg _ (List.map_congr_left fun row member => rowTimes_eq (tidy row member) length)
      _ = _ := by rw [map_rows, nrows]

def gapped : Csr Float := ofRows 3 [[], [(0, 2.0), (2, 3.0)]]

theorem readings_agree_gapped : gapped.validate = .ok () ∧ ∃ entry : Nat → Nat → Option Float,
    gapped.Reads entry ∧ gapped.spmv [1.0, 5.0, 4.0] =
      .ok [(rowTerms (entry 0) [1.0, 5.0, 4.0]).foldl (· + ·) 0.0,
        (rowTerms (entry 1) [1.0, 5.0, 4.0]).foldl (· + ·) 0.0] := by
  have valid : gapped.validate = .ok () := rfl
  obtain ⟨entry, reads, product⟩ := readings_agree valid
  exact ⟨valid, entry, reads, product [1.0, 5.0, 4.0] rfl⟩

end Csr
end DeviceTeams
