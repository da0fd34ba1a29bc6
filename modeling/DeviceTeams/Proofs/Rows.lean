import DeviceTeams.Layout.Offsets
import DeviceTeams.Proofs.Attempts
import Mathlib.Data.List.Flatten

/-!
# Blocks as lists of rows

Every block that passes the check is the block of a list of rows: its pointers are the running
totals of the row lengths, and its columns and values are those of the rows one after the other. A
block that fails the check is refused as long as the number of its pointers is a word, since the
pointers are compared before the columns of any row are read.
-/
namespace DeviceTeams

variable {T : Type}

/-! ## Running totals -/

theorem runningTotals_eq_cons (start : Nat) (counts : List Nat) :
    ∃ rest, runningTotals start counts = start :: rest := by
  cases counts with
  | nil => exact ⟨_, rfl⟩
  | cons count rest => exact ⟨_, rfl⟩

theorem getElem?_runningTotals (start : Nat) (counts : List Nat) (i : Nat) :
    (runningTotals start counts)[i]? =
      if i ≤ counts.length then some (start + (counts.take i).sum) else none := by
  induction counts generalizing start i with
  | nil => cases i <;> simp [runningTotals]
  | cons count rest ih => cases i <;> simp [runningTotals, ih, Nat.add_assoc]

theorem between_runningTotals (start count : Nat) (rest : List Nat) :
    Span.between (runningTotals start (count :: rest)) =
      ⟨start, start + count⟩ :: Span.between (runningTotals (start + count) rest) := by
  obtain ⟨later, found⟩ := runningTotals_eq_cons (start + count) rest
  rw [runningTotals, Span.between, Span.between, found]
  rfl

@[simp] theorem length_between (pointers : List Nat) :
    (Span.between pointers).length = pointers.length - 1 := by
  simp [Span.between]

/-- The spans between pointers go from each pointer to the next one. -/
theorem mem_between_iff {pointers : List Nat} {s : Span} :
    s ∈ Span.between pointers ↔ ∃ place, pointers[place]? = some s.start ∧
    pointers[place + 1]? = some s.stop := by
  have places : ∀ place, (Span.between pointers)[place]? = some s ↔
      pointers[place]? = some s.start ∧ pointers[place + 1]? = some s.stop := by
    intro place
    rw [Span.between, List.getElem?_zipWith_eq_some, List.getElem?_tail]
    constructor
    · rintro ⟨start, stop, here, next, rfl⟩
      exact ⟨here, next⟩
    · rintro ⟨here, next⟩
      exact ⟨_, _, here, next, rfl⟩
  exact List.mem_iff_getElem?.trans (exists_congr places)

theorem getLast?_runningTotals (start : Nat) (counts : List Nat) :
    (runningTotals start counts).getLast? = some (start + counts.sum) := by
  rw [List.getLast?_eq_getElem?, length_runningTotals, getElem?_runningTotals, Nat.add_sub_cancel,
    if_pos (Nat.le_refl _), List.take_length]

theorem le_of_mem_runningTotals {start total : Nat} {counts : List Nat}
    (member : total ∈ runningTotals start counts) :
    total ≤ start + counts.sum := by
  induction counts generalizing start with
  | nil => simpa [runningTotals] using Nat.le_of_eq (List.mem_singleton.mp member)
  | cons count rest ih =>
    rw [runningTotals] at member
    rw [List.sum_cons]
    rcases List.mem_cons.mp member with rfl | later
    · omega
    · have := ih later
      omega

theorem sum_take_succ {counts : List Nat} {place count : Nat}
    (found : counts[place]? = some count) :
    (counts.take (place + 1)).sum = (counts.take place).sum + count := by
  rw [List.take_add_one, found, List.sum_append]
  simp

def Span.cut {α : Type} (s : Span) (items : List α) : List α :=
  (items.drop s.start).take (s.stop - s.start)

/-- Parts of the given lengths, cut one after the other, are the parts that were put together. -/
theorem cut_between {α : Type} (front : List α) (parts : List (List α)) :
    (Span.between (runningTotals front.length (parts.map List.length))).map
    (·.cut (front ++ parts.flatten)) = parts := by
  induction parts generalizing front with
  | nil => rfl
  | cons part rest ih =>
    rw [List.map_cons, between_runningTotals, List.map_cons, ← List.length_append]
    have later := ih (front ++ part)
    rw [List.append_assoc] at later
    rw [List.flatten_cons, later]
    simp [Span.cut]

theorem span_le {start : Nat} {counts : List Nat} {s : Span}
    (member : s ∈ Span.between (runningTotals start counts)) :
    start ≤ s.start ∧ s.start ≤ s.stop ∧ s.stop ≤ start + counts.sum := by
  induction counts generalizing start with
  | nil => cases member
  | cons count rest ih =>
    rw [between_runningTotals, List.mem_cons] at member
    rw [List.sum_cons]
    rcases member with rfl | later
    · simp only
      omega
    · have := ih later
      omega

/-- A part lies between the parts before it and those after it. -/
theorem flatten_of_found {α : Type} {parts : List (List α)} {place : Nat} {part : List α}
    (found : parts[place]? = some part) :
    parts.flatten = (parts.take place).flatten ++ (part ++ (parts.drop (place + 1)).flatten) := by
  obtain ⟨bound, value⟩ := List.getElem?_eq_some_iff.mp found
  conv_lhs => rw [← List.take_append_drop place parts, List.drop_eq_getElem_cons bound, value]
  rw [List.flatten_append, List.flatten_cons]

theorem stop_le_of_found {α : Type} {parts : List (List α)} {place : Nat} {part : List α}
    (found : parts[place]? = some part) :
    (parts.take place).flatten.length + part.length ≤ parts.flatten.length := by
  rw [flatten_of_found found, List.length_append, List.length_append]
  omega

/-- An item of a part comes after all items of the parts before it. -/
theorem getElem?_flatten_of_found {α : Type} {parts : List (List α)} {place inner : Nat}
    {part : List α} {item : α} (found : parts[place]? = some part)
    (found' : part[inner]? = some item) :
    parts.flatten[(parts.take place).flatten.length + inner]? = some item := by
  have inside := (List.getElem?_eq_some_iff.mp found').1
  rw [flatten_of_found found, List.getElem?_append_right (Nat.le_add_right ..),
    Nat.add_sub_cancel_left, List.getElem?_append_left inside, found']

/-- Pointers that never decrease are the running totals of the distances between them. -/
theorem runningTotals_between {start : Nat} {rest : List Nat}
    (ordered : ∀ s ∈ Span.between (start :: rest), s.start ≤ s.stop) :
    runningTotals start ((Span.between (start :: rest)).map Span.length) = start :: rest := by
  induction rest generalizing start with
  | nil => rfl
  | cons next rest ih =>
    have step : Span.between (start :: next :: rest) = ⟨start, next⟩ :: Span.between
      (next :: rest) := rfl
    rw [step] at ordered ⊢
    have here : start ≤ next := ordered _ List.mem_cons_self
    have later := ih fun s member => ordered s (List.mem_cons_of_mem _ member)
    rw [List.map_cons, runningTotals, Span.length, Nat.add_sub_cancel' here, later]

/-- Consecutive parts make up the whole. -/
theorem flatten_cut {α : Type} {items : List α} {start last : Nat} {rest : List Nat}
    (ordered : ∀ s ∈ Span.between (start :: rest), s.start ≤ s.stop)
    (final : (start :: rest).getLast? = some last) (inside : last ≤ items.length) :
    ((Span.between (start :: rest)).map (·.cut items)).flatten = (items.take last).drop start ∧
    start ≤ last := by
  induction rest generalizing start with
  | nil =>
    have same : start = last := by simpa using final
    subst same
    exact ⟨by simp [Span.between], Nat.le_refl _⟩
  | cons next rest ih =>
    have step : Span.between (start :: next :: rest) = ⟨start, next⟩ :: Span.between
      (next :: rest) := rfl
    rw [step] at ordered ⊢
    have here : start ≤ next := ordered _ List.mem_cons_self
    obtain ⟨later, bound⟩ := ih (fun s member => ordered s (List.mem_cons_of_mem _ member))
      (by simpa [List.getLast?_cons_cons] using final)
    refine ⟨?_, Nat.le_trans here bound⟩
    have first : (Span.mk start next).cut items = ((items.take last).drop start).take
        (next - start) := by
      rw [Span.cut, List.drop_take, List.take_take, Nat.min_eq_left (by omega)]
    have second : (items.take last).drop next = ((items.take last).drop start).drop
        (next - start) := by
      rw [List.drop_drop, Nat.add_sub_cancel' here]
    rw [List.map_cons, List.flatten_cons, later, first, second, List.take_append_drop]

/-- Consecutive parts of a list, put together. -/
theorem flatten_map_cut {α : Type} {order : List Nat} {span : Nat → Span}
    {items : List α} {base : Nat} (follow : ∀ place rank, order[place]? = some rank →
      (span rank).start = base + ((order.take place).map fun rank => (span rank).length).sum) :
    (order.map fun rank => (span rank).cut items).flatten =
      (items.drop base).take (order.map fun rank => (span rank).length).sum := by
  induction order generalizing base with
  | nil => rfl
  | cons first rest ih =>
    have start : (span first).start = base := follow 0 first rfl
    have later : (rest.map fun rank => (span rank).cut items).flatten =
        (items.drop (base + (span first).length)).take _ := ih fun place rank found => by
      have here := follow (place + 1) rank found
      rwa [List.take_succ_cons, List.map_cons, List.sum_cons, ← Nat.add_assoc] at here
    have own : (span first).cut items = (items.drop base).take (span first).length := by
      rw [Span.cut, start, Span.length, start]
    rw [List.map_cons, List.flatten_cons, own, later, List.map_cons, List.sum_cons,
      List.take_add, List.drop_drop]

/-! ## Blocks of rows -/

def Csr.ofRows (ncols : Nat) (rows : List (List (Nat × T))) : Csr T where
  nrows := rows.length
  ncols := ncols
  rowPointers := (runningTotals 0 (rows.map List.length)).toArray
  colIndices := (rows.flatten.map (·.1)).toArray
  values := (rows.flatten.map (·.2)).toArray

/-- Columns that ascend and are in range. -/
structure Tidy (ncols : Nat) (row : List (Nat × T)) : Prop where
  ascending : row.Pairwise fun a b => a.1 < b.1
  inside : ∀ entry ∈ row, entry.1 < ncols

namespace Csr

variable {ncols : Nat} {rows : List (List (Nat × T))}

theorem size_values_ofRows : (ofRows ncols rows).values.size = (rows.map List.length).sum := by
  rw [ofRows, List.size_toArray, List.length_map, List.length_flatten]

theorem size_colIndices_ofRows :
    (ofRows ncols rows).colIndices.size = (rows.map List.length).sum := by
  rw [ofRows, List.size_toArray, List.length_map, List.length_flatten]

theorem forall_colIndices_ofRows {P : Nat → Prop} :
    (∀ column ∈ (ofRows ncols rows).colIndices, P column) ↔
    ∀ row ∈ rows, ∀ entry ∈ row, P entry.1 := by
  simp only [ofRows, List.mem_toArray, List.forall_mem_map, List.forall_mem_flatten]

theorem size_rowPointers_ofRows : (ofRows ncols rows).rowPointers.size = rows.length + 1 := by
  rw [ofRows, List.size_toArray, length_runningTotals, List.length_map]

def stored (m : Csr T) : List (Nat × T) := m.colIndices.toList.zip m.values.toList

@[simp] theorem stored_ofRows : (ofRows ncols rows).stored = rows.flatten :=
  (@List.zip_of_prod _ _ _ _ rows.flatten rfl rfl).symm

theorem entries_eq {m : Csr T} (sizes : m.colIndices.size = m.values.size) {s : Span}
    (inside : s.stop ≤ m.values.size) : m.entries s = .ok (s.cut m.stored) := by
  rw [entries]
  split
  · next reversed => rw [Span.cut, Nat.sub_eq_zero_of_le reversed, List.take_zero]
  · rw [if_pos ⟨sizes ▸ inside, inside⟩, Span.cut, stored]
    simp only [List.zip, List.drop_zipWith, List.take_zipWith, Array.toList_extract,
      List.extract_eq_take_drop]

theorem rowSpans_ofRows : (ofRows ncols rows).rowSpans =
    .ok (Span.between (runningTotals 0 (rows.map List.length))) := by
  rw [rowSpans]
  split
  · next none =>
    have empty : rows = [] := List.length_eq_zero_iff.mp none
    subst empty
    rfl
  · have enough : (ofRows ncols rows).nrows < (ofRows ncols rows).rowPointers.size := by
      rw [size_rowPointers_ofRows]
      exact Nat.lt_succ_self _
    have all : (runningTotals 0 (rows.map List.length)).length ≤ (ofRows ncols rows).nrows + 1 := by
      rw [length_runningTotals, List.length_map]
      exact Nat.le_refl _
    rw [if_pos enough]
    exact congrArg (fun pointers => Except.ok (Span.between pointers)) (List.take_of_length_le all)

theorem rows_ofRows : (ofRows ncols rows).rows = .ok rows := by
  rw [Csr.rows, rowSpans_ofRows, Attempt.ok_bind]
  refine (Attempt.mapM_of (g := (·.cut rows.flatten)) fun s member => ?_).trans
    (congrArg _ (cut_between [] rows))
  have inside := (span_le member).2.2
  rw [Nat.zero_add] at inside
  rw [entries_eq (size_colIndices_ofRows.trans size_values_ofRows.symm)
    (by rwa [size_values_ofRows]), stored_ofRows]

/-- The rows can be read off what is stored of them. -/
theorem ofRows_injective : Function.Injective (ofRows ncols : List (List (Nat × T)) → Csr T) := by
  intro rows rows' same
  have read : (ofRows ncols rows).rows = .ok rows' := by rw [same, rows_ofRows]
  exact Except.ok.inj (rows_ofRows.symm.trans read)

/-! ## The check -/

theorem rowSpan_ofRows {row : Nat} {entries : List (Nat × T)} (found : rows[row]? = some entries) :
    (ofRows ncols rows).rowSpan row =
      .ok ⟨(rows.take row).flatten.length, (rows.take row).flatten.length + entries.length⟩ := by
  have inside := (List.getElem?_eq_some_iff.mp found).1
  have start : (ofRows ncols rows).rowPointers[row]? = some (rows.take row).flatten.length := by
    rw [ofRows, List.getElem?_toArray, getElem?_runningTotals, List.length_map,
      if_pos (Nat.le_of_lt inside), Nat.zero_add, ← List.map_take, List.length_flatten]
  have stop : (ofRows ncols rows).rowPointers[row + 1]? =
      some ((rows.take row).flatten.length + entries.length) := by
    rw [ofRows, List.getElem?_toArray, getElem?_runningTotals, List.length_map,
      if_pos (Nat.succ_le_of_lt inside),
      Nat.zero_add, ← List.map_take, List.take_add_one, found, List.map_append, List.sum_append,
      List.length_flatten]
    simp
  rw [rowSpan, start, stop]

/-- The columns of a row, as its span gives them. -/
theorem slice_columns {row : Nat} {entries : List (Nat × T)} (found : rows[row]? = some entries) :
    (Span.mk (rows.take row).flatten.length ((rows.take row).flatten.length + entries.length)).slice
      (ofRows ncols rows).colIndices = .ok (entries.map (·.1)) := by
  have bound : (rows.take row).flatten.length + entries.length ≤
      (ofRows ncols rows).colIndices.size := by
    rw [size_colIndices_ofRows, ← List.length_flatten]
    exact stop_le_of_found found
  rw [Span.slice, if_pos ⟨Nat.le_add_right .., bound⟩, ofRows, Array.toList_extract,
    List.extract_eq_take_drop, flatten_of_found found]
  generalize (rows.take row).flatten = front
  generalize (rows.drop (row + 1)).flatten = back
  simp

/-- The entries of a row, as its span gives them. -/
theorem rowEntries_ofRows {row : Nat} {entries : List (Nat × T)}
    (found : rows[row]? = some entries) :
    (ofRows ncols rows).rowEntries row = .ok entries := by
  have bound : (rows.take row).flatten.length + entries.length ≤
      (ofRows ncols rows).values.size := by
    rw [size_values_ofRows, ← List.length_flatten]
    exact stop_le_of_found found
  rw [rowEntries, rowSpan_ofRows found, Attempt.ok_bind,
    entries_eq (size_colIndices_ofRows.trans size_values_ofRows.symm) bound,
    stored_ofRows, Span.cut, flatten_of_found found]
  generalize (rows.take row).flatten = front
  generalize (rows.drop (row + 1)).flatten = back
  simp

theorem ascending_iff {columns : List Nat} :
    ascending columns = true ↔ columns.Pairwise (· < ·) := by
  induction columns with
  | nil => simp [ascending]
  | cons first rest ih =>
    cases rest with
    | nil => simp [ascending]
    | cons second rest =>
      have step : ascending (first :: second :: rest) =
        (decide (first < second) && ascending (second :: rest)) := rfl
      rw [step, Bool.and_eq_true, ih, decide_eq_true_eq, List.pairwise_cons (a := first)]
      constructor
      · rintro ⟨less, later⟩
        refine ⟨fun other member => ?_, later⟩
        rcases List.mem_cons.mp member with rfl | member
        · exact less
        · exact Nat.lt_trans less ((List.pairwise_cons.mp later).1 other member)
      · rintro ⟨least, later⟩
        exact ⟨least second List.mem_cons_self, later⟩

/-- The check of one row, whose columns are read off its span. -/
theorem validateRow_decides {m : Csr T} {row : Nat} {s : Span} {columns : List Nat}
    (span : m.rowSpan row = .ok s) (slice : s.slice m.colIndices = .ok columns) :
    Decides (m.validateRow row)
    (columns.Pairwise (· < ·) ∧ ∀ column ∈ columns, column < m.ncols) := by
  rw [validateRow, span, Attempt.ok_bind, slice, Attempt.ok_bind]
  cases final : columns.getLast? with
  | none =>
    rw [List.getLast?_eq_none_iff.mp final]
    exact ⟨fun _ => rfl, fun fails => absurd ⟨.nil, fun _ member => nomatch member⟩ fails⟩
  | some last =>
    simp only [Attempt.throw_eq, Attempt.error_bind]
    refine Judges.decides (.checkNot (fun tidy => ?_) False.elim fun inside => ?_)
    · exact Nat.not_le.mpr (tidy.2 last (List.mem_of_getLast? final))
    · refine ((Decides.of_ite _).congr
        ⟨fun ascends => ?_, fun tidy => ascending_iff.mpr tidy.1⟩).judges id
      -- only the last column has been compared with the number of columns, and no other is greater
      have rising := ascending_iff.mp ascends
      obtain ⟨front, ends⟩ := List.getLast?_eq_some_iff.mp final
      refine ⟨rising, fun column member => ?_⟩
      rw [ends] at rising member
      rcases List.mem_append.mp member with before | here
      · have below := (List.pairwise_append.mp rising).2.2 _ before _ List.mem_cons_self
        exact Nat.lt_trans below (Nat.not_le.mp inside)
      · exact List.mem_singleton.mp here ▸ Nat.not_le.mp inside

theorem rowSpan_eq_ok_iff {m : Csr T} {row : Nat} {s : Span} :
    m.rowSpan row = .ok s ↔ m.rowPointers[row]? = some s.start ∧
    m.rowPointers[row + 1]? = some s.stop := by
  rw [rowSpan]
  constructor
  · intro found
    split at found
    · next start stop here next =>
      cases found
      exact ⟨here, next⟩
    · cases found
  · rintro ⟨here, next⟩
    rw [here, next]

structure Laid (m : Csr T) : Prop where
  pointerCount : m.rowPointers.size = m.nrows + 1
  first : m.rowPointers[0]? = some 0
  rising : ∀ row s, m.rowSpan row = .ok s → s.start ≤ s.stop
  last : m.rowPointers[m.nrows]? = some m.values.size
  columnCount : m.colIndices.size = m.values.size

/-- The storage rules of a block. The columns of a row stand where its pointers say; they ascend and
are in range. -/
structure WellStored (m : Csr T) : Prop extends Laid m where
  ascending : ∀ row s, m.rowSpan row = .ok s → ∀ i j a b, s.start ≤ i → i < j → j < s.stop →
    m.colIndices[i]? = some a → m.colIndices[j]? = some b → a < b
  inside : ∀ row s, m.rowSpan row = .ok s → ∀ i a, s.start ≤ i → i < s.stop →
    m.colIndices[i]? = some a → a < m.ncols

theorem rising_iff {m : Csr T} : (∀ row s, m.rowSpan row = .ok s → s.start ≤ s.stop) ↔
    ∀ s ∈ Span.between m.rowPointers.toList, s.start ≤ s.stop := by
  simp only [mem_between_iff, rowSpan_eq_ok_iff, Array.getElem?_toList]
  exact ⟨fun rises s ⟨row, found⟩ => rises row s found, fun rises row s found =>
    rises s ⟨row, found⟩⟩

theorem laid_ofRows : (ofRows ncols rows).Laid where
  pointerCount := size_rowPointers_ofRows
  first := by
    rw [ofRows, List.getElem?_toArray, getElem?_runningTotals]
    simp
  rising := rising_iff.mpr fun _ member => (span_le member).2.1
  last := by
    rw [size_values_ofRows, ofRows, List.getElem?_toArray, getElem?_runningTotals, List.length_map,
      if_pos (Nat.le_refl _), Nat.zero_add, List.take_of_length_le (by simp)]
  columnCount := size_colIndices_ofRows.trans size_values_ofRows.symm

/-- A block whose pointers follow the rules is the block of its rows. -/
theorem Laid.eq_ofRows {m : Csr T} (laid : m.Laid) :
    ∃ rows : List (List (Nat × T)), m = ofRows m.ncols rows := by
  have ordered := rising_iff.mp laid.rising
  have first := laid.first
  have size := laid.pointerCount
  have sizes := laid.columnCount
  obtain ⟨rest, pointers⟩ : ∃ rest, m.rowPointers.toList = 0 :: rest := by
    cases found : m.rowPointers.toList with
    | nil =>
      have none := congrArg List.length found
      simp [size] at none
    | cons start rest =>
      rw [← Array.getElem?_toList, found] at first
      cases first
      exact ⟨rest, rfl⟩
  rw [pointers] at ordered
  have totals := runningTotals_between ordered
  have last : (0 :: rest).getLast? = some m.values.size := by
    rw [← pointers, List.getLast?_eq_getElem?, Array.length_toList, size, Nat.add_sub_cancel,
      Array.getElem?_toList]
    exact laid.last
  have total : ((Span.between (0 :: rest)).map Span.length).sum = m.values.size := by
    have same := getLast?_runningTotals 0 ((Span.between (0 :: rest)).map Span.length)
    rw [totals, last, Nat.zero_add] at same
    exact (Option.some.inj same).symm
  have length : m.stored.length = m.values.size := by simp [stored, sizes]
  let rows := (Span.between (0 :: rest)).map (·.cut m.stored)
  have lengths : rows.map List.length = (Span.between (0 :: rest)).map Span.length := by
    rw [List.map_map]
    refine List.map_congr_left fun s member => ?_
    rw [← totals] at member
    have inside := (span_le member).2.2
    rw [Nat.zero_add, total, ← length] at inside
    simp only [Function.comp, Span.cut, List.length_take, List.length_drop, Span.length]
    omega
  have entries : rows.flatten = m.stored := by
    have all := (flatten_cut ordered last (Nat.le_of_eq length.symm)).1
    rwa [List.drop_zero, ← length, List.take_length] at all
  refine ⟨rows, ?_⟩
  obtain ⟨nrows, ncols, rowPointers, colIndices, values⟩ := m
  simp only [ofRows, mk.injEq, true_and, lengths, totals, entries]
  refine ⟨?_, ?_, ?_, ?_⟩
  · have count := congrArg List.length pointers
    simp only [Array.length_toList, size, List.length_cons] at count
    simp only [rows, List.length_map, length_between, List.length_cons]
    omega
  · exact Array.toList_inj.mp pointers
  · refine Array.toList_inj.mp ?_
    exact (List.map_fst_zip (by simp [sizes])).symm
  · refine Array.toList_inj.mp ?_
    exact (List.map_snd_zip (by simp [sizes])).symm

/-- The rules for the columns of a block of rows. -/
theorem wellStored_ofRows : (ofRows ncols rows).WellStored ↔ ∀ row ∈ rows, Tidy ncols row := by
  have column : ∀ {row : Nat} {entries : List (Nat × T)}, rows[row]? = some entries →
      ∀ place (_ : place < entries.length),
      (ofRows ncols rows).colIndices[(rows.take row).flatten.length + place]? =
      some entries[place].1 := by
    intro row entries found place within
    rw [ofRows, List.getElem?_toArray, List.getElem?_map,
      getElem?_flatten_of_found found (List.getElem?_eq_getElem within), Option.map_some]
  constructor
  · intro stored entries member
    obtain ⟨row, found⟩ := List.mem_iff_getElem?.mp member
    refine ⟨List.pairwise_iff_getElem.mpr fun i j below below' less => ?_, fun entry among => ?_⟩
    · exact stored.ascending row _ (rowSpan_ofRows found) _ _ _ _ (Nat.le_add_right ..)
        (Nat.add_lt_add_left less _)
        (Nat.add_lt_add_left below' _) (column found i below) (column found j below')
    · obtain ⟨i, below, rfl⟩ := List.getElem_of_mem among
      exact stored.inside row _ (rowSpan_ofRows found) _ _ (Nat.le_add_right ..)
        (Nat.add_lt_add_left below _) (column found i below)
  · intro tidy
    have spans : ∀ {row : Nat} {s : Span}, (ofRows ncols rows).rowSpan row = .ok s → ∃ entries,
        rows[row]? = some entries ∧ s.start = (rows.take row).flatten.length ∧
        s.stop = s.start + entries.length := by
      intro row s span
      have inside : row < rows.length := by
        have bound := (Array.getElem?_eq_some_iff.mp (rowSpan_eq_ok_iff.mp span).2).1
        rw [size_rowPointers_ofRows] at bound
        exact Nat.lt_of_succ_lt_succ bound
      have found := List.getElem?_eq_getElem inside
      rw [rowSpan_ofRows found] at span
      cases span
      exact ⟨_, found, rfl, rfl⟩
    refine ⟨laid_ofRows, fun row s span i j a b from_start less below here here' => ?_,
      fun row s span i a from_start below here => ?_⟩
    · obtain ⟨entries, found, start, stop⟩ := spans span
      obtain ⟨p, rfl⟩ := Nat.exists_eq_add_of_le from_start
      obtain ⟨q, rfl⟩ := Nat.exists_eq_add_of_le (Nat.le_trans from_start (Nat.le_of_lt less))
      rw [start, column found _ (by omega)] at here here'
      cases here
      cases here'
      exact List.pairwise_iff_getElem.mp (tidy _ (List.mem_of_getElem? found)).ascending
        p q _ _ (by omega)
    · obtain ⟨entries, found, start, stop⟩ := spans span
      obtain ⟨p, rfl⟩ := Nat.exists_eq_add_of_le from_start
      rw [start, column found _ (by omega)] at here
      cases here
      exact (tidy _ (List.mem_of_getElem? found)).inside _ (List.getElem_mem _)

/-- The checks of the rows of a block whose pointers follow the rules. -/
theorem Laid.validateRows_decides {m : Csr T} (laid : m.Laid) :
    Decides ((List.range m.nrows).forM m.validateRow) m.WellStored := by
  obtain ⟨rows, same⟩ := laid.eq_ofRows
  rw [same, wellStored_ofRows]
  refine (Decides.forM (fun row => ∀ entries, rows[row]? = some entries → Tidy m.ncols entries)
    fun row member => ?_).congr ?_
  · have found := List.getElem?_eq_getElem (List.mem_range.mp member)
    refine (validateRow_decides (rowSpan_ofRows found) (slice_columns found)).congr ?_
    rw [found, List.pairwise_map, List.forall_mem_map]
    exact ⟨fun ⟨ascends, inside⟩ _ here => Option.some.inj here ▸ ⟨ascends, inside⟩,
      fun all => ⟨(all _ rfl).ascending, (all _ rfl).inside⟩⟩
  · constructor
    · intro all entries member
      obtain ⟨row, found⟩ := List.mem_iff_getElem?.mp member
      exact all row (List.mem_range.mpr (List.getElem?_eq_some_iff.mp found).1) entries found
    · intro all row _ entries found
      exact all entries (List.mem_of_getElem? found)

/-- The check accepts the blocks that follow the storage rules and refuses all others: each of its
steps reads only what the steps before it have found to be there. -/
theorem validate_decides {m : Csr T} (word : m.nrows + 1 < Word.limit) :
    Decides m.validate m.WellStored := by
  rw [validate, Word.add_of_lt word, Attempt.ok_bind]
  simp only [Attempt.throw_eq, Attempt.error_bind]
  refine Judges.decides (.check (·.pointerCount) False.elim fun count => ?_)
  have first : m.rowPointers[0]? = some m.rowPointers[0] := Array.getElem?_eq_getElem _
  have last : m.rowPointers[m.nrows]? = some m.rowPointers[m.nrows] := Array.getElem?_eq_getElem _
  rw [first, Attempt.ofOption_some, Attempt.ok_bind, last, Attempt.ofOption_some, Attempt.ok_bind]
  refine .check (fun stored => Option.some.inj (first.symm.trans stored.first))
    False.elim fun zero => ?_
  refine .check (·.columnCount) False.elim fun columns => ?_
  refine .check (fun stored => Option.some.inj (last.symm.trans stored.last))
    False.elim fun final => ?_
  have rises : ((Span.between m.rowPointers.toList).findIdx? fun s => s.stop < s.start) = none ↔
      ∀ row s, m.rowSpan row = .ok s → s.start ≤ s.stop := by
    simp only [List.findIdx?_eq_none_iff, decide_eq_false_iff_not, Nat.not_lt, rising_iff]
  cases found : (Span.between m.rowPointers.toList).findIdx? fun s => s.stop < s.start with
  | some row =>
    refine ⟨fun stored => ?_, False.elim, fun _ _ => ⟨_, rfl⟩⟩
    cases found.symm.trans (rises.mpr stored.rising)
  | none =>
    have laid : m.Laid :=
      ⟨count, first.trans (congrArg some zero), rises.mp found,
        last.trans (congrArg some final), columns⟩
    exact laid.validateRows_decides.judges id

theorem validate_eq_ok_iff_wellStored {m : Csr T} :
    m.validate = .ok () ↔ m.nrows + 1 < Word.limit ∧ m.WellStored := by
  by_cases word : m.nrows + 1 < Word.limit
  · rw [(validate_decides word).eq_ok_iff, and_iff_right word]
  · refine iff_of_false (fun accepted => ?_) fun ⟨below, _⟩ => word below
    obtain ⟨_, sum, _⟩ := Attempt.bind_eq_ok_iff.mp accepted
    exact word (Word.add_eq_ok_iff.mp sum).1

/-- The block of a list of rows passes the check exactly if its rows are tidy. -/
theorem validate_ofRows : (ofRows ncols rows).validate = .ok () ↔
    rows.length + 1 < Word.limit ∧ ∀ row ∈ rows, Tidy ncols row := by
  rw [validate_eq_ok_iff_wellStored, wellStored_ofRows]
  rfl

theorem validate_ofRows_decides (word : rows.length + 1 < Word.limit) :
    Decides (ofRows ncols rows).validate (∀ row ∈ rows, Tidy ncols row) :=
  (validate_decides word).congr wellStored_ofRows

/-- A block that passes the check is the block of its rows. -/
theorem eq_ofRows_of_validate {m : Csr T} (valid : m.validate = .ok ()) :
    ∃ rows : List (List (Nat × T)), m = ofRows m.ncols rows :=
  (validate_eq_ok_iff_wellStored.mp valid).2.toLaid.eq_ofRows

/-- A block passes the check exactly if it is the block of tidy rows. -/
theorem validate_eq_ok_iff {m : Csr T} : m.validate = .ok () ↔
    ∃ rows : List (List (Nat × T)), m = ofRows m.ncols rows ∧ rows.length + 1 < Word.limit ∧
      ∀ row ∈ rows, Tidy m.ncols row := by
  constructor
  · intro valid
    obtain ⟨rows, same⟩ := eq_ofRows_of_validate valid
    rw [same] at valid
    exact ⟨rows, same, validate_ofRows.mp valid⟩
  · rintro ⟨rows, same, conditions⟩
    rw [same]
    exact validate_ofRows.mpr conditions

/-- Halving a window stays inside it. -/
theorem narrow_lt (numbers : Array Nat) (wanted base size : Nat) (some_place : 0 < size) :
    searchSorted?.narrow numbers wanted base size < base + size := by
  fun_induction searchSorted?.narrow numbers wanted base size with
  | case1 base size wide half ih =>
    have inside := ih (by omega)
    simp only [dite_eq_ite] at inside
    have bound : (if wanted < numbers.getD (base + half) 0 then base else base + half) ≤
        base + half := by
      split <;> omega
    omega
  | case2 base size narrow => omega

theorem lt_of_searchSorted? {numbers : Array Nat} {wanted place : Nat}
    (found : searchSorted? numbers wanted = some place) : place < numbers.size := by
  rw [searchSorted?] at found
  split at found
  · cases found
  · next some_number =>
    simp only at found
    split at found
    · cases found
      simpa using narrow_lt numbers wanted 0 numbers.size (Nat.pos_of_ne_zero some_number)
    · cases found

/-- Every position of a row can be looked up. -/
theorem get?_ofRows {row : Nat} {entries : List (Nat × T)}
    (found : rows[row]? = some entries) (column : Nat) :
    ∃ value, (ofRows ncols rows).get? row column = .ok value := by
  rw [get?, rowSpan_ofRows found, Attempt.ok_bind, slice_columns found, Attempt.ok_bind]
  cases search : searchSorted? (entries.map (·.1)).toArray column with
  | none => exact ⟨none, rfl⟩
  | some place =>
    have inside := lt_of_searchSorted? search
    have bound : (rows.take row).flatten.length + place < (ofRows ncols rows).values.size := by
      rw [size_values_ofRows, ← List.length_flatten]
      rw [List.size_toArray, List.length_map] at inside
      exact Nat.lt_of_lt_of_le (Nat.add_lt_add_left inside _) (stop_le_of_found found)
    refine ⟨some (ofRows ncols rows).values[(rows.take row).flatten.length + place], ?_⟩
    simp only [Array.getElem?_eq_getElem bound, Attempt.ofOption_some]
    rfl

end Csr
end DeviceTeams
