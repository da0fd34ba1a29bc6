import DeviceTeams.Matrix.Triplets
import DeviceTeams.Proofs.Rows
import Mathlib.Data.List.Sort

/-!
# What assembly makes of contributions

A block made of triplets stores one entry for each place that any of them goes to: the contributions
to the place, added up from left to right as they were given. Sorting only brings them next to each
other, since it keeps the order of those that go to one place. This holds for any type of entries as
long as no sum leaves its range.
-/
namespace DeviceTeams

variable {T : Type}

def Triplet.At (row column : Nat) (t : Triplet T) : Prop := t.row = row ∧ t.column = column

instance (row column : Nat) (t : Triplet T) : Decidable (t.At row column) :=
  inferInstanceAs (Decidable (_ ∧ _))

namespace Triplet

variable {row column : Nat}

/-! ## The order of the places -/

theorem le_trans (a b c : Triplet T) (first : a.le b) (second : b.le c) : a.le c := by
  simp only [le, Bool.or_eq_true, decide_eq_true_eq, Bool.and_eq_true, beq_iff_eq] at *
  omega

theorem le_total (a b : Triplet T) : a.le b || b.le a := by
  simp only [le, Bool.or_eq_true, decide_eq_true_eq, Bool.and_eq_true, beq_iff_eq]
  omega

theorem le_refl (a : Triplet T) : a.le a := by simpa using le_total a a

def Before (a b : Triplet T) : Prop := a.row < b.row ∨ (a.row = b.row ∧ a.column < b.column)

theorem samePlace_iff {a b : Triplet T} : a.samePlace b ↔ a.row = b.row ∧ a.column = b.column := by
  simp [samePlace]

theorem before_of_le {a b : Triplet T} (less : a.le b) (differ : ¬ a.samePlace b) : a.Before b := by
  rw [samePlace_iff] at differ
  simp only [le, Bool.or_eq_true, decide_eq_true_eq, Bool.and_eq_true, beq_iff_eq] at less
  rw [Before]
  omega

theorem Before.trans_le {a b c : Triplet T} (first : a.Before b) (second : b.le c) :
    a.Before c := by
  simp only [le, Bool.or_eq_true, decide_eq_true_eq, Bool.and_eq_true, beq_iff_eq] at second
  rw [Before] at *
  omega

theorem Before.not_at {a b : Triplet T} (before : a.Before b) (here : a.At row column) :
    ¬ b.At row column := by
  simp only [At, Before] at *
  omega

/-! ## Values at a place -/

def valuesAt (row column : Nat) (triplets : List (Triplet T)) : List T :=
  (triplets.filter fun t => t.At row column).map (·.value)

theorem valuesAt_cons_of_at {t : Triplet T} (here : t.At row column) (rest : List (Triplet T)) :
    valuesAt row column (t :: rest) = t.value :: valuesAt row column rest := by
  rw [valuesAt, List.filter_cons_of_pos (by simpa using here), List.map_cons, valuesAt]

theorem valuesAt_cons_of_not_at {t : Triplet T} (elsewhere : ¬ t.At row column)
    (rest : List (Triplet T)) :
    valuesAt row column (t :: rest) = valuesAt row column rest := by
  rw [valuesAt, List.filter_cons_of_neg (by simpa using elsewhere), valuesAt]

theorem valuesAt_eq_nil_iff {triplets : List (Triplet T)} :
    valuesAt row column triplets = [] ↔ ∀ t ∈ triplets, ¬ t.At row column := by
  simp [valuesAt]

/-- Behind a place nothing more is contributed to it. -/
theorem valuesAt_of_before {t : Triplet T} {rest : List (Triplet T)} (here : t.At row column)
    (later : ∀ other ∈ rest, t.Before other) : valuesAt row column rest = [] := by
  rw [valuesAt_eq_nil_iff]
  intro other member
  exact (later other member).not_at here

/-- Sorting keeps the order of the contributions to each place. -/
theorem filter_mergeSort (triplets : List (Triplet T)) (row column : Nat) :
    ((triplets.mergeSort le).filter fun t => t.At row column) = triplets.filter fun t =>
      t.At row column := by
  have level : (triplets.filter fun t => t.At row column).Pairwise fun a b => a.le b := by
    refine List.pairwise_of_forall_mem_list fun a memberA b memberB => ?_
    obtain ⟨rowA, columnA⟩ := of_decide_eq_true (List.mem_filter.mp memberA).2
    obtain ⟨rowB, columnB⟩ := of_decide_eq_true (List.mem_filter.mp memberB).2
    simp [le, rowA, rowB, columnA, columnB]
  have kept := (List.sublist_mergeSort le_trans le_total level List.filter_sublist).filter fun t =>
    t.At row column
  rw [List.filter_filter] at kept
  simp only [Bool.and_self] at kept
  exact (kept.eq_of_length ((List.mergeSort_perm triplets le).filter _).length_eq.symm).symm

/-! ## Adding up -/

/-- The values added up from left to right, starting from the first one; nothing if there are
none. -/
def addUp [Entry T] : List T → Attempt (Option T)
  | [] => .ok none
  | first :: rest => some <$> rest.foldlM Entry.add first

/-- No sum of contributions to one place leaves the range of the type. -/
def AddsUp [Entry T] (triplets : List (Triplet T)) : Prop :=
  ∀ t ∈ triplets, ∃ sum, addUp (valuesAt t.row t.column triplets) = .ok sum

section Sums

variable [Entry T] {triplets : List (Triplet T)}

@[simp] theorem addUp_nil : addUp ([] : List T) = .ok none := rfl

@[simp] theorem addUp_singleton (value : T) : addUp [value] = .ok (some value) := rfl

/-- The first two values can be added before the others. -/
theorem addUp_cons_cons (first second : T) (rest : List T) :
    addUp (first :: second :: rest) = Entry.add first second >>=
    fun sum => addUp (sum :: rest) := by
  rw [addUp, List.foldlM_cons]
  cases Entry.add first second <;> rfl

theorem AddsUp.at_place (adds : AddsUp triplets) (row column : Nat) :
    ∃ sum, addUp (valuesAt row column triplets) = .ok sum := by
  by_cases some_value : ∃ t ∈ triplets, t.At row column
  · obtain ⟨t, member, rfl, rfl⟩ := some_value
    exact adds t member
  · refine ⟨none, ?_⟩
    rw [valuesAt_eq_nil_iff.mpr fun t member here => some_value ⟨t, member, here⟩, addUp_nil]

theorem addUp_eq_none_iff {values : List T} : addUp values = .ok none ↔ values = [] := by
  cases values with
  | nil => simp
  | cons first rest =>
    rw [addUp]
    cases rest.foldlM Entry.add first <;> simp

/-- Two contributions to one place may be added before the others are. -/
theorem addUp_valuesAt_added {current next : Triplet T} {sum : T} (same : current.samePlace next)
    (added : Entry.add current.value next.value = .ok sum) (rest : List (Triplet T))
    (row column : Nat) :
    addUp (valuesAt row column ({ current with value := sum } :: rest)) =
      addUp (valuesAt row column (current :: next :: rest)) := by
  have place := samePlace_iff.mp same
  by_cases here : current.At row column
  · have there : next.At row column := ⟨place.1 ▸ here.1, place.2 ▸ here.2⟩
    have summed : ({ current with value := sum } : Triplet T).At row column := here
    rw [valuesAt_cons_of_at summed, valuesAt_cons_of_at here, valuesAt_cons_of_at there,
      addUp_cons_cons, added]
    rfl
  · have there : ¬ next.At row column :=
      fun found => here ⟨place.1.trans found.1, place.2.trans found.2⟩
    have summed : ¬ ({ current with value := sum } : Triplet T).At row column := here
    rw [valuesAt_cons_of_not_at summed, valuesAt_cons_of_not_at here,
      valuesAt_cons_of_not_at there]

/-- What merging contributions leads to: places in strict order, none of them before that of the
first contribution, each with the sum of the contributions to it. -/
structure Merges (current : Triplet T) (rest merged : List (Triplet T)) : Prop where
  ordered : merged.Pairwise Before
  lower : ∀ entry ∈ merged, current.le entry
  short : merged.length ≤ rest.length + 1
  sums : ∀ row column, addUp (valuesAt row column merged) =
    addUp (valuesAt row column (current :: rest))

namespace Merges

variable {current next : Triplet T} {rest merged : List (Triplet T)}

theorem nil : Merges current [] [current] where
  ordered := List.pairwise_singleton ..
  lower entry member := by
    rw [List.mem_singleton.mp member]
    exact le_refl current
  short := Nat.le_refl _
  sums _ _ := rfl

/-- A contribution to the place under way is added to the sum. -/
theorem add {sum : T} (same : current.samePlace next)
    (added : Entry.add current.value next.value = .ok sum)
    (merges : Merges { current with value := sum } rest merged) :
    Merges current (next :: rest) merged where
  ordered := merges.ordered
  lower := merges.lower
  short := Nat.le_succ_of_le merges.short
  sums row column := (merges.sums row column).trans (addUp_valuesAt_added same added rest ..)

/-- A contribution to a later place ends the sum under way. -/
theorem close (first : current.Before next) (later : ∀ t ∈ rest, next.le t)
    (merges : Merges next rest merged) :
    Merges current (next :: rest) (current :: merged) := by
  constructor
  · exact List.pairwise_cons.mpr
      ⟨fun entry member => first.trans_le (merges.lower entry member), merges.ordered⟩
  · intro entry member
    rcases List.mem_cons.mp member with rfl | among
    · exact le_refl entry
    · have before := first.trans_le (merges.lower entry among)
      simp only [Before] at before
      simp only [le, Bool.or_eq_true, decide_eq_true_eq, Bool.and_eq_true, beq_iff_eq]
      omega
  · exact Nat.succ_le_succ merges.short
  · intro row column
    by_cases here : current.At row column
    · have behind : ∀ t ∈ next :: rest, current.Before t := by
        intro t member
        rcases List.mem_cons.mp member with rfl | among
        · exact first
        · exact first.trans_le (later t among)
      have behind' : ∀ entry ∈ merged, current.Before entry := fun entry member =>
        first.trans_le (merges.lower entry member)
      rw [valuesAt_cons_of_at here, valuesAt_cons_of_at here, valuesAt_of_before here behind,
        valuesAt_of_before here behind']
    · rw [valuesAt_cons_of_not_at here, valuesAt_cons_of_not_at here, merges.sums]

end Merges

/-- Contributions in row-major order are merged unless a sum leaves the range of the type. -/
theorem merge_adds {current : Triplet T} {rest : List (Triplet T)}
    (sorted : (current :: rest).Pairwise fun a b => a.le b)
    (adds : ∀ row column, ∃ sum, addUp (valuesAt row column (current :: rest)) = .ok sum) :
    ∃ merged, merge current rest = .ok merged ∧ Merges current rest merged := by
  induction rest generalizing current with
  | nil => exact ⟨[current], rfl, .nil⟩
  | cons next rest ih =>
    obtain ⟨least, later⟩ := List.pairwise_cons.mp sorted
    obtain ⟨next_least, last⟩ := List.pairwise_cons.mp later
    by_cases same : current.samePlace next
    · have place := samePlace_iff.mp same
      -- The sum at the place under way can be formed, so its first step can.
      obtain ⟨total, summed⟩ := adds current.row current.column
      rw [valuesAt_cons_of_at ⟨rfl, rfl⟩, valuesAt_cons_of_at ⟨place.1.symm, place.2.symm⟩,
        addUp_cons_cons] at summed
      obtain ⟨sum, added, _⟩ := Attempt.bind_eq_ok_iff.mp summed
      have sorted' : ({ current with value := sum } :: rest).Pairwise fun a b => a.le b :=
        List.pairwise_cons.mpr
          ⟨fun entry member => least entry (List.mem_cons_of_mem _ member), last⟩
      obtain ⟨merged, ends, merges⟩ := ih sorted' fun row column => by
        rw [addUp_valuesAt_added same added]
        exact adds row column
      refine ⟨merged, ?_, merges.add same added⟩
      rw [merge, if_pos same, added]
      exact ends
    · have first : current.Before next := before_of_le (least next List.mem_cons_self) same
      obtain ⟨merged, ends, spec⟩ := ih later fun row column => by
        by_cases here : current.At row column
        · refine ⟨none, ?_⟩
          rw [valuesAt_of_before here fun t member => ?_, addUp_nil]
          rcases List.mem_cons.mp member with rfl | among
          · exact first
          · exact first.trans_le (next_least t among)
        · have summed := adds row column
          rwa [valuesAt_cons_of_not_at here] at summed
      refine ⟨current :: merged, ?_, spec.close first next_least⟩
      rw [merge, if_neg same, ends]
      rfl

/-- Collecting contributions whose sums stay in range leaves one entry for each place. -/
theorem collect_adds (adds : AddsUp triplets) : ∃ entries, collect triplets = .ok entries ∧
    entries.Pairwise Before ∧ entries.length ≤ triplets.length ∧
    ∀ row column, addUp (valuesAt row column entries) = addUp (valuesAt row column triplets) := by
  have values : ∀ row column, valuesAt row column (triplets.mergeSort le) =
      valuesAt row column triplets := by
    intro row column
    rw [valuesAt, filter_mergeSort, valuesAt]
  have sorted := List.pairwise_mergeSort le_trans le_total triplets
  have length := (List.mergeSort_perm triplets le).length_eq
  rw [collect]
  cases found : triplets.mergeSort le with
  | nil =>
    rw [found] at values
    exact ⟨[], rfl, .nil, Nat.zero_le _, fun row column => by rw [values]⟩
  | cons first rest =>
    rw [found] at values sorted length
    obtain ⟨merged, ends, merges⟩ :=
      merge_adds sorted fun row column => values row column ▸ adds.at_place row column
    refine ⟨merged, ends, merges.ordered, length ▸ merges.short, fun row column => ?_⟩
    rw [merges.sums, values]

/-- In a list with one entry for each place, the sum at a place is that entry. -/
theorem mem_iff_addUp {entries : List (Triplet T)} (ordered : entries.Pairwise Before) {value : T} :
    ⟨row, column, value⟩ ∈ entries ↔ addUp (valuesAt row column entries) = .ok (some value) := by
  induction entries with
  | nil => simp [valuesAt]
  | cons first rest ih =>
    obtain ⟨least, later⟩ := List.pairwise_cons.mp ordered
    rw [List.mem_cons]
    by_cases here : first.At row column
    · rw [valuesAt_cons_of_at here, valuesAt_of_before here least, addUp_singleton]
      constructor
      · rintro (same | among)
        · rw [← same]
        · exact absurd ⟨rfl, rfl⟩ ((least _ among).not_at here)
      · intro same
        obtain ⟨rfl, rfl⟩ := here
        exact .inl (by cases same; rfl)
    · rw [valuesAt_cons_of_not_at here, ← ih later]
      refine or_iff_right fun same => here ?_
      rw [← same]
      exact ⟨rfl, rfl⟩

/-- Entries in row-major order, one for each place that anything is contributed to, with the sum of
what is. -/
structure Collected (triplets entries : List (Triplet T)) : Prop where
  ordered : entries.Pairwise Before
  places : ∀ row column, (∃ entry ∈ entries, entry.At row column) ↔ ∃ t ∈ triplets, t.At row column
  sums : ∀ entry ∈ entries, addUp (valuesAt entry.row entry.column triplets) =
    .ok (some entry.value)

/-- Equal sums at all places make a list in strict order the collected one. -/
theorem Collected.of_sums {entries : List (Triplet T)} (ordered : entries.Pairwise Before)
    (same : ∀ row column, addUp (valuesAt row column entries) =
      addUp (valuesAt row column triplets)) :
    Collected triplets entries := by
  have stored : ∀ (items : List (Triplet T)) (row column : Nat),
      (∃ t ∈ items, t.At row column) ↔ addUp (valuesAt row column items) ≠ .ok none := by
    intro items row column
    rw [Ne, addUp_eq_none_iff, valuesAt_eq_nil_iff]
    simp only [not_forall, not_not, exists_prop]
  constructor
  · exact ordered
  · intro row column
    rw [stored, stored, same]
  · intro entry member
    rw [← same]
    exact (mem_iff_addUp ordered).mp member

end Sums

/-! ## Rows of entries -/

def inRow (row : Nat) (entries : List (Triplet T)) : List (Nat × T) :=
  (entries.filter fun t => t.row = row).map fun t => (t.column, t.value)

theorem mem_inRow {entries : List (Triplet T)} {value : T} :
    (column, value) ∈ inRow row entries ↔ ⟨row, column, value⟩ ∈ entries := by
  simp only [inRow, List.mem_map, List.mem_filter, decide_eq_true_eq, Prod.mk.injEq]
  constructor
  · rintro ⟨t, ⟨member, rfl⟩, rfl, rfl⟩
    exact member
  · exact fun member => ⟨_, ⟨member, rfl⟩, rfl, rfl⟩

theorem ascending_inRow {entries : List (Triplet T)}
    (ordered : entries.Pairwise Before) (row : Nat) :
    (inRow row entries).Pairwise fun a b => a.1 < b.1 := by
  refine List.pairwise_map.mpr ((ordered.filter _).imp_of_mem fun memberA memberB before => ?_)
  have rowA := of_decide_eq_true (List.mem_filter.mp memberA).2
  have rowB := of_decide_eq_true (List.mem_filter.mp memberB).2
  rcases before with above | ⟨_, left⟩
  · omega
  · exact left

/-- Row after row the entries are all entries. -/
theorem flatten_inRow {entries : List (Triplet T)} (ordered : entries.Pairwise Before) {nrows : Nat}
    (inside : ∀ t ∈ entries, t.row < nrows) :
    ((List.range nrows).map fun row => inRow row entries).flatten = entries.map fun t =>
      (t.column, t.value) := by
  have above : ∀ count, ((List.range count).map fun row => inRow row entries).flatten =
      (entries.filter fun t => t.row < count).map fun t => (t.column, t.value) := by
    intro count
    induction count with
    | zero => simp
    | succ count ih =>
      rw [List.range_succ, List.map_append, List.flatten_append, ih, List.map_singleton,
        List.flatten_singleton, inRow, ← List.map_append]
      congr 1
      clear ih inside
      induction entries with
      | nil => rfl
      | cons first rest ih =>
        obtain ⟨least, later⟩ := List.pairwise_cons.mp ordered
        have below : ∀ t ∈ rest, first.row ≤ t.row := fun t member => by
          rcases least t member with before | ⟨same, _⟩
          · exact Nat.le_of_lt before
          · exact Nat.le_of_eq same
        simp only [List.filter_cons, decide_eq_true_eq]
        by_cases before : first.row < count
        · rw [if_pos before, if_neg (Nat.ne_of_lt before), if_pos (Nat.lt_succ_of_lt before),
            List.cons_append, ih later]
        · have none : (rest.filter fun t => t.row < count) = [] := List.filter_eq_nil_iff.mpr
              fun t member => by
            have := below t member
            simp only [decide_eq_true_eq]
            omega
          rw [none, List.nil_append] at ih
          rw [if_neg before, none, List.nil_append, ih later]
          by_cases here : first.row = count
          · rw [if_pos here, if_pos (by omega)]
          · rw [if_neg here, if_neg (by omega)]
  rw [above, List.filter_eq_self.mpr fun t member => decide_eq_true (inside t member)]

end Triplet

theorem sum_take_rowCounts (nrows : Nat) (entries : List (Triplet T)) (row : Nat)
    (h : row ≤ nrows) :
    ((rowCounts nrows entries).toList.take row).sum = entries.countP fun entry =>
      entry.row < row := by
  induction row with
  | zero => simp
  | succ row ih =>
    have here : (rowCounts nrows entries).toList[row]? =
        some (entries.countP fun entry => entry.row == row) := by
      rw [Array.getElem?_toList, getElem?_rowCounts, if_pos (Nat.lt_of_succ_le h)]
    have split : (entries.countP fun entry => entry.row < row + 1) =
        (entries.countP fun entry => entry.row < row) + entries.countP fun entry =>
          entry.row == row := by
      clear here ih
      induction entries with
      | nil => rfl
      | cons entry rest ih =>
        simp only [List.countP_cons, ih, decide_eq_true_eq, beq_iff_eq]
        split <;> split <;> split <;> omega
    rw [List.take_add_one, List.sum_append, ih (Nat.le_of_succ_le h), here, split]
    simp

/-- The pointer of a row is the number of entries above it. -/
theorem getElem?_rowPointersOf (nrows : Nat) (entries : List (Triplet T)) (row : Nat) :
    (rowPointersOf nrows entries)[row]? =
      if row ≤ nrows then some (entries.countP fun entry => entry.row < row) else none := by
  rw [rowPointersOf, getElem?_runningTotals]
  simp only [Array.length_toList, size_rowCounts, Nat.zero_add]
  split
  · next h => rw [sum_take_rowCounts nrows entries row h]
  · rfl

namespace Csr

theorem rowPointersOf_eq (nrows : Nat) (entries : List (Triplet T)) : rowPointersOf nrows entries =
    runningTotals 0
    (((List.range nrows).map fun row => Triplet.inRow row entries).map List.length) := by
  rw [rowPointersOf, List.map_map]
  congr 1
  refine List.ext_getElem? fun row => ?_
  rw [Array.getElem?_toList, getElem?_rowCounts, List.getElem?_map]
  by_cases inside : row < nrows
  · rw [if_pos inside, List.getElem?_range inside, Option.map_some,
      List.countP_eq_length_filter, Function.comp, Triplet.inRow, List.length_map]
    rfl
  · rw [if_neg inside, List.getElem?_eq_none (by simpa using inside), Option.map_none]

/-- The collected entries are stored row after row. -/
theorem ofTriplets_eq [Entry T] {triplets entries : List (Triplet T)} {nrows : Nat}
    (collected : Triplet.collect triplets = .ok entries) (ordered : entries.Pairwise Triplet.Before)
    (inside : ∀ t ∈ entries, t.row < nrows) (room : (nrows + 1) * 8 < 2 ^ 63) (ncols : Nat) :
    Csr.ofTriplets nrows ncols triplets =
      .ok (ofRows ncols ((List.range nrows).map fun row => Triplet.inRow row entries)) := by
  have word : nrows + 1 < Word.limit := Word.lt_limit_of_bytes room
  have stored := Triplet.flatten_inRow ordered inside
  have fields : ofRows ncols ((List.range nrows).map fun row => Triplet.inRow row entries) = {
      nrows, ncols
      rowPointers := (rowPointersOf nrows entries).toArray
      colIndices := (entries.map (·.column)).toArray
      values := (entries.map (·.value)).toArray } := by
    rw [ofRows, stored, ← rowPointersOf_eq, List.length_map, List.length_range,
      List.map_map, List.map_map]
    rfl
  rw [fields, Csr.ofTriplets]
  cases triplets with
  | nil =>
    rw [Triplet.collect, List.mergeSort_nil] at collected
    cases collected
    have zeros : rowPointersOf nrows ([] : List (Triplet T)) = List.replicate (nrows + 1) 0 := by
      refine List.ext_getElem? fun row => ?_
      rw [getElem?_rowPointersOf, List.getElem?_replicate]
      simp only [List.countP_nil, Nat.lt_succ_iff]
    rw [List.isEmpty_nil, if_pos rfl, Csr.empty, Word.add_of_lt word, Attempt.ok_bind,
      Word.request_of_lt room, Attempt.ok_bind, zeros, List.toArray_replicate]
    rfl
  | cons first rest =>
    have all : (entries.all fun entry => entry.row < nrows) = true :=
      List.all_eq_true.mpr fun t member => decide_eq_true (inside t member)
    rw [if_neg (by simp), Word.add_of_lt word, Attempt.ok_bind, Word.request_of_lt room,
      Attempt.ok_bind, collected, Attempt.ok_bind, Attempt.insist_of all]
    rfl

/-- How a block holds a list of entries: one after the other, where the pointer of a row is the
number of entries above it. -/
structure Lists (m : Csr T) (entries : List (Triplet T)) : Prop where
  columns : m.colIndices.toList = entries.map (·.column)
  values : m.values.toList = entries.map (·.value)
  pointers : m.rowPointers.toList = (List.range (m.nrows + 1)).map fun row =>
    entries.countP fun t => t.row < row
  rows : ∀ row < m.nrows, m.rowEntries row = .ok (Triplet.inRow row entries)

theorem ofRows_lists {nrows : Nat} {entries : List (Triplet T)}
    (ordered : entries.Pairwise Triplet.Before)
    (inside : ∀ t ∈ entries, t.row < nrows) (ncols : Nat) :
    (ofRows ncols ((List.range nrows).map fun row => Triplet.inRow row entries)).Lists entries := by
  have count : (ofRows ncols ((List.range nrows).map fun row => Triplet.inRow row entries)).nrows =
      nrows := by
    simp [ofRows]
  have stored := Triplet.flatten_inRow ordered inside
  constructor
  · simp [ofRows, stored, Function.comp_def]
  · simp [ofRows, stored, Function.comp_def]
  · rw [count, ofRows, ← rowPointersOf_eq]
    refine List.ext_getElem? fun row => ?_
    rw [getElem?_rowPointersOf, List.getElem?_map]
    by_cases within : row ≤ nrows
    · rw [if_pos within, List.getElem?_range (Nat.lt_succ_of_le within), Option.map_some]
    · rw [if_neg within, List.getElem?_eq_none (by simp; omega), Option.map_none]
  · intro row within
    rw [count] at within
    apply rowEntries_ofRows
    rw [List.getElem?_map, List.getElem?_range within, Option.map_some]

/-- The rows of entries in strict order are tidy exactly if all columns are in range. -/
theorem tidy_inRow_iff {nrows ncols : Nat} {entries : List (Triplet T)}
    (ordered : entries.Pairwise Triplet.Before) (inside : ∀ t ∈ entries, t.row < nrows) :
    (∀ row ∈ (List.range nrows).map fun row => Triplet.inRow row entries, Tidy ncols row) ↔
      ∀ t ∈ entries, t.column < ncols := by
  simp only [List.forall_mem_map, List.mem_range]
  constructor
  · intro tidy t member
    exact (tidy t.row (inside t member)).inside (t.column, t.value) (Triplet.mem_inRow.mpr member)
  · intro bounded row _
    constructor
    · exact Triplet.ascending_inRow ordered row
    · intro entry member
      exact bounded _ (Triplet.mem_inRow.mp member)

/-- A block is made of triplets without aborting if their rows are in range and no sum leaves the
range of the type. It holds one entry for each place that occurs, in row-major order and with the
sum of the contributions, and it passes the check exactly if all columns are in range. -/
theorem ofTriplets_lists [Entry T] (nrows ncols : Nat) (triplets : List (Triplet T))
    (inside : ∀ t ∈ triplets, t.row < nrows) (room : Word.request (nrows + 1) 8 = .ok ())
    (adds : Triplet.AddsUp triplets) :
    ∃ m entries, Csr.ofTriplets nrows ncols triplets = .ok m ∧ m.nrows = nrows ∧ m.ncols = ncols ∧
      m.Lists entries ∧ Triplet.Collected triplets entries ∧
      (m.validate = .ok () ↔ ∀ t ∈ triplets, t.column < ncols) := by
  obtain ⟨entries, collects, ordered, _, same⟩ := Triplet.collect_adds adds
  have collected := Triplet.Collected.of_sums ordered same
  have within : ∀ t ∈ entries, t.row < nrows := by
    intro t member
    obtain ⟨t', among, here⟩ := (collected.places t.row t.column).mp ⟨t, member, rfl, rfl⟩
    exact here.1 ▸ inside t' among
  have bytes : (nrows + 1) * 8 < 2 ^ 63 := by simpa using Word.request_eq_ok_iff.mp room
  refine ⟨_, entries, ofTriplets_eq collects ordered within bytes ncols, by simp [ofRows], rfl,
    ofRows_lists ordered within ncols, collected, ?_⟩
  rw [validate_ofRows, tidy_inRow_iff ordered within]
  constructor
  · rintro ⟨_, bounded⟩ t member
    obtain ⟨entry, among, here⟩ := (collected.places t.row t.column).mpr ⟨t, member, rfl, rfl⟩
    exact here.2 ▸ bounded entry among
  · intro bounded
    constructor
    · rw [List.length_map, List.length_range]
      exact Word.lt_limit_of_bytes bytes
    · intro entry among
      obtain ⟨t, member, here⟩ :=
        (collected.places entry.row entry.column).mp ⟨entry, among, rfl, rfl⟩
      exact here.2 ▸ bounded t member

/-- Two places of one column in different rows, one of them twice, and a column out of range. -/
theorem ofTriplets_lists_repeated :
    (∀ t ∈ ([⟨2, 1, 5⟩, ⟨0, 1, 2⟩, ⟨2, 4, 1⟩, ⟨2, 1, -3⟩] : List (Triplet Int)), t.row < 3) ∧
    Word.request (3 + 1) 8 = .ok () ∧
    Triplet.AddsUp ([⟨2, 1, 5⟩, ⟨0, 1, 2⟩, ⟨2, 4, 1⟩, ⟨2, 1, -3⟩] : List (Triplet Int)) ∧
    ∃ m entries, Csr.ofTriplets 3 2
      ([⟨2, 1, 5⟩, ⟨0, 1, 2⟩, ⟨2, 4, 1⟩, ⟨2, 1, -3⟩] : List (Triplet Int)) = .ok m ∧
      m.nrows = 3 ∧ m.ncols = 2 ∧ m.Lists entries ∧
      Triplet.Collected [⟨2, 1, 5⟩, ⟨0, 1, 2⟩, ⟨2, 4, 1⟩, ⟨2, 1, -3⟩] entries ∧
      (m.validate = .ok () ↔
        ∀ t ∈ ([⟨2, 1, 5⟩, ⟨0, 1, 2⟩, ⟨2, 4, 1⟩, ⟨2, 1, -3⟩] : List (Triplet Int)),
          t.column < 2) := by
  have inside : ∀ t ∈ ([⟨2, 1, 5⟩, ⟨0, 1, 2⟩, ⟨2, 4, 1⟩, ⟨2, 1, -3⟩] : List (Triplet Int)),
    t.row < 3 := by decide
  have adds : Triplet.AddsUp
      ([⟨2, 1, 5⟩, ⟨0, 1, 2⟩, ⟨2, 4, 1⟩, ⟨2, 1, -3⟩] : List (Triplet Int)) := by
    simp only [Triplet.AddsUp, List.forall_mem_cons]
    exact ⟨⟨_, rfl⟩, ⟨_, rfl⟩, ⟨_, rfl⟩, ⟨_, rfl⟩, fun _ member => nomatch member⟩
  exact ⟨inside, rfl, adds, ofTriplets_lists 3 2 _ inside rfl adds⟩

end Csr
end DeviceTeams
