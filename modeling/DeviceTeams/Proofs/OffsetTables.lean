import DeviceTeams.Proofs.Rows

/-!
# Offset tables

What several owners hold one after the other is found by the running totals of their counts. The
totals are added up as words, and since they never decrease this succeeds exactly if the last one is
a word. A table then gives every position to one owner, also where owners that hold nothing share
their offset with the owner behind them.
-/
namespace DeviceTeams

variable {counts : List Nat}

/-! ## Adding up the counts -/

/-- Adding up fails only if the sum of all counts is not a word, since the totals on the way are not
larger. The induction is on the counts that are still to be added. -/
theorem offsetsFrom_eq {start : Nat} (counts : List Nat) (word : start < Word.limit) :
    offsetsFrom start counts =
    if start + counts.sum < Word.limit then .ok (runningTotals start counts)
    else .error .aborted := by
  induction counts generalizing start with
  | nil =>
    rw [List.sum_nil, Nat.add_zero, if_pos word]
    rfl
  | cons count rest ih =>
    rw [offsetsFrom, List.sum_cons, ← Nat.add_assoc]
    by_cases next : start + count < Word.limit
    · rw [Word.add_of_lt next, Attempt.ok_bind, ih next]
      split
      · rfl
      · rfl
    · have large : ¬ start + count + rest.sum < Word.limit := by omega
      rw [Word.add_of_not_lt next, if_neg large]
      rfl

/-- What is made of the offsets is made exactly if the sum of all counts is a word. -/
theorem offsetsOf_bind {T : Type} (make : List Nat → T) (counts : List Nat) :
    (offsetsOf counts >>= fun offsets => pure (make offsets)) =
      if counts.sum < Word.limit then .ok (make (runningTotals 0 counts)) else .error .aborted := by
  rw [offsetsOf, offsetsFrom_eq counts (by decide), Nat.zero_add]
  split
  · rfl
  · rfl

namespace SegmentTable

theorem ofCounts_eq_ite (counts : List Nat) : ofCounts counts =
    if counts.sum < Word.limit then .ok ⟨counts, runningTotals 0 counts⟩ else .error .aborted :=
  offsetsOf_bind (SegmentTable.mk counts) counts

theorem ofCounts_eq (word : counts.sum < Word.limit) :
    ofCounts counts = .ok ⟨counts, runningTotals 0 counts⟩ := by
  rw [ofCounts_eq_ite, if_pos word]

theorem ofCounts_eq_ok_iff {table : SegmentTable} :
    ofCounts counts = .ok table ↔ counts.sum < Word.limit ∧
    table = ⟨counts, runningTotals 0 counts⟩ := by
  rw [ofCounts_eq_ite, Attempt.ite_error_eq_ok_iff, Except.ok.injEq, eq_comm]

theorem total_eq (counts : List Nat) :
    (SegmentTable.mk counts (runningTotals 0 counts)).total = counts.sum := by
  rw [total, List.getD_eq_getElem?_getD, getElem?_runningTotals, if_pos (Nat.le_refl _),
    List.take_length, Nat.zero_add]
  rfl

end SegmentTable

namespace RowPartition

theorem ofCounts_eq_ite (counts : List Nat) :
    ofCounts counts = if counts.sum < Word.limit then .ok ⟨runningTotals 0 counts⟩
    else .error .aborted :=
  offsetsOf_bind RowPartition.mk counts

theorem ofCounts_eq (word : counts.sum < Word.limit) :
    ofCounts counts = .ok ⟨runningTotals 0 counts⟩ := by
  rw [ofCounts_eq_ite, if_pos word]

theorem ofCounts_eq_ok_iff {partition : RowPartition} :
    ofCounts counts = .ok partition ↔ counts.sum < Word.limit ∧
    partition = ⟨runningTotals 0 counts⟩ := by
  rw [ofCounts_eq_ite, Attempt.ite_error_eq_ok_iff, Except.ok.injEq, eq_comm]

theorem totalRows_eq (counts : List Nat) :
    (RowPartition.mk (runningTotals 0 counts)).totalRows = counts.sum := by
  rw [totalRows, List.getLastD_eq_getLast?, getLast?_runningTotals, Nat.zero_add]
  rfl

theorem teams_eq (counts : List Nat) :
    (RowPartition.mk (runningTotals 0 counts)).teams = counts.length := by
  rw [teams, length_runningTotals, Nat.add_sub_cancel]

end RowPartition

/-! ## The positions of the owners -/

theorem start_le_of_mem {start total : Nat} (member : total ∈ runningTotals start counts) :
    start ≤ total := by
  induction counts generalizing start with
  | nil => exact Nat.le_of_eq (List.mem_singleton.mp member).symm
  | cons count rest ih =>
    rcases List.mem_cons.mp member with rfl | later
    · exact Nat.le_refl _
    · exact Nat.le_trans (Nat.le_add_right ..) (ih later)

theorem pairwise_runningTotals (start : Nat) (counts : List Nat) :
    (runningTotals start counts).Pairwise (· ≤ ·) := by
  induction counts generalizing start with
  | nil => exact List.pairwise_singleton ..
  | cons count rest ih =>
    refine List.pairwise_cons.mpr ⟨fun total member => ?_, ih (start + count)⟩
    exact Nat.le_trans (Nat.le_add_right ..) (start_le_of_mem member)

theorem partOf_runningTotals {place count : Nat} (found : counts[place]? = some count) :
    partOf (runningTotals 0 counts) place =
    .ok ⟨(counts.take place).sum, (counts.take place).sum + count⟩ := by
  have inside := (List.getElem?_eq_some_iff.mp found).1
  rw [partOf, getElem?_runningTotals, getElem?_runningTotals, if_pos (Nat.le_of_lt inside),
    if_pos (Nat.succ_le_of_lt inside), sum_take_succ found, Nat.zero_add, Nat.zero_add]

theorem partOf_runningTotals_beyond {owner : Nat} (beyond : counts.length ≤ owner) :
    partOf (runningTotals 0 counts) owner = .error .aborted := by
  have outside : (runningTotals 0 counts)[owner + 1]? = none := by
    rw [getElem?_runningTotals, if_neg (by omega)]
  rw [partOf, outside]
  split
  · next found => cases found
  · rfl

/-- Only owners have a part. -/
theorem partOf_runningTotals_eq_ok_iff {owner : Nat} {s : Span} :
    partOf (runningTotals 0 counts) owner = .ok s ↔
    ∃ count, counts[owner]? = some count ∧
      s = ⟨(counts.take owner).sum, (counts.take owner).sum + count⟩ := by
  cases found : counts[owner]? with
  | some count =>
    rw [partOf_runningTotals found]
    simp [eq_comm]
  | none =>
    rw [partOf_runningTotals_beyond (List.getElem?_eq_none_iff.mp found)]
    simp

/-- The positions in the part of an owner; no position lies in that of an owner without any. -/
theorem exists_part_contains_iff {owner position : Nat} :
    (∃ s, partOf (runningTotals 0 counts) owner = .ok s ∧ s.contains position = true) ↔
      (counts.take owner).sum ≤ position ∧
      position < (counts.take owner).sum + counts.getD owner 0 := by
  simp only [partOf_runningTotals_eq_ok_iff, List.getD_eq_getElem?_getD]
  cases found : counts[owner]? with
  | some count => simp [Span.contains]
  | none => simp

/-- Every row belongs to one owner. The induction takes away the first owner with its rows. -/
theorem exists_owner {row : Nat} (below : row < counts.sum) : ∃ seat < counts.length,
    ∀ other, ((counts.take other).sum ≤ row ∧ row < (counts.take other).sum + counts.getD other 0) ↔
      other = seat := by
  induction counts generalizing row with
  | nil => cases below
  | cons count rest ih =>
    rw [List.sum_cons] at below
    by_cases first : row < count
    · refine ⟨0, Nat.zero_lt_succ _, fun other => ?_⟩
      cases other with
      | zero => simpa using first
      | succ other =>
        rw [List.take_succ_cons, List.sum_cons]
        omega
    · obtain ⟨seat, inside, only⟩ := ih (show row - count < rest.sum by omega)
      refine ⟨seat + 1, Nat.succ_lt_succ inside, fun other => ?_⟩
      cases other with
      | zero =>
        simp
        omega
      | succ other =>
        rw [List.take_succ_cons, List.sum_cons, List.getD_cons_succ]
        have := only other
        omega

/-- In what all owners hold together, the items of one owner stand at the positions of its part. -/
theorem getElem?_flatten_of_part {α : Type} {held : List (List α)}
    (lengths : held.map List.length = counts) {owner position : Nat} {s : Span}
    (part : partOf (runningTotals 0 counts) owner = .ok s) (within : s.contains position = true) :
    ∃ own item, held[owner]? = some own ∧ own[position - s.start]? = some item ∧
      held.flatten[position]? = some item := by
  obtain ⟨count, found, rfl⟩ := partOf_runningTotals_eq_ok_iff.mp part
  obtain ⟨start, stop⟩ : (counts.take owner).sum ≤ position ∧
      position < (counts.take owner).sum + count := by
    simpa [Span.contains] using within
  rw [← lengths, List.getElem?_map, Option.map_eq_some_iff] at found
  obtain ⟨own, found, rfl⟩ := found
  have before : (held.take owner).flatten.length = (counts.take owner).sum := by
    rw [List.length_flatten, List.map_take, lengths]
  have item :=
    List.getElem?_eq_getElem (l := own) (i := position - (counts.take owner).sum) (by omega)
  have placed := getElem?_flatten_of_found found item
  rw [before, Nat.add_sub_cancel' start] at placed
  exact ⟨own, _, found, item, placed⟩

/-! ## Tables -/

/-- The positions of owners with the given counts, one after the other, where `part` gives those of
each owner. -/
structure Portions (counts offsets : List Nat) (part : Nat → Attempt Span) : Prop where
  length : offsets.length = counts.length + 1
  rises : offsets.Pairwise (· ≤ ·)
  first : offsets.head? = some 0
  last : offsets.getLast? = some counts.sum
  /-- Every owner has as many positions as it counts, from its offset to the next one. -/
  found : ∀ owner count, counts[owner]? = some count → ∃ s, part owner = .ok s ∧
    offsets[owner]? = some s.start ∧
    offsets[owner + 1]? = some s.stop ∧ s.length = count
  beyond : ∀ owner, counts.length ≤ owner → part owner = .error .aborted
  /-- Every position belongs to one owner. -/
  owned : ∀ position < counts.sum, ∃! owner, ∃ s, part owner = .ok s ∧ s.contains position = true
  /-- What stands at a position when all owners' items are put together is the item of its owner
  that lies as far behind the owner's first one as the position lies behind the owner's offset. -/
  placed : ∀ owner s position, part owner = .ok s → s.contains position = true →
    ∀ {α : Type} (held : List (List α)), held.map List.length = counts →
      ∃ own item, held[owner]? = some own ∧ own[position - s.start]? = some item ∧
        held.flatten[position]? = some item

theorem Portions.of_runningTotals (counts : List Nat) :
    Portions counts (runningTotals 0 counts) (partOf (runningTotals 0 counts)) := by
  constructor
  case length => exact length_runningTotals 0 counts
  case rises => exact pairwise_runningTotals 0 counts
  case first =>
    obtain ⟨later, found⟩ := runningTotals_eq_cons 0 counts
    rw [found, List.head?_cons]
  case last => rw [getLast?_runningTotals, Nat.zero_add]
  case found =>
    intro owner count found
    have inside := (List.getElem?_eq_some_iff.mp found).1
    refine ⟨_, partOf_runningTotals found, ?_, ?_, Nat.add_sub_cancel_left ..⟩
    · rw [getElem?_runningTotals, if_pos (Nat.le_of_lt inside), Nat.zero_add]
    · rw [getElem?_runningTotals, if_pos (Nat.succ_le_of_lt inside),
        sum_take_succ found, Nat.zero_add]
  case beyond => exact fun owner beyond => partOf_runningTotals_beyond beyond
  case owned =>
    intro position below
    obtain ⟨seat, _, only⟩ := exists_owner below
    refine ⟨seat, exists_part_contains_iff.mpr ((only seat).mpr rfl), fun other within => ?_⟩
    exact (only other).mp (exists_part_contains_iff.mp within)
  case placed =>
    intro owner s position part within α held lengths
    exact getElem?_flatten_of_part lengths part within

/-- Both tables are built with the same offsets from all counts whose sum is a word, and give every
position below the sum to one owner. No table is built from other counts. -/
theorem offsetTables_tile (counts : List Nat) :
    (counts.sum < Word.limit → ∃ offsets, SegmentTable.ofCounts counts = .ok ⟨counts, offsets⟩ ∧
      RowPartition.ofCounts counts = .ok ⟨offsets⟩ ∧
      (SegmentTable.mk counts offsets).total = counts.sum ∧
      (RowPartition.mk offsets).totalRows = counts.sum ∧
      Portions counts offsets (SegmentTable.mk counts offsets).segment ∧
      Portions counts offsets (RowPartition.mk offsets).range) ∧
    (Word.limit ≤ counts.sum → SegmentTable.ofCounts counts = .error .aborted ∧
      RowPartition.ofCounts counts = .error .aborted) := by
  constructor
  · intro word
    exact ⟨_, SegmentTable.ofCounts_eq word, RowPartition.ofCounts_eq word,
      SegmentTable.total_eq counts,
      RowPartition.totalRows_eq counts, Portions.of_runningTotals counts,
      Portions.of_runningTotals counts⟩
  · intro large
    rw [SegmentTable.ofCounts_eq_ite, RowPartition.ofCounts_eq_ite, if_neg (Nat.not_lt.mpr large),
      if_neg (Nat.not_lt.mpr large)]
    exact ⟨rfl, rfl⟩

/-- Four owners, two of which hold nothing, and the smallest sum that is not a word, reached before
the last count. -/
theorem offsetTables_tile_gapped :
    [0, 3, 0, 2].sum < Word.limit ∧ Word.limit ≤ [Word.limit - 1, 1, 0].sum ∧
    SegmentTable.ofCounts [0, 3, 0, 2] = .ok ⟨[0, 3, 0, 2], [0, 0, 3, 3, 5]⟩ ∧
    RowPartition.ofCounts [0, 3, 0, 2] = .ok ⟨[0, 0, 3, 3, 5]⟩ ∧
    Portions [0, 3, 0, 2] [0, 0, 3, 3, 5] (SegmentTable.mk [0, 3, 0, 2] [0, 0, 3, 3, 5]).segment ∧
    Portions [0, 3, 0, 2] [0, 0, 3, 3, 5] (RowPartition.mk [0, 0, 3, 3, 5]).range ∧
    SegmentTable.ofCounts [Word.limit - 1, 1, 0] = .error .aborted ∧
    RowPartition.ofCounts [Word.limit - 1, 1, 0] = .error .aborted := by
  obtain ⟨offsets, table, partition, -, -, segments, ranges⟩ :=
    (offsetTables_tile [0, 3, 0, 2]).1 (by decide)
  have same : RowPartition.ofCounts [0, 3, 0, 2] = .ok ⟨[0, 0, 3, 3, 5]⟩ := rfl
  obtain rfl : [0, 0, 3, 3, 5] = offsets :=
    congrArg RowPartition.offsets (Except.ok.inj (same.symm.trans partition))
  have large := (offsetTables_tile [Word.limit - 1, 1, 0]).2 (by decide)
  exact ⟨by decide, by decide, table, partition, segments, ranges, large.1, large.2⟩

end DeviceTeams
