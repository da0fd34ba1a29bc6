import DeviceTeams.Proofs.Merging
import Mathlib.Algebra.Ring.Int.Defs
import Mathlib.Data.List.SplitLengths

/-!
# Which pointers can be stitched

The row pointers of a team are stitched exactly if there are as many as the members announced and
those of every member start with zero and never decrease. Otherwise they are refused for the first
member whose pointers break a rule, and for the first rule that they break. Nothing aborts as long
as the pointers do not add up to more than a word.
-/
namespace DeviceTeams

/-! ## The pointers of one member -/

structure Regular (pointers : List Int) : Prop where
  starts : pointers.head? = some 0
  rises : pointers.Pairwise (· ≤ ·)

/-- The first rule that the pointers of a member break. -/
inductive Faulty (member : Nat) : List Int → MatrixError → Prop
  | empty : Faulty member [] (.emptyMember member)
  | start {first : Int} {rest : List Int} (differs : first ≠ 0) :
      Faulty member (first :: rest) (.memberFirstPointer member first)
  | decrease {front back : List Int} {previous next : Int} (regular : Regular (front ++ [previous]))
      (falls : next < previous) : Faulty member (front ++ previous :: next :: back)
      (.memberDecreases member previous next)

theorem Faulty.not_regular {member : Nat} {pointers : List Int} {cause : MatrixError}
    (faulty : Faulty member pointers cause) : ¬ Regular pointers := by
  intro regular
  cases faulty with
  | empty => cases regular.starts
  | start differs => exact differs (Option.some.inj regular.starts)
  | decrease _ falls =>
    have later := (List.pairwise_append.mp regular.rises).2.1
    exact absurd ((List.pairwise_cons.mp later).1 _ List.mem_cons_self) (Int.not_le.mpr falls)

/-- Natural numbers that never decrease are running totals. -/
theorem exists_runningTotals {start : Nat} {rest : List Nat}
    (rises : (start :: rest).Pairwise (· ≤ ·)) :
    ∃ counts, start :: rest = runningTotals start counts := by
  induction rest generalizing start with
  | nil => exact ⟨[], rfl⟩
  | cons next rest ih =>
    obtain ⟨least, later⟩ := List.pairwise_cons.mp rises
    obtain ⟨counts, found⟩ := ih later
    refine ⟨(next - start) :: counts, ?_⟩
    rw [runningTotals, Nat.add_sub_cancel' (least next List.mem_cons_self), found]

/-- Regular pointers are the running totals of the numbers of entries in the rows. -/
theorem Regular.exists_counts {pointers : List Int} (regular : Regular pointers) :
    ∃ counts, pointers = (runningTotals 0 counts).map Int.ofNat := by
  obtain ⟨rest, rfl⟩ : ∃ rest, pointers = 0 :: rest := by
    cases pointers with
    | nil => cases regular.starts
    | cons first rest => exact ⟨rest, by rw [Option.some.inj regular.starts]⟩
  obtain ⟨least, later⟩ := List.pairwise_cons.mp regular.rises
  have cast : (rest.map Int.toNat).map Int.ofNat = rest := by
    rw [List.map_map]
    refine (List.map_congr_left fun pointer member => ?_).trans (List.map_id rest)
    exact Int.toNat_of_nonneg (least pointer member)
  have rises : (0 :: rest.map Int.toNat).Pairwise (· ≤ ·) := by
    refine List.pairwise_cons.mpr
      ⟨fun _ _ => Nat.zero_le _, List.pairwise_map.mpr (later.imp fun order => ?_)⟩
    exact Int.toNat_le_toNat order
  obtain ⟨counts, totals⟩ := exists_runningTotals rises
  refine ⟨counts, ?_⟩
  rw [← totals, List.map_cons, cast]
  rfl

theorem head?_of_split {first last : Int} {front rest back : List Int}
    (split : first :: rest = front ++ last :: back) :
    (front ++ [last]).head? = some first := by
  cases front with
  | nil => rw [(List.cons.inj split).1]; rfl
  | cons head tail => rw [(List.cons.inj split).1]; rfl

theorem rises_of_le_head {previous first : Int} {pointers : List Int} (order : previous ≤ first)
    (head : pointers.head? = some first) (rises : pointers.Pairwise (· ≤ ·)) :
    (previous :: pointers).Pairwise (· ≤ ·) := by
  obtain ⟨rest, rfl⟩ := List.head?_eq_some_iff.mp head
  refine List.pairwise_cons.mpr ⟨fun other among => ?_, rises⟩
  rcases List.mem_cons.mp among with rfl | later
  · exact order
  · exact Int.le_trans order ((List.pairwise_cons.mp rises).1 other later)

theorem shiftPointers_decides (member base : Nat) (previous : Int) (rest : List Int)
    (small : base + (rest.map Int.natAbs).sum < Word.limit) :
    (previous :: rest).Pairwise (· ≤ ·) ∨ ∃ front last next back, previous :: rest = front ++
    last :: next :: back ∧
      (front ++ [last]).Pairwise (· ≤ ·) ∧ next < last ∧
      shiftPointers member base previous rest =
      .error (MatrixError.memberDecreases member last next : Failure) := by
  induction rest generalizing previous with
  | nil => exact .inl (List.pairwise_singleton ..)
  | cons pointer rest ih =>
    rw [List.map_cons, List.sum_cons] at small
    by_cases falls : pointer < previous
    · refine .inr ⟨[], previous, pointer, rest, rfl, List.pairwise_singleton .., falls, ?_⟩
      rw [shiftPointers, if_pos falls]
      rfl
    · have order := Int.not_lt.mp falls
      have word : base + pointer.toNat < Word.limit := by omega
      rcases ih pointer (by omega) with rises |
        ⟨front, last, next, back, split, rises, less, refused⟩
      · exact .inl (rises_of_le_head order rfl rises)
      · refine .inr ⟨previous :: front, last, next, back, by rw [split, List.cons_append],
          rises_of_le_head order (head?_of_split split) rises, less, ?_⟩
        rw [shiftPointers, if_neg falls, Word.add_of_lt word]
        simp only [Attempt.ok_bind, refused]
        rfl

/-- The pointers of a member are regular, or they are refused for the first rule that they break. -/
theorem stitchMember_decides (member base : Nat) (pointers : List Int)
    (small : base + (pointers.map Int.natAbs).sum < Word.limit) :
    Regular pointers ∨ ∃ cause, Faulty member pointers cause ∧
      stitchMember member base pointers = .error (cause : Failure) := by
  cases pointers with
  | nil => exact .inr ⟨_, .empty, rfl⟩
  | cons first rest =>
    rw [List.map_cons, List.sum_cons] at small
    by_cases starts : first = 0
    · subst starts
      rcases shiftPointers_decides member base 0 rest (by omega) with
        rises | ⟨front, last, next, back, split, rises, less, refused⟩
      · exact .inl ⟨rfl, rises⟩
      · right
        rw [split]
        refine ⟨_, .decrease ⟨head?_of_split split, rises⟩ less, ?_⟩
        rw [← split, stitchMember, if_pos rfl, refused]
        rfl
    · right
      refine ⟨_, .start starts, ?_⟩
      rw [stitchMember, if_neg starts]
      rfl

/-! ## The pointers of all members -/

/-- The number of entries that regular pointers end with is one of them. -/
theorem sum_le_natAbs (counts : List Nat) :
    counts.sum ≤ (((runningTotals 0 counts).map Int.ofNat).map Int.natAbs).sum := by
  have last := List.mem_of_getLast? (getLast?_runningTotals 0 counts)
  rw [Nat.zero_add] at last
  have same : ((runningTotals 0 counts).map Int.ofNat).map Int.natAbs = runningTotals 0 counts := by
    rw [List.map_map]
    exact List.map_id _
  rw [same]
  exact List.le_sum_of_mem last

/-- Either all members' pointers are regular, or they are refused for the first ones that are
not. -/
theorem stitchParts_decides (member base : Nat) (parts : List (List Int))
    (small : base + (parts.flatten.map Int.natAbs).sum < Word.limit) :
    (∀ part ∈ parts, Regular part) ∨ ∃ place part cause, parts[place]? = some part ∧
      (∀ earlier ∈ parts.take place, Regular earlier) ∧ Faulty (member + place) part cause ∧
      stitchParts member base parts = .error (cause : Failure) := by
  induction parts generalizing member base with
  | nil => exact .inl fun _ among => absurd among List.not_mem_nil
  | cons pointers rest ih =>
    rw [List.flatten_cons, List.map_append, List.sum_append] at small
    rcases stitchMember_decides member base pointers (by omega) with
      regular | ⟨cause, faulty, refused⟩
    · obtain ⟨counts, rfl⟩ := regular.exists_counts
      have entries := sum_le_natAbs counts
      have stitched := stitchMember_eq member base counts (by omega)
      rcases ih (member + 1) (base + counts.sum) (by omega) with
        all | ⟨place, part, cause, found, earlier, faulty, refused⟩
      · exact .inl (List.forall_mem_cons.mpr ⟨regular, all⟩)
      · refine .inr ⟨place + 1, part, cause, found, List.forall_mem_cons.mpr
          ⟨regular, earlier⟩, ?_, ?_⟩
        · rwa [Nat.add_right_comm, Nat.add_assoc] at faulty
        · rw [stitchParts, stitched]
          simp only [Attempt.ok_bind, refused]
          rfl
    · refine .inr ⟨0, pointers, cause, rfl, fun _ among =>
        absurd among List.not_mem_nil, faulty, ?_⟩
      rw [stitchParts, refused]
      rfl

theorem exists_counts_of_regular {parts : List (List Int)}
    (regular : ∀ part ∈ parts, Regular part) :
    ∃ counts : List (List Nat), parts = counts.map fun own =>
      (runningTotals 0 own).map Int.ofNat := by
  induction parts with
  | nil => exact ⟨[], rfl⟩
  | cons part rest ih =>
    obtain ⟨first, later⟩ := List.forall_mem_cons.mp regular
    obtain ⟨own, here⟩ := first.exists_counts
    obtain ⟨counts, behind⟩ := ih later
    exact ⟨own :: counts, by rw [here, behind, List.map_cons]⟩

/-! ## The stitched pointers -/

def lastPointer (pointers : List Int) : Int := pointers.getLastD 0

theorem lastPointer_eq (counts : List Nat) :
    lastPointer ((runningTotals 0 counts).map Int.ofNat) = counts.sum := by
  rw [lastPointer, List.getLastD_eq_getLast?, List.getLast?_map,
    getLast?_runningTotals, Nat.zero_add]
  rfl

/-- The pointers of the stacked block: the zero at the front, and every further pointer of a member
shifted by the last pointers of the members before it. -/
structure Stitched (counts : List Nat) (parts : List (List Int)) (pointers : List Nat) : Prop where
  length : pointers.length = 1 + (counts.map (· - 1)).sum
  starts : pointers.head? = some 0
  rises : pointers.Pairwise (· ≤ ·)
  stop : pointers.getLast?.map Int.ofNat = some (parts.map lastPointer).sum
  shifted : ∀ member count row, counts[member]? = some count → row < count - 1 → ∃ part pointer,
    parts[member]? = some part ∧ part[row + 1]? = some pointer ∧
      pointers[1 + ((counts.take member).map (· - 1)).sum + row]?.map Int.ofNat =
        some (((parts.take member).map lastPointer).sum + pointer)

theorem sum_lastPointers (rows : List (List Nat)) :
    ((rows.map fun own => (runningTotals 0 own).map Int.ofNat).map lastPointer).sum =
    (rows.flatten.sum : Int) := by
  induction rows with
  | nil => rfl
  | cons own rest ih =>
    rw [List.map_cons, List.map_cons, List.sum_cons, ih, lastPointer_eq,
      List.flatten_cons, List.sum_append, Int.natCast_add]

theorem Stitched.of_rows (rows : List (List Nat)) :
    Stitched (rows.map fun own => own.length + 1)
    (rows.map fun own => (runningTotals 0 own).map Int.ofNat)
      (runningTotals 0 rows.flatten) := by
  have lengths : ∀ some_rows : List (List Nat),
      ((some_rows.map fun own => own.length + 1).map (· - 1)).sum = some_rows.flatten.length := by
    intro some_rows
    rw [List.map_map, List.length_flatten]
    rfl
  constructor
  · rw [length_runningTotals, lengths, Nat.add_comm]
  · obtain ⟨rest, found⟩ := runningTotals_eq_cons 0 rows.flatten
    rw [found, List.head?_cons]
  · exact pairwise_runningTotals 0 rows.flatten
  · rw [getLast?_runningTotals, sum_lastPointers, Nat.zero_add]
    rfl
  · intro member count row found inside
    rw [List.getElem?_map, Option.map_eq_some_iff] at found
    obtain ⟨own, found, rfl⟩ := found
    have pointer : (runningTotals 0 own)[row + 1]? = some (own.take (row + 1)).sum := by
      rw [getElem?_runningTotals, if_pos (by omega), Nat.zero_add]
    refine ⟨_, _, by rw [List.getElem?_map, found]; rfl, by
      rw [List.getElem?_map, pointer]; rfl, ?_⟩
    have before : (rows.flatten.take (1 + (rows.take member).flatten.length + row)).sum =
        (rows.take member).flatten.sum + (own.take (row + 1)).sum := by
      have place : 1 + (rows.take member).flatten.length + row = (rows.take member).flatten.length +
        (row + 1) := by omega
      rw [place, flatten_of_found found, List.take_append, List.take_of_length_le
        (Nat.le_add_right ..),
        Nat.add_sub_cancel_left, List.take_append_of_le_length (by omega), List.sum_append]
    have within := stop_le_of_found found
    rw [← List.map_take, ← List.map_take, lengths, sum_lastPointers, getElem?_runningTotals,
      if_pos (by omega), Nat.zero_add, before]
    rfl

/-- Pointers in the number announced are stitched, or refused for the first member whose pointers
are not regular. -/
theorem stitchRowPointers_flatten_decides (parts : List (List Int))
    (small : (parts.flatten.map Int.natAbs).sum < Word.limit) :
    ((∀ part ∈ parts, Regular part) ∧ ∃ pointers, stitchRowPointers parts.flatten
        ⟨parts.map List.length, runningTotals 0 (parts.map List.length)⟩ = .ok pointers ∧
      Stitched (parts.map List.length) parts pointers) ∨
    ∃ member part cause, parts[member]? = some part ∧
      (∀ earlier ∈ parts.take member, Regular earlier) ∧
      Faulty member part cause ∧ stitchRowPointers parts.flatten
        ⟨parts.map List.length, runningTotals 0 (parts.map List.length)⟩ =
        .error (cause : Failure) := by
  rcases stitchParts_decides 0 0 parts (by rwa [Nat.zero_add]) with
    regular | ⟨member, part, cause, found, earlier, faulty, refused⟩
  · obtain ⟨rows, rfl⟩ := exists_counts_of_regular regular
    have lengths : (rows.map fun own => (runningTotals 0 own).map Int.ofNat).map List.length =
        rows.map fun own => own.length + 1 := by simp
    have stitched := Stitched.of_rows rows
    rw [← lengths] at stitched
    have entries : rows.flatten.sum ≤
        (((rows.map fun own => (runningTotals 0 own).map Int.ofNat).flatten).map
          Int.natAbs).sum := by
      clear regular small lengths stitched
      induction rows with
      | nil => exact Nat.le_refl _
      | cons own rest ih =>
        have here := sum_le_natAbs own
        simp only [List.map_cons, List.flatten_cons, List.map_append, List.sum_append] at ih ⊢
        omega
    left
    refine ⟨regular, _, ?_, stitched⟩
    rw [lengths]
    exact stitchRowPointers_eq rows (Nat.lt_of_le_of_lt entries small)
  · right
    rw [Nat.zero_add] at faulty
    refine ⟨member, part, cause, found, earlier, faulty, ?_⟩
    rw [stitchRowPointers_flatten, refused]
    rfl

/-- The pointers of a team are stitched exactly if there are as many as announced and all members'
pointers are regular. They are refused otherwise, for their number or for the first member whose
pointers are not regular. -/
theorem stitchRowPointers_decides (gathered : List Int) (counts : List Nat) (table : SegmentTable)
    (built : SegmentTable.ofCounts counts = .ok table)
    (small : (gathered.map Int.natAbs).sum < Word.limit) :
    ((∃ pointers, stitchRowPointers gathered table = .ok pointers) ↔
      gathered.length = table.total ∧ ∀ part ∈ counts.splitLengths gathered, Regular part) ∧
    (∀ pointers, stitchRowPointers gathered table = .ok pointers →
      Stitched counts (counts.splitLengths gathered) pointers) ∧
    (gathered.length ≠ table.total → stitchRowPointers gathered table =
      .error (MatrixError.gatheredPointers gathered.length table.total : Failure)) ∧
    (gathered.length = table.total → (¬ ∀ part ∈ counts.splitLengths gathered, Regular part) →
      ∃ member part cause, (counts.splitLengths gathered)[member]? = some part ∧
        (∀ earlier ∈ (counts.splitLengths gathered).take member, Regular earlier) ∧
        Faulty member part cause ∧
        stitchRowPointers gathered table = .error (cause : Failure)) ∧
    stitchRowPointers gathered table ≠ .error .aborted := by
  obtain ⟨_, rfl⟩ := SegmentTable.ofCounts_eq_ok_iff.mp built
  rw [SegmentTable.total_eq]
  by_cases agree : gathered.length = counts.sum
  · have whole : (counts.splitLengths gathered).flatten = gathered :=
      List.flatten_splitLengths _ _ (Nat.le_of_eq agree)
    have lengths : (counts.splitLengths gathered).map List.length = counts :=
      List.map_splitLengths_length _ _ (Nat.le_of_eq agree.symm)
    have decided :=
      stitchRowPointers_flatten_decides (counts.splitLengths gathered) (by rwa [whole])
    rw [whole, lengths] at decided
    rcases decided with ⟨regular, pointers, stitches, stitched⟩ |
      ⟨member, part, cause, found, earlier, faulty, refused⟩
    · rw [stitches]
      refine ⟨⟨fun _ => ⟨agree, regular⟩, fun _ => ⟨pointers, rfl⟩⟩, ?_, fun differ =>
        absurd agree differ,
        fun _ irregular => absurd regular irregular, fun aborts => (by cases aborts)⟩
      intro pointers' same
      cases same
      exact stitched
    · have irregular : ¬ ∀ part ∈ counts.splitLengths gathered, Regular part := fun regular =>
        faulty.not_regular (regular part (List.mem_of_getElem? found))
      rw [refused]
      refine ⟨⟨?_, fun accepted => absurd accepted.2 irregular⟩, fun _ stitches =>
        (by cases stitches), fun differ => absurd agree differ, fun _ _ =>
          ⟨member, part, cause, found, earlier, faulty, rfl⟩,
        fun aborts => (by cases aborts)⟩
      rintro ⟨pointers, ⟨⟩⟩
  · have refused : stitchRowPointers gathered ⟨counts, runningTotals 0 counts⟩ =
        .error (MatrixError.gatheredPointers gathered.length counts.sum : Failure) := by
      rw [stitchRowPointers, SegmentTable.total_eq, if_neg agree]
      rfl
    rw [refused]
    refine ⟨⟨?_, fun accepted => absurd accepted.1 agree⟩, fun _ stitches =>
      (by cases stitches), fun _ => rfl,
      fun same => absurd same agree, fun aborts => (by cases aborts)⟩
    rintro ⟨pointers, ⟨⟩⟩

/-- Three members, the second of them without rows and the third with an empty row at its front. -/
theorem stitchRowPointers_decides_uneven :
    SegmentTable.ofCounts [3, 1, 3] = .ok ⟨[3, 1, 3], [0, 3, 4, 7]⟩ ∧
    (([0, 1, 3, 0, 0, 0, 2] : List Int).map Int.natAbs).sum < Word.limit ∧
    (∀ part ∈ [3, 1, 3].splitLengths ([0, 1, 3, 0, 0, 0, 2] : List Int), Regular part) ∧
    stitchRowPointers [0, 1, 3, 0, 0, 0, 2] ⟨[3, 1, 3], [0, 3, 4, 7]⟩ = .ok [0, 1, 3, 3, 5] ∧
    Stitched [3, 1, 3] ([3, 1, 3].splitLengths [0, 1, 3, 0, 0, 0, 2]) [0, 1, 3, 3, 5] := by
  have decided := stitchRowPointers_decides [0, 1, 3, 0, 0, 0, 2] [3, 1, 3]
    ⟨[3, 1, 3], [0, 3, 4, 7]⟩ rfl (by decide)
  exact ⟨rfl, by decide, (decided.1.mp ⟨_, rfl⟩).2, rfl, decided.2.1 _ rfl⟩

end DeviceTeams
