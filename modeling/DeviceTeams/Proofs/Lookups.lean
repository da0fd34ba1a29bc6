import DeviceTeams.Proofs.Rows

/-!
# Looking up entries

In columns that ascend strictly the search by halving finds a column exactly where it stands. An
entry of a tidy row is therefore found by its column, and nothing is found in a column where the row
stores nothing.
-/
namespace DeviceTeams

/-! ## The search -/

/-- Halving a window keeps the place that holds the wanted number. -/
theorem narrow_eq {numbers : List Nat} (ascends : numbers.Pairwise (· < ·))
    {wanted place base size : Nat} (found : numbers[place]? = some wanted) (after : base ≤ place)
    (before : place < base + size) (inside : base + size ≤ numbers.length) :
    searchSorted?.narrow numbers.toArray wanted base size = place := by
  fun_induction searchSorted?.narrow numbers.toArray wanted base size with
  | case1 base size wide half ih =>
    obtain ⟨bound, value⟩ := List.getElem?_eq_some_iff.mp found
    have middle : base + half < numbers.length := by omega
    have looked : numbers.toArray.getD (base + half) 0 = numbers[base + half] := by
      rw [Array.getD_eq_getD_getElem?, List.getElem?_toArray, List.getElem?_eq_getElem middle,
        Option.getD_some]
    -- The wanted number stands left of the middle exactly if it is below the number there.
    have left : wanted < numbers.toArray.getD (base + half) 0 ↔ place < base + half := by
      rw [looked, ← value]
      constructor
      · intro less
        by_contra behind
        rcases Nat.lt_or_eq_of_le (Nat.not_lt.mp behind) with right | same
        · have more := List.pairwise_iff_getElem.mp ascends _ _ middle bound right
          omega
        · subst same
          omega
      · exact fun earlier => List.pairwise_iff_getElem.mp ascends _ _ bound middle earlier
    refine ih ?_ ?_ ?_
    · split
      · exact after
      · next right => omega
    · split
      · next less =>
        have earlier := left.mp less
        omega
      · omega
    · split <;> omega
  | case2 base size single => omega

/-- A column is found where it stands. -/
theorem searchSorted?_eq_some_iff {numbers : List Nat} (ascends : numbers.Pairwise (· < ·))
    {wanted place : Nat} :
    searchSorted? numbers.toArray wanted = some place ↔ numbers[place]? = some wanted := by
  have looked : ∀ {base : Nat}, base < numbers.length → some (numbers.toArray.getD base 0) =
      numbers[base]? := by
    intro base below
    rw [Array.getD_eq_getD_getElem?, List.getElem?_toArray, List.getElem?_eq_getElem below,
      Option.getD_some]
  constructor
  · intro found
    have below := Csr.lt_of_searchSorted? found
    rw [List.size_toArray] at below
    rw [searchSorted?] at found
    split at found
    · cases found
    · dsimp only at found
      split at found
      · next same =>
        cases found
        rw [← looked below, same]
      · cases found
  · intro found
    have bound := (List.getElem?_eq_some_iff.mp found).1
    have base : searchSorted?.narrow numbers.toArray wanted 0 numbers.toArray.size = place :=
      narrow_eq ascends found (Nat.zero_le _) (by rw [List.size_toArray]; omega)
        (by rw [List.size_toArray]; omega)
    have some_number : ¬ numbers.toArray.size = 0 := by
      rw [List.size_toArray]
      omega
    have same : numbers.toArray.getD place 0 = wanted :=
      Option.some.inj ((looked bound).trans found)
    rw [searchSorted?, if_neg some_number, base]
    exact if_pos same

/-! ## Entries -/

namespace Csr

variable {T : Type} {ncols row : Nat} {rows : List (List (Nat × T))} {entries : List (Nat × T)}

/-- What is looked up in a row is the value at the place that the search finds. -/
theorem get?_eq_search (found : rows[row]? = some entries) (column : Nat) :
    (ofRows ncols rows).get? row column =
      .ok ((searchSorted? (entries.map (·.1)).toArray column).bind fun place =>
        (entries.map (·.2))[place]?) := by
  rw [get?, rowSpan_ofRows found, Attempt.ok_bind, slice_columns found, Attempt.ok_bind]
  cases search : searchSorted? (entries.map (·.1)).toArray column with
  | none => rfl
  | some place =>
    have inside := lt_of_searchSorted? search
    rw [List.size_toArray, List.length_map] at inside
    have value : (ofRows ncols rows).values[(rows.take row).flatten.length + place]? =
        some entries[place].2 := by
      rw [ofRows, List.getElem?_toArray, flatten_of_found found, List.map_append, List.map_append,
        List.getElem?_append_right (by rw [List.length_map]; exact Nat.le_add_right ..),
        List.length_map, Nat.add_sub_cancel_left, List.getElem?_append_left
        (by rwa [List.length_map]),
        List.getElem?_map, List.getElem?_eq_getElem inside, Option.map_some]
    simp only [value, Attempt.ofOption_some, Option.bind_some, List.getElem?_map,
      List.getElem?_eq_getElem inside, Option.map_some]
    rfl

variable (found : rows[row]? = some entries) (tidy : Tidy ncols entries)
include found tidy

theorem get?_eq_some_iff {column : Nat} {value : T} :
    (ofRows ncols rows).get? row column = .ok (some value) ↔ (column, value) ∈ entries := by
  have ascends : (entries.map (·.1)).Pairwise (· < ·) := List.pairwise_map.mpr tidy.ascending
  rw [get?_eq_search found, Except.ok.injEq, Option.bind_eq_some_iff]
  simp only [searchSorted?_eq_some_iff ascends, List.getElem?_map, Option.map_eq_some_iff]
  constructor
  · rintro ⟨place, ⟨entry, here, rfl⟩, entry', there, rfl⟩
    obtain rfl := Option.some.inj (here.symm.trans there)
    exact List.mem_of_getElem? here
  · intro member
    obtain ⟨place, here⟩ := List.mem_iff_getElem?.mp member
    exact ⟨place, ⟨_, here, rfl⟩, _, here, rfl⟩

theorem get?_eq_none_iff {column : Nat} :
    (ofRows ncols rows).get? row column = .ok none ↔ ∀ entry ∈ entries, entry.1 ≠ column := by
  constructor
  · rintro nothing entry member rfl
    cases nothing.symm.trans ((get?_eq_some_iff found tidy).mpr member)
  · intro absent
    obtain ⟨answer, looked⟩ : ∃ answer, (ofRows ncols rows).get? row column = .ok answer :=
      get?_ofRows found column
    cases answer with
    | none => exact looked
    | some value => exact absurd rfl (absent _ ((get?_eq_some_iff found tidy).mp looked))

end Csr
end DeviceTeams
