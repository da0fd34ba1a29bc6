import DeviceTeams.Proofs.Iteration
import DeviceTeams.Proofs.Uploads

/-!
# The joint system of given rows

The rows that the leads hold, one lead after the other, determine the whole joint system: its size,
where the rows of each lead start, and the inverse diagonal.
-/
namespace DeviceTeams

variable {S : Type} [Scalar S]

namespace System

def ofRows (size firstRow : Nat) (rows : List (List (Nat × S))) : System S :=
  match prepare (.ofRows size rows) firstRow size with
  | .ok system => system
  | .error _ => ⟨.ofRows size rows, firstRow, size, []⟩

theorem prepare_eq (size firstRow : Nat) (rows : List (List (Nat × S))) :
    prepare (.ofRows size rows) firstRow size = .ok (ofRows size firstRow rows) := by
  obtain ⟨diagonal, prepared⟩ := prepare_ofRows size rows firstRow size
  rw [ofRows, prepared]

theorem ofRows_eq (size firstRow : Nat) (rows : List (List (Nat × S))) :
    ofRows size firstRow rows =
    ⟨.ofRows size rows, firstRow, size, (ofRows size firstRow rows).inverseDiagonal⟩ := by
  obtain ⟨diagonal, prepared⟩ := prepare_ofRows size rows firstRow size
  rw [ofRows, prepared]

/-- The inverse diagonal is made of the entries that are found on the diagonal. -/
theorem exists_diagonal_ofRows (size firstRow : Nat) (rows : List (List (Nat × S))) : ∃ entries,
    List.Forall₂ (fun row entry => (Csr.ofRows size rows).get? row (firstRow + row) = .ok entry)
      (List.range rows.length) entries ∧ (ofRows size firstRow rows).inverseDiagonal =
      entries.map inverseOf := by
  have prepared := prepare_eq size firstRow rows
  rw [prepare, Csr.rowSpans_ofRows, Attempt.ok_bind, Attempt.bind_eq_ok_iff] at prepared
  obtain ⟨entries, looked, same⟩ := prepared
  have count : (Span.between (runningTotals 0 (rows.map List.length))).length =
    rows.length := by simp
  rw [count] at looked
  exact ⟨entries, Attempt.mapM_eq_ok_iff.mp looked, by rw [← Except.ok.inj same]⟩

theorem length_inverseDiagonal_ofRows (size firstRow : Nat) (rows : List (List (Nat × S))) :
    (ofRows size firstRow rows).inverseDiagonal.length = rows.length := by
  obtain ⟨entries, looked, same⟩ := exists_diagonal_ofRows size firstRow rows
  rw [same, List.length_map, ← looked.length_eq, List.length_range]

theorem inverseDiagonal_ofRows_getElem? {size firstRow row : Nat} {rows : List (List (Nat × S))}
    {entry : Option S} (below : row < rows.length)
    (found : (Csr.ofRows size rows).get? row (firstRow + row) = .ok entry) :
    (ofRows size firstRow rows).inverseDiagonal[row]? = some (inverseOf entry) := by
  obtain ⟨entries, looked, same⟩ := exists_diagonal_ofRows size firstRow rows
  have within : row < entries.length := by rwa [← looked.length_eq, List.length_range]
  have here := looked.get (by rwa [List.length_range]) within
  simp only [List.get_eq_getElem, List.getElem_range] at here
  rw [same, List.getElem?_map, List.getElem?_eq_getElem within, Option.map_some,
    Except.ok.inj (here.symm.trans found)]

end System

def Parts.of (vectors : List (List S)) : Parts S := fun seat => vectors.getD seat []

namespace Joint

variable {bands : List (List (List (Nat × S)))}

/-- The system whose leads hold these rows. -/
def ofBands (bands : List (List (List (Nat × S)))) : Joint S where
  size := (bands.map List.length).sum
  leads := bands.length
  band seat :=
    let firstRow := ((bands.map List.length).take seat).sum
    { rows := bands.getD seat []
      firstRow
      inverseDiagonal :=
        (System.ofRows (bands.map List.length).sum firstRow (bands.getD seat [])).inverseDiagonal }

theorem system_ofBands {seat : Nat} {rows : List (List (Nat × S))}
    (found : bands[seat]? = some rows) :
    (ofBands bands).system seat =
      System.ofRows (bands.map List.length).sum ((bands.map List.length).take seat).sum rows := by
  have own : bands.getD seat [] = rows := by
    rw [List.getD_eq_getElem?_getD, found, Option.getD_some]
  rw [System.ofRows_eq, ← own]
  rfl

omit [Scalar S] in
theorem getElem?_of_lt_leads {seat : Nat} (below : seat < bands.length) :
    bands[seat]? = some (bands.getD seat []) := by
  rw [List.getD_eq_getElem?_getD, List.getElem?_eq_getElem below, Option.getD_some]

theorem inside_ofBands {seat : Nat} (below : seat < bands.length) :
    ((ofBands bands).band seat).firstRow + ((ofBands bands).band seat).rows.length ≤
    (ofBands bands).size := by
  have own : (bands.map List.length)[seat]? = some (bands.getD seat []).length := by
    rw [List.getElem?_map, getElem?_of_lt_leads below, Option.map_some]
  show ((bands.map List.length).take seat).sum + (bands.getD seat []).length ≤
    (bands.map List.length).sum
  rw [← sum_take_succ own]
  exact (List.take_sublist _ _).sum_le_sum fun _ _ => Nat.zero_le _

theorem sound_ofBands (columns : ∀ rows ∈ bands, ∀ row ∈ rows, Tidy (bands.map List.length).sum row)
    (room : (bands.map List.length).sum * 8 < 2 ^ 63) : (ofBands bands).Sound := by
  constructor
  · intro seat below row member
    exact (columns _ (List.mem_of_getElem? (getElem?_of_lt_leads below)) row member).inside
  · exact fun seat below => inside_ofBands below
  · intro seat below
    exact System.length_inverseDiagonal_ofRows _ _ _
  · exact room

theorem fits_of {α : Type} {leads : List α} {rows : α → List (List (Nat × S))} {vector : α → List S}
    (lengths : ∀ lead ∈ leads, (vector lead).length = (rows lead).length) :
    (ofBands (leads.map rows)).Fits (.of (leads.map vector)) := by
  intro seat below
  have bound : seat < leads.length := by simpa [ofBands] using below
  have found := List.getElem?_eq_getElem bound
  show ((leads.map vector).getD seat []).length = ((leads.map rows).getD seat []).length
  simp only [List.getD_eq_getElem?_getD, List.getElem?_map, found, Option.map_some,
    Option.getD_some]
  exact lengths _ (List.getElem_mem bound)

end Joint
end DeviceTeams
