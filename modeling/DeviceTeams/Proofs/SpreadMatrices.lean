import DeviceTeams.Proofs.ExactScalars
import DeviceTeams.Proofs.Lookups
import DeviceTeams.Proofs.UnisonSolves

/-!
# A matrix spread over the leads

Every row of a matrix lies with one lead, in a block that stores the entries other than zero and
possibly some more. Which rows a lead has is up to the distribution, as long as they are
consecutive. The joint system of the leads then bears the rows of the matrix: what the solver looks
up and multiplies are the numbers of the matrix.
-/
namespace DeviceTeams

open Matrix

def System.Owns {S : Type} (system : System S) (row : Nat) : Prop :=
  system.firstRow ≤ row ∧ row < system.firstRow + system.block.nrows

variable {K S : Type} [Field K] [LinearOrder K] [Scalar S] (reading : Reading K S) {n : Nat}

namespace Reading

/-! ## Entries -/

/-- What is found for an entry of a matrix: the number, or nothing if it is zero. -/
def Denotes (a : K) : Option S → Prop
  | some value => value = reading.number a
  | none => a = 0

/-- Where the leads have the rows of a matrix, and what they find in them. -/
structure Spread (A : Matrix (Fin n) (Fin n) K) (L : Finset Nat) (system : Nat → System S) :
    Prop where
  owned : ∀ row < n, ∃ lead ∈ L, ∀ other ∈ L, (system other).Owns row ↔ other = lead
  entries : ∀ lead ∈ L, ∀ row : Fin n, (system lead).Owns row → ∀ column : Fin n, ∃ entry,
    (system lead).block.get? (row - (system lead).firstRow) column = .ok entry ∧
    reading.Denotes (A row column) entry

variable {reading}

theorem Denotes.inverseOf_eq [IsStrictOrderedRing K] {a : K} {entry : Option S}
    (denotes : reading.Denotes a entry) :
    System.inverseOf entry = reading.number (reading.inverse a) := by
  cases entry with
  | some value =>
    obtain rfl : value = reading.number a := denotes
    exact reading.inverseOf_number a
  | none =>
    obtain rfl : a = 0 := denotes
    exact reading.inverseOf_none

/-- A tidy row in which the numbers of a line are found is that line. -/
theorem row_of_denotes {line : Fin n → K} {rows : List (List (Nat × S))} {place : Nat}
    {entries : List (Nat × S)} (here : rows[place]? = some entries) (tidy : Tidy n entries)
    (looked : ∀ column : Fin n, ∃ entry, (Csr.ofRows n rows).get? place column = .ok entry ∧
      reading.Denotes (line column) entry) : reading.Row line entries := by
  refine ⟨tidy, fun column a member => ?_, fun column some_value => ?_⟩
  · obtain ⟨entry, found, denotes⟩ := looked column
    cases found.symm.trans ((Csr.get?_eq_some_iff here tidy).mpr member)
    exact denotes
  · obtain ⟨_ | value, found, denotes⟩ := looked column
    · exact absurd denotes some_value
    · obtain rfl : value = reading.number (line column) := denotes
      exact (Csr.get?_eq_some_iff here tidy).mp found

/-- The right-hand side has an entry, so some lead has a row. -/
theorem Spread.some_lead {A : Matrix (Fin n) (Fin n) K} {L : Finset Nat} {system : Nat → System S}
    (spread : reading.Spread A L system) {b : Fin n → K} (large : reading.tiny ≤ reading.norm b) :
    L.Nonempty := by
  have some_row : 0 < n := by
    rcases Nat.eq_zero_or_pos n with rfl | positive
    · rw [norm, dotProduct, Finset.univ_eq_empty, Finset.sum_empty, reading.root_zero] at large
      exact absurd reading.tiny_pos (not_lt.mpr large)
    · exact positive
  obtain ⟨lead, inside, _⟩ := spread.owned 0 some_row
  exact ⟨lead, inside⟩

/-! ## Segments -/

def segment (reading : Reading K S) (system : System S) (f : Fin n → K) : List S :=
  ((reading.vector f).drop system.firstRow).take system.block.nrows

def solving (reading : Reading K S) (system : Nat → System S) (N : Nat → Group)
    (settings : Settings S) (b x : Fin n → K) (lead : Nat) :
    Program S (Attempt (Status × Nat) × List S) :=
  (BiCgStab.solve (system lead) (N lead) settings (reading.segment (system lead) b)).start
    (reading.segment (system lead) x)

end Reading

/-! ## The joint system -/

namespace Ensemble

variable {reading} {node : Nat → Nat} {L : Finset Nat} {N : Nat → Group} {hub : Hub}
  {system : Nat → System S}
  (ensemble : Ensemble node L N hub n system) {A : Matrix (Fin n) (Fin n) K}
include ensemble

/-- The rows of a lead in the joint system, with where they come from. -/
theorem band_eq {lead : Nat} (inside : lead ∈ L) : (Joint.ofLeads hub n system).band (N lead).rank =
    ⟨(system lead).block.storedRows, (system lead).firstRow, (system lead).inverseDiagonal⟩ :=
  Joint.band_ofLeads (ensemble.seat inside)

theorem covers_iff {lead row : Nat} (inside : lead ∈ L) :
    (Joint.ofLeads hub n system).Covers (N lead).rank row ↔ (system lead).Owns row := by
  rw [Joint.Covers, ensemble.band_eq inside, (ensemble.prepared lead inside).length_storedRows]
  rfl

theorem parts_eq {lead : Nat} (inside : lead ∈ L) (f : Fin n → K) :
    (Joint.ofLeads hub n system).parts reading f (N lead).rank = reading.segment
    (system lead) f := by
  rw [Joint.parts, Joint.cut, ensemble.band_eq inside,
    (ensemble.prepared lead inside).length_storedRows]
  rfl

/-- What a lead finds in a row that it has prepared. -/
theorem found_row (spread : reading.Spread A L system) {lead place : Nat} (inside : lead ∈ L)
    {entries : List (Nat × S)} (here : (system lead).block.storedRows[place]? = some entries) :
    ∃ row : Fin n, row.val = (system lead).firstRow + place ∧ ∀ column : Fin n, ∃ entry,
      (Csr.ofRows n (system lead).block.storedRows).get? place column = .ok entry ∧
      reading.Denotes (A row column) entry := by
  have prepared := ensemble.prepared lead inside
  have bound := (List.getElem?_eq_some_iff.mp here).1
  rw [prepared.length_storedRows] at bound
  have within := prepared.inside
  have block : (system lead).block = .ofRows n (system lead).block.storedRows := by
    have same := prepared.rows_of.1
    rw [System.ofRows_eq] at same
    exact congrArg System.block same
  refine ⟨⟨(system lead).firstRow + place, by omega⟩, rfl, fun column => ?_⟩
  have looked := spread.entries lead inside ⟨(system lead).firstRow + place, by omega⟩
    ⟨Nat.le_add_right .., Nat.add_lt_add_left bound _⟩ column
  rw [← block]
  simpa only [Nat.add_sub_cancel_left] using looked

section

variable (some_lead : L.Nonempty)
include some_lead

/-- A seat is taken by a lead, or there is nobody at it. -/
theorem seat_cases (seat : Nat) : (∃ lead ∈ L, (N lead).rank = seat) ∨
    (hub.ranks.length ≤ seat ∧ (Joint.ofLeads hub n system).band seat = ⟨[], 0, []⟩) := by
  cases found : hub.ranks[seat]? with
  | some lead => exact .inl ⟨lead, ensemble.member_of some_lead found⟩
  | none =>
    refine .inr ⟨List.getElem?_eq_none_iff.mp found, ?_⟩
    simp only [found, Option.elim_none]

variable (spread : reading.Spread A L system)
include spread

theorem tiled : (Joint.ofLeads hub n system).Tiled := by
  constructor
  · intro seat below
    obtain ⟨lead, inside, rfl⟩ | ⟨beyond, _⟩ := ensemble.seat_cases some_lead seat
    · rw [ensemble.band_eq inside, (ensemble.prepared lead inside).length_storedRows]
      exact (ensemble.prepared lead inside).inside
    · exact absurd below (Nat.not_lt.mpr beyond)
  · intro row below
    obtain ⟨lead, inside, only⟩ := spread.owned row below
    refine ⟨(N lead).rank, (List.getElem?_eq_some_iff.mp (ensemble.seat inside)).1,
      fun other within => ?_⟩
    obtain ⟨owner, among, rfl⟩ | ⟨beyond, _⟩ := ensemble.seat_cases some_lead other
    · rw [ensemble.covers_iff among, only owner among]
      constructor
      · rintro rfl
        rfl
      · intro same
        have owned := ensemble.seat among
        rw [same, ensemble.seat inside] at owned
        exact (Option.some.inj owned).symm
    · exact absurd within (Nat.not_lt.mpr beyond)

/-- The joint system of the leads bears the rows of the matrix. -/
theorem bears [IsStrictOrderedRing K] : (Joint.ofLeads hub n system).Bears reading A := by
  refine ⟨ensemble.tiled some_lead spread, fun seat place entries here => ?_, fun seat => ?_⟩
  · obtain ⟨lead, inside, rfl⟩ | ⟨_, nobody⟩ := ensemble.seat_cases some_lead seat
    · rw [ensemble.band_eq inside] at here ⊢
      obtain ⟨row, same, looked⟩ := ensemble.found_row spread inside here
      exact ⟨row, same, Reading.row_of_denotes here
        ((ensemble.prepared lead inside).rows_of.2 entries (List.mem_of_getElem? here)) looked⟩
    · rw [nobody] at here
      cases here
  · obtain ⟨lead, inside, rfl⟩ | ⟨_, nobody⟩ := ensemble.seat_cases some_lead seat
    · have prepared := ensemble.prepared lead inside
      refine List.ext_getElem? fun place => ?_
      rw [ensemble.parts_eq inside, ensemble.band_eq inside, Reading.segment,
        ← prepared.length_storedRows]
      cases here : (system lead).block.storedRows[place]? with
      | some entries =>
        have below := (List.getElem?_eq_some_iff.mp here).1
        obtain ⟨row, same, looked⟩ := ensemble.found_row spread inside here
        obtain ⟨entry, found, denotes⟩ := looked row
        rw [List.getElem?_take_of_lt below, List.getElem?_drop, ← same, reading.vector_getElem?,
          ← denotes.inverseOf_eq, congrArg System.inverseDiagonal prepared.rows_of.1]
        exact System.inverseDiagonal_ofRows_getElem? below (same ▸ found)
      | none =>
        have beyond := List.getElem?_eq_none_iff.mp here
        rw [List.getElem?_eq_none (prepared.length_inverseDiagonal ▸ beyond),
          List.getElem?_eq_none ((List.length_take_le ..).trans beyond)]
    · rw [Joint.parts, Joint.cut, nobody]
      rfl

end

/-! ## Solves -/

section

variable [IsStrictOrderedRing K] (spread : reading.Spread A L system) {world : Nat}
  (within : L ⊆ Finset.range world)
  {hubs : Hubs S} {rounds : Rounds} (resting : hubs.Resting rounds) {b : Fin n → K}
  (large : reading.tiny ≤ reading.norm b) (maxIters rings : Nat) (tolerance : K) (x : Fin n → K)
include spread within resting large

/-- What the joint solve says is what the leads come out with. -/
theorem solve_ends (room : n * 8 < 2 ^ 63) {status : Status} {iterations : Nat} {y : Fin n → K}
    (joint : (Joint.ofLeads hub n system).solve ⟨maxIters, reading.number tolerance, rings⟩
      ((Joint.ofLeads hub n system).parts reading b)
      ((Joint.ofLeads hub n system).parts reading x) =
        ((status, iterations), (Joint.ofLeads hub n system).parts reading y)) :
    EndsAmong world L hubs
    (reading.solving system N ⟨maxIters, reading.number tolerance, rings⟩ b x)
      fun rank => (.ok (status, iterations), reading.segment (system rank) y) := by
  have some_lead := spread.some_lead large
  have bears := ensemble.bears some_lead spread
  obtain ⟨w, _, values, plain, _⟩ := (ensemble.held.solve_unison (ensemble.sound some_lead room)
    ⟨maxIters, reading.number tolerance, rings⟩ (bears.fits b)
    (bears.fits x)).endsAmong within resting
  refine plain.congr (fun rank inside => ?_) fun rank inside => ?_
  · rw [Reading.solving, ← ensemble.parts_eq inside b, ← ensemble.parts_eq inside x,
      ensemble.system_eq inside]
  · rw [values rank inside, joint, ← ensemble.parts_eq inside y]

/-- If the whole vectors do not fit into memory all leads abort. -/
theorem solve_aborts (full : ¬ n * 8 < 2 ^ 63) : ∃ y : Nat → List S,
    EndsAmong world L hubs
    (reading.solving system N ⟨maxIters, reading.number tolerance, rings⟩ b x)
      fun rank => (.abort, y rank) := by
  have bears := ensemble.bears (spread.some_lead large) spread
  obtain ⟨w, _, ⟨outcome, y, values, aborts⟩, plain, _⟩ := (ensemble.held.solve_unison_of_full full
    ⟨maxIters, reading.number tolerance, rings⟩ ((Joint.ofLeads hub n system).parts reading b)
      ((Joint.ofLeads hub n system).parts reading x)).endsAmong within resting
  obtain rfl := aborts (by
    rw [bears.norm_parts, reading.tiny_eq, reading.less]
    exact decide_eq_false (not_lt.mpr large))
  refine ⟨fun rank => y (N rank).rank, plain.congr (fun rank inside => ?_) fun rank inside =>
    (values rank inside).symm⟩
  rw [Reading.solving, ← ensemble.parts_eq inside b, ← ensemble.parts_eq inside x,
    ensemble.system_eq inside]

end

end Ensemble

/-! ## One row for each lead -/

theorem System.owns_ofRow {lead row : Nat} {entries : List (Nat × S)} :
    (System.ofRows n lead [entries]).Owns row ↔ row = lead := by
  rw [System.Owns, System.nrows_ofRows, System.ofRows_eq, List.length_singleton]
  exact ⟨fun ⟨after, before⟩ => Nat.le_antisymm (Nat.le_of_lt_succ before) after,
    fun same => same ▸ ⟨Nat.le_refl _, Nat.lt_succ_self _⟩⟩

/-- Ranks that have a row each are an ensemble. -/
theorem Ensemble.ofRow (nodes : List Nat) {rows : Nat → List (Nat × S)}
    (tidy : ∀ row < nodes.length, Tidy nodes.length (rows row)) :
    Ensemble (nodes.getD · 0) (Finset.range nodes.length) (Group.world nodes) (.world nodes.length)
      nodes.length fun lead => .ofRows nodes.length lead [rows lead] := by
  refine ⟨Together.world nodes, fun _ _ => rfl, fun lead inside => ?_⟩
  have below := Finset.mem_range.mp inside
  have word : [rows lead].length + 1 < Word.limit := show 2 < Word.limit by decide
  refine System.prepared_ofRows word (fun row member => ?_) below
  obtain rfl := List.mem_singleton.mp member
  exact tidy lead below

namespace Reading

variable {reading} in
/-- The matrix is spread over ranks that have a row each if these rows hold its entries other than
zero. -/
theorem Spread.ofRow {A : Matrix (Fin n) (Fin n) K} {rows : Nat → List (Nat × S)}
    (tidy : ∀ row < n, Tidy n (rows row))
    (entries : ∀ row column : Fin n, (column.val, reading.number (A row column)) ∈ rows row ∨
      A row column = 0 ∧ ∀ entry ∈ rows row, entry.1 ≠ column) :
    reading.Spread A (Finset.range n) fun lead => .ofRows n lead [rows lead] := by
  refine ⟨fun row below => ⟨row, Finset.mem_range.mpr below, fun other _ => ?_⟩,
    fun lead inside row owns column => ?_⟩
  · rw [System.owns_ofRow, eq_comm]
  · obtain rfl : row.val = lead := System.owns_ofRow.mp owns
    have here : [rows row][0]? = some (rows row) := rfl
    rw [System.ofRows_eq, Nat.sub_self]
    rcases entries row column with stored | ⟨zero, absent⟩
    · exact ⟨_, (Csr.get?_eq_some_iff here (tidy row row.isLt)).mpr stored, rfl⟩
    · exact ⟨none, (Csr.get?_eq_none_iff here (tidy row row.isLt)).mpr absent, zero⟩

variable (d : Nat → K)

def oneRow (n : Nat) (lead : Nat) : System S := .ofRows n lead [[(lead, reading.number (d lead))]]

theorem tidy_oneRow {row : Nat} (below : row < n) : Tidy n [(row, reading.number (d row))] := by
  refine ⟨List.pairwise_singleton .., fun entry member => ?_⟩
  obtain rfl := List.mem_singleton.mp member
  exact below

theorem ensemble_oneRow (nodes : List Nat) :
    Ensemble (nodes.getD · 0) (Finset.range nodes.length) (Group.world nodes)
    (.world nodes.length) nodes.length (reading.oneRow d nodes.length) :=
  .ofRow nodes fun _ below => reading.tidy_oneRow d below

theorem spread_oneRow :
    reading.Spread (diagonal fun row : Fin n => d row) (Finset.range n) (reading.oneRow d n) := by
  refine .ofRow (fun _ below => reading.tidy_oneRow d below) fun row column => ?_
  by_cases same : row = column
  · subst same
    rw [diagonal_apply_eq]
    exact .inl (List.mem_singleton.mpr rfl)
  · refine .inr ⟨diagonal_apply_ne _ same, fun entry member => ?_⟩
    obtain rfl := List.mem_singleton.mp member
    exact fun equal => same (Fin.ext equal)

end Reading
end DeviceTeams
