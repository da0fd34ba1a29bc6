import DeviceTeams.Proofs.Contributions

/-!
# Blocks assembled from triplets

An assembled block stores at every place the sum of the contributions to it, added up in the order
in which they were given. The rows of a block are determined by these sums, whatever way they are
computed.
-/
namespace DeviceTeams

variable {S : Type}

/-! ## Sums of contributions -/

def addTo [Scalar S] (sum : Option S) (value : S) : Option S :=
  match sum with
  | some before => some (before + value)
  | none => some value

def sumFrom [Scalar S] (row column : Nat) (sum : Option S) : List (Triplet S) → Option S
  | [] => sum
  | t :: rest => sumFrom row column (if t.At row column then addTo sum t.value else sum) rest

/-- The sum of the contributions to a place; none if there are none. -/
def sumAt [Scalar S] (triplets : List (Triplet S)) (row column : Nat) : Option S :=
  sumFrom row column none triplets

variable {row column : Nat}

theorem sumFrom_eq [Scalar S] (sum : Option S) (triplets : List (Triplet S)) :
    sumFrom row column sum triplets = (Triplet.valuesAt row column triplets).foldl addTo sum := by
  induction triplets generalizing sum with
  | nil => rfl
  | cons t rest ih =>
    rw [sumFrom, ih]
    by_cases here : t.At row column
    · rw [if_pos here, Triplet.valuesAt_cons_of_at here, List.foldl_cons]
    · rw [if_neg here, Triplet.valuesAt_cons_of_not_at here]

/-- Only the contributions to the place matter, and their order. -/
theorem sumAt_congr [Scalar S] {triplets triplets' : List (Triplet S)}
    (same : (triplets.filter fun t => t.At row column) = triplets'.filter fun t =>
      t.At row column) :
    sumAt triplets row column = sumAt triplets' row column := by
  rw [sumAt, sumAt, sumFrom_eq, sumFrom_eq, Triplet.valuesAt, same, Triplet.valuesAt]

/-- Scalars can always be added up. -/
theorem addUp_eq [Scalar S] (values : List S) :
    Triplet.addUp values = .ok (values.foldl addTo none) := by
  have from_some : ∀ (rest : List S) (sum : S),
      some <$> rest.foldlM Entry.add sum =
      (.ok (rest.foldl addTo (some sum)) : Attempt (Option S)) := by
    intro rest
    induction rest with
    | nil => exact fun _ => rfl
    | cons value rest ih => exact fun sum => ih (sum + value)
  cases values with
  | nil => rfl
  | cons first rest => exact from_some rest first

theorem addUp_valuesAt [Scalar S] (triplets : List (Triplet S)) (row column : Nat) :
    Triplet.addUp (Triplet.valuesAt row column triplets) = .ok (sumAt triplets row column) := by
  rw [addUp_eq, sumAt, sumFrom_eq]

theorem Triplet.AddsUp.of_scalars [Scalar S] (triplets : List (Triplet S)) :
    Triplet.AddsUp triplets :=
  fun t _ => ⟨_, addUp_valuesAt triplets t.row t.column⟩

theorem isSome_sumAt [Scalar S] {triplets : List (Triplet S)} :
    (sumAt triplets row column).isSome ↔ ∃ t ∈ triplets, t.At row column := by
  have none_iff : sumAt triplets row column = none ↔ ∀ t ∈ triplets, ¬ t.At row column := by
    rw [← Triplet.valuesAt_eq_nil_iff, ← Triplet.addUp_eq_none_iff, addUp_valuesAt, Except.ok.injEq]
  rw [Option.isSome_iff_ne_none, Ne, none_iff]
  simp only [not_forall, not_not, exists_prop]

namespace Triplet

/-- In a list with one contribution for each place, the sum at a place is that contribution. -/
theorem mem_iff_sumAt [Scalar S] {entries : List (Triplet S)}
    (ordered : entries.Pairwise Before) {value : S} :
    ⟨row, column, value⟩ ∈ entries ↔ sumAt entries row column = some value := by
  rw [mem_iff_addUp ordered, addUp_valuesAt, Except.ok.injEq]

/-- Collecting never fails and keeps the sums. -/
theorem collect_spec [Scalar S] (triplets : List (Triplet S)) :
    ∃ entries, collect triplets = .ok entries ∧
    entries.Pairwise Before ∧ entries.length ≤ triplets.length ∧
    ∀ row column, sumAt entries row column = sumAt triplets row column := by
  obtain ⟨entries, collects, ordered, short, same⟩ := collect_adds (AddsUp.of_scalars triplets)
  refine ⟨entries, collects, ordered, short, fun row column => ?_⟩
  have equal := same row column
  rwa [addUp_valuesAt, addUp_valuesAt, Except.ok.injEq] at equal

end Triplet

/-! ## Rows of sums -/

structure SumsUp [Scalar S] (triplets : List (Triplet S)) (row : Nat) (entries : List (Nat × S)) :
    Prop where
  ascending : entries.Pairwise fun a b => a.1 < b.1
  stored : ∀ column value, (column, value) ∈ entries ↔ sumAt triplets row column = some value

def Assembles [Scalar S] (triplets : List (Triplet S)) (start : Nat)
    (rows : List (List (Nat × S))) : Prop :=
  ∀ place entries, rows[place]? = some entries → SumsUp triplets (start + place) entries

/-- Ascending entries are determined by which they are. -/
theorem eq_of_ascending {entries entries' : List (Nat × S)}
    (ascends : entries.Pairwise fun a b => a.1 < b.1)
    (ascends' : entries'.Pairwise fun a b => a.1 < b.1)
    (same : ∀ column value, (column, value) ∈ entries ↔ (column, value) ∈ entries') :
    entries = entries' := by
  have distinct : ∀ {items : List (Nat × S)}, (items.Pairwise fun a b => a.1 < b.1) →
      items.Nodup := fun ascends =>
    List.Pairwise.imp (fun {a b} (less : a.1 < b.1) (same : a = b) =>
      Nat.ne_of_lt less (congrArg Prod.fst same)) ascends
  have antisymm : ∀ a b : Nat × S, a ∈ entries → b ∈ entries' → a.1 < b.1 → b.1 < a.1 → a = b :=
    fun a b _ _ less greater => absurd less (Nat.lt_asymm greater)
  refine List.Perm.eq_of_pairwise antisymm ascends ascends'
    ((List.perm_ext_iff_of_nodup (distinct ascends) (distinct ascends')).mpr fun entry => ?_)
  exact same entry.1 entry.2

/-- The sums determine the row. -/
theorem SumsUp.unique [Scalar S] {triplets : List (Triplet S)} {row : Nat}
    {entries entries' : List (Nat × S)} (sums : SumsUp triplets row entries)
    (sums' : SumsUp triplets row entries') : entries = entries' :=
  eq_of_ascending sums.ascending sums'.ascending fun column value =>
    (sums.stored column value).trans (sums'.stored column value).symm

theorem SumsUp.congr [Scalar S] {triplets triplets' : List (Triplet S)} {row row' : Nat}
    {entries : List (Nat × S)} (sums : SumsUp triplets row entries)
    (same : ∀ column, sumAt triplets' row' column = sumAt triplets row column) :
    SumsUp triplets' row' entries :=
  ⟨sums.ascending, fun column value => by rw [same]; exact sums.stored column value⟩

theorem SumsUp.tidy [Scalar S] {triplets : List (Triplet S)} {row ncols : Nat}
    {entries : List (Nat × S)} (sums : SumsUp triplets row entries)
    (inside : ∀ t ∈ triplets, t.column < ncols) : Tidy ncols entries := by
  refine ⟨sums.ascending, fun entry member => ?_⟩
  have found := (sums.stored entry.1 entry.2).mp member
  obtain ⟨t, among, here⟩ := isSome_sumAt.mp (Option.isSome_iff_exists.mpr ⟨_, found⟩)
  exact here.2 ▸ inside t among

/-- The entries of a row, one for each place, are its sums. -/
theorem Triplet.sumsUp_inRow [Scalar S] {entries : List (Triplet S)}
    (ordered : entries.Pairwise Before) (row : Nat) :
    SumsUp entries row (inRow row entries) :=
  ⟨ascending_inRow ordered row, fun column value => by rw [mem_inRow, mem_iff_sumAt ordered]⟩

theorem Assembles.unique [Scalar S] {triplets : List (Triplet S)} {start : Nat}
    {rows rows' : List (List (Nat × S))} (assembles : Assembles triplets start rows)
    (assembles' : Assembles triplets start rows') (same : rows.length = rows'.length) :
    rows = rows' := by
  refine List.ext_getElem same fun place bound bound' => ?_
  exact (assembles place _ (List.getElem?_eq_getElem bound)).unique
    (assembles' place _ (List.getElem?_eq_getElem bound'))

/-! ## Assembled blocks -/

namespace Csr

/-- A block assembled from triplets has the rows of their sums. -/
theorem ofTriplets_spec [Scalar S] (triplets : List (Triplet S)) {nrows : Nat}
    (inside : ∀ t ∈ triplets, t.row < nrows) (room : (nrows + 1) * 8 < 2 ^ 63) (ncols : Nat) :
    ∃ rows, Csr.ofTriplets nrows ncols triplets = .ok (ofRows ncols rows) ∧ rows.length = nrows ∧
      Assembles triplets 0 rows ∧ rows.flatten.length ≤ triplets.length := by
  obtain ⟨entries, collected, ordered, short, sums⟩ := Triplet.collect_spec triplets
  have within : ∀ t ∈ entries, t.row < nrows := by
    intro t member
    have found := isSome_sumAt.mpr ⟨t, member, rfl, rfl⟩
    rw [sums, isSome_sumAt] at found
    obtain ⟨t', among, same, _⟩ := found
    exact same ▸ inside t' among
  refine ⟨_, ofTriplets_eq collected ordered within room ncols, by
    simp, fun row cells found => ?_, ?_⟩
  · rw [List.getElem?_map, Option.map_eq_some_iff] at found
    obtain ⟨_, place, rfl⟩ := found
    obtain ⟨_, rfl⟩ := List.getElem?_eq_some_iff.mp place
    rw [List.getElem_range, Nat.zero_add]
    exact (Triplet.sumsUp_inRow ordered row).congr fun column => (sums row column).symm
  · rw [Triplet.flatten_inRow ordered within, List.length_map]
    exact short

end Csr
end DeviceTeams
