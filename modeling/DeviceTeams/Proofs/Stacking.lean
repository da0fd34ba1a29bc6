import DeviceTeams.Proofs.Distribution
import DeviceTeams.Proofs.Loading

/-!
# The blocks of the teams below one another

The teams' blocks, put below one another in the order of the leads, have the rows of all ranks in
the order of the rows. If these cover a matrix, the stack is the matrix assembled from everything
that the ranks contribute.
-/
namespace DeviceTeams

/-! ## Stacks -/

theorem runningTotals_append (start : Nat) (counts later : List Nat) :
    runningTotals start (counts ++ later) =
    (runningTotals start counts).dropLast ++ runningTotals (start + counts.sum) later := by
  induction counts generalizing start with
  | nil => rfl
  | cons count rest ih =>
    obtain ⟨first, found⟩ := runningTotals_eq_cons (start + count) rest
    have next := ih (start + count)
    rw [found] at next
    rw [List.cons_append, runningTotals, next, runningTotals, found, List.sum_cons, Nat.add_assoc,
      List.dropLast_cons_cons, List.cons_append]

theorem runningTotals_add (base start : Nat) (counts : List Nat) :
    runningTotals (base + start) counts = (runningTotals start counts).map (base + ·) := by
  induction counts generalizing start with
  | nil => rfl
  | cons count rest ih => rw [runningTotals, runningTotals, Nat.add_assoc, ih, List.map_cons]

namespace Csr

variable {T : Type}

/-- The pointers of blocks below one another: those of each block count on from the entries above
it. -/
def pointersFrom (base : Nat) : List (Csr T) → List Nat
  | [] => [base]
  | block :: rest =>
    block.rowPointers.toList.dropLast.map (base + ·) ++ pointersFrom (base + block.nnz) rest

def stack (ncols : Nat) (blocks : List (Csr T)) : Csr T where
  nrows := (blocks.map nrows).sum
  ncols := ncols
  rowPointers := (pointersFrom 0 blocks).toArray
  colIndices := (blocks.flatMap fun block => block.colIndices.toList).toArray
  values := (blocks.flatMap fun block => block.values.toList).toArray

theorem pointersFrom_ofRows (base ncols : Nat) (parts : List (List (List (Nat × T)))) :
    pointersFrom base (parts.map (ofRows ncols)) = runningTotals base
    (parts.flatten.map List.length) := by
  induction parts generalizing base with
  | nil => rfl
  | cons part rest ih =>
    have pointers : (ofRows ncols part).rowPointers.toList = runningTotals 0
      (part.map List.length) := rfl
    rw [List.map_cons, pointersFrom, ih, pointers, nnz, size_values_ofRows,
      List.flatten_cons, List.map_append,
      runningTotals_append, List.map_dropLast, ← runningTotals_add, Nat.add_zero]

/-- Blocks of rows below one another are the block of all their rows. -/
theorem stack_ofRows (ncols : Nat) (parts : List (List (List (Nat × T)))) :
    stack ncols (parts.map (ofRows ncols)) = ofRows ncols parts.flatten := by
  rw [stack, pointersFrom_ofRows, ofRows, List.map_map, List.flatMap_map, List.flatMap_map,
    List.length_flatten]
  congr 2
  · induction parts with
    | nil => rfl
    | cons part rest ih =>
      rw [List.flatMap_cons, ih, List.flatten_cons, List.flatten_append, List.map_append, ofRows]
  · induction parts with
    | nil => rfl
    | cons part rest ih =>
      rw [List.flatMap_cons, ih, List.flatten_cons, List.flatten_append, List.map_append, ofRows]

end Csr

/-! ## Rows of sums below one another -/

section Sums

variable {S : Type} [Scalar S] {triplets : List (Triplet S)}

theorem Assembles.append {start : Nat} {rows rows' : List (List (Nat × S))}
    (first : Assembles triplets start rows)
    (second : Assembles triplets (start + rows.length) rows') :
    Assembles triplets start (rows ++ rows') := by
  intro place entries found
  rw [List.getElem?_append] at found
  split at found
  · exact first place entries found
  · next after =>
    have here := second _ entries found
    rwa [Nat.add_assoc, Nat.add_sub_cancel' (Nat.not_lt.mp after)] at here

theorem assembles_flatten {order : List Nat} {rows : Nat → List (List (Nat × S))} {base : Nat}
    (each : ∀ place rank, order[place]? = some rank →
      Assembles triplets (base + ((order.take place).map fun rank => (rows rank).length).sum)
      (rows rank)) :
    Assembles triplets base (order.map rows).flatten := by
  induction order generalizing base with
  | nil => exact fun _ _ found => nomatch found
  | cons first rest ih =>
    rw [List.map_cons, List.flatten_cons]
    refine (each 0 first rfl).append (ih fun place rank found => ?_)
    have here := each (place + 1) rank found
    rwa [List.take_succ_cons, List.map_cons, List.sum_cons, ← Nat.add_assoc] at here

/-- In a row that only one rank contributes to, the sums of all contributions are those of the
rank. -/
theorem sumAt_flatMap {members : List Nat} {triplets : Nat → List (Triplet S)} {rank row : Nat}
    (distinct : members.Nodup) (member : rank ∈ members)
    (others : ∀ other ∈ members, other ≠ rank → ∀ t ∈ triplets other, t.row ≠ row) (column : Nat) :
    sumAt (members.flatMap triplets) row column = sumAt (triplets rank) row column := by
  refine sumAt_congr ?_
  rw [List.filter_flatMap]
  have nothing : ∀ other ∈ members, other ≠ rank →
      ((triplets other).filter fun t => t.At row column) = [] := fun other among differs =>
    List.filter_eq_nil_iff.mpr fun t here at_place =>
      others other among differs t here (of_decide_eq_true at_place).1
  induction members with
  | nil => cases member
  | cons first rest ih =>
    obtain ⟨fresh, distinct⟩ := List.nodup_cons.mp distinct
    rw [List.flatMap_cons]
    by_cases same : first = rank
    · subst same
      have empty : rest.flatMap
        (fun other => (triplets other).filter fun t => t.At row column) = [] :=
        List.flatMap_eq_nil_iff.mpr fun other among =>
          nothing other (List.mem_cons_of_mem _ among) fun same => fresh (same ▸ among)
      rw [empty, List.append_nil]
    · rw [nothing first List.mem_cons_self same, List.nil_append]
      refine ih distinct ((List.mem_cons.mp member).resolve_left fun same' => same same'.symm) ?_ ?_
      · exact fun other among => others other (List.mem_cons_of_mem _ among)
      · exact fun other among => nothing other (List.mem_cons_of_mem _ among)

end Sums

/-! ## The order of the ranks -/

theorem flatMap_found {α β : Type} {items : List α} {f : α → List β} {place : Nat} {b : β}
    (found : (items.flatMap f)[place]? = some b) : ∃ seat item inner, items[seat]? = some item ∧
      (f item)[inner]? = some b ∧ (items.flatMap f).take place = (items.take seat).flatMap f ++
      (f item).take inner := by
  induction items generalizing place with
  | nil => cases found
  | cons first rest ih =>
    rw [List.flatMap_cons] at found ⊢
    rw [List.getElem?_append] at found
    split at found
    · next before =>
      refine ⟨0, first, place, rfl, found, ?_⟩
      rw [List.take_append_of_le_length (Nat.le_of_lt before)]
      rfl
    · next after =>
      obtain ⟨seat, item, inner, at_seat, at_inner, front⟩ := ih found
      refine ⟨seat + 1, item, inner, at_seat, at_inner, ?_⟩
      rw [List.take_append, List.take_of_length_le (Nat.not_lt.mp after), front,
        List.take_succ_cons, List.flatMap_cons, List.append_assoc]

def inOrder (h : Nat → Hierarchy) (members : List Nat) : List Nat :=
  (members.filter fun member => (h member).isLead).flatMap fun lead => (h lead).team.hub.ranks

theorem flatten_teamBlocks {S : Type} {h : Nat → Hierarchy} {rows : Nat → List (List (Nat × S))}
    (members : List Nat) :
    ((members.filter fun member => (h member).isLead).map (teamBlock h rows)).flatten =
      ((inOrder h members).map rows).flatten := by
  rw [inOrder, List.map_flatMap, List.flatMap_def, List.flatten_flatten, List.map_map]
  rfl

variable {A : Finset Nat} {node : Nat → Nat} {G : Nat → Group} {h : Nat → Hierarchy}
  {rank member : Nat} {start count : Nat → Nat} {total : Nat}

namespace Ranked

variable (ranked : Ranked node A G h)
include ranked

/-- Rows that are where they belong follow each other in this order. -/
theorem starts_inOrder (inside : rank ∈ A)
    (tiles : Tiles h (G rank).hub.ranks start count total) {place : Nat}
    (found : (inOrder h (G rank).hub.ranks)[place]? = some member) :
    start member = (((inOrder h (G rank).hub.ranks).take place).map count).sum := by
  obtain ⟨seat, lead, inner, at_seat, at_inner, front⟩ := flatMap_found found
  have among := List.mem_of_getElem? at_seat
  obtain ⟨lead_inside, leads⟩ := Finset.mem_filter.mp (ranked.mem_leads inside among)
  have belongs := List.mem_of_getElem? at_inner
  have own := ranked.leadOf_eq lead_inside belongs
  rw [ranked.leadOf_self lead_inside leads] at own
  obtain ⟨member_inside, meets, sits⟩ := ranked.team.seat lead lead_inside inner member at_inner
  obtain ⟨_, same⟩ := ranked.ranks_eq inside (List.mem_filter.mp among).1
  have group := (ranked.ranks_eq lead_inside (ranked.team_subset lead_inside belongs)).2.trans same
  have starts := tiles.starts member (by rw [← group]; exact ranked.mem member_inside)
  have before := ranked.rowsBefore_eq member_inside count
  rw [group, own, ranked.leads_seat inside at_seat, sits, meets] at before
  rw [starts, before, inOrder, front, List.map_append, List.sum_append, List.map_flatMap,
    List.flatMap_def, List.sum_flatten, List.map_map]
  rfl

/-- Different members have different rows. -/
theorem rows_apart (inside : rank ∈ A)
    (tiles : Tiles h (G rank).hub.ranks start count total) {other : Nat}
    (belongs : member ∈ (G rank).hub.ranks) (belongs' : other ∈ (G rank).hub.ranks)
    (differ : member ≠ other) :
    start member + count member ≤ start other ∨ start other + count other ≤ start member := by
  have order : (inOrder h (G rank).hub.ranks).Perm (G rank).hub.ranks := ranked.teams_perm inside
  obtain ⟨place, found⟩ := List.mem_iff_getElem?.mp (order.mem_iff.mpr belongs)
  obtain ⟨place', found'⟩ := List.mem_iff_getElem?.mp (order.mem_iff.mpr belongs')
  have ordered : ∀ {place place' first second : Nat}, place < place' →
      (inOrder h (G rank).hub.ranks)[place]? = some first →
      (inOrder h (G rank).hub.ranks)[place']? = some second →
      start first + count first ≤ start second := by
    intro place place' first second less found found'
    rw [ranked.starts_inOrder inside tiles found, ranked.starts_inOrder inside tiles found',
      ← sum_map_take_succ found]
    exact ((List.take_sublist_take_left (Nat.succ_le_of_lt less)).map _).sum_le_sum fun _ _ =>
      Nat.zero_le _
  rcases Nat.lt_trichotomy place place' with less | same | greater
  · exact .inl (ordered less found found')
  · subst same
    exact absurd (Option.some.inj (found.symm.trans found')) differ
  · exact .inr (ordered greater found' found)

theorem stop_le (inside : rank ∈ A) (tiles : Tiles h (G rank).hub.ranks start count total)
    (belongs : member ∈ (G rank).hub.ranks) : start member + count member ≤ total := by
  have order : (inOrder h (G rank).hub.ranks).Perm (G rank).hub.ranks := ranked.teams_perm inside
  obtain ⟨place, found⟩ := List.mem_iff_getElem?.mp (order.mem_iff.mpr belongs)
  rw [ranked.starts_inOrder inside tiles found, ← sum_map_take_succ found, ← tiles.total,
    ← (order.map count).sum_eq]
  exact ((List.take_sublist _ _).map _).sum_le_sum fun _ _ => Nat.zero_le _

variable {S : Type} [Scalar S] {rows : Nat → List (List (Nat × S))}
  {triplets : Nat → List (Triplet S)}

/-- In the order of the rows, the rows of the members are the rows of all their contributions. -/
theorem assembles_inOrder (inside : rank ∈ A)
    (tiles : Tiles h (G rank).hub.ranks start (fun member => (rows member).length) total)
    (sums : ∀ member ∈ (G rank).hub.ranks, Assembles (triplets member) (start member) (rows member))
    (own : ∀ member ∈ (G rank).hub.ranks, ∀ t ∈ triplets member,
      start member ≤ t.row ∧ t.row < start member + (rows member).length) :
    Assembles ((G rank).hub.ranks.flatMap triplets) 0
    ((inOrder h (G rank).hub.ranks).map rows).flatten := by
  refine assembles_flatten fun place member found line entries here => ?_
  have belongs := (ranked.teams_perm inside).mem_iff.mp (List.mem_of_getElem? found)
  obtain ⟨bound, _⟩ := List.getElem?_eq_some_iff.mp here
  have begin := ranked.starts_inOrder inside tiles found
  rw [Nat.zero_add, ← begin]
  refine (sums member belongs line entries here).congr fun column => ?_
  refine sumAt_flatMap ?_ belongs (fun other belongs' differs t among same => ?_) column
  · rw [← ranked.global_ranks rank inside]
    exact ranked.global.nodup inside
  · obtain ⟨after, before⟩ := own other belongs' t among
    have apart := ranked.rows_apart inside tiles belongs' belongs differs
    omega

end Ranked
end DeviceTeams
