import DeviceTeams.Proofs.Attempts
import DeviceTeams.Proofs.Completion
import DeviceTeams.Ranks.Group
import Mathlib.Data.Finset.Image
import Mathlib.Data.List.Nodup

/-!
# Collective operations

Ranks that hold fitting views of their groups and enter an operation together all come out of it,
each with a value that is computed from what the members of its group brought. The groups may be
many: the rounds of the members of one group do not depend on the others.
-/
namespace DeviceTeams

variable {S α β σ : Type} {A : Finset Nat} {node : Nat → Nat} {G : Nat → Group}

/-! ## Tasks that succeed -/

/-- The tasks of all ranks of `A` succeed, with values as the condition says. -/
def Succeeds (A : Finset Nat) (T : Nat → Task S α) (post : (Nat → α) → Prop) : Prop :=
  Completes A (fun rank => (T rank).run) fun v => ∃ w, (∀ rank ∈ A, v rank = .ok (w rank)) ∧ post w

namespace Succeeds

variable {T T' : Nat → Task S α} {post post' : (Nat → α) → Prop}

theorem mono (h : Succeeds A T post) (weaker : ∀ w, post w → post' w) : Succeeds A T post' :=
  Completes.mono h fun _ ⟨w, values, holds⟩ => ⟨w, values, weaker w holds⟩

theorem congr (h : Succeeds A T post) (same : ∀ rank ∈ A, T' rank = T rank) : Succeeds A T' post :=
  Completes.congr h fun rank member => by rw [same rank member]

theorem ofAttempt {x : Nat → Attempt α} {w : Nat → α} (h : ∀ rank ∈ A, x rank = .ok (w rank))
    (holds : post w) :
    Succeeds A (fun rank => (Task.ofAttempt (x rank) : Task S α)) post :=
  Completes.of_finished (v := x) (fun _ _ => rfl) ⟨w, h, holds⟩

theorem pure {w : Nat → α} (holds : post w) :
    Succeeds A (fun rank => (Pure.pure (w rank) : Task S α)) post :=
  Completes.of_finished (v := fun rank => .ok (w rank)) (fun _ _ => rfl) ⟨w, fun _ _ => rfl, holds⟩

/-- What comes behind tasks that succeed. -/
theorem followed {f : Nat → α → Task S β} {post' : (Nat → Attempt β) → Prop} (h : Succeeds A T post)
    (next : ∀ w, post w → Completes A (fun rank => (f rank (w rank)).run) post') :
    Completes A (fun rank => (T rank >>= f rank).run) post' := by
  have parts := Completes.bind (f := fun rank => Task.following (f rank)) h fun v holds => by
    obtain ⟨w, values, condition⟩ := holds
    exact (next w condition).congr fun rank member => by rw [values rank member, Task.following_ok]
  exact parts.congr fun rank _ => Task.run_bind (T rank) (f rank)

theorem bind {f : Nat → α → Task S β} {post' : (Nat → β) → Prop} (h : Succeeds A T post)
    (next : ∀ w, post w → Succeeds A (fun rank => f rank (w rank)) post') :
    Succeeds A (fun rank => T rank >>= f rank) post' :=
  h.followed next

/-- What comes behind tasks with known values. -/
theorem followed_eq {f : Nat → α → Task S β} {v : Nat → α} {post' : (Nat → Attempt β) → Prop}
    (h : Succeeds A T fun w => ∀ rank ∈ A, w rank = v rank)
    (next : Completes A (fun rank => (f rank (v rank)).run) post') :
    Completes A (fun rank => (T rank >>= f rank).run) post' :=
  h.followed fun w same => next.congr fun rank inside => by rw [same rank inside]

/-- Tasks with known values lead to what comes behind them. -/
theorem reaches {f : Nat → α → Task S β} {v : Nat → α}
    (h : Succeeds A T fun w => ∀ rank ∈ A, w rank = v rank) (rounds : Rounds) :
    ∃ rounds', Reaches A rounds (fun rank => (T rank >>= f rank).run) rounds'
      fun rank => (f rank (v rank)).run := by
  obtain ⟨rounds', outcome, reach, w, values, same⟩ := h rounds
  exact ⟨rounds', (reach.andThen fun rank => Task.following (f rank)).congr
    (fun rank _ => Task.run_bind ..)
    fun rank inside => by rw [values rank inside, same rank inside]; rfl⟩

theorem ofAttempt_followed {x : Nat → Attempt α} {w : Nat → α} {f : Nat → α → Task S β}
    {post' : (Nat → Attempt β) → Prop} (h : ∀ rank ∈ A, x rank = .ok (w rank))
    (next : Completes A (fun rank => (f rank (w rank)).run) post') :
    Completes A (fun rank => (Task.ofAttempt (x rank) >>= f rank).run) post' :=
  followed_eq (.ofAttempt h fun _ _ => rfl) next

/-- The sequence of parts with known values. -/
theorem bind_eq {f : Nat → α → Task S β} {v : Nat → α} {post' : (Nat → β) → Prop}
    (h : Succeeds A T fun w => ∀ rank ∈ A, w rank = v rank)
    (next : Succeeds A (fun rank => f rank (v rank)) post') :
    Succeeds A (fun rank => T rank >>= f rank) post' :=
  h.followed_eq next

theorem ofAttempt_bind {x : Nat → Attempt α} {w : Nat → α} {f : Nat → α → Task S β}
    {post' : (Nat → β) → Prop} (h : ∀ rank ∈ A, x rank = .ok (w rank))
    (next : Succeeds A (fun rank => f rank (w rank)) post') :
    Succeeds A (fun rank => Task.ofAttempt (x rank) >>= f rank) post' :=
  ofAttempt_followed h next

/-- What comes behind tasks that succeed as a part of some work. -/
theorem followedBy {s : Nat → σ} {f : Nat → α → Work S σ β} {post' : (Nat → Attempt β × σ) → Prop}
    (h : Succeeds A T post)
    (next : ∀ w, post w → Completes A (fun rank => (f rank (w rank)).start (s rank)) post') :
    Completes A (fun rank => (Work.ofTask (T rank) >>= f rank).start (s rank)) post' := by
  have parts :=
    Completes.bind (f := fun rank outcome => Work.following (f rank) (outcome, s rank)) h
    fun v holds => by
      obtain ⟨w, values, condition⟩ := holds
      exact (next w condition).congr fun rank member => by
        rw [values rank member, Work.following_ok]
  exact parts.congr fun rank _ => Work.start_ofTask_bind (T rank) (f rank) (s rank)

/-- What comes behind tasks with known values as a part of some work. -/
theorem followedBy_eq {s : Nat → σ} {f : Nat → α → Work S σ β} {v : Nat → α}
    {post' : (Nat → Attempt β × σ) → Prop} (h : Succeeds A T fun w => ∀ rank ∈ A, w rank = v rank)
    (next : Completes A (fun rank => (f rank (v rank)).start (s rank)) post') :
    Completes A (fun rank => (Work.ofTask (T rank) >>= f rank).start (s rank)) post' :=
  h.followedBy fun w same => next.congr fun rank inside => by rw [same rank inside]

/-- If ranks come to their ends through tasks that succeed, they go on from the values of these. -/
theorem rest {k : Nat → Attempt α → Program S β} {rounds rounds' : Rounds} {v : Nat → β}
    (h : Succeeds A T post) (reach : Reaches A rounds (fun rank => (T rank).run >>= k rank) rounds'
      fun rank => .finished (v rank)) :
    ∃ rounds'' w, post w ∧
      Reaches A rounds'' (fun rank => k rank (.ok (w rank))) rounds' fun rank =>
        .finished (v rank) := by
  obtain ⟨rounds'', outcome, ⟨w, values, holds⟩, later⟩ := Completes.rest h reach
  exact ⟨rounds'', w, holds,
    later.congr (fun rank inside => by rw [values rank inside]) fun _ _ => rfl⟩

end Succeeds

/-- Vectors of one length can be added. -/
theorem Group.addVectors_eq [Scalar S] {parts : List (List S)} {length : Nat}
    (lengths : ∀ part ∈ parts, part.length = length) {start : List S}
    (first : start.length = length) :
    Group.addVectors start (parts.map (Payload.many .real)) =
    .ok (parts.foldl (List.zipWith (· + ·)) start) := by
  induction parts generalizing start with
  | nil => rfl
  | cons part rest ih =>
    have here := lengths part List.mem_cons_self
    have next : (List.zipWith (· + ·) start part).length = length := by simp [first, here]
    rw [addVectors, List.map_cons, List.foldlM_cons, Payload.readMany_many, Attempt.ok_bind,
      Attempt.insist_of (decide_eq_true (here.trans first.symm)), Attempt.ok_bind, Attempt.pure_eq,
      Attempt.ok_bind, List.foldl_cons]
    exact ih (fun other member => lengths other (List.mem_cons_of_mem _ member)) next

/-! ## Fitting views -/

theorem Group.size_eq (g : Group) : g.size = g.hub.ranks.length := (Hub.length_ranks g.hub).symm

/-- A group is no larger than one from which its ranks are chosen. -/
theorem Group.size_le_of_filter {g parent : Group} {p : Nat → Bool}
    (ranks : g.hub.ranks = parent.hub.ranks.filter p) :
    g.size ≤ parent.hub.ranks.length := by
  rw [size_eq, ranks]
  exact List.length_filter_le ..

/-- The ranks of `A` hold fitting views of their groups: each of them is a member of its own group
and sits where the group has it, and the other members are in `A` and hold the same meeting
point. -/
structure Together (node : Nat → Nat) (A : Finset Nat) (G : Nat → Group) : Prop where
  own : ∀ rank ∈ A, (G rank).hub.ranks[(G rank).rank]? = some rank
  seat : ∀ rank ∈ A, ∀ place member, (G rank).hub.ranks[place]? = some member →
    member ∈ A ∧ (G member).hub = (G rank).hub ∧ (G member).rank = place
  nodes : ∀ rank ∈ A, (G rank).nodes = (G rank).hub.ranks.map node

namespace Together

theorem world (nodes : List Nat) :
    Together (fun rank => nodes.getD rank 0) (Finset.range nodes.length) (Group.world nodes) where
  own rank below := List.getElem?_range (Finset.mem_range.mp below)
  seat rank below place member found := by
    have inside : place < nodes.length := by
      simpa [Group.world, Hub.ranks] using (List.getElem?_eq_some_iff.mp found).1
    have same : place = member := by simpa [Group.world, Hub.ranks, inside] using found
    subst same
    exact ⟨Finset.mem_range.mpr inside, rfl, rfl⟩
  nodes rank below := by
    refine List.ext_getElem? fun place => ?_
    by_cases inside : place < nodes.length <;> simp [Group.world, Hub.ranks, inside]

theorem congr {H : Nat → Group} (t : Together node A G) (same : ∀ rank ∈ A, H rank = G rank) :
    Together node A H where
  own rank inside := same rank inside ▸ t.own rank inside
  seat rank inside place member found := by
    rw [same rank inside] at found ⊢
    obtain ⟨within, meets, sits⟩ := t.seat rank inside place member found
    rw [same member within]
    exact ⟨within, meets, sits⟩
  nodes rank inside := same rank inside ▸ t.nodes rank inside

/-- Whole groups of ranks fit together without the others. -/
theorem filter_const {p : Nat → Prop} [DecidablePred p] (t : Together node A G)
    (whole : ∀ rank ∈ A, ∀ member ∈ (G rank).hub.ranks, p rank → p member) :
    Together node (A.filter p) G where
  own rank inside := t.own rank (Finset.mem_filter.mp inside).1
  seat rank inside place member found := by
    obtain ⟨within, holds⟩ := Finset.mem_filter.mp inside
    obtain ⟨member_within, meets, sits⟩ := t.seat rank within place member found
    exact ⟨Finset.mem_filter.mpr
      ⟨member_within, whole rank within member (List.mem_of_getElem? found) holds⟩, meets, sits⟩
  nodes rank inside := t.nodes rank (Finset.mem_filter.mp inside).1

variable (t : Together node A G) {rank member : Nat}
include t

theorem mem (inside : rank ∈ A) :
    rank ∈ (G rank).hub.ranks := List.mem_of_getElem? (t.own rank inside)

/-- Who is in a rank's group is in the set and holds the same meeting point. -/
theorem of_mem (inside : rank ∈ A) (belongs : member ∈ (G rank).hub.ranks) :
    member ∈ A ∧ (G member).hub = (G rank).hub := by
  obtain ⟨place, found⟩ := List.mem_iff_getElem?.mp belongs
  obtain ⟨within, same, _⟩ := t.seat rank inside place member found
  exact ⟨within, same⟩

theorem rank_lt (inside : rank ∈ A) : (G rank).rank < (G rank).hub.ranks.length :=
  (List.getElem?_eq_some_iff.mp (t.own rank inside)).1

theorem rank_lt_size (inside : rank ∈ A) : (G rank).rank < (G rank).size := by
  rw [Group.size_eq]
  exact t.rank_lt inside

theorem nodup (inside : rank ∈ A) : (G rank).hub.ranks.Nodup := by
  refine List.nodup_iff_getElem?_ne_getElem?.mpr fun i j before within same => ?_
  have found := List.getElem?_eq_getElem within
  have here := (t.seat rank inside j _ found).2.2
  have there := (t.seat rank inside i _ (same.trans found)).2.2
  omega

theorem idxOf (inside : rank ∈ A) : (G rank).hub.ranks.idxOf rank = (G rank).rank := by
  have found := (t.nodup inside).idxOf_getElem (G rank).rank (t.rank_lt inside)
  rwa [(List.getElem?_eq_some_iff.mp (t.own rank inside)).2] at found

theorem node_eq (inside : rank ∈ A) : (G rank).node = .ok (node rank) := by
  rw [Group.node, t.nodes rank inside, List.getElem?_map, t.own rank inside]
  rfl

theorem nodeName_eq (inside : rank ∈ A) :
    (G rank).nodeName = .ok ("node" ++ toString (node rank)) := by
  rw [Group.nodeName, t.node_eq inside]
  rfl

/-- A group has no more members than the world has ranks. -/
theorem length_le {n : Nat} (within : A ⊆ Finset.range n) (inside : rank ∈ A) :
    (G rank).hub.ranks.length ≤ n := by
  have members : (G rank).hub.ranks ⊆ List.range n := fun other belongs =>
    List.mem_range.mpr (Finset.mem_range.mp (within (t.of_mem inside belongs).1))
  have bound := (List.subperm_of_subset (t.nodup inside) members).length_le
  rwa [List.length_range] at bound

/-- What the members of a group bring, by their seats. -/
theorem map_seat {γ : Type} (value : Nat → γ) (inside : rank ∈ A) :
    ((G rank).hub.ranks.map fun member => value (G member).rank) =
    (List.range (G rank).hub.ranks.length).map value := by
  refine List.ext_getElem (by simp) fun place bound _ => ?_
  rw [List.length_map] at bound
  rw [List.getElem_map, List.getElem_map, List.getElem_range,
    (t.seat rank inside place _ (List.getElem?_eq_getElem bound)).2.2]

/-- A round of all groups: every rank receives what the members of its own group have left. -/
theorem exchange (payload : Nat → Payload S) :
    Succeeds A (fun rank => (G rank).exchange (payload rank)) fun w =>
      ∃ number : Hub → Nat, ∀ rank ∈ A, w rank =
        ⟨number (G rank).hub, (G rank).hub.ranks.map payload⟩ := by
  intro rounds
  let start : Nat → Program S (Attempt (Round (Payload S))) :=
    fun rank => ((G rank).exchange (payload rank)).run
  let round : Nat → Round (Payload S) :=
    fun rank => ⟨rounds (G rank).hub, (G rank).hub.ranks.map payload⟩
  -- The groups meet one after the other.
  have some_groups : ∀ hubs ⊆ A.image fun rank => (G rank).hub, ∃ rounds',
      (∀ hub ∉ hubs, rounds' hub = rounds hub) ∧
      Reaches A rounds start rounds' fun rank =>
        if (G rank).hub ∈ hubs then .finished (.ok (round rank)) else start rank := by
    intro hubs
    induction hubs using Finset.induction_on with
    | empty => exact fun _ => ⟨rounds, fun _ _ => rfl, .refl fun rank _ => by simp⟩
    | @insert hub hubs fresh ih =>
      intro subset
      obtain ⟨first, inside, rfl⟩ := Finset.mem_image.mp (subset (Finset.mem_insert_self ..))
      obtain ⟨rounds', same, reach⟩ := ih fun other among => subset (Finset.mem_insert_of_mem among)
      let here : Stage S (Attempt (Round (Payload S))) := ⟨rounds', fun rank =>
        if (G rank).hub ∈ hubs then .finished (.ok (round rank)) else start rank⟩
      have gathered : here.Gathered (G first).hub payload fun _ round => .finished (.ok round) := by
        intro place member found
        obtain ⟨_, meets, sits⟩ := t.seat first inside place member found
        simp only [here, meets, if_neg fresh, start, Group.exchange, ExceptT.run_mk, sits]
      have some_member : (G first).hub.ranks ≠ [] := List.ne_nil_of_mem (t.mem inside)
      have move : Stage.Move A here _ :=
        .meet some_member (fun member belongs => (t.of_mem inside belongs).1) gathered
      refine ⟨_, fun other outside => ?_, reach.trans ⟨_, .single move, fun rank within => ?_⟩⟩
      · have differ : other ≠ (G first).hub := fun h => outside (h ▸ Finset.mem_insert_self ..)
        show Function.update rounds' _ _ other = _
        rw [Function.update_of_ne differ, same other fun among =>
          outside (Finset.mem_insert_of_mem among)]
      · by_cases belongs : rank ∈ (G first).hub.ranks
        · have meets := (t.of_mem inside belongs).2
          simp only [if_pos belongs, meets, here, round, same _ fresh,
            Finset.mem_insert_self, if_true]
        · have differ : (G rank).hub ≠ (G first).hub := fun h => belongs (h ▸ t.mem within)
          simp only [if_neg belongs, here, Finset.mem_insert, differ, false_or]
  obtain ⟨rounds', _, reach⟩ := some_groups _ (Finset.Subset.refl _)
  refine ⟨rounds', fun rank => .ok (round rank), reach.congr (fun _ _ => rfl)
    fun rank inside => ?_, round,
    fun _ _ => rfl, rounds, fun _ _ => rfl⟩
  exact if_pos (Finset.mem_image_of_mem _ inside)

/-! ## The operations -/

theorem barrier : Succeeds A (fun rank => ((G rank).barrier : Task S Unit)) fun _ => True :=
  (t.exchange fun _ => .signal).bind fun _ _ => .pure trivial

theorem allGather (kind : Element) (value : Nat → kind.Carrier S) :
    Succeeds A (fun rank => (G rank).allGather kind (value rank)) fun w =>
      ∀ rank ∈ A, w rank = (G rank).hub.ranks.map value := by
  refine (t.exchange fun rank => .one kind (value rank)).bind fun round brought => ?_
  obtain ⟨number, brought⟩ := brought
  refine .ofAttempt (w := fun rank => (G rank).hub.ranks.map value)
    (fun rank inside => ?_) fun _ _ => rfl
  rw [brought rank inside]
  exact Attempt.mapM_map_of fun member _ => Payload.readOne_one kind (value member)

theorem sumCounts {count : Nat → Nat}
    (word : ∀ rank ∈ A, ((G rank).hub.ranks.map count).sum < Word.limit) :
    Succeeds A (fun rank => ((G rank).sumCounts (count rank) : Task S Nat)) fun w =>
      ∀ rank ∈ A, w rank = ((G rank).hub.ranks.map count).sum := by
  refine (t.allGather .word64 count).bind fun counts brought => ?_
  refine .ofAttempt (w := fun rank => ((G rank).hub.ranks.map count).sum)
    (fun rank inside => ?_) fun _ _ => rfl
  rw [brought rank inside, Word.foldlM_add (by simpa using word rank inside), Nat.zero_add]

/-- The sum of scalars, in the order of the seats. -/
theorem sum [Scalar S] (value : Nat → S) :
    Succeeds A (fun rank => (G rank).sum (value rank)) fun w =>
      ∀ rank ∈ A, w rank = Scalar.total ((G rank).hub.ranks.map value) :=
  (t.allGather .real value).bind fun values brought =>
    .pure (w := fun rank => Scalar.total (values rank)) fun rank inside =>
      congrArg _ (brought rank inside)

/-- The sum of vectors of one length, in the order of the seats. -/
theorem sumVector [Scalar S] (values : Nat → List S) {length : Nat}
    (same : ∀ rank ∈ A, (values rank).length = length) :
    Succeeds A (fun rank => (G rank).sumVector (values rank)) fun w => ∀ rank ∈ A,
      w rank = ((G rank).hub.ranks.map values).foldl (List.zipWith (· + ·))
      (List.replicate length Scalar.zero) := by
  refine (t.exchange fun rank => .many .real (values rank)).bind fun round brought => ?_
  obtain ⟨number, brought⟩ := brought
  refine .ofAttempt (w := fun rank => ((G rank).hub.ranks.map values).foldl (List.zipWith (· + ·))
    (List.replicate length Scalar.zero)) (fun rank inside => ?_) fun _ _ => rfl
  have blank : ((values rank).map fun _ => Scalar.zero) = List.replicate length
      (Scalar.zero : S) := by
    rw [List.map_const', same rank inside]
  have lengths : ∀ part ∈ (G rank).hub.ranks.map values, part.length = length := by
    rintro part member
    obtain ⟨other, belongs, rfl⟩ := List.mem_map.mp member
    exact same other (t.of_mem inside belongs).1
  have items : (round rank).items = ((G rank).hub.ranks.map values).map (Payload.many .real) := by
    rw [brought rank inside, List.map_map]
    rfl
  rw [items, blank]
  exact Group.addVectors_eq lengths (List.length_replicate ..)

/-- How many members of a group are in a certain state. -/
theorem countRanks {p : Nat → Bool} (word : ∀ rank ∈ A, (G rank).hub.ranks.length < Word.limit) :
    Succeeds A (fun rank => ((G rank).sumCounts (if p rank then 1 else 0) : Task S Nat)) fun w =>
      ∀ rank ∈ A, w rank = (G rank).hub.ranks.countP p := by
  have counts : ∀ members : List Nat, (members.map fun member => if p member then 1 else 0).sum =
      members.countP p := by
    intro members
    induction members with
    | nil => rfl
    | cons first rest ih => rw [List.map_cons, List.sum_cons, ih, List.countP_cons, Nat.add_comm]
  refine (t.sumCounts fun rank inside => ?_).mono fun w sums rank inside =>
    (sums rank inside).trans (counts _)
  rw [counts]
  exact Nat.lt_of_le_of_lt List.countP_le_length (word rank inside)

/-- Everyone receives what the first member of its group brings. -/
theorem broadcast (kind : Element) (values : Nat → List (kind.Carrier S)) {length : Nat}
    (same : ∀ rank ∈ A, (values rank).length = length) :
    Succeeds A (fun rank => (G rank).broadcast kind 0 (values rank)) fun w =>
      ∀ rank ∈ A, ∀ root, (G rank).hub.ranks[0]? = some root → w rank = values root := by
  refine (t.exchange fun rank =>
    .offer kind (if (G rank).rank = 0 then some (values rank) else none)).bind
    fun round brought => ?_
  obtain ⟨number, brought⟩ := brought
  have roots : ∀ rank ∈ A, ∃ root, (G rank).hub.ranks[0]? = some root := fun rank inside =>
    ⟨_, List.getElem?_eq_getElem (Nat.lt_of_le_of_lt (Nat.zero_le _) (t.rank_lt inside))⟩
  let root : Nat → Nat := fun rank => ((G rank).hub.ranks[0]?).getD 0
  have received : ∀ rank ∈ A, (if (G rank).rank = 0 then pure (values rank)
      else Task.ofAttempt (do
        let received ← Group.offeredBy kind 0 (round rank).items
        .insist (received.length = (values rank).length)
        pure received) : Task S (List (kind.Carrier S))) = Task.ofAttempt
          (.ok (values (root rank))) := by
    intro rank inside
    obtain ⟨first, found⟩ := roots rank inside
    obtain ⟨within, _, seat⟩ := t.seat rank inside 0 first found
    have first_eq : root rank = first := by simp only [root, found, Option.getD_some]
    split
    · next own =>
      have here := t.own rank inside
      rw [own, found, Option.some.injEq] at here
      rw [first_eq, here]
      rfl
    · have items : (round rank).items[0]? = some (.offer kind (some (values first))) := by
        rw [brought rank inside, List.getElem?_map, found, Option.map_some, if_pos seat]
      simp only [Group.offeredBy, items, Attempt.ofOption_some, Attempt.ok_bind,
        Payload.readOffer_offer, first_eq]
      rw [Attempt.insist_of (by simp [same first within, same rank inside])]
      rfl
  refine (Succeeds.ofAttempt (x := fun rank => .ok (values (root rank)))
    (w := fun rank => values (root rank)) (fun _ _ => rfl) ?_).congr received
  intro rank inside first found
  simp only [root, found, Option.getD_some]

/-- The first member of a group receives what its members bring, one after the other. -/
theorem gather (kind : Element) (values : Nat → List (kind.Carrier S)) {table : Nat → SegmentTable}
    (counts : ∀ rank ∈ A, (table rank).counts = (G rank).hub.ranks.map fun member =>
      (values member).length)
    (room : ∀ rank ∈ A, (table rank).total * kind.width < 2 ^ 63) :
    Succeeds A (fun rank => (G rank).gather kind (values rank) (table rank)) fun w =>
      ∀ rank ∈ A, w rank = if (G rank).rank = 0
        then some ((G rank).hub.ranks.map values).flatten else none := by
  have announced : ∀ rank ∈ A,
      Attempt.insist ((table rank).counts[(G rank).rank]? = some (values rank).length) =
      .ok () := by
    intro rank inside
    refine Attempt.insist_of ?_
    rw [counts rank inside, List.getElem?_map, t.own rank inside]
    simp
  refine .ofAttempt_bind announced ?_
  refine (t.exchange fun rank => .many kind (values rank)).bind fun round brought => ?_
  obtain ⟨number, brought⟩ := brought
  refine (Succeeds.ofAttempt (x := fun rank => .ok (if (G rank).rank = 0 then
    some ((G rank).hub.ranks.map values).flatten else none)) (fun _ _ => rfl) fun _ _ =>
      rfl).congr fun rank inside => ?_
  split
  · have parts : (round rank).items.mapM (Payload.readMany kind) =
        .ok ((G rank).hub.ranks.map values) := by
      rw [brought rank inside]
      exact Attempt.mapM_map_of fun member _ => Payload.readMany_many kind (values member)
    rw [Word.request_of_lt (room rank inside), Attempt.ok_bind, parts]
    rfl
  · rfl

end Together
end DeviceTeams
