import DeviceTeams.Proofs.Hierarchies
import DeviceTeams.Proofs.Rows
import Mathlib.Algebra.BigOperators.Group.List.Basic
import Mathlib.Data.List.Perm.Lattice

/-!
# The order of the rows

The rows of a matrix are in the order of the ranks that hold them: by the lead of the team, and
within a team by seat. A rank's rows are where they belong exactly if every team's rows follow each
other and every lead's rows follow those of the teams before it.
-/
namespace DeviceTeams

variable {A : Finset Nat} {node : Nat → Nat} {G : Nat → Group} {h : Nat → Hierarchy}

/-- The first member of a rank's team. -/
def leadOf (h : Nat → Hierarchy) (rank : Nat) : Nat := (h rank).team.hub.ranks.headD rank

/-- The rows of `other` come before those of `rank`. -/
def ComesBefore (h : Nat → Hierarchy) (other rank : Nat) : Prop :=
  (h (leadOf h other)).leads.rank < (h (leadOf h rank)).leads.rank ∨
    ((h (leadOf h other)).leads.rank = (h (leadOf h rank)).leads.rank ∧
      (h other).team.rank < (h rank).team.rank)

instance (h : Nat → Hierarchy) (other rank : Nat) : Decidable (ComesBefore h other rank) :=
  inferInstanceAs (Decidable (_ ∨ _))

def rowsBefore (h : Nat → Hierarchy) (members : List Nat) (count : Nat → Nat) (rank : Nat) : Nat :=
  ((members.filter fun other => ComesBefore h other rank).map count).sum

def teamRows (h : Nat → Hierarchy) (count : Nat → Nat) (lead : Nat) : Nat :=
  ((h lead).team.hub.ranks.map count).sum

/-- The rows of the members cover all rows, each where it belongs. -/
structure Tiles (h : Nat → Hierarchy) (members : List Nat) (start count : Nat → Nat) (total : Nat) :
    Prop where
  starts : ∀ rank ∈ members, start rank = rowsBefore h members count rank
  total : (members.map count).sum = total

theorem Tiles.congr {h : Nat → Hierarchy} {members : List Nat}
    {start count count' : Nat → Nat} {total : Nat} (tiles : Tiles h members start count total)
    (same : ∀ member ∈ members, count' member = count member) :
    Tiles h members start count' total where
  starts rank belongs := by
    rw [tiles.starts rank belongs, rowsBefore, rowsBefore]
    exact congrArg List.sum
      (List.map_congr_left fun other among => (same other (List.mem_filter.mp among).1).symm)
  total := by rw [List.map_congr_left same, tiles.total]

section Places

variable {items : List Nat} {place : Nat → Nat}
  (places : ∀ i item, items[i]? = some item → place item = i)
include places

theorem place_lt_of_mem_take {bound item : Nat} (member : item ∈ items.take bound) :
    place item < bound := by
  obtain ⟨i, within, found⟩ := List.getElem_of_mem member
  rw [List.length_take] at within
  rw [List.getElem_take] at found
  have here := places i item (List.getElem?_eq_some_iff.mpr ⟨by omega, found⟩)
  omega

theorem le_place_of_mem_drop {bound item : Nat} (member : item ∈ items.drop bound) :
    bound ≤ place item := by
  obtain ⟨i, within, found⟩ := List.getElem_of_mem member
  rw [List.length_drop] at within
  rw [List.getElem_drop] at found
  have here := places (bound + i) item (List.getElem?_eq_some_iff.mpr ⟨by omega, found⟩)
  omega

theorem filter_lt_eq_take (bound : Nat) :
    (items.filter fun item => place item < bound) = items.take bound := by
  conv_lhs => rw [← List.take_append_drop bound items]
  rw [List.filter_append]
  have front : (items.take bound).filter (fun item => place item < bound) = items.take bound :=
    List.filter_eq_self.mpr fun item member => decide_eq_true (place_lt_of_mem_take places member)
  have back : (items.drop bound).filter (fun item => place item < bound) = [] :=
    List.filter_eq_nil_iff.mpr fun item member => by simpa using le_place_of_mem_drop places member
  rw [front, back, List.append_nil]

theorem filter_le_eq_drop (bound : Nat) :
    (items.filter fun item => bound ≤ place item) = items.drop bound := by
  conv_lhs => rw [← List.take_append_drop bound items]
  rw [List.filter_append]
  have front : (items.take bound).filter (fun item => bound ≤ place item) = [] :=
    List.filter_eq_nil_iff.mpr fun item member => by simpa using place_lt_of_mem_take places member
  have back : (items.drop bound).filter (fun item => bound ≤ place item) = items.drop bound :=
    List.filter_eq_self.mpr fun item member => decide_eq_true (le_place_of_mem_drop places member)
  rw [front, back, List.nil_append]

/-- The entries at the places of a span. -/
theorem filter_span_eq_cut (span : Span) :
    (items.filter fun item => decide (span.start ≤ place item) && decide (place item < span.stop)) =
    span.cut items := by
  have later : ∀ i item, (items.take span.stop)[i]? = some item → place item = i := by
    intro i item found
    rw [List.getElem?_take] at found
    split at found
    · exact places i item found
    · cases found
  rw [← List.filter_filter, filter_lt_eq_take places, filter_le_eq_drop later, List.drop_take]
  rfl

end Places

theorem sum_map_take_succ {items : List Nat} {place item : Nat} (found : items[place]? = some item)
    (count : Nat → Nat) :
    ((items.take (place + 1)).map count).sum = ((items.take place).map count).sum + count item := by
  rw [List.map_take, List.map_take, sum_take_succ (by rw [List.getElem?_map, found]; rfl)]

/-- Each start follows from the one before it exactly if all starts follow from the first one. -/
theorem isChain_iff_starts {items : List Nat} {start count : Nat → Nat} {first : Nat}
    (head : items[0]? = some first) :
    (items.IsChain fun a b => start b = start a + count a) ↔
    ∀ place item, items[place]? = some item →
      start item = start first + ((items.take place).map count).sum := by
  constructor
  · intro chain place
    induction place with
    | zero =>
      intro item found
      rw [head, Option.some.injEq] at found
      simp [found]
    | succ place ih =>
      intro item found
      obtain ⟨bound, here⟩ := List.getElem?_eq_some_iff.mp found
      have step := List.isChain_iff_getElem.mp chain place bound
      have previous := List.getElem?_eq_getElem (l := items) (Nat.lt_of_succ_lt bound)
      rw [← here, step, ih _ previous, sum_map_take_succ previous, Nat.add_assoc]
  · intro starts
    refine List.isChain_iff_getElem.mpr fun place bound => ?_
    have here := List.getElem?_eq_getElem (l := items) (Nat.lt_of_succ_lt bound)
    rw [starts _ _ here, starts _ _ (List.getElem?_eq_getElem bound),
      sum_map_take_succ here, Nat.add_assoc]

namespace Ranked

variable (ranked : Ranked node A G h) {rank member : Nat}
include ranked

theorem ranks_eq (inside : rank ∈ A) (belongs : member ∈ (G rank).hub.ranks) :
    member ∈ A ∧ (G member).hub.ranks = (G rank).hub.ranks := by
  rw [← ranked.global_ranks rank inside] at belongs
  obtain ⟨inside', meets⟩ := ranked.global.of_mem inside belongs
  refine ⟨inside', ?_⟩
  rw [← ranked.global_ranks member inside', ← ranked.global_ranks rank inside, meets]

/-- Only the places of the ranks themselves matter. -/
theorem congr {h' : Nat → Hierarchy} (same : ∀ rank ∈ A, h' rank = h rank) :
    Ranked node A G h' := by
  have leading : (A.filter fun rank => (h' rank).isLead) = A.filter fun rank => (h rank).isLead :=
    Finset.filter_congr fun rank inside => by rw [same rank inside]
  have members : ∀ rank ∈ A, ∀ member ∈ (G rank).hub.ranks, h' member = h member :=
    fun rank inside member belongs => same member (ranked.ranks_eq inside belongs).1
  constructor
  · constructor
    · exact ranked.global.congr fun rank inside => by rw [same rank inside]
    · exact fun rank inside => by rw [same rank inside, ranked.global_ranks rank inside]
    · exact ranked.team.congr fun rank inside => by rw [same rank inside]
    · intro rank inside
      rw [same rank inside, ranked.team_ranks rank inside]
      exact List.filter_congr fun member belongs => by rw [members rank inside member belongs]
    · exact fun rank inside => by rw [same rank inside, ranked.solver rank inside]
    · rw [leading]
      exact ranked.leads.congr fun rank member => by rw [same rank (Finset.mem_filter.mp member).1]
    · intro rank inside lead
      rw [same rank inside] at lead ⊢
      rw [ranked.leads_ranks rank inside lead]
      exact List.filter_congr fun member belongs => by rw [members rank inside member belongs]
  · exact fun rank inside => by rw [same rank inside, ranked.isLead rank inside]

theorem mem (inside : rank ∈ A) : rank ∈ (G rank).hub.ranks := by
  rw [← ranked.global_ranks rank inside]
  exact ranked.global.mem inside

theorem team_subset (inside : rank ∈ A) (belongs : member ∈ (h rank).team.hub.ranks) :
    member ∈ (G rank).hub.ranks := by
  rw [ranked.team_ranks rank inside] at belongs
  exact (List.mem_filter.mp belongs).1

theorem team_head (inside : rank ∈ A) : (h rank).team.hub.ranks[0]? = some (leadOf h rank) := by
  have some_member := List.ne_nil_of_mem (ranked.team.mem inside)
  rw [leadOf]
  cases found : (h rank).team.hub.ranks with
  | nil => exact absurd found some_member
  | cons first rest => rfl

theorem leadOf_mem (inside : rank ∈ A) : leadOf h rank ∈ (h rank).team.hub.ranks :=
  List.mem_of_getElem? (ranked.team_head inside)

theorem leadOf_inside (inside : rank ∈ A) : leadOf h rank ∈ A :=
  (ranked.team.of_mem inside (ranked.leadOf_mem inside)).1

theorem isLead_leadOf (inside : rank ∈ A) : (h (leadOf h rank)).isLead := by
  rw [ranked.isLead _ (ranked.leadOf_inside inside),
    (ranked.team.seat rank inside 0 _ (ranked.team_head inside)).2.2]
  rfl

theorem leadOf_lead (inside : rank ∈ A) : leadOf h rank ∈ A.filter fun rank => (h rank).isLead :=
  Finset.mem_filter.mpr ⟨ranked.leadOf_inside inside, ranked.isLead_leadOf inside⟩

theorem leadOf_eq (inside : rank ∈ A) (belongs : member ∈ (h rank).team.hub.ranks) :
    leadOf h member = leadOf h rank := by
  obtain ⟨inside', meets⟩ := ranked.team.of_mem inside belongs
  have here := ranked.team_head inside'
  rw [meets, ranked.team_head inside, Option.some.injEq] at here
  exact here.symm

/-- A rank without others on its machine is a lead. -/
theorem isLead_of_alone (inside : rank ∈ A)
    (alone : ∀ other ∈ (G rank).hub.ranks, machine node other = machine node rank → other = rank) :
    (h rank).isLead := by
  have belongs := ranked.leadOf_mem inside
  rw [ranked.team_ranks rank inside, List.mem_filter, Bool.and_eq_true, beq_iff_eq] at belongs
  have same := alone _ belongs.1 belongs.2.1
  exact same ▸ ranked.isLead_leadOf inside

/-- Ranks on machines of their own are leads of one group. -/
theorem alone {ranks : List Nat} (all : ∀ rank ∈ A, (G rank).hub.ranks = ranks)
    (alone : ∀ rank ∈ A, ∀ other ∈ ranks, machine node other = machine node rank → other = rank)
    (within : ∀ rank ∈ ranks, rank ∈ A) :
    (∀ rank ∈ A, (h rank).isLead) ∧ ∀ rank ∈ A, (h rank).leads.hub.ranks = ranks := by
  have leads : ∀ rank ∈ A, (h rank).isLead := fun rank inside =>
    ranked.isLead_of_alone inside fun other belongs =>
      alone rank inside other (all rank inside ▸ belongs)
  refine ⟨leads, fun rank inside => ?_⟩
  rw [ranked.leads_ranks rank inside (leads rank inside), all rank inside]
  exact List.filter_eq_self.mpr fun other belongs => leads other (within other belongs)

/-- A lead is the first member of its own team. -/
theorem leadOf_self (inside : rank ∈ A) (lead : (h rank).isLead) : leadOf h rank = rank := by
  have first : (h rank).team.rank = 0 := by simpa [ranked.isLead rank inside] using lead
  have here := ranked.team.own rank inside
  rw [first, ranked.team_head inside, Option.some.injEq] at here
  exact here

theorem mem_leads (inside : rank ∈ A) {lead : Nat} :
    lead ∈ ((G rank).hub.ranks.filter fun member => (h member).isLead) →
      lead ∈ A.filter fun rank => (h rank).isLead := by
  intro member
  obtain ⟨belongs, leads⟩ := List.mem_filter.mp member
  exact Finset.mem_filter.mpr ⟨(ranked.ranks_eq inside belongs).1, leads⟩

/-- A lead has its seat among the leads. -/
theorem leads_seat (inside : rank ∈ A) {place lead : Nat}
    (found : ((G rank).hub.ranks.filter fun member => (h member).isLead)[place]? = some lead) :
    (h lead).leads.rank = place := by
  have member := ranked.mem_leads inside (List.mem_of_getElem? found)
  obtain ⟨inside', leads⟩ := Finset.mem_filter.mp member
  obtain ⟨belongs, _⟩ := List.mem_filter.mp (List.mem_of_getElem? found)
  have seats := ranked.leads.seat lead member place lead
  rw [ranked.leads_ranks lead inside' leads, (ranked.ranks_eq inside belongs).2] at seats
  exact (seats found).2.2

theorem leads_found (inside : rank ∈ A) :
    ((G rank).hub.ranks.filter fun member => (h member).isLead)[(h (leadOf h rank)).leads.rank]? =
      some (leadOf h rank) := by
  have own := ranked.leads.own _ (ranked.leadOf_lead inside)
  rw [ranked.leads_ranks _ (ranked.leadOf_inside inside) (ranked.isLead_leadOf inside),
    (ranked.ranks_eq inside (ranked.team_subset inside (ranked.leadOf_mem inside))).2] at own
  exact own

/-- The teams make up the group. -/
theorem teams_perm (inside : rank ∈ A) :
    (((G rank).hub.ranks.filter fun member => (h member).isLead).flatMap fun lead =>
      (h lead).team.hub.ranks).Perm
      (G rank).hub.ranks := by
  have distinct : (G rank).hub.ranks.Nodup := by
    rw [← ranked.global_ranks rank inside]
    exact ranked.global.nodup inside
  refine (List.perm_ext_iff_of_nodup
    (List.nodup_flatMap.mpr ⟨fun lead member => ?_, ?_⟩) distinct).mpr
    fun member => ?_
  · exact ranked.team.nodup (Finset.mem_filter.mp (ranked.mem_leads inside member)).1
  · refine (distinct.filter _).imp_of_mem fun first second differ => ?_
    obtain ⟨first_inside, first_leads⟩ := Finset.mem_filter.mp (ranked.mem_leads inside first)
    obtain ⟨second_inside, second_leads⟩ := Finset.mem_filter.mp (ranked.mem_leads inside second)
    refine List.disjoint_left.mpr fun member one other => differ ?_
    rw [← ranked.leadOf_self first_inside first_leads,
      ← ranked.leadOf_self second_inside second_leads,
      ← ranked.leadOf_eq first_inside one, ← ranked.leadOf_eq second_inside other]
  · rw [List.mem_flatMap]
    constructor
    · rintro ⟨lead, among, belongs⟩
      have lead_inside := (Finset.mem_filter.mp (ranked.mem_leads inside among)).1
      rw [← (ranked.ranks_eq inside (List.mem_filter.mp among).1).2]
      exact ranked.team_subset lead_inside belongs
    · intro belongs
      obtain ⟨inside', ranks⟩ := ranked.ranks_eq inside belongs
      refine ⟨leadOf h member, List.mem_filter.mpr ⟨?_, ranked.isLead_leadOf inside'⟩, ?_⟩
      · rw [← ranks]
        exact ranked.team_subset inside' (ranked.leadOf_mem inside')
      · rw [(ranked.team.of_mem inside' (ranked.leadOf_mem inside')).2]
        exact ranked.team.mem inside'

/-- The rows of all teams are the rows of all members. -/
theorem sum_teamRows (inside : rank ∈ A) (count : Nat → Nat) :
    (((G rank).hub.ranks.filter fun member => (h member).isLead).map (teamRows h count)).sum =
      ((G rank).hub.ranks.map count).sum := by
  rw [← ((ranked.teams_perm inside).map count).sum_eq, List.map_flatMap, List.flatMap_def,
    List.sum_flatten, List.map_map]
  rfl

/-- All members of a team whose lead comes before that of a rank come before it. -/
theorem filter_comesBefore_earlier {lead : Nat} (inside : lead ∈ A) (leads : (h lead).isLead)
    (earlier : (h lead).leads.rank < (h (leadOf h rank)).leads.rank) :
    ((h lead).team.hub.ranks.filter fun other => ComesBefore h other rank) =
      (h lead).team.hub.ranks := by
  refine List.filter_eq_self.mpr fun other belongs => decide_eq_true (.inl ?_)
  rwa [ranked.leadOf_eq inside belongs, ranked.leadOf_self inside leads]

/-- No member of a team whose lead comes after that of a rank comes before it. -/
theorem filter_comesBefore_later {lead : Nat} (inside : lead ∈ A) (leads : (h lead).isLead)
    (later : (h (leadOf h rank)).leads.rank < (h lead).leads.rank) :
    ((h lead).team.hub.ranks.filter fun other => ComesBefore h other rank) = [] := by
  refine List.filter_eq_nil_iff.mpr fun other belongs => ?_
  rw [decide_eq_true_eq, ComesBefore, ranked.leadOf_eq inside belongs,
    ranked.leadOf_self inside leads]
  omega

/-- Within its team a rank comes after the members before it. -/
theorem filter_comesBefore_own (inside : rank ∈ A) :
    ((h rank).team.hub.ranks.filter fun other => ComesBefore h other rank) =
      (h rank).team.hub.ranks.take (h rank).team.rank := by
  rw [← filter_lt_eq_take
    (fun place member found => (ranked.team.seat rank inside place member found).2.2)]
  refine List.filter_congr fun other belongs => ?_
  simp only [ComesBefore, ranked.leadOf_eq inside belongs, Nat.lt_irrefl, true_and, false_or]

/-- Before the rows of a rank come those of the teams before its team and those of its team before
it. -/
theorem rowsBefore_eq (inside : rank ∈ A) (count : Nat → Nat) :
    rowsBefore h (G rank).hub.ranks count rank =
    ((((G rank).hub.ranks.filter fun member => (h member).isLead).take
      (h (leadOf h rank)).leads.rank).map (teamRows h count)).sum +
      (((h rank).team.hub.ranks.take (h rank).team.rank).map count).sum := by
  have seats : ∀ place lead, ((G rank).hub.ranks.filter fun member => (h member).isLead)[place]? =
      some lead → (h lead).leads.rank = place := fun _ _ => ranked.leads_seat inside
  have found := ranked.leads_found inside
  have members : ∀ lead ∈ (G rank).hub.ranks.filter fun member => (h member).isLead,
      lead ∈ A ∧ (h lead).isLead := fun lead among =>
    Finset.mem_filter.mp (ranked.mem_leads inside among)
  have order := ((ranked.teams_perm inside).filter fun other => ComesBefore h other rank).map count
  rw [rowsBefore, ← order.sum_eq]
  generalize ((G rank).hub.ranks.filter fun member => (h member).isLead) = leads
    at seats found members
  obtain ⟨within, here⟩ := List.getElem?_eq_some_iff.mp found
  have parts := List.take_append_drop (h (leadOf h rank)).leads.rank leads
  rw [List.drop_eq_getElem_cons within, here] at parts
  have earlier : ∀ lead ∈ leads.take (h (leadOf h rank)).leads.rank,
      ((h lead).team.hub.ranks.filter fun other => ComesBefore h other rank) =
      (h lead).team.hub.ranks := fun lead member =>
    have ⟨inside', leads'⟩ := members lead (List.mem_of_mem_take member)
    ranked.filter_comesBefore_earlier inside' leads' (place_lt_of_mem_take seats member)
  have later : ∀ lead ∈ leads.drop ((h (leadOf h rank)).leads.rank + 1),
      ((h lead).team.hub.ranks.filter fun other => ComesBefore h other rank) = [] :=
    fun lead member => have ⟨inside', leads'⟩ := members lead (List.mem_of_mem_drop member)
    ranked.filter_comesBefore_later inside' leads' (le_place_of_mem_drop seats member)
  have mine : ((h (leadOf h rank)).team.hub.ranks.filter fun other => ComesBefore h other rank) =
      (h rank).team.hub.ranks.take (h rank).team.rank := by
    rw [(ranked.team.of_mem inside (ranked.leadOf_mem inside)).2]
    exact ranked.filter_comesBefore_own inside
  rw [← parts, List.flatMap_append, List.flatMap_cons, List.filter_append, List.filter_append,
    List.filter_flatMap, List.filter_flatMap, List.flatMap_congr earlier, List.flatMap_congr later,
    mine, parts]
  have rows : teamRows h count = fun lead => ((h lead).team.hub.ranks.map count).sum := rfl
  simp [List.flatMap_def, List.sum_flatten, Function.comp_def, rows]

/-- The rows of a group cover all rows, each where it belongs, exactly if the rows of every team
follow each other and every lead's rows follow those of the teams before it. -/
theorem tiles_iff (inside : rank ∈ A) {start count : Nat → Nat} {total : Nat} :
    Tiles h (G rank).hub.ranks start count total ↔
      (∀ member ∈ (G rank).hub.ranks, (h member).team.hub.ranks.IsChain fun a b =>
        start b = start a + count a) ∧
      (∀ lead ∈ (G rank).hub.ranks.filter fun member => (h member).isLead, start lead =
        ((((G rank).hub.ranks.filter fun member => (h member).isLead).take (h lead).leads.rank).map
          (teamRows h count)).sum) ∧
      (((G rank).hub.ranks.filter fun member => (h member).isLead).map (teamRows h count)).sum =
      total := by
  have before : ∀ member ∈ (G rank).hub.ranks, rowsBefore h (G rank).hub.ranks count member =
      ((((G rank).hub.ranks.filter fun member => (h member).isLead).take
        (h (leadOf h member)).leads.rank).map (teamRows h count)).sum +
        (((h member).team.hub.ranks.take (h member).team.rank).map count).sum := by
    intro member belongs
    obtain ⟨inside', ranks⟩ := ranked.ranks_eq inside belongs
    have here := ranked.rowsBefore_eq inside' count
    rwa [ranks] at here
  rw [ranked.sum_teamRows inside]
  constructor
  · rintro ⟨starts, whole⟩
    refine ⟨fun member belongs => ?_, fun lead among => ?_, whole⟩
    · obtain ⟨inside', ranks⟩ := ranked.ranks_eq inside belongs
      have in_team : ∀ place mate, (h member).team.hub.ranks[place]? = some mate → start mate =
          ((((G rank).hub.ranks.filter fun member => (h member).isLead).take
            (h (leadOf h member)).leads.rank).map
            (teamRows h count)).sum + (((h member).team.hub.ranks.take place).map count).sum := by
        intro place mate found
        have among := List.mem_of_getElem? found
        have belongs' := ranks ▸ ranked.team_subset inside' among
        obtain ⟨_, meets, sits⟩ := ranked.team.seat member inside' place mate found
        rw [starts mate belongs', before mate belongs', ranked.leadOf_eq inside' among, meets, sits]
      have head := ranked.team_head inside'
      refine (isChain_iff_starts head).mpr fun place mate found => ?_
      rw [in_team place mate found, in_team 0 _ head]
      simp
    · obtain ⟨belongs, leads⟩ := List.mem_filter.mp among
      obtain ⟨inside', _⟩ := ranked.ranks_eq inside belongs
      have first : (h lead).team.rank = 0 := by simpa [ranked.isLead lead inside'] using leads
      rw [starts lead belongs, before lead belongs, ranked.leadOf_self inside' leads, first]
      simp
  · rintro ⟨chains, leads, whole⟩
    refine ⟨fun member belongs => ?_, whole⟩
    obtain ⟨inside', ranks⟩ := ranked.ranks_eq inside belongs
    have lead_among : leadOf h member ∈ (G rank).hub.ranks.filter fun member => (h member).isLead :=
      List.mem_filter.mpr ⟨ranks ▸ ranked.team_subset inside' (ranked.leadOf_mem inside'),
        ranked.isLead_leadOf inside'⟩
    have along := (isChain_iff_starts (ranked.team_head inside')).mp (chains member belongs)
    rw [along _ member (ranked.team.own member inside'), leads _ lead_among, before member belongs]

end Ranked
end DeviceTeams
