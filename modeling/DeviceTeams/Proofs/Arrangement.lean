import DeviceTeams.Proofs.RowOrder
import Mathlib.Data.Finset.Card
import Mathlib.Data.List.GetD

/-!
# How the ranks of a world are arranged

The ranks on one node share out its devices. Where they agree on how many there are, deriving the
groups succeeds on every rank: each team is a band of consecutive ranks of one node, no two teams of
a node differ by more than one in size, and the first rank of each team leads it.
-/
namespace DeviceTeams

variable {S : Type} {A : Finset Nat} {node : Nat → Nat} {G : Nat → Group} {h : Nat → Hierarchy}
  {found : Nat → Nat}

/-! ## Ranks with devices -/

/-- Ranks whose groups fit together and that have their devices by their seats on their machines. -/
structure Assigned (node : Nat → Nat) (A : Finset Nat) (G : Nat → Group) (found : Nat → Nat)
    (h : Nat → Hierarchy) :
    Prop where
  ranked : Ranked node A G h
  mates : Together node A fun rank => (h rank).node
  mates_ranks : ∀ rank ∈ A, (h rank).node.hub.ranks =
    (G rank).hub.ranks.filter fun member => machine node member == machine node rank
  named : ∀ rank ∈ A, (h rank).node.nodeName = .ok (h rank).nodeName
  counted : ∀ rank ∈ A, (h rank).deviceCount = found rank
  positive : ∀ rank ∈ A, 0 < found rank
  same : ∀ rank ∈ A, ∀ mate ∈ (h rank).node.hub.ranks, found mate = found rank
  word : ∀ rank ∈ A, (h rank).node.size + 1 < Word.limit
  assigned : ∀ rank ∈ A, Assignment.of (found rank) (h rank).node.size (h rank).node.rank =
    .ok (h rank).assignment

namespace Hierarchy

/-- Ranks on whose machines the devices have been counted and shared out have their devices once the
groups are formed. -/
theorem Divided.assigned {global mates : Nat → Group} (divided : Divided node A G global mates)
    {count : Nat → Group → Attempt Nat}
    (counts : ∀ rank ∈ A, count rank (mates rank) = .ok (found rank))
    (positive : ∀ rank ∈ A, 0 < found rank)
    (same : ∀ rank ∈ A, ∀ mate ∈ (mates rank).hub.ranks, found mate = found rank)
    (word : ∀ rank ∈ A, (mates rank).size + 1 < Word.limit) {p : Nat → Placement}
    (surveys : ∀ rank ∈ A, surveyed (global rank) (mates rank) (count rank) = .ok (p rank))
    (ranked : Ranked node A G h) {solver : Nat → Option Group} {team : Nat → Group}
    (parts : ∀ rank ∈ A, h rank = ofGroups (p rank) (solver rank) (team rank)) :
    Assigned node A G found h := by
  have surveyed := fun rank (inside : rank ∈ A) => surveyed_eq_ok_iff.mp (surveys rank inside)
  have node_eq : ∀ rank ∈ A, (h rank).node = mates rank := fun rank inside =>
    parts rank inside ▸ (surveyed rank inside).2.1
  have counted : ∀ rank ∈ A, (p rank).deviceCount = found rank := fun rank inside =>
    Except.ok.inj ((surveyed rank inside).2.2.2.1.symm.trans (counts rank inside))
  refine ⟨ranked, divided.mates.congr node_eq, ?_, ?_, ?_, positive, ?_, ?_, ?_⟩
  all_goals intro rank inside
  · rw [node_eq rank inside, divided.mates_ranks rank inside]
  · rw [node_eq rank inside, (surveyed rank inside).2.2.1, parts rank inside]
    rfl
  · rw [parts rank inside]
    exact counted rank inside
  · rw [node_eq rank inside]
    exact same rank inside
  · rw [node_eq rank inside]
    exact word rank inside
  · rw [node_eq rank inside, ← counted rank inside, (surveyed rank inside).2.2.2.2,
      parts rank inside]
    rfl

/-- Ranks that count as many devices as there are on their machine derive groups that fit
together. -/
theorem build_succeeds (t : Together node A G) {count : Nat → Group → Attempt Nat}
    (counts : ∀ rank ∈ A, ∀ mates : Group,
      (mates.hub.ranks = (G rank).hub.ranks.filter fun member =>
        machine node member == machine node rank) →
        count rank mates = .ok (found rank))
    (positive : ∀ rank ∈ A, 0 < found rank)
    (same : ∀ rank ∈ A, ∀ other ∈ A, machine node other = machine node rank →
      found other = found rank)
    (few : ∀ rank ∈ A, (G rank).hub.ranks.length ≤ Group.lastColor + 1) :
    Succeeds A (fun rank => (build (G rank) (count rank) : Task S Hierarchy))
    (Assigned node A G found) := by
  refine (divide_succeeds t).bind fun groups divided => ?_
  have counts' : ∀ rank ∈ A, count rank (groups rank).2 = .ok (found rank) := fun rank inside =>
    counts rank inside _ (divided.mates_ranks rank inside)
  have size : ∀ rank ∈ A, (groups rank).2.size ≤ Group.lastColor + 1 := fun rank inside =>
    Nat.le_trans (Group.size_le_of_filter (divided.mates_ranks rank inside)) (few rank inside)
  have word : ∀ rank ∈ A, (groups rank).2.size + 1 < Word.limit := by
    intro rank inside
    have bound := size rank inside
    simp only [Group.lastColor] at bound
    simp only [Word.limit]
    omega
  have alike : ∀ rank ∈ A, ∀ mate ∈ (groups rank).2.hub.ranks, found mate = found rank := by
    intro rank inside mate belongs
    obtain ⟨within, _⟩ := divided.mates.of_mem inside belongs
    rw [divided.mates_ranks rank inside, List.mem_filter, beq_iff_eq] at belongs
    exact same rank inside mate within belongs.2
  obtain ⟨p, p_placed, p_counted, colors, surveys⟩ :=
    surveyed_of_counts divided counts' positive alike word
    fun rank inside => Nat.le_trans (Nat.min_le_right ..) (size rank inside)
  intro rounds
  obtain ⟨rounds', v, reach, h, values, ⟨solver, team, parts, ranked⟩⟩ :=
    form_succeeds (S := S) p_placed p_counted colors rounds
  refine ⟨rounds', v, ?_, h, values, divided.assigned counts' positive alike word
    surveys ranked parts⟩
  refine (survey_followed (f := fun _ => Task.following form) (reach.congr (fun rank inside => ?_)
    fun _ _ => rfl)).congr (fun rank _ => Task.run_bind ..) fun _ _ => rfl
  rw [surveys rank inside, Task.following_ok]

end Hierarchy

/-! ## The teams of a machine -/

namespace Assigned

variable (assigned : Assigned node A G found h) {rank mate : Nat}
include assigned

theorem seat_lt (inside : rank ∈ A) : (h rank).node.rank < (h rank).node.size :=
  assigned.mates.rank_lt_size inside

/-- The ranks of a machine have its devices by their seats. -/
theorem mate_device (inside : rank ∈ A) (belongs : mate ∈ (h rank).node.hub.ranks) :
    Assignment.of (found rank) (h rank).node.size (h mate).node.rank = .ok (h mate).assignment ∧
      (h mate).node.rank < (h rank).node.size := by
  obtain ⟨within, meets⟩ := assigned.mates.of_mem inside belongs
  have size : (h mate).node.size = (h rank).node.size := by rw [Group.size, meets]; rfl
  have own := assigned.assigned mate within
  have seat := assigned.seat_lt within
  rw [size] at own seat
  rw [assigned.same rank inside mate belongs] at own
  exact ⟨own, seat⟩

/-- The ranks of a machine with one device are those of its band. -/
theorem mate_device_iff (inside : rank ∈ A)
    (belongs : mate ∈ (h rank).node.hub.ranks) {device : Nat} :
    (h mate).device = device ↔ (Assignment.band (found rank) (h rank).node.size device).start ≤
    (h mate).node.rank ∧
      (h mate).node.rank < (Assignment.band (found rank) (h rank).node.size device).stop := by
  obtain ⟨own, seat⟩ := assigned.mate_device inside belongs
  exact Assignment.device_eq_iff (assigned.positive rank inside) seat
    (assigned.word rank inside) own

/-- The ranks of a team are those of its machine with its device. -/
theorem mem_team (inside : rank ∈ A) : mate ∈ (h rank).team.hub.ranks ↔
    mate ∈ (h rank).node.hub.ranks ∧ (h mate).device = (h rank).device := by
  rw [assigned.ranked.team_ranks rank inside, assigned.mates_ranks rank inside]
  simp only [List.mem_filter, Bool.and_eq_true, beq_iff_eq, and_assoc]

/-- A team is a band of its machine. -/
theorem team_eq_cut (inside : rank ∈ A) : (h rank).team.hub.ranks =
    (Assignment.band (found rank) (h rank).node.size (h rank).device).cut
    (h rank).node.hub.ranks := by
  have places : ∀ place member, (h rank).node.hub.ranks[place]? = some member →
    (h member).node.rank = place :=
    fun place member found => (assigned.mates.seat rank inside place member found).2.2
  have teams := assigned.ranked.team_ranks rank inside
  rw [List.filter_congr fun _ _ => Bool.and_comm .., ← List.filter_filter,
    ← assigned.mates_ranks rank inside] at teams
  rw [teams, ← filter_span_eq_cut places]
  refine List.filter_congr fun mate belongs => ?_
  rw [Bool.eq_iff_iff, beq_iff_eq, assigned.mate_device_iff inside belongs]
  simp only [Bool.and_eq_true, decide_eq_true_eq]

theorem device_lt (inside : rank ∈ A) : (h rank).device < min (found rank) (h rank).node.size := by
  obtain ⟨among, below⟩ :=
    Assignment.device_within (assigned.assigned rank inside) (assigned.word rank inside)
  exact Nat.lt_min.mpr ⟨among, below⟩

theorem stop_le (inside : rank ∈ A) {device : Nat}
    (used : device < min (found rank) (h rank).node.size) :
    (Assignment.band (found rank) (h rank).node.size device).stop ≤
    (h rank).node.hub.ranks.length := by
  have last : Assignment.bandStart (found rank) (h rank).node.size
      (min (found rank) (h rank).node.size) =
      (h rank).node.size := Assignment.bandStart_used (assigned.positive rank inside)
  have before : Assignment.bandStart (found rank) (h rank).node.size (device + 1) ≤
      Assignment.bandStart (found rank) (h rank).node.size (min (found rank) (h rank).node.size) :=
    Assignment.bandStart_mono used
  rw [Hub.length_ranks]
  exact Nat.le_trans before (Nat.le_of_eq last)

/-- A team is as large as its band. -/
theorem team_size (inside : rank ∈ A) :
    (h rank).team.size =
    (Assignment.band (found rank) (h rank).node.size (h rank).device).length := by
  have stop := assigned.stop_le inside (assigned.device_lt inside)
  rw [Group.size_eq, assigned.team_eq_cut inside, Span.cut, List.length_take, List.length_drop,
    Span.length]
  omega

/-- The teams of a machine differ by at most one rank. -/
theorem balanced (inside : rank ∈ A) (belongs : mate ∈ (h rank).node.hub.ranks) :
    (h mate).team.size ≤ (h rank).team.size + 1 := by
  obtain ⟨within, meets⟩ := assigned.mates.of_mem inside belongs
  have size : (h mate).node.size = (h rank).node.size := by rw [Group.size, meets]; rfl
  rw [assigned.team_size inside, assigned.team_size within, size,
    assigned.same rank inside mate belongs]
  exact Assignment.length_band_le

/-- A device in use is used by a rank of the machine. -/
theorem exists_mate (inside : rank ∈ A) {device : Nat}
    (used : device < min (found rank) (h rank).node.size) :
    ∃ mate ∈ (h rank).node.hub.ranks, (h mate).device = device := by
  have positive := Assignment.bandStart_lt used
  have stop := assigned.stop_le inside used
  have within : Assignment.bandStart (found rank) (h rank).node.size device <
    (h rank).node.hub.ranks.length :=
    Nat.lt_of_lt_of_le positive stop
  have first := List.getElem?_eq_getElem within
  have belongs := List.mem_of_getElem? first
  have place := (assigned.mates.seat rank inside _ _ first).2.2
  refine ⟨_, belongs, (assigned.mate_device_iff inside belongs).mpr ?_⟩
  rw [place]
  exact ⟨Nat.le_refl _, positive⟩

/-- The devices in use on a machine are the first ones. -/
theorem devices_eq_range (inside : rank ∈ A) :
    ((h rank).node.hub.ranks.toFinset.image fun mate => (h mate).device) =
      Finset.range (min (found rank) (h rank).node.size) := by
  ext device
  rw [Finset.mem_image, Finset.mem_range]
  constructor
  · rintro ⟨mate, among, rfl⟩
    have belongs := List.mem_toFinset.mp among
    obtain ⟨own, _⟩ := assigned.mate_device inside belongs
    obtain ⟨first, second⟩ := Assignment.device_within own (assigned.word rank inside)
    exact Nat.lt_min.mpr ⟨first, second⟩
  · intro used
    obtain ⟨mate, belongs, device_eq⟩ := assigned.exists_mate inside used
    exact ⟨mate, List.mem_toFinset.mpr belongs, device_eq⟩

/-- The team of a mate is the band of its device among the ranks of the machine. -/
theorem mate_team_eq_cut (inside : rank ∈ A) (belongs : mate ∈ (h rank).node.hub.ranks) :
    (h mate).team.hub.ranks =
      (Assignment.band (found rank) (h rank).node.size (h mate).device).cut
      (h rank).node.hub.ranks := by
  obtain ⟨within, meets⟩ := assigned.mates.of_mem inside belongs
  have size : (h mate).node.size = (h rank).node.size := by rw [Group.size, meets]; rfl
  rw [assigned.team_eq_cut within, meets, size, assigned.same rank inside mate belongs]

/-- There are as many teams on a machine as it has devices or ranks. -/
theorem card_teams (inside : rank ∈ A) :
    ((h rank).node.hub.ranks.toFinset.image fun mate => (h mate).team.hub.ranks).card =
      min (found rank) (h rank).node.size := by
  let members : Nat → List Nat := fun device =>
    (Assignment.band (found rank) (h rank).node.size device).cut (h rank).node.hub.ranks
  have through : ((h rank).node.hub.ranks.toFinset.image fun mate => (h mate).team.hub.ranks) =
      ((h rank).node.hub.ranks.toFinset.image fun mate => (h mate).device).image members := by
    rw [Finset.image_image]
    exact Finset.image_congr fun mate among =>
      assigned.mate_team_eq_cut inside (List.mem_toFinset.mp among)
  -- A rank is in one team only, so that two devices in use have two teams.
  have apart : Set.InjOn members (Finset.range (min (found rank) (h rank).node.size)) := by
    intro device used device' used' same
    obtain ⟨mate, belongs, rfl⟩ := assigned.exists_mate inside (Finset.mem_range.mp used)
    obtain ⟨mate', belongs', rfl⟩ := assigned.exists_mate inside (Finset.mem_range.mp used')
    obtain ⟨within, _⟩ := assigned.mates.of_mem inside belongs
    obtain ⟨within', _⟩ := assigned.mates.of_mem inside belongs'
    have teams : (h mate).team.hub.ranks = (h mate').team.hub.ranks := by
      rw [assigned.mate_team_eq_cut inside belongs, assigned.mate_team_eq_cut inside belongs']
      exact same
    have own := assigned.ranked.team.mem within
    rw [teams] at own
    exact ((assigned.mem_team within').mp own).2
  rw [through, assigned.devices_eq_range inside, Finset.card_image_of_injOn apart,
    Finset.card_range]

end Assigned

/-! ## Whole worlds -/

def onNode (nodes : List Nat) (node : Nat) : List Nat :=
  (List.range nodes.length).filter fun rank => nodes.getD rank 0 == node

/-- The ranks of a world are arranged by their nodes and by the devices that are on these. -/
structure Arranged (nodes : List Nat) (devices : Nat → Nat) (h : Nat → Hierarchy) : Prop where
  global : Together (fun rank => nodes.getD rank 0) (Finset.range nodes.length) fun rank =>
    (h rank).global
  global_ranks : ∀ rank < nodes.length, (h rank).global.hub.ranks = List.range nodes.length
  /-- The nodes are the classes of ranks with one node. -/
  mates : Together (fun rank => nodes.getD rank 0) (Finset.range nodes.length) fun rank =>
    (h rank).node
  mates_ranks : ∀ rank < nodes.length, (h rank).node.hub.ranks = onNode nodes (nodes.getD rank 0)
  named : ∀ rank < nodes.length, (h rank).nodeName = "node" ++ toString (nodes.getD rank 0)
  counted : ∀ rank < nodes.length, (h rank).deviceCount = devices (nodes.getD rank 0)
  /-- The teams are the classes of ranks with one device of one node. -/
  team : Together (fun rank => nodes.getD rank 0) (Finset.range nodes.length) fun rank =>
    (h rank).team
  mem_team : ∀ rank < nodes.length, ∀ mate, mate ∈ (h rank).team.hub.ranks ↔
    mate ∈ onNode nodes (nodes.getD rank 0) ∧ (h mate).device = (h rank).device
  /-- The ranks of a team follow each other on their node. -/
  team_band : ∀ rank < nodes.length, ∃ span : Span,
    (h rank).team.hub.ranks = span.cut (onNode nodes (nodes.getD rank 0))
  ascending : ∀ rank < nodes.length, (h rank).team.hub.ranks.Pairwise (· < ·)
  /-- Every device has a team unless there are more devices than ranks. -/
  teams : ∀ node, (((onNode nodes node).toFinset.image fun rank => (h rank).team.hub.ranks).card =
    min (devices node) (onNode nodes node).length)
  balanced : ∀ rank < nodes.length, ∀ mate < nodes.length, nodes.getD mate 0 = nodes.getD rank 0 →
    (h mate).team.size ≤ (h rank).team.size + 1
  /-- The first rank of a team leads it, and only leads belong to the solver group. -/
  isLead_iff : ∀ rank < nodes.length, (h rank).isLead = true ↔ (h rank).team.rank = 0
  solver_iff : ∀ rank < nodes.length, (h rank).solver.isSome = true ↔ (h rank).isLead = true
  one_lead : ∀ rank < nodes.length, ∃! lead, lead ∈ (h rank).team.hub.ranks ∧ (h lead).isLead = true
  leads : Together (fun rank => nodes.getD rank 0) ((Finset.range nodes.length).filter fun rank =>
    (h rank).isLead)
    fun rank => (h rank).leads
  leads_ranks : ∀ rank < nodes.length, ∀ leads, (h rank).solver = some leads →
    leads = (h rank).leads ∧ leads.hub.ranks = (List.range nodes.length).filter fun rank =>
      (h rank).isLead

theorem mem_onNode {nodes : List Nat} {node rank : Nat} :
    rank ∈ onNode nodes node ↔ rank < nodes.length ∧ nodes.getD rank 0 = node := by
  rw [onNode, List.mem_filter, List.mem_range, beq_iff_eq]

theorem pairwise_onNode (nodes : List Nat) (node : Nat) : (onNode nodes node).Pairwise (· < ·) :=
  List.pairwise_lt_range.filter _

/-- A team has one lead. -/
theorem Ranked.existsUnique_lead (ranked : Ranked node A G h) {rank : Nat} (inside : rank ∈ A) :
    ∃! lead, lead ∈ (h rank).team.hub.ranks ∧ (h lead).isLead = true := by
  refine ⟨leadOf h rank, ⟨ranked.leadOf_mem inside, ranked.isLead_leadOf inside⟩, ?_⟩
  rintro lead ⟨belongs, leads⟩
  obtain ⟨within, _⟩ := ranked.team.of_mem inside belongs
  exact (ranked.leadOf_self within leads).symm.trans (ranked.leadOf_eq inside belongs)

theorem node_mem {nodes : List Nat} {rank : Nat} (below : rank < nodes.length) :
    nodes.getD rank 0 ∈ nodes := by
  rw [List.getD_eq_getElem _ _ below]
  exact List.getElem_mem below

/-- The nodes are told apart as long as their numbers are colors. -/
theorem machine_beq_eq {nodes : List Nat} (colors : ∀ id ∈ nodes, id ≤ Group.lastColor)
    {rank member : Nat} (below : rank < nodes.length) (below' : member < nodes.length) :
    (machine (fun rank => nodes.getD rank 0) member == machine
      (fun rank => nodes.getD rank 0) rank) = (nodes.getD member 0 == nodes.getD rank 0) := by
  have color : ∀ rank < nodes.length, machine (fun rank => nodes.getD rank 0) rank =
    nodes.getD rank 0 :=
    fun rank below => Nat.min_eq_left (colors _ (node_mem below))
  rw [color rank below, color member below']

/-- Leads belong to the solver group, and others do not. -/
theorem Ranked.solver_isSome (ranked : Ranked node A G h) {rank : Nat} (inside : rank ∈ A) :
    (h rank).solver.isSome = true ↔ (h rank).isLead = true := by
  rw [ranked.solver rank inside]
  split <;> simp_all

/-- The solver group consists of the leads among the ranks of the global group. -/
theorem Ranked.of_solver (ranked : Ranked node A G h) {rank : Nat}
    (inside : rank ∈ A) {leads : Group} (present : (h rank).solver = some leads) :
    leads = (h rank).leads ∧ leads.hub.ranks = (G rank).hub.ranks.filter fun rank =>
      (h rank).isLead := by
  rw [ranked.solver rank inside] at present
  by_cases leading : (h rank).isLead
  · rw [if_pos leading, Option.some.injEq] at present
    subst present
    exact ⟨rfl, ranked.leads_ranks rank inside leading⟩
  · rw [if_neg leading] at present
    cases present

namespace Assigned

section World

variable {nodes : List Nat} {devices : Nat → Nat} {rank : Nat}
  (assigned : Assigned (fun rank => nodes.getD rank 0) (Finset.range nodes.length)
    (Group.world nodes) (fun rank => devices (nodes.getD rank 0)) h)
include assigned

theorem nodeName_eq (below : rank < nodes.length) :
    (h rank).nodeName = "node" ++ toString (nodes.getD rank 0) := by
  have inside := Finset.mem_range.mpr below
  have named := assigned.named rank inside
  rw [assigned.mates.nodeName_eq inside] at named
  exact (Except.ok.inj named).symm

variable (colors : ∀ id ∈ nodes, id ≤ Group.lastColor)
include colors

theorem node_ranks (below : rank < nodes.length) :
    (h rank).node.hub.ranks = onNode nodes (nodes.getD rank 0) := by
  rw [assigned.mates_ranks rank (Finset.mem_range.mpr below)]
  exact List.filter_congr fun member among => machine_beq_eq colors below (List.mem_range.mp among)

theorem team_ranks_eq_cut (below : rank < nodes.length) : (h rank).team.hub.ranks =
    (Assignment.band (devices (nodes.getD rank 0)) (h rank).node.size (h rank).device).cut
      (onNode nodes (nodes.getD rank 0)) := by
  rw [assigned.team_eq_cut (Finset.mem_range.mpr below), assigned.node_ranks colors below]

theorem team_ascends (below : rank < nodes.length) : (h rank).team.hub.ranks.Pairwise (· < ·) := by
  rw [assigned.team_ranks_eq_cut colors below]
  exact (pairwise_onNode nodes _).drop.take

/-- A node has as many teams as it has devices or ranks, and none if there is no rank on it. -/
theorem card_teams_onNode (node : Nat) :
    ((onNode nodes node).toFinset.image fun rank => (h rank).team.hub.ranks).card =
      min (devices node) (onNode nodes node).length := by
  by_cases someone : ∃ rank, rank ∈ onNode nodes node
  · obtain ⟨rank, belongs⟩ := someone
    obtain ⟨below, rfl⟩ := mem_onNode.mp belongs
    have card := assigned.card_teams (Finset.mem_range.mpr below)
    rwa [Group.size_eq, assigned.node_ranks colors below] at card
  · have empty : onNode nodes node = [] :=
      List.eq_nil_iff_forall_not_mem.mpr fun rank belongs => someone ⟨rank, belongs⟩
    simp [empty]

theorem balanced_onNode (below : rank < nodes.length) {mate : Nat} (below' : mate < nodes.length)
    (same : nodes.getD mate 0 = nodes.getD rank 0) :
    (h mate).team.size ≤ (h rank).team.size + 1 := by
  refine assigned.balanced (Finset.mem_range.mpr below) ?_
  rw [assigned.node_ranks colors below]
  exact mem_onNode.mpr ⟨below', same⟩

/-- Ranks that find their devices by their nodes are arranged by both. -/
theorem arranged : Arranged nodes devices h where
  global := assigned.ranked.global
  global_ranks rank below := assigned.ranked.global_ranks rank (Finset.mem_range.mpr below)
  mates := assigned.mates
  mates_ranks _ below := assigned.node_ranks colors below
  named _ below := assigned.nodeName_eq below
  counted rank below := assigned.counted rank (Finset.mem_range.mpr below)
  team := assigned.ranked.team
  mem_team rank below mate := by
    rw [assigned.mem_team (Finset.mem_range.mpr below), assigned.node_ranks colors below]
  team_band _ below := ⟨_, assigned.team_ranks_eq_cut colors below⟩
  ascending _ below := assigned.team_ascends colors below
  teams := assigned.card_teams_onNode colors
  balanced _ below _ below' same := assigned.balanced_onNode colors below below' same
  isLead_iff rank below := by
    rw [assigned.ranked.isLead rank (Finset.mem_range.mpr below), beq_iff_eq]
  solver_iff _ below := assigned.ranked.solver_isSome (Finset.mem_range.mpr below)
  one_lead _ below := assigned.ranked.existsUnique_lead (Finset.mem_range.mpr below)
  leads := assigned.ranked.leads
  leads_ranks _ below _ present := assigned.ranked.of_solver (Finset.mem_range.mpr below) present

end World

end Assigned

/-- The ranks of a world derive their groups in any order of their steps, whatever their nodes are:
nodes and teams come out as classes of ranks, the teams of a node as bands of it of nearly one size,
each led by its first rank. -/
theorem Hierarchy.build_arranges (nodes : List Nat) (few : nodes.length < 2 ^ 32)
    (colors : ∀ id ∈ nodes, id < 2 ^ 32) (devices : Nat → Nat)
    (positive : ∀ id ∈ nodes, 0 < devices id) (count : Nat → Group → Attempt Nat)
    (counts : ∀ rank < nodes.length, ∀ mates : Group, mates.hub.ranks = onNode nodes
      (nodes.getD rank 0) →
      count rank mates = .ok (devices (nodes.getD rank 0)))
    {hubs : Hubs S} {rounds : Rounds} (resting : hubs.Resting rounds) :
    ∃ h : Nat → Hierarchy,
      (World.ofPrograms nodes.length
        (fun rank => (Hierarchy.build (Group.world nodes rank) (count rank)).run)
        hubs).EndsWith ((List.range nodes.length).map fun rank => some (.ok (h rank))) ∧
      Arranged nodes devices h := by
  have colors' : ∀ id ∈ nodes, id ≤ Group.lastColor := by
    intro id among
    have bound := colors id among
    simp only [Group.lastColor]
    omega
  have builds : Succeeds (Finset.range nodes.length)
      (fun rank => (Hierarchy.build (Group.world nodes rank) (count rank) : Task S Hierarchy))
      (Assigned (fun rank => nodes.getD rank 0) (Finset.range nodes.length) (Group.world nodes)
        fun rank => devices (nodes.getD rank 0)) := by
    apply Hierarchy.build_succeeds (Together.world nodes)
    · intro rank inside mates ranks
      apply counts rank (Finset.mem_range.mp inside) mates
      rw [ranks, onNode]
      exact List.filter_congr fun member among =>
        machine_beq_eq colors' (Finset.mem_range.mp inside) (List.mem_range.mp among)
    · exact fun rank inside => positive _ (node_mem (Finset.mem_range.mp inside))
    · intro rank inside other inside' same
      have nodes_eq :=
        machine_beq_eq colors' (Finset.mem_range.mp inside) (Finset.mem_range.mp inside')
      rw [same, beq_self_eq_true] at nodes_eq
      rw [beq_iff_eq.mp nodes_eq.symm]
    · intro rank _
      rw [Hub.length_ranks, show (Group.world nodes _).hub.size =
        nodes.length from rfl, Group.lastColor]
      omega
  obtain ⟨v, ⟨h, values, assigned⟩, ends⟩ := Completes.endsWith builds resting
  refine ⟨h, ?_, assigned.arranged colors'⟩
  rwa [List.map_congr_left fun rank among =>
    congrArg some (values rank (Finset.mem_range.mpr (List.mem_range.mp among)))]
    at ends

/-- Four ranks on two nodes, one of them between the others, find two devices on each node. -/
theorem Hierarchy.build_arranges_interleaved : ∃ h : Nat → Hierarchy,
    (World.ofPrograms 4
      (fun rank => (Hierarchy.build (Group.world [0, 1, 0, 0] rank) fun _ => .ok 2).run)
      ([] : Hubs Float)).EndsWith ((List.range 4).map fun rank => some (.ok (h rank))) ∧
    Arranged [0, 1, 0, 0] (fun _ => 2) h :=
  Hierarchy.build_arranges [0, 1, 0, 0] (by decide) (by decide) (fun _ => 2) (by decide)
    (fun _ _ => .ok 2) (fun _ _ _ _ => rfl) Hubs.resting_nil

end DeviceTeams
