import DeviceTeams.Proofs.Bands
import DeviceTeams.Proofs.Splitting
import DeviceTeams.Teams.Hierarchy

/-!
# The groups of an instance fit together

Deriving the groups of an instance leaves every rank with a copy of its group, with its team, and on
leads with the group of the leads, and all these views fit together. When all ranks come out of it,
every team has exactly one lead and the lead is its first member.
-/
namespace DeviceTeams

variable {S : Type} {A : Finset Nat} {node : Nat → Nat} {G : Nat → Group}

/-- The machine of a rank, as far as colors can tell machines apart. -/
def machine (node : Nat → Nat) (rank : Nat) : Nat := min (node rank) Group.lastColor

def Hierarchy.leads (h : Hierarchy) : Group := h.solver.getD h.global

/-- The groups that are derived from groups `G` when every rank knows its device and whether it
leads. -/
structure Shaped (node : Nat → Nat) (A : Finset Nat) (G : Nat → Group) (h : Nat → Hierarchy) :
    Prop where
  global : Together node A fun rank => (h rank).global
  global_ranks : ∀ rank ∈ A, (h rank).global.hub.ranks = (G rank).hub.ranks
  team : Together node A fun rank => (h rank).team
  team_ranks : ∀ rank ∈ A, (h rank).team.hub.ranks = (G rank).hub.ranks.filter fun member =>
    machine node member == machine node rank && (h member).device == (h rank).device
  solver : ∀ rank ∈ A, (h rank).solver = if (h rank).isLead then some (h rank).leads else none
  leads : Together node (A.filter fun rank => (h rank).isLead) fun rank => (h rank).leads
  leads_ranks : ∀ rank ∈ A, (h rank).isLead → (h rank).leads.hub.ranks =
    (G rank).hub.ranks.filter fun member => (h member).isLead

theorem Shaped.solver_leads {h : Nat → Hierarchy} (shaped : Shaped node A G h) {rank : Nat}
    (inside : rank ∈ A) (lead : (h rank).isLead) : (h rank).solver = some (h rank).leads :=
  (shaped.solver rank inside).trans (if_pos lead)

/-- The groups of ranks that have initialized an instance together: the first member of each team is
its lead. -/
structure Ranked (node : Nat → Nat) (A : Finset Nat) (G : Nat → Group) (h : Nat → Hierarchy) : Prop
    extends Shaped node A G h where
  isLead : ∀ rank ∈ A, (h rank).isLead = ((h rank).team.rank == 0)

namespace Hierarchy

/-- The copies that ranks have of their groups `G`, and the groups of the ranks on their
machines. -/
structure Divided (node : Nat → Nat) (A : Finset Nat) (G copies sharing : Nat → Group) : Prop where
  global : Together node A copies
  global_ranks : ∀ rank ∈ A, (copies rank).hub.ranks = (G rank).hub.ranks
  mates : Together node A sharing
  mates_ranks : ∀ rank ∈ A, (sharing rank).hub.ranks = (G rank).hub.ranks.filter fun member =>
    machine node member == machine node rank

structure Placed (node : Nat → Nat) (A : Finset Nat) (G : Nat → Group) (p : Nat → Placement) :
    Prop where
  global : Together node A fun rank => (p rank).global
  global_ranks : ∀ rank ∈ A, (p rank).global.hub.ranks = (G rank).hub.ranks
  mates : Together node A fun rank => (p rank).node
  mates_ranks : ∀ rank ∈ A, (p rank).node.hub.ranks = (G rank).hub.ranks.filter fun member =>
    machine node member == machine node rank

def ofGroups (p : Placement) (solver : Option Group) (team : Group) : Hierarchy where
  global := p.global
  node := p.node
  team := team
  solver := solver
  assignment := p.assignment
  nodeName := p.nodeName
  deviceCount := p.deviceCount

/-- The last step of forming the groups, in which a rank gives up if it leads a team without being
its first member or the other way around. -/
def settled (h : Hierarchy) : Attempt Hierarchy :=
  if (h.team.rank == 0) = h.isLead then .ok h else .error .aborted

theorem settled_eq_ok_iff {p : Placement} {solver : Option Group} {team : Group} {h : Hierarchy} :
    (ofGroups p solver team).settled = .ok h ↔
      ((team.rank == 0) = p.assignment.isLead) ∧ h = ofGroups p solver team := by
  rw [settled]
  by_cases fits : ((ofGroups p solver team).team.rank == 0) = (ofGroups p solver team).isLead
  · rw [if_pos fits, Except.ok.injEq, eq_comm]
    exact (and_iff_right fits).symm
  · rw [if_neg fits]
    constructor
    · intro wrong
      cases wrong
    · intro wrong
      exact absurd wrong.1 fits

theorem divide_succeeds (t : Together node A G) :
    Succeeds A (fun rank => (divide (G rank) : Task S (Group × Group))) fun w =>
      Divided node A G (fun rank => (w rank).1) fun rank => (w rank).2 := by
  refine t.duplicate.succeeds.bind fun global copied => ?_
  obtain ⟨global_together, global_ranks⟩ := copied
  refine global_together.splitByNode.bind fun mates split => ?_
  obtain ⟨mates_together, mates_ranks⟩ := split
  refine .pure ⟨global_together, fun rank inside => (global_ranks rank inside).1, mates_together,
    fun rank inside => ?_⟩
  refine (mates_ranks rank inside).trans ?_
  rw [(global_ranks rank inside).1]
  rfl

theorem joinLeads_succeeds {p : Nat → Placement} (placed : Placed node A G p) :
    Succeeds A (fun rank => (joinLeads (p rank) : Task S (Option Group))) fun w =>
      ∃ leads : Nat → Group, Together node (A.filter fun rank => (p rank).assignment.isLead) leads ∧
        (∀ rank ∈ A, w rank = if (p rank).assignment.isLead then some (leads rank) else none) ∧
        ∀ rank ∈ A, (p rank).assignment.isLead →
          (leads rank).hub.ranks = (G rank).hub.ranks.filter fun member =>
            (p member).assignment.isLead := by
  refine placed.global.barrier.bind fun _ _ => ?_
  refine (placed.global.split_off fun rank => (p rank).assignment.isLead).mono
    fun solver split => ?_
  obtain ⟨leads, together, parts, ranks⟩ := split
  refine ⟨leads, together, parts, fun rank inside lead => ?_⟩
  rw [ranks rank inside lead, placed.global_ranks rank inside]

def joined (p : Placement) (solver : Option Group) (found : Option Group) : Task S Hierarchy :=
  match found with
  | none => throw (TopologyError.noTeamGroup : Failure)
  | some team => do
    Task.ofAttempt (.insist ((team.rank == 0) == p.assignment.isLead))
    pure (ofGroups p solver team)

/-- With all devices in the range of colors every rank comes to its team. -/
theorem joinTeam_completes {p : Nat → Placement} (placed : Placed node A G p)
    (colors : ∀ rank ∈ A, (p rank).assignment.device ≤ Group.lastColor)
    (solver : Nat → Option Group) :
    Completes A (fun rank => (joinTeam (p rank) (solver rank) : Task S Hierarchy).run) fun v =>
      ∃ team : Nat → Group, Together node A team ∧
        (∀ rank ∈ A, (team rank).hub.ranks = (G rank).hub.ranks.filter fun member =>
          machine node member == machine node rank &&
            (p member).assignment.device == (p rank).assignment.device) ∧
        ∀ rank ∈ A, v rank = (ofGroups (p rank) (solver rank) (team rank)).settled := by
  have colored : ∀ rank ∈ A, ¬ Group.lastColor < (p rank).assignment.device :=
    fun rank inside => Nat.not_lt.mpr (colors rank inside)
  refine ((placed.mates.split_colors fun rank => (p rank).assignment.device).succeeds.followed
    (f := fun rank => joined (p rank) (solver rank)) fun found split => ?_).congr
    fun rank inside => ?_
  · obtain ⟨team, together, parts, ranks⟩ := split
    refine .of_finished (v := fun rank => (ofGroups (p rank) (solver rank) (team rank)).settled)
      (fun rank inside => ?_) ⟨team, together, fun rank inside => ?_, fun _ _ => rfl⟩
    · rw [parts rank inside]
      simp only [joined, Task.run_ofAttempt_bind]
      by_cases fits : ((team rank).rank == 0) = (p rank).assignment.isLead
      · rw [Attempt.insist_of (by simpa using fits), settled, if_pos (by exact fits)]
        rfl
      · rw [Attempt.insist_of_not (by simpa using fits), settled, if_neg (by exact fits)]
        rfl
    · rw [ranks rank inside, placed.mates_ranks rank inside, List.filter_filter]
      exact List.filter_congr fun member _ => Bool.and_comm ..
  · rw [joinTeam, if_neg (colored rank inside)]
    rfl

/-- The groups that ranks have joined fit together. -/
theorem shaped_of_parts {p : Nat → Placement} (placed : Placed node A G p)
    {solver : Nat → Option Group} {leads team : Nat → Group}
    (leads_together : Together node (A.filter fun rank => (p rank).assignment.isLead) leads)
    (leads_parts : ∀ rank ∈ A, solver rank = if (p rank).assignment.isLead
      then some (leads rank) else none)
    (leads_ranks : ∀ rank ∈ A, (p rank).assignment.isLead →
      (leads rank).hub.ranks = (G rank).hub.ranks.filter fun member => (p member).assignment.isLead)
    (team_together : Together node A team)
    (team_ranks : ∀ rank ∈ A, (team rank).hub.ranks = (G rank).hub.ranks.filter fun member =>
      machine node member == machine node rank && (p member).assignment.device ==
        (p rank).assignment.device) :
    Shaped node A G fun rank => ofGroups (p rank) (solver rank) (team rank) := by
  have own : ∀ rank ∈ A, (p rank).assignment.isLead →
      (ofGroups (p rank) (solver rank) (team rank)).leads = leads rank := by
    intro rank inside lead
    simp only [Hierarchy.leads, ofGroups, leads_parts rank inside, if_pos lead, Option.getD_some]
  constructor
  · exact placed.global
  · exact placed.global_ranks
  · exact team_together
  · exact team_ranks
  · intro rank inside
    by_cases lead : (p rank).assignment.isLead
    · simp only [ofGroups, isLead, lead, if_true, leads_parts rank inside, Hierarchy.leads,
        Option.getD_some]
    · simp only [ofGroups, isLead, leads_parts rank inside, if_neg lead]
  · refine leads_together.congr fun rank member => ?_
    obtain ⟨inside, lead⟩ := Finset.mem_filter.mp member
    exact own rank inside lead
  · intro rank inside lead
    rw [own rank inside lead, leads_ranks rank inside lead]
    rfl

def surveyed (global node : Group) (countDevices : Group → Attempt Nat) : Attempt Placement := do
  let nodeName ← node.nodeName
  let deviceCount ← countDevices node
  let assignment ← Assignment.of deviceCount node.size node.rank
  pure { global, node, nodeName, deviceCount, assignment }

theorem surveyed_eq_ok_iff {global mates : Group} {count : Group → Attempt Nat} {p : Placement} :
    surveyed global mates count = .ok p ↔ p.global = global ∧ p.node = mates ∧
    mates.nodeName = .ok p.nodeName ∧
      count mates = .ok p.deviceCount ∧ Assignment.of p.deviceCount mates.size mates.rank =
      .ok p.assignment := by
  simp only [surveyed, Attempt.bind_eq_ok_iff, Attempt.pure_eq, Except.ok.injEq]
  constructor
  · rintro ⟨name, named, devices, counted, assignment, assigned, rfl⟩
    exact ⟨rfl, rfl, named, counted, assigned⟩
  · rintro ⟨rfl, rfl, named, counted, assigned⟩
    exact ⟨_, named, _, counted, _, assigned, rfl⟩

/-- Surveys place ranks in the groups that they have come to. -/
theorem Divided.placed {global mates : Nat → Group} (divided : Divided node A G global mates)
    {count : Nat → Group → Attempt Nat} {p : Nat → Placement}
    (surveys : ∀ rank ∈ A, surveyed (global rank) (mates rank) (count rank) = .ok (p rank)) :
    Placed node A G p := by
  have parts := fun rank (inside : rank ∈ A) => surveyed_eq_ok_iff.mp (surveys rank inside)
  constructor
  · exact divided.global.congr fun rank inside => (parts rank inside).1
  · intro rank inside
    rw [(parts rank inside).1, divided.global_ranks rank inside]
  · exact divided.mates.congr fun rank inside => (parts rank inside).2.1
  · intro rank inside
    rw [(parts rank inside).2.1, divided.mates_ranks rank inside]

instance : Inhabited Placement := ⟨⟨⟨0, .world 0, []⟩, ⟨0, .world 0, []⟩, "", 0, ⟨0, false⟩⟩⟩

/-- A survey is the rank's own business, apart from the devices in excess that it reports. -/
theorem run_survey (global node : Group) (countDevices : Group → Attempt Nat) :
    (survey global node countDevices : Task S Placement).run =
    .finished (surveyed global node countDevices) ∨
      ∃ event, (survey global node countDevices : Task S Placement).run =
        .report event (.finished (surveyed global node countDevices)) := by
  rw [survey, surveyed, Task.run_ofAttempt_bind]
  cases node.nodeName with
  | error failure => exact .inl rfl
  | ok name =>
    rw [Task.following_ok, Task.run_ofAttempt_bind, Attempt.ok_bind]
    cases countDevices node with
    | error failure => exact .inl rfl
    | ok count =>
      rw [Task.following_ok, Attempt.ok_bind]
      by_cases excess : node.size < count
      · refine .inr ⟨excessDevices name count node.size, ?_⟩
        rw [if_pos excess]
        cases Assignment.of count node.size node.rank <;> rfl
      · refine .inl ?_
        rw [if_neg excess]
        cases Assignment.of count node.size node.rank <;> rfl

/-- What comes behind surveys depends on their outcomes only. -/
theorem survey_followed {α : Type} {global mates : Nat → Group} {count : Nat → Group → Attempt Nat}
    {f : Nat → Attempt Placement → Program S α} {rounds rounds' : Rounds} {Q : Nat → Program S α}
    (h : Reaches A rounds
      (fun rank => f rank (surveyed (global rank) (mates rank) (count rank))) rounds' Q) :
    Reaches A rounds (fun rank =>
      (survey (global rank) (mates rank) (count rank) : Task S Placement).run >>=
        f rank) rounds' Q := by
  refine (Reaches.reports fun rank _ => ?_).trans h
  rcases run_survey (S := S) (global rank) (mates rank) (count rank) with same | ⟨event, same⟩
  · exact .inl (by rw [same]; rfl)
  · exact .inr ⟨event, by rw [same]; rfl⟩

/-- Later members of a group have later seats. -/
theorem pairwise_rank (t : Together node A G) {rank : Nat} (inside : rank ∈ A) :
    (G rank).hub.ranks.Pairwise fun a b => (G a).rank < (G b).rank := by
  refine List.pairwise_iff_getElem.mpr fun i j within within' before => ?_
  have first := (t.seat rank inside i _ (List.getElem?_eq_getElem within)).2.2
  have second := (t.seat rank inside j _ (List.getElem?_eq_getElem within')).2.2
  omega

/-- A rank is the first of its team exactly if no rank before it on its node has the same device. -/
theorem first_iff {p : Nat → Placement} (placed : Placed node A G p) {team : Nat → Group}
    (together : Together node A team)
    (ranks : ∀ rank ∈ A, (team rank).hub.ranks = (G rank).hub.ranks.filter fun member =>
      machine node member == machine node rank && (p member).assignment.device ==
        (p rank).assignment.device)
    {rank : Nat} (inside : rank ∈ A) :
    (team rank).rank = 0 ↔ ∀ earlier ∈ (p rank).node.hub.ranks, (p earlier).node.rank <
    (p rank).node.rank →
      (p earlier).assignment.device ≠ (p rank).assignment.device := by
  have members : (team rank).hub.ranks = (p rank).node.hub.ranks.filter fun member =>
      (p member).assignment.device == (p rank).assignment.device := by
    rw [ranks rank inside, placed.mates_ranks rank inside, List.filter_filter]
    exact List.filter_congr fun member _ => Bool.and_comm ..
  have order : (team rank).hub.ranks.Pairwise fun a b => (p a).node.rank < (p b).node.rank :=
    members ▸ (pairwise_rank placed.mates inside).filter _
  have here := together.own rank inside
  obtain ⟨within, found⟩ := List.getElem?_eq_some_iff.mp here
  have positive : 0 < (team rank).hub.ranks.length := by omega
  constructor
  · intro first earlier belongs before same
    have member : earlier ∈ (team rank).hub.ranks :=
      members ▸ List.mem_filter.mpr ⟨belongs, by simpa using same⟩
    obtain ⟨place, within', found'⟩ := List.getElem_of_mem member
    rcases Nat.eq_zero_or_pos place with zero | later
    · subst zero
      simp only [first] at found
      rw [← found, found'] at before
      exact Nat.lt_irrefl _ before
    · have after := List.pairwise_iff_getElem.mp order 0 place positive within' later
      simp only [first] at found
      rw [found, found'] at after
      omega
  · intro none
    by_contra later
    have before := List.pairwise_iff_getElem.mp order 0 (team rank).rank positive within (by omega)
    have member := List.getElem_mem positive
    rw [found] at before
    generalize (team rank).hub.ranks[0] = first at before member
    rw [members, List.mem_filter] at member
    exact none first member.1 before (by simpa using member.2)

structure Counted (A : Finset Nat) (p : Nat → Placement) : Prop where
  same : ∀ rank ∈ A, ∀ member ∈ (p rank).node.hub.ranks, (p member).deviceCount =
    (p rank).deviceCount
  positive : ∀ rank ∈ A, 0 < (p rank).deviceCount
  assigned : ∀ rank ∈ A,
    Assignment.of (p rank).deviceCount (p rank).node.size (p rank).node.rank =
    .ok (p rank).assignment
  word : ∀ rank ∈ A, (p rank).node.size + 1 < Word.limit

/-- Where the ranks of every machine count the same devices, exactly the first member of each team
leads it. -/
theorem isLead_of_counted {p : Nat → Placement} (placed : Placed node A G p) (counted : Counted A p)
    {team : Nat → Group} (together : Together node A team)
    (ranks : ∀ rank ∈ A, (team rank).hub.ranks = (G rank).hub.ranks.filter fun member =>
      machine node member == machine node rank && (p member).assignment.device ==
        (p rank).assignment.device)
    {rank : Nat} (inside : rank ∈ A) : ((team rank).rank == 0) = (p rank).assignment.isLead := by
  have seat : (p rank).node.rank < (p rank).node.size := placed.mates.rank_lt_size inside
  have leads := Assignment.isLead_iff (counted.positive rank inside) seat (counted.word rank inside)
    (counted.assigned rank inside)
  rw [Bool.eq_iff_iff, beq_iff_eq, first_iff placed together ranks inside, leads]
  constructor
  · intro none earlier before b assigned
    have within : earlier < (p rank).node.hub.ranks.length := by
      rw [Hub.length_ranks]
      exact Nat.lt_trans before seat
    have found := List.getElem?_eq_getElem within
    generalize (p rank).node.hub.ranks[earlier] = member at found
    obtain ⟨inside', meets, sits⟩ := placed.mates.seat rank inside earlier member found
    have own := counted.assigned member inside'
    have size : (p member).node.size = (p rank).node.size := by rw [Group.size, meets]; rfl
    rw [counted.same rank inside member (List.mem_of_getElem? found), size, sits, assigned] at own
    cases own
    exact none member (List.mem_of_getElem? found) (by rw [sits]; exact before)
  · intro none earlier belongs before
    obtain ⟨inside', meets⟩ := placed.mates.of_mem inside belongs
    have own := counted.assigned earlier inside'
    have size : (p earlier).node.size = (p rank).node.size := by rw [Group.size, meets]; rfl
    rw [counted.same rank inside earlier belongs, size] at own
    exact none _ before _ own

/-- A rank that counts devices on its machine knows its own one after the survey. -/
theorem exists_surveyed {mates : Nat → Group} (together : Together node A mates) {rank : Nat}
    (inside : rank ∈ A) {count : Group → Attempt Nat} {devices : Nat}
    (counts : count (mates rank) = .ok devices) (positive : 0 < devices)
    (word : (mates rank).size + 1 < Word.limit) (global : Group) :
    ∃ p, surveyed global (mates rank) count = .ok p ∧ p.deviceCount = devices ∧
      p.assignment.device < min devices (mates rank).size := by
  have seat : (mates rank).rank < (mates rank).size := together.rank_lt_size inside
  obtain ⟨device, offset, assigned, below, below', _⟩ := Assignment.of_spec positive seat word
  refine ⟨⟨global, mates rank, "node" ++ toString (node rank), devices, ⟨device, offset == 0⟩⟩,
    surveyed_eq_ok_iff.mpr ⟨rfl, rfl, ?_, counts, assigned⟩, rfl, Nat.lt_min.mpr ⟨below, below'⟩⟩
  exact together.nodeName_eq inside

/-- Ranks that count the same devices on every machine know their devices after the survey. -/
theorem surveyed_of_counts {global mates : Nat → Group} (divided : Divided node A G global mates)
    {count : Nat → Group → Attempt Nat} {devices : Nat → Nat}
    (counts : ∀ rank ∈ A, count rank (mates rank) = .ok (devices rank))
    (positive : ∀ rank ∈ A, 0 < devices rank)
    (same : ∀ rank ∈ A, ∀ member ∈ (mates rank).hub.ranks, devices member = devices rank)
    (word : ∀ rank ∈ A, (mates rank).size + 1 < Word.limit)
    (few : ∀ rank ∈ A, min (devices rank) (mates rank).size ≤ Group.lastColor + 1) :
    ∃ p, Placed node A G p ∧ Counted A p ∧
      (∀ rank ∈ A, (p rank).assignment.device ≤ Group.lastColor) ∧
      ∀ rank ∈ A, surveyed (global rank) (mates rank) (count rank) = .ok (p rank) := by
  choose! p surveys devices_eq below using fun rank (inside : rank ∈ A) =>
    exists_surveyed divided.mates inside (counts rank inside) (positive rank inside)
      (word rank inside) (global rank)
  have colors : ∀ rank ∈ A, (p rank).assignment.device ≤ Group.lastColor := by
    intro rank inside
    have bound := few rank inside
    have device := below rank inside
    omega
  have parts := fun rank (inside : rank ∈ A) => surveyed_eq_ok_iff.mp (surveys rank inside)
  have placed : Placed node A G p := divided.placed surveys
  refine ⟨p, placed, ⟨?_, ?_, ?_, ?_⟩, colors, surveys⟩
  · intro rank inside member belongs
    obtain ⟨inside', _⟩ := placed.mates.of_mem inside belongs
    rw [(parts rank inside).2.1] at belongs
    rw [devices_eq member inside', devices_eq rank inside, same rank inside member belongs]
  · intro rank inside
    rw [devices_eq rank inside]
    exact positive rank inside
  · intro rank inside
    rw [(parts rank inside).2.1]
    exact (parts rank inside).2.2.2.2
  · intro rank inside
    rw [(parts rank inside).2.1]
    exact word rank inside

def form (p : Placement) : Task S Hierarchy := do
  joinTeam p (← joinLeads p)

theorem build_eq (group : Group) (count : Group → Attempt Nat) :
    (build group count : Task S Hierarchy) =
    divide group >>= fun groups => survey groups.1 groups.2 count >>= form := rfl

/-- With all devices in the range of colors the groups fit that ranks come to. -/
theorem form_completes {p : Nat → Placement} (placed : Placed node A G p)
    (colors : ∀ rank ∈ A, (p rank).assignment.device ≤ Group.lastColor) :
    Completes A (fun rank => (form (p rank) : Task S Hierarchy).run) fun v =>
      ∃ (solver : Nat → Option Group) (team : Nat → Group),
      Shaped node A G (fun rank => ofGroups (p rank) (solver rank) (team rank)) ∧
      ∀ rank ∈ A, v rank = (ofGroups (p rank) (solver rank) (team rank)).settled := by
  refine (joinLeads_succeeds placed).followed fun solver joined => ?_
  obtain ⟨leads, leads_together, leads_parts, leads_ranks⟩ := joined
  refine (joinTeam_completes placed colors solver).mono fun v joined => ?_
  obtain ⟨team, together, ranks, values⟩ := joined
  exact ⟨solver, team, shaped_of_parts placed leads_together leads_parts leads_ranks together ranks,
    values⟩

/-- Ranks that count the same devices on every machine come to fitting groups. -/
theorem form_succeeds {p : Nat → Placement} (placed : Placed node A G p) (counted : Counted A p)
    (colors : ∀ rank ∈ A, (p rank).assignment.device ≤ Group.lastColor) :
    Succeeds A (fun rank => (form (p rank) : Task S Hierarchy)) fun h =>
      ∃ (solver : Nat → Option Group) (team : Nat → Group),
      (∀ rank ∈ A, h rank = ofGroups (p rank) (solver rank) (team rank)) ∧ Ranked node A G h := by
  refine (form_completes placed colors).mono fun v formed => ?_
  obtain ⟨solver, team, shaped, values⟩ := formed
  have leads : ∀ rank ∈ A, ((team rank).rank == 0) = (p rank).assignment.isLead :=
    fun rank inside => isLead_of_counted placed counted shaped.team shaped.team_ranks inside
  refine ⟨fun rank => ofGroups (p rank) (solver rank) (team rank),
    fun rank inside => ?_, solver, team,
    fun _ _ => rfl, shaped, fun rank inside => (leads rank inside).symm⟩
  rw [values rank inside]
  exact settled_eq_ok_iff.mpr ⟨leads rank inside, rfl⟩

/-- What comes behind `k` ends differently from `v` where a task has failed before. -/
def Rejects {α β : Type} (A : Finset Nat) (k : Nat → Attempt α → Program S β) (v : Nat → β) :
    Prop :=
  ∀ rank ∈ A, ∀ failure, ∃ u, k rank (.error failure) = .finished u ∧ u ≠ v rank

theorem Rejects.ok {α β : Type} {k : Nat → Attempt α → Program S β} {v : Nat → β}
    (rejects : Rejects A k v) {rounds rounds' : Rounds} {x : Nat → Attempt α}
    (reach : Reaches A rounds (fun rank => k rank (x rank)) rounds' fun rank => .finished (v rank))
    {rank : Nat} (inside : rank ∈ A) : ∃ value, x rank = .ok value := by
  cases found : x rank with
  | ok value => exact ⟨value, rfl⟩
  | error failure =>
    obtain ⟨u, ends, differs⟩ := rejects rank inside failure
    have same := reach.value_of_finished inside (by simp only [found]; exact ends)
    exact absurd same.symm differs

/-- Work that goes on after a task does not succeed where the task has failed. -/
theorem rejects_following {α β σ : Type} {f : Nat → α → Work S σ β} {a : Nat → σ}
    {v : Nat → Attempt β × σ} (succeeded : ∀ rank ∈ A, ∃ value, (v rank).1 = .ok value) :
    Rejects A (fun rank outcome => Work.following (f rank) (outcome, a rank)) v := by
  intro rank inside failure
  refine ⟨_, rfl, fun same => ?_⟩
  obtain ⟨value, success⟩ := succeeded rank inside
  rw [← same] at success
  cases success

/-- Where forming the groups has brought all ranks to a good end, the groups fit. -/
theorem form_rest {β : Type} {p : Nat → Placement} (placed : Placed node A G p)
    {k : Nat → Attempt Hierarchy → Program S β} {v : Nat → β} (rejects : Rejects A k v)
    {rounds rounds' : Rounds} (reach : Reaches A rounds
      (fun rank => (form (p rank) : Task S Hierarchy).run >>= k rank) rounds'
      fun rank => .finished (v rank)) :
    ∃ (rounds'' : Rounds) (solver : Nat → Option Group) (team : Nat → Group),
      Ranked node A G (fun rank => ofGroups (p rank) (solver rank) (team rank)) ∧
      Reaches A rounds''
      (fun rank => k rank (.ok (ofGroups (p rank) (solver rank) (team rank)))) rounds'
        fun rank => .finished (v rank) := by
  have first : Reaches A rounds (fun rank => (joinLeads (p rank) : Task S (Option Group)).run >>=
      fun outcome => Task.following (joinTeam (p rank)) outcome >>= k rank) rounds' fun rank =>
        .finished (v rank) :=
    reach.congr (fun rank _ => by rw [form, Task.run_bind, bind_assoc]) fun _ _ => rfl
  obtain ⟨rounds₁, solver, ⟨leads, leads_together, leads_parts, leads_ranks⟩, second⟩ :=
    (joinLeads_succeeds (S := S) placed).rest first
  have colors : ∀ rank ∈ A, (p rank).assignment.device ≤ Group.lastColor := by
    intro rank inside
    by_contra outside
    obtain ⟨u, ends, differs⟩ :=
      rejects rank inside (TopologyError.deviceTooLarge (p rank).assignment.device)
    have given_up : (joinTeam (p rank) (solver rank) : Task S Hierarchy).run >>=
        k rank = .finished u := by
      rw [joinTeam, if_pos (Nat.lt_of_not_le outside)]
      exact ends
    exact differs (second.value_of_finished inside given_up).symm
  obtain ⟨rounds₂, outcome', ⟨team, together, ranks, values⟩, third⟩ :=
    (joinTeam_completes placed colors solver).rest second
  have settled_all : ∀ rank ∈ A, outcome' rank = .ok (ofGroups (p rank) (solver rank) (team rank)) ∧
      ((team rank).rank == 0) = (p rank).assignment.isLead := by
    intro rank inside
    obtain ⟨value, ok⟩ := rejects.ok third inside
    rw [values rank inside] at ok ⊢
    obtain ⟨fits, rfl⟩ := settled_eq_ok_iff.mp ok
    exact ⟨ok, fits⟩
  refine ⟨rounds₂, solver, team, ⟨?_, ?_⟩, ?_⟩
  · exact shaped_of_parts placed leads_together leads_parts leads_ranks together ranks
  · exact fun rank inside => (settled_all rank inside).2.symm
  · exact third.congr (fun rank inside => by rw [(settled_all rank inside).1]) fun _ _ => rfl

structure Housed (node : Nat → Nat) (A : Finset Nat) (G : Nat → Group)
    (count : Nat → Group → Attempt Nat) (h : Nat → Hierarchy) : Prop where
  mates : Together node A fun rank => (h rank).node
  mates_ranks : ∀ rank ∈ A, (h rank).node.hub.ranks = (G rank).hub.ranks.filter fun member =>
    machine node member == machine node rank
  named : ∀ rank ∈ A, (h rank).node.nodeName = .ok (h rank).nodeName
  counts : ∀ rank ∈ A, count rank (h rank).node = .ok (h rank).deviceCount
  assigned : ∀ rank ∈ A,
    Assignment.of (h rank).deviceCount (h rank).node.size (h rank).node.rank =
    .ok (h rank).assignment

/-- Where deriving the groups has brought all ranks to a good end, the groups fit, and every rank
has the device that is due to it. -/
theorem build_rest {β : Type} (t : Together node A G) {count : Nat → Group → Attempt Nat}
    {k : Nat → Attempt Hierarchy → Program S β} {v : Nat → β} (rejects : Rejects A k v)
    {rounds rounds' : Rounds} (reach : Reaches A rounds
      (fun rank => (build (G rank) (count rank) : Task S Hierarchy).run >>= k rank) rounds'
      fun rank => .finished (v rank)) :
    ∃ rounds'' h, Ranked node A G h ∧ Housed node A G count h ∧
      Reaches A rounds'' (fun rank => k rank (.ok (h rank))) rounds' fun rank =>
        .finished (v rank) := by
  have first : Reaches A rounds
      (fun rank => (divide (G rank) : Task S (Group × Group)).run >>= fun outcome =>
      Task.following (fun groups => survey groups.1 groups.2 (count rank) >>= form) outcome >>=
        k rank) rounds'
      fun rank => .finished (v rank) :=
    reach.congr (fun rank _ => by rw [build_eq, Task.run_bind, bind_assoc]) fun _ _ => rfl
  obtain ⟨rounds₁, groups, divided, second⟩ := (divide_succeeds (S := S) t).rest first
  have second : Reaches A rounds₁ (fun rank =>
      (survey (groups rank).1 (groups rank).2 (count rank) : Task S Placement).run >>=
        fun outcome =>
          Task.following form outcome >>= k rank) rounds' fun rank => .finished (v rank) :=
    second.congr (fun rank _ => by rw [Task.following_ok, Task.run_bind, bind_assoc]) fun _ _ => rfl
  have third := Reaches.rest (survey_followed (.refl fun _ _ => rfl)) second
  have later : Rejects A (fun rank outcome => Task.following form outcome >>= k rank) v := rejects
  choose! p surveys using fun rank (inside : rank ∈ A) => later.ok third inside
  have placed : Placed node A G p := divided.placed surveys
  have fourth : Reaches A rounds₁
      (fun rank => (form (p rank) : Task S Hierarchy).run >>= k rank) rounds'
      fun rank => .finished (v rank) :=
    third.congr (fun rank inside => by rw [surveys rank inside, Task.following_ok]) fun _ _ => rfl
  obtain ⟨rounds₂, solver, team, ranked, last⟩ := form_rest placed rejects fourth
  refine ⟨rounds₂, _, ranked, ⟨placed.mates, placed.mates_ranks, ?_, ?_, ?_⟩, last⟩
  all_goals
    intro rank inside
    obtain ⟨_, mates_eq, named, counted, assigned⟩ := surveyed_eq_ok_iff.mp (surveys rank inside)
  · rw [← mates_eq] at named
    exact named
  · rw [← mates_eq] at counted
    exact counted
  · rw [← mates_eq] at assigned
    exact assigned

end Hierarchy
end DeviceTeams
