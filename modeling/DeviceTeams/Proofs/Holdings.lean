import DeviceTeams.Proofs.Agreement

/-!
# What processes hold

Resources belong to a group in which the process that holds them has a seat of its own, and the
number of leads that they were created for is the size of that group. Nothing that processes do
changes that, as long as instances are initialized by groups whose views fit.
-/
namespace DeviceTeams

variable {S : Type} {A : Finset Nat} {node : Nat → Nat} {rank : Nat}

/-- The resources that a process holds give it its own seat, for as many leads as were recorded. -/
def Context.Seated (rank : Nat) (c : Context) : Prop :=
  ∀ shared, c.shared = some shared →
    shared.resources.leads.hub.ranks[shared.resources.leads.rank]? = some rank ∧
      c.leads = shared.resources.leads.size

namespace Context

variable {c : Context}

theorem Seated.joined (seated : c.Seated rank) : c.joined.Seated rank := by
  intro shared found
  obtain ⟨shared', held, rfl⟩ := Option.map_eq_some_iff.mp found
  exact seated shared' held

theorem Seated.released (seated : c.Seated rank) : c.released.Seated rank := by
  intro shared found
  simp only [Context.released] at found
  split at found
  · cases found
  · obtain ⟨shared', held, rfl⟩ := Option.map_eq_some_iff.mp found
    exact seated shared' held

theorem Seated.leaves {c' : Context} (seated : c.Seated rank) (left : c.Leaves c') :
    c'.Seated rank := by
  cases left with
  | same => exact seated
  | unregistered => exact seated
  | released => exact seated.released
  | closed => exact seated.released

/-- The answer to a request leaves a lead with its own seat. -/
theorem Seated.admitted {c : Nat → Context} {L new : Nat → Group} (seated : (c rank).Seated rank)
    (copied : Copied node A c L new) (inside : rank ∈ A) :
    (Context.admitted c (L rank).hub.ranks (new rank) rank).2.Seated rank := by
  rw [Context.admitted]
  cases admits : admission c (L rank).hub.ranks with
  | reuse => exact seated.joined
  | refuse => exact seated
  | create =>
    intro shared found
    cases found
    refine ⟨copied.together.own rank (Finset.mem_filter.mpr ⟨inside, admits⟩), ?_⟩
    show (L rank).hub.ranks.length = _
    rw [Group.size_eq, copied.ranks rank inside admits]

theorem acquire_waits (leads : Group) (c : Context) : ∃ payload resume,
    (acquire (S := S) leads).start c = .meet leads.hub leads.rank payload resume := ⟨_, _, rfl⟩

end Context

variable [Scalar S] {G : Nat → Group} {calls : Nat → Call} {a : Nat → Attached S}
  {rounds rounds' : Rounds} {v : Nat → Attempt Unit × Attached S}

/-- A lead that can read its settings waits for all leads. -/
theorem Call.opening_waits {call : Call} {hierarchy : Hierarchy} {leads : Group}
    (lead : hierarchy.isLead) (member : hierarchy.solver = some leads) {settings : Settings S}
    (loaded : (call.settings : Attempt (Settings S)) = .ok settings) (a : Attached S) :
    ∃ payload resume,
    (call.opening hierarchy).start a = .meet leads.hub leads.rank payload resume := by
  obtain ⟨payload, resume, meets⟩ := Context.acquire_waits (S := S) leads a.registered.context
  rw [Call.start_opening, Attached.start_openIfLead lead member loaded, meets]
  exact ⟨payload, _, rfl⟩

omit [Scalar S] in
/-- A lead leaves the opening of its instance with its own seat. -/
theorem opened_seated {h : Nat → Hierarchy} {settings : Nat → Settings S} {new : Nat → Group}
    (copied : Copied node (A.filter fun rank => (h rank).isLead) (registeredContexts a)
      (fun rank => (h rank).leads) new)
    (inside : rank ∈ A) (lead : (h rank).isLead) (seated : (a rank).context.Seated rank) :
    (opened a h settings new rank).2.context.Seated rank := by
  have answer := Context.Seated.admitted (c := registeredContexts a)
    (L := fun rank => (h rank).leads) seated copied (Finset.mem_filter.mpr ⟨inside, lead⟩)
  rw [opened, if_pos lead]
  generalize Context.admitted (registeredContexts a) (h rank).leads.hub.ranks
    (new rank) rank = ended at answer
  obtain ⟨outcome, context⟩ := ended
  rcases outcome with (cause | _) | resources
  · exact answer
  · exact answer
  · exact answer

/-- Leads that have come through the opening of their instances have all read their settings, or
none of them has: one that cannot read them stops, and the others wait for all leads. -/
theorem Call.leads_readable {h : Nat → Hierarchy} (shaped : Shaped node A G h)
    (one : ∀ rank ∈ A, ∀ other ∈ A, other ∈ (G rank).hub.ranks)
    (reach : Reaches A rounds (fun rank => ((calls rank).opening (h rank)).start (a rank)) rounds'
      fun rank => .finished (v rank)) :
    (∀ rank ∈ A.filter fun rank => (h rank).isLead, ∃ failure,
      ((calls rank).settings : Attempt (Settings S)) = .error failure) ∨
    ∀ rank ∈ A.filter fun rank => (h rank).isLead, ∃ settings,
      ((calls rank).settings : Attempt (Settings S)) = .ok settings := by
  refine reach.all_or_none (Finset.filter_subset ..) (fun rank among failure found => ?_)
    fun rank among settings found => ?_
  · obtain ⟨inside, lead⟩ := Finset.mem_filter.mp among
    exact ⟨_, Call.start_opening_unreadable lead (shaped.solver_leads inside lead) found (a rank)⟩
  · obtain ⟨inside, lead⟩ := Finset.mem_filter.mp among
    obtain ⟨payload, resume, meets⟩ :=
      Call.opening_waits lead (shaped.solver_leads inside lead) found (a rank)
    refine ⟨_, _, payload, resume, meets, fun other among' => ?_⟩
    obtain ⟨inside', lead'⟩ := Finset.mem_filter.mp among'
    rw [shaped.leads_ranks rank inside lead]
    exact List.mem_filter.mpr ⟨one rank inside other inside', lead'⟩

/-- Opening instances leaves every rank with its own seat. -/
theorem Call.seated_opening {h : Nat → Hierarchy} (shaped : Shaped node A G h)
    (colors : ∀ rank ∈ A, (G rank).hub.ranks.length ≤ Group.lastColor + 1)
    (one : ∀ rank ∈ A, ∀ other ∈ A, other ∈ (G rank).hub.ranks)
    (sound : Sound A fun rank => (a rank).context)
    (seated : ∀ rank ∈ A, (a rank).context.Seated rank)
    (reach : Reaches A rounds (fun rank => ((calls rank).opening (h rank)).start (a rank)) rounds'
      fun rank => .finished (v rank)) : ∀ rank ∈ A, (v rank).2.context.Seated rank := by
  have other_seated : ∀ rank ∈ A, (h rank).isLead = false → (v rank).2.context.Seated rank := by
    intro rank inside other
    rw [reach.value_of_finished inside (Call.start_opening_other other (a rank))]
    exact seated rank inside
  rcases Call.leads_readable shaped one reach with unreadable | loaded
  · intro rank inside
    cases lead : (h rank).isLead with
    | false => exact other_seated rank inside lead
    | true =>
      obtain ⟨failure, found⟩ := unreadable rank (Finset.mem_filter.mpr ⟨inside, lead⟩)
      rw [reach.value_of_finished inside
        (Call.start_opening_unreadable lead (shaped.solver_leads inside lead) found (a rank))]
      cases failure <;> exact seated rank inside
  · have some_settings : Nonempty (Settings S) := ⟨0, Scalar.zero, 0⟩
    choose! settings loaded using loaded
    have word : ∀ rank ∈ A, (G rank).hub.ranks.length < Word.limit := fun rank inside => by
      have few := colors rank inside
      have wide : Group.lastColor + 1 < Word.limit := by decide
      omega
    obtain ⟨w, ⟨new, copied, left⟩, same⟩ :=
      (opening_completes calls shaped (fun rank inside => sound rank inside) word settings
      fun rank inside lead => loaded rank (Finset.mem_filter.mpr ⟨inside, lead⟩)).value reach
    intro rank inside
    cases lead : (h rank).isLead with
    | false => exact other_seated rank inside lead
    | true =>
      rw [same rank inside, left rank inside]
      exact opened_seated copied inside lead (seated rank inside)

namespace Call

theorem entered_or_same (one : ∀ rank ∈ A, ∀ other ∈ A, other ∈ (calls rank).group.hub.ranks)
    (reach : Reaches A rounds (fun rank => ((calls rank).work).start (a rank)) rounds' fun rank =>
      .finished (v rank)) :
    (∀ rank ∈ A, ∃ mode, (calls rank).entry (a rank) = .ok mode) ∨
    ∀ rank ∈ A, (v rank).2 = a rank := by
  refine reach.ok_or_same (fun rank _ failure refuses => (calls rank).start_work_refused refuses) ?_
  intro rank inside mode passes
  obtain ⟨payload, resume, meets⟩ := (calls rank).start_work_waits passes
  exact ⟨_, _, payload, resume, meets, one rank inside⟩

theorem surveyed_or_same {global mates : Nat → Group}
    (divided : Hierarchy.Divided node A G global mates)
    (one : ∀ rank ∈ A, ∀ other ∈ A, other ∈ (G rank).hub.ranks)
    (reach : Reaches A rounds (fun rank => (calls rank).afterSurvey (a rank)
      (Hierarchy.surveyed (global rank) (mates rank) ((calls rank).count (a rank)))) rounds'
      fun rank => .finished (v rank)) :
    (∀ rank ∈ A, ∃ p, Hierarchy.surveyed (global rank) (mates rank)
      ((calls rank).count (a rank)) = .ok p) ∨
      ∀ rank ∈ A, (v rank).2 = a rank := by
  refine reach.ok_or_same (fun rank _ failure refuses => ?_) ?_
  · rw [refuses, afterSurvey_error]
  · intro rank inside p known
    obtain ⟨payload, resume, meets⟩ := (calls rank).afterSurvey_waits (a rank) p
    refine ⟨_, _, payload, resume, known ▸ meets, fun other inside' => ?_⟩
    rw [(Hierarchy.surveyed_eq_ok_iff.mp known).1, divided.global_ranks rank inside]
    exact one rank inside other inside'

/-- Ranks that know their devices have their groups when they open their instances, if all of them
return. -/
theorem formed_of_ends {p : Nat → Hierarchy.Placement} (placed : Hierarchy.Placed node A G p)
    (few : ∀ rank ∈ A, (p rank).assignment.device ≤ Group.lastColor)
    (reach : Reaches A rounds (fun rank => (calls rank).afterSurvey (a rank) (.ok (p rank))) rounds'
      fun rank => .finished (v rank))
    (returned : ∀ rank ∈ A, (v rank).1 ≠ .error .aborted) :
    ∃ (rounds'' : Rounds) (h : Nat → Hierarchy),
      Shaped node A G h ∧
      Reaches A rounds'' (fun rank => ((calls rank).opening (h rank)).start (a rank)) rounds'
        fun rank => .finished (v rank) := by
  obtain ⟨rounds'', w, ⟨solver, team, shaped, values⟩, rest⟩ :=
    (Hierarchy.form_completes (S := S) placed few).rest reach
  have settles : ∀ rank ∈ A, w rank =
      .ok (Hierarchy.ofGroups (p rank) (solver rank) (team rank)) := by
    intro rank inside
    rw [values rank inside, Hierarchy.settled]
    split
    · rfl
    · next breaks =>
      have aborted := rest.value_of_finished inside (by
        rw [values rank inside, Hierarchy.settled, if_neg breaks, Work.following_error])
      exact absurd (congrArg Prod.fst aborted) (returned rank inside)
  exact ⟨rounds'', _, shaped, rest.congr (fun rank inside => by
    rw [settles rank inside, Work.following_ok]) fun _ _ => rfl⟩

/-- Initializing instances leaves every rank with its own seat, if all ranks of the group return. -/
theorem seated (t : Together node A fun rank => (calls rank).group)
    (one : ∀ rank ∈ A, ∀ other ∈ A, other ∈ (calls rank).group.hub.ranks)
    (colors : ∀ rank ∈ A, (calls rank).group.hub.ranks.length ≤ Group.lastColor + 1)
    (sound : Sound A fun rank => (a rank).context)
    (seated : ∀ rank ∈ A, (a rank).context.Seated rank)
    (reach : Reaches A rounds (fun rank => ((calls rank).work).start (a rank)) rounds' fun rank =>
      .finished (v rank))
    (returned : ∀ rank ∈ A, (v rank).1 ≠ .error .aborted) :
    ∀ rank ∈ A, (v rank).2.context.Seated rank := by
  have same_seated : (∀ rank ∈ A, (v rank).2 = a rank) →
    ∀ rank ∈ A, (v rank).2.context.Seated rank :=
    fun same rank inside => same rank inside ▸ seated rank inside
  rcases entered_or_same one reach with entered | same
  · obtain ⟨rounds₁, global, mates, divided, surveys⟩ :=
      reaches_surveyed (S := S) calls t entered rounds
    have second := surveys.rest reach
    rcases surveyed_or_same divided one second with known | same
    · choose! p known using known
      have few : ∀ rank ∈ A, (p rank).assignment.device ≤ Group.lastColor := by
        intro rank inside
        have size := Group.size_le_of_filter (divided.mates_ranks rank inside)
        have wide : Group.lastColor + 2 < Word.limit := by decide
        have bound := colors rank inside
        have below :=
          (Assignment.device_within (Hierarchy.surveyed_eq_ok_iff.mp (known rank inside)).2.2.2.2
          (by omega)).2
        omega
      have third : Reaches A rounds₁
          (fun rank => (calls rank).afterSurvey (a rank) (.ok (p rank))) rounds'
          fun rank => .finished (v rank) :=
        second.congr (fun rank inside => by rw [known rank inside]) fun _ _ => rfl
      obtain ⟨rounds₂, h, shaped, last⟩ := formed_of_ends (divided.placed known) few third returned
      exact seated_opening shaped colors one sound seated last
    · exact same_seated same
  · exact same_seated same

end Call

/-- Whatever processes have done, the resources that they hold give them their own seats. -/
theorem History.seated {n : Nat} {visible : Nat → Nat} {p : Nat → Process S}
    (history : History n visible node p) (few : n ≤ Group.lastColor + 1) (rank : Nat) :
    (p rank).context.Seated rank := by
  induction history generalizing rank with
  | fresh =>
    intro shared found
    cases found
  | @opened p A number calls rounds rounds' v history within t one reach returned ih =>
    have colors : ∀ rank ∈ A, (calls rank).group.hub.ranks.length ≤ Group.lastColor + 1 :=
      fun rank inside => Nat.le_trans (t.length_le within inside) few
    exact Process.after_context (fun rank c => c.Seated rank) ih (Call.seated t one colors
      (fun rank _ => (history.steady rank).running_eq) (fun rank _ => ih rank) reach returned) rank
  | @done p A number deeds rounds rounds' v history reach ih =>
    refine Process.after_context (fun rank c => c.Seated rank) ih (fun rank inside => ?_) rank
    exact (ih rank).leaves (reach.always inside
      ((deeds rank).leaves (a := (p rank).attached (number rank)) (history.steady rank)))

end DeviceTeams
