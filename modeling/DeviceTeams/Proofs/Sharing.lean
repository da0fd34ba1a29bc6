import DeviceTeams.Engine.Context
import DeviceTeams.Proofs.Splitting

/-!
# Who shares resources

The leads of an instance all reuse the resources that they hold, or all of them open new ones, or
all of them are refused. Which of these it is depends on how many of them hold resources and for how
many leads these were created.
-/
namespace DeviceTeams

variable {S : Type} {A : Finset Nat} {node : Nat → Nat} {L : Nat → Group} {c : Nat → Context}

inductive Admission where
  | reuse
  | create
  | refuse
deriving DecidableEq, Repr

def admission (c : Nat → Context) (leads : List Nat) : Admission :=
  if leads.all fun lead => (c lead).shared.isSome && (c lead).leads == leads.length then .reuse
  else if leads.all fun lead => (c lead).shared.isNone then .create
  else .refuse

def holders (c : Nat → Context) (leads : List Nat) : Nat :=
  leads.countP fun lead => (c lead).shared.isSome

/-- How many of the leads hold resources for another number of leads. -/
def resized (c : Nat → Context) (leads : List Nat) : Nat :=
  leads.countP fun lead => (c lead).shared.isSome && (c lead).leads != leads.length

namespace Context

/-- One more instance uses the resources that are there. -/
def joined (c : Context) : Context :=
  { c with
    users := c.users + 1
    shared := c.shared.map fun shared => { shared with references := shared.references + 1 } }

def opened (c : Context) (resources : Resources) (leads : Nat) : Context :=
  { c with
    engine := { c.engine with running := true, startups := c.engine.startups + 1 }
    shared := some ⟨resources, 1⟩
    leads := leads
    users := 1 }

/-- The outcome of a request for resources, where `new` is a copy of the group of the leads. -/
def admitted (c : Nat → Context) (leads : List Nat) (new : Group) (rank : Nat) :
    Attempt Resources × Context :=
  match admission c leads with
  | .reuse => ((Attempt.ofOption (c rank).shared).map (·.resources), (c rank).joined)
  | .create => (.ok ⟨new⟩, (c rank).opened ⟨new⟩ leads.length)
  | .refuse => (.error (TopologyError.layoutMismatch (holders c leads) leads.length), c rank)

end Context

/-- The engine of every rank runs if and only if the rank holds resources. -/
def Sound (A : Finset Nat) (c : Nat → Context) : Prop :=
  ∀ rank ∈ A, (c rank).engine.running = (c rank).shared.isSome

theorem admission_eq_reuse_iff {leads : List Nat} : admission c leads = .reuse ↔
    ∀ lead ∈ leads, (c lead).shared.isSome ∧ (c lead).leads = leads.length := by
  rw [admission]
  split
  · next all => simpa using all
  · next some_other =>
    refine ⟨fun wrong => ?_, fun all => absurd (by simpa using all) some_other⟩
    split at wrong <;> cases wrong

theorem admission_eq_create_iff {leads : List Nat} (some_lead : leads ≠ []) :
    admission c leads = .create ↔
    ∀ lead ∈ leads, (c lead).shared = none := by
  rw [admission]
  split
  · next all =>
    constructor
    · intro wrong
      cases wrong
    · intro none
      obtain ⟨lead, member⟩ := List.exists_mem_of_ne_nil _ some_lead
      have holds := List.all_eq_true.mp all lead member
      simp [none lead member] at holds
  · split
    · next all => simpa using all
    · next some_other =>
      constructor
      · intro wrong
        cases wrong
      · intro none
        exact absurd (by simpa using none) some_other

theorem admission_eq_refuse_iff {leads : List Nat} : admission c leads = .refuse ↔
    (∃ lead ∈ leads, (c lead).shared.isSome → (c lead).leads ≠ leads.length) ∧
      ∃ lead ∈ leads, (c lead).shared.isSome := by
  rw [admission]
  split
  · next all =>
    constructor
    · intro wrong
      cases wrong
    · rintro ⟨⟨lead, member, differs⟩, _⟩
      have holds := List.all_eq_true.mp all lead member
      simp only [Bool.and_eq_true, beq_iff_eq] at holds
      exact absurd holds.2 (differs holds.1)
  · next some_other =>
    obtain ⟨lead, member, differs⟩ : ∃ lead ∈ leads, (c lead).shared.isSome →
        (c lead).leads ≠ leads.length := by
      simpa using some_other
    split
    · next none =>
      constructor
      · intro wrong
        cases wrong
      · rintro ⟨_, holder, belongs, holds⟩
        have free := List.all_eq_true.mp none holder belongs
        simp only [Option.isNone_iff_eq_none] at free
        simp [free] at holds
    · next some_holder =>
      have found : ∃ lead ∈ leads, (c lead).shared.isSome := by
        simpa [Option.isSome_iff_ne_none] using some_holder
      exact ⟨fun _ => ⟨⟨lead, member, differs⟩, found⟩, fun _ => rfl⟩

/-- The checks of a request, in terms of the counts that the leads exchange. -/
theorem refused_iff {leads : List Nat} :
    (0 < resized c leads ∨ (0 < holders c leads ∧ holders c leads ≠ leads.length)) ↔
    admission c leads = .refuse := by
  have all_hold : holders c leads = leads.length ↔ ∀ lead ∈ leads, (c lead).shared.isSome := by
    rw [holders, List.countP_eq_length]
  have some_hold : 0 < holders c leads ↔ ∃ lead ∈ leads, (c lead).shared.isSome := by
    rw [holders, List.countP_pos_iff]
  rw [admission_eq_refuse_iff, ne_eq, all_hold, some_hold, resized, List.countP_pos_iff]
  simp only [Bool.and_eq_true, bne_iff_ne]
  constructor
  · rintro (⟨lead, member, holds, differs⟩ | ⟨found, some_other⟩)
    · exact ⟨⟨lead, member, fun _ => differs⟩, lead, member, holds⟩
    · simp only [not_forall] at some_other
      obtain ⟨lead, member, free⟩ := some_other
      exact ⟨⟨lead, member, fun holds => absurd holds free⟩, found⟩
  · rintro ⟨⟨lead, member, differs⟩, found⟩
    by_cases holds : (c lead).shared.isSome
    · exact .inl ⟨lead, member, holds, differs holds⟩
    · exact .inr ⟨found, fun all => holds (all lead member)⟩

/-- `new` are copies of the groups of those leads that open new resources. -/
structure Copied (node : Nat → Nat) (A : Finset Nat) (c : Nat → Context) (L new : Nat → Group) :
    Prop where
  together : Together node (A.filter fun rank => admission c (L rank).hub.ranks = .create) new
  ranks : ∀ rank ∈ A, admission c (L rank).hub.ranks = .create →
    (new rank).hub.ranks = (L rank).hub.ranks

theorem Through.outcome {α : Type} {shapes : List Payload.Shape} {T : Nat → Task S α}
    {post : (Nat → α) → Prop} (h : Through A L shapes T post) :
    Through A L shapes (fun rank => (T rank).outcome) fun w =>
      ∃ u, (∀ rank ∈ A, w rank = .ok (u rank)) ∧ post u := by
  have ends : Traced A L (fun rank => (T rank).run >>= fun outcome => .finished (.ok outcome))
      fun entered (v : Nat → Attempt (Attempt α)) => entered = shapes ∧
        ∃ w : Nat → Attempt α, (∀ rank ∈ A, v rank = .ok (w rank)) ∧
          ∃ u, (∀ rank ∈ A, w rank = .ok (u rank)) ∧ post u :=
    Traced.bind h fun entered v ⟨same, holds⟩ =>
      .of_finished (v := fun rank => .ok (v rank)) (fun _ _ => rfl)
      ⟨(List.append_nil entered).trans same, v, fun _ _ => rfl, holds⟩
  exact ends.congr fun rank _ => map_eq_pure_bind ..

/-- Resources of running engines hold copies of the group of the leads that ask for them. -/
theorem Together.createResources (t : Together node A L) {e : Nat → Engine}
    (running : ∀ rank ∈ A, (e rank).running = true) :
    Through A L [.choice, .meetingPoint]
    (fun rank => ((e rank).createResources (L rank) : Task S Resources)) fun w =>
      Together node A (fun rank => (w rank).leads) ∧ ∀ rank ∈ A, (w rank).leads.hub.ranks =
        (L rank).hub.ranks ∧
        (w rank).leads.hub ≠ (L rank).hub := by
  show Through A L ([.choice, .meetingPoint] ++ []) _ _
  refine (t.duplicate.bind (f := fun _ new => (pure ⟨new⟩ : Task S Resources)) fun new copied =>
    .ofAttempt (w := fun rank => Resources.mk (new rank)) (fun _ _ => rfl) copied).congr
      fun rank inside => ?_
  rw [Engine.createResources, if_pos (running rank inside)]

namespace Context

def answer (leads : Group) (c : Context) (holders resized : Nat) : Work S Context Resources :=
  if 0 < resized ∨ (0 < holders ∧ holders ≠ leads.size) then
    throw (TopologyError.layoutMismatch holders leads.size : Failure)
  else match c.shared with
    | some shared => do
      set { c with
        users := c.users + 1, shared := some { shared with references := shared.references + 1 } }
      pure shared.resources
    | none => openResources leads

/-- A request for resources: two counts that the leads add up, and what a lead makes of them. -/
theorem start_acquire (leads : Group) (c : Context) : (acquire (S := S) leads).start c =
    (Work.ofTask (leads.sumCounts (if c.shared.isSome then 1 else 0)) >>= fun holders =>
      Work.ofTask (leads.sumCounts (if c.shared.isSome && c.leads != leads.size then 1 else 0)) >>=
        fun resized =>
      answer leads c holders resized).start c := rfl

def settleResources (c : Context) (started : Engine) (leads : Nat) (found : Attempt Resources) :
    Work S Context Resources :=
  match found with
  | .ok resources => do
    set { c with engine := started, shared := some ⟨resources, 1⟩, leads, users := 1 }
    pure resources
  | .error .aborted => throw .aborted
  | .error cause => do
    let stopped ← Work.ofAttempt started.shutdown
    set { c with engine := stopped }
    throw cause

variable (t : Together node A L)
include t

theorem holders_through (word : ∀ rank ∈ A, (L rank).hub.ranks.length < Word.limit) :
    Through A L [.one .word64]
    (fun rank => ((L rank).sumCounts (if (c rank).shared.isSome then 1 else 0) : Task S Nat))
    fun w =>
      ∀ rank ∈ A, w rank = holders c (L rank).hub.ranks :=
  (t.countRanks word).through fun rank _ => (L rank).sumCounts_once _

theorem resized_through (word : ∀ rank ∈ A, (L rank).hub.ranks.length < Word.limit) :
    Through A L [.one .word64] (fun rank => ((L rank).sumCounts
      (if (c rank).shared.isSome && (c rank).leads != (L rank).size then 1 else 0) :
      Task S Nat)) fun w =>
      ∀ rank ∈ A, w rank = resized c (L rank).hub.ranks := by
  have counted :=
    (t.countRanks (S := S)
      (p := fun rank => (c rank).shared.isSome && (c rank).leads != (L rank).size)
    word).through fun rank _ => (L rank).sumCounts_once _
  refine counted.mono fun w counts rank inside => (counts rank inside).trans ?_
  refine List.countP_congr fun lead belongs => ?_
  rw [Group.size_eq, (t.of_mem inside belongs).2]

/-- What the two counts make a lead do. -/
theorem start_answer {rank : Nat} (inside : rank ∈ A) :
    (answer (S := S) (L rank) (c rank) (holders c (L rank).hub.ranks)
      (resized c (L rank).hub.ranks)).start (c rank) =
      if admission c (L rank).hub.ranks = .create then (openResources (L rank)).start (c rank)
      else .finished (admitted c (L rank).hub.ranks (L rank) rank) := by
  have own := t.mem inside
  rw [answer, Group.size_eq]
  cases admits : admission c (L rank).hub.ranks with
  | refuse =>
    rw [if_pos (refused_iff.mpr admits), if_neg nofun, admitted, admits]
    rfl
  | create =>
    have free := (admission_eq_create_iff (List.ne_nil_of_mem own)).mp admits rank own
    rw [if_neg (fun refused => nomatch admits.symm.trans (refused_iff.mp refused)),
      if_pos rfl, free]
  | reuse =>
    obtain ⟨shared, found⟩ :=
      Option.isSome_iff_exists.mp (admission_eq_reuse_iff.mp admits rank own).1
    rw [if_neg (fun refused => nomatch admits.symm.trans (refused_iff.mp refused)), if_neg nofun,
      admitted, admits, found]
    simp only [Work.start_set_bind, Work.start_pure, joined, found]
    rfl

/-- Leads that all open new resources receive copies of their group. -/
theorem openResources_traced (stopped : ∀ rank ∈ A, (c rank).engine.running = false) :
    Traced A L (fun rank => (openResources (S := S) (L rank)).start (c rank)) fun shapes v =>
      shapes = [.choice, .meetingPoint] ∧ ∃ new : Nat → Group, Together node A new ∧
        (∀ rank ∈ A, (new rank).hub.ranks = (L rank).hub.ranks ∧ (new rank).hub ≠ (L rank).hub) ∧
        ∀ rank ∈ A, v rank =
          (.ok ⟨new rank⟩, (c rank).opened ⟨new rank⟩ (L rank).hub.ranks.length) := by
  let started : Nat → Engine := fun rank =>
    { (c rank).engine with running := true, startups := (c rank).engine.startups + 1 }
  have created := t.createResources (S := S) (e := started) fun _ _ => rfl
  refine (created.outcome.followedBy (s := fun rank => { c rank with engine := started rank })
    (f := fun rank => settleResources (c rank) (started rank) (L rank).size)
    fun found values => ?_).congr
      fun rank inside => ?_
  · obtain ⟨resources, found, together, ranks⟩ := values
    refine .of_finished (v := fun rank => (.ok (resources rank),
      (c rank).opened (resources rank) (L rank).hub.ranks.length)) (fun rank inside => ?_)
      ⟨rfl, fun rank => (resources rank).leads, together, ranks, fun _ _ => rfl⟩
    rw [found rank inside, Hub.length_ranks]
    rfl
  · have startup : (c rank).engine.startup = .ok (started rank) := by
      rw [Engine.startup, if_neg (by simp [stopped rank inside])]
    rw [openResources, Work.start_get_bind, startup, Work.start_ofAttempt_bind, Work.following_ok]
    exact Work.start_set_bind ..

/-- All leads that ask for resources together receive an answer, and it depends on their contexts
only. -/
theorem acquire_completes (sound : Sound A c)
    (word : ∀ rank ∈ A, (L rank).hub.ranks.length < Word.limit) :
    Completes A (fun rank => (acquire (S := S) (L rank)).start (c rank)) fun v =>
      ∃ new : Nat → Group,
      Copied node A c L new ∧ ∀ rank ∈ A, v rank = admitted c (L rank).hub.ranks
      (new rank) rank := by
  let creating := A.filter fun rank => admission c (L rank).hub.ranks = .create
  have among : Together node creating L := t.filter_const
      fun rank inside member belongs creates => by
    rw [(t.of_mem inside belongs).2]
    exact creates
  have stopped : ∀ rank ∈ creating, (c rank).engine.running = false := fun rank member => by
    obtain ⟨inside, creates⟩ := Finset.mem_filter.mp member
    have own := t.mem inside
    rw [sound rank inside, (admission_eq_create_iff (List.ne_nil_of_mem own)).mp creates rank own]
    rfl
  refine ((holders_through t word).succeeds.followedBy_eq
    ((resized_through t word).succeeds.followedBy_eq ?_)).congr
    fun rank _ => start_acquire ..
  refine ((((openResources_traced (S := S) among stopped).completes.congr
    fun rank member => ?_).part
    (w := fun rank => admitted c (L rank).hub.ranks (L rank) rank) (Finset.filter_subset ..)
    fun rank inside outside => ?_)).mono fun v parts => ?_
  · obtain ⟨inside, creates⟩ := Finset.mem_filter.mp member
    rw [start_answer t inside, if_pos creates]
  · rw [start_answer t inside, if_neg fun creates =>
      outside (Finset.mem_filter.mpr ⟨inside, creates⟩)]
  · obtain ⟨u, ⟨_, _, new, together, ranks, values⟩, created, others⟩ := parts
    refine ⟨new, ⟨together, fun rank inside creates =>
      (ranks rank (Finset.mem_filter.mpr ⟨inside, creates⟩)).1⟩,
      fun rank inside => ?_⟩
    by_cases creates : admission c (L rank).hub.ranks = .create
    · have member : rank ∈ creating := Finset.mem_filter.mpr ⟨inside, creates⟩
      rw [created rank member, values rank member, admitted, creates]
    · rw [others rank inside fun member => creates (Finset.mem_filter.mp member).2,
        admitted, admitted]
      cases admits : admission c (L rank).hub.ranks with
      | create => exact absurd admits creates
      | refuse => rfl
      | reuse => rfl

end Context
end DeviceTeams
