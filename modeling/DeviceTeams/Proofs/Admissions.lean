import DeviceTeams.Proofs.Lifetimes

/-!
# The leads agree on who shares

A lead sees only what its own process holds. The leads of a group that ask for resources together
add up how many of them hold some, and how many hold some for another number of leads. These two
sums tell apart the groups in which all leads hold resources that fit, those in which none holds
any, and all others, so that the duplication of the group is entered by all leads or by none. The
devices of the leads play no part in this.
-/
namespace DeviceTeams

variable {S : Type} {L : Finset Nat} {node : Nat → Nat} {N : Nat → Group}

/-- One group of all leads has just these as its members. -/
theorem Together.mem_iff_of_one (t : Together node L N)
    (one : ∀ rank ∈ L, ∀ other ∈ L, (N other).hub = (N rank).hub) {first rank : Nat}
    (lead : first ∈ L) : rank ∈ (N first).hub.ranks ↔ rank ∈ L :=
  ⟨fun belongs => (t.of_mem lead belongs).1, fun inside =>
    one rank inside first lead ▸ t.mem inside⟩

namespace Context

/-- What the leads of a group come to when they ask for resources together: which exchanges all of
them enter, and the outcome and the context of each lead afterwards. -/
inductive Agreed (node : Nat → Nat) (L : Finset Nat) (N : Nat → Group) (c : Nat → Context) :
    List Payload.Shape → (Nat → Attempt Resources × Context) → Prop
  /-- Some lead holds resources, and some lead holds none or holds them for another number of
  leads. -/
  | refused {w : Nat → Attempt Resources × Context} : (∃ lead ∈ L, (c lead).shared.isSome) →
      (∃ lead ∈ L, (c lead).shared.isSome → (c lead).leads ≠ (N lead).size) →
      (∀ rank ∈ L, w rank =
        (.error (TopologyError.layoutMismatch (holders c (N rank).hub.ranks) (N rank).size),
          c rank)) →
      Agreed node L N c [.one .word64, .one .word64] w
  /-- Every lead holds resources for as many leads, and has one user more. -/
  | reused {w : Nat → Attempt Resources × Context} : (∀ rank ∈ L, (c rank).leads = (N rank).size ∧
        ∃ shared, (c rank).shared = some shared ∧
          w rank = (.ok shared.resources, (c rank).joined)) →
      Agreed node L N c [.one .word64, .one .word64] w
  /-- No lead holds resources. All start their engines and hold a duplicate of the group as their
  only user. -/
  | created {w : Nat → Attempt Resources × Context}
      {new : Nat → Group} : (∀ rank ∈ L, (c rank).shared = none) →
      Together node L new →
      (∀ rank ∈ L, (new rank).hub.ranks = (N rank).hub.ranks ∧ (new rank).hub ≠ (N rank).hub) →
      (∀ rank ∈ L, w rank = (.ok ⟨new rank⟩, (c rank).opened ⟨new rank⟩ (N rank).size)) →
      Agreed node L N c [.one .word64, .one .word64, .choice, .meetingPoint] w

namespace Agreed

variable {c : Nat → Context} {shapes : List Payload.Shape} {w : Nat → Attempt Resources × Context}

/-- Leads of which some hold resources and some hold none are all refused. -/
theorem of_mixed (agreed : Agreed node L N c shapes w) {holding free : Nat} (among : holding ∈ L)
    (holds : (c holding).shared.isSome) (among' : free ∈ L) (without : (c free).shared = none) :
    shapes = [.one .word64, .one .word64] ∧ ∀ rank ∈ L, w rank =
      (.error (TopologyError.layoutMismatch (holders c (N rank).hub.ranks) (N rank).size),
        c rank) := by
  cases agreed with
  | refused _ _ values => exact ⟨rfl, values⟩
  | reused held =>
    obtain ⟨-, shared, found, -⟩ := held free among'
    cases without.symm.trans found
  | created none_shared =>
    rw [none_shared holding among] at holds
    cases holds

/-- Leads that all hold resources for as many leads all reuse them. -/
theorem of_held (agreed : Agreed node L N c shapes w) (some_lead : L.Nonempty)
    (held : ∀ rank ∈ L, (c rank).shared.isSome ∧ (c rank).leads = (N rank).size) :
    shapes = [.one .word64, .one .word64] ∧ ∀ rank ∈ L, ∃ shared, w rank =
    (.ok shared, (c rank).joined) := by
  cases agreed with
  | refused _ differs =>
    obtain ⟨rank, inside, differs⟩ := differs
    exact absurd (held rank inside).2 (differs (held rank inside).1)
  | reused holds =>
    refine ⟨rfl, fun rank inside => ?_⟩
    obtain ⟨-, shared, -, value⟩ := holds rank inside
    exact ⟨shared.resources, value⟩
  | created none_shared =>
    obtain ⟨rank, inside⟩ := some_lead
    have holds := (held rank inside).1
    rw [none_shared rank inside] at holds
    cases holds

end Agreed

section

variable {c : Nat → Context} (t : Together node L N)
  (one : ∀ rank ∈ L, ∀ other ∈ L, (N other).hub = (N rank).hub)
include t one

/-- The leads of one group agree, whatever engines that run exactly where there are resources. -/
theorem acquire_traced (sound : Sound L c)
    (word : ∀ rank ∈ L, (N rank).hub.ranks.length < Word.limit) :
    Traced L N (fun rank => (acquire (S := S) (N rank)).start (c rank)) (Agreed node L N c) := by
  refine ((holders_through t word).followedBy_eq ((resized_through t word).followedBy_eq ?_)).congr
    fun rank _ => start_acquire ..
  rcases L.eq_empty_or_nonempty with rfl | ⟨first, lead⟩
  · have nobody : ∀ rank, rank ∉ (∅ : Finset Nat) := Finset.notMem_empty
    exact .of_finished (v := fun rank => (.abort, c rank))
      (fun rank among => absurd among (nobody rank))
      (.reused fun rank among => absurd among (nobody rank))
  have members : ∀ {rank : Nat}, rank ∈ (N first).hub.ranks ↔ rank ∈ L := t.mem_iff_of_one one lead
  have ranks : ∀ rank ∈ L, (N rank).hub.ranks = (N first).hub.ranks :=
    fun rank inside => by rw [one first lead rank inside]
  have size : ∀ rank ∈ L, (N first).hub.ranks.length = (N rank).size := fun rank inside => by
    rw [Group.size_eq, ranks rank inside]
  cases admits : admission c (N first).hub.ranks with
  | refuse =>
    obtain ⟨⟨other, among, differs⟩, holder, among', holds⟩ := admission_eq_refuse_iff.mp admits
    refine .of_finished (v := fun rank => admitted c (N rank).hub.ranks (N rank) rank)
      (fun rank inside => ?_) (.refused ⟨holder, members.mp among', holds⟩
        ⟨other, members.mp among, size other (members.mp among) ▸ differs⟩ fun rank inside => ?_)
    · rw [start_answer t inside, ranks rank inside, if_neg (by rw [admits]; decide)]
    · rw [admitted, ranks rank inside, admits, size rank inside]
  | reuse =>
    have holds := admission_eq_reuse_iff.mp admits
    refine .of_finished (v := fun rank => admitted c (N rank).hub.ranks (N rank) rank)
      (fun rank inside => ?_) (.reused fun rank inside => ?_)
    · rw [start_answer t inside, ranks rank inside, if_neg (by rw [admits]; decide)]
    · obtain ⟨held, leads⟩ := holds rank (members.mpr inside)
      obtain ⟨shared, found⟩ := Option.isSome_iff_exists.mp held
      refine ⟨leads.trans (size rank inside), shared, found, ?_⟩
      rw [admitted, ranks rank inside, admits, found]
      rfl
  | create =>
    have none := (admission_eq_create_iff (List.ne_nil_of_mem (t.mem lead))).mp admits
    have stopped : ∀ rank ∈ L, (c rank).engine.running = false := fun rank inside => by
      rw [sound rank inside, none rank (members.mpr inside)]
      rfl
    refine Traced.mono ((openResources_traced t stopped).congr fun rank inside => ?_) ?_
    · rw [start_answer t inside, ranks rank inside, if_pos admits]
    · rintro _ w ⟨rfl, new, together, copies, values⟩
      refine .created (fun rank inside => none rank (members.mpr inside)) together copies
        fun rank inside => ?_
      rw [values rank inside, ranks rank inside, size rank inside]

/-- Whatever the processes of the leads have done with their instances before, the leads agree. -/
theorem acquire_agreed {n : Nat} (within : L ⊆ Finset.range n) (word : n < Word.limit) [Scalar S]
    {p : Nat → Process S} {visible : Nat → Nat} (lived : ∀ rank ∈ L, (p rank).Lived (visible rank))
    {hubs : Hubs S} {rounds : Rounds} (resting : hubs.Resting rounds) :
    ∃ (w : Nat → Attempt Resources × Context) (shapes : List Payload.Shape),
      Agreed node L N (fun rank => (p rank).context) shapes w ∧
      EndsAmong n L hubs (fun rank => (acquire (N rank)).start (p rank).context) w ∧
      EndsAmong n L hubs (fun rank => ((acquire (N rank)).start (p rank).context).recorded)
        fun rank => (w rank, shapes.map (Exchange.mk (N rank).hub)) :=
  (acquire_traced t one (fun rank inside => (lived rank inside).balanced.steady.running_eq)
    fun _ inside => Nat.lt_of_le_of_lt (t.length_le within inside) word).endsAmong within resting

end

/-- Of two processes one has initialized an instance of its own. -/
theorem exists_lived_mixed :
    ∃ p : Nat → Process Float, (∀ rank ∈ Finset.range 2, (p rank).Lived 0) ∧
    (p 0).context.users = 1 ∧ p 1 = .fresh 0 := by
  have begun : (Process.fresh 0 : Process Float).Lived 0 := .fresh
  obtain ⟨a, alone⟩ := Process.Lived.initialize_apart (show [0].length + 1 < Word.limit by decide)
    (by decide) (by decide) 0 (fun _ _ => begun) (fun _ _ => rfl) (.inl fun _ _ => rfl)
  obtain ⟨-, lived, -, users, -⟩ := alone 0 Nat.one_pos
  refine ⟨fun rank => if rank = 0 then (Process.fresh 0).put 0 (a 0) else .fresh 0,
    fun rank _ => ?_, users, rfl⟩
  dsimp only
  split
  · exact lived
  · exact begun

/-- Two processes have initialized an instance together. -/
theorem exists_lived_together : ∃ q : Nat → Process Float, ∀ rank ∈ Finset.range 2,
    (q rank).Lived 0 ∧ (q rank).context.users = 1 ∧ (q rank).context.leads = 2 := by
  have begun : (Process.fresh 0 : Process Float).Lived 0 := .fresh
  obtain ⟨b, together⟩ :=
    Process.Lived.initialize_apart (show [0, 1].length + 1 < Word.limit by decide)
    (by decide) (by decide) 0 (fun _ _ => begun) (fun _ _ => rfl) (.inl fun _ _ => rfl)
  refine ⟨fun rank => (Process.fresh 0).put 0 (b rank), fun rank inside => ?_⟩
  obtain ⟨-, lived, -, users, leads⟩ := together rank (Finset.mem_range.mp inside)
  exact ⟨lived, users, leads⟩

/-- Of two leads, one holds resources from an instance of its own and the other one none: both are
refused and left as they were. If both hold resources from an instance that they have initialized
together, both are users of them once more, and neither starts its engine again. In both cases they
enter the two sums and no duplication of their group. -/
theorem acquire_agreed_twice :
    ∃ (p q : Nat → Process Float) (v w : Nat → Attempt Resources × Context),
    (p 0).context.users = 1 ∧ (p 1).context.users = 0 ∧
    EndsAmong 2 (Finset.range 2) ([] : Hubs Float)
      (fun rank => ((acquire (Group.world [0, 1] rank)).start (p rank).context).recorded)
      (fun rank =>
        (v rank, [.one .word64, .one .word64].map (Exchange.mk (Group.world [0, 1] rank).hub))) ∧
    (∀ rank ∈ Finset.range 2,
      v rank = (.error (TopologyError.layoutMismatch 1 2), (p rank).context)) ∧
    (∀ rank ∈ Finset.range 2, (q rank).context.users = 1) ∧
    EndsAmong 2 (Finset.range 2) ([] : Hubs Float)
      (fun rank => ((acquire (Group.world [0, 1] rank)).start (q rank).context).recorded)
      (fun rank =>
        (w rank, [.one .word64, .one .word64].map (Exchange.mk (Group.world [0, 1] rank).hub))) ∧
    ∀ rank ∈ Finset.range 2, (w rank).1.isOk ∧ (w rank).2.users = 2 ∧
      (w rank).2.engine = (q rank).context.engine := by
  obtain ⟨p, lived, users, fresh⟩ := exists_lived_mixed
  obtain ⟨q, together⟩ := exists_lived_together
  have holds : (p 0).context.shared.isSome :=
    (lived 0 (by decide)).balanced.isSome_iff.mpr (users ▸ Nat.one_pos)
  have free : (p 1).context.shared = none := by rw [fresh]; rfl
  have held : ∀ rank ∈ Finset.range 2, (q rank).context.shared.isSome ∧
      (q rank).context.leads = 2 := by
    intro rank inside
    obtain ⟨lived', users', leads⟩ := together rank inside
    exact ⟨lived'.balanced.isSome_iff.mpr (users' ▸ Nat.one_pos), leads⟩
  obtain ⟨v, shapes, agreed, _, ends⟩ := acquire_agreed (Together.world [0, 1]) (fun _ _ _ _ => rfl)
    (Finset.Subset.refl _) (by decide) lived Hubs.resting_nil
  obtain ⟨w, shapes', agreed', _, ends'⟩ :=
    acquire_agreed (Together.world [0, 1]) (fun _ _ _ _ => rfl)
    (Finset.Subset.refl _) (by decide)
    (fun rank inside => (together rank inside).1) Hubs.resting_nil
  obtain ⟨rfl, refused⟩ := agreed.of_mixed (show 0 ∈ Finset.range 2 by decide) holds
    (show 1 ∈ Finset.range 2 by decide) free
  obtain ⟨rfl, reused⟩ := agreed'.of_held ⟨0, by decide⟩ held
  have one : holders (fun rank => (p rank).context) [0, 1] = 1 := by
    simp only [holders, List.countP_cons, List.countP_nil, holds, free]
    rfl
  refine ⟨p, q, v, w, users, by rw [fresh]; rfl, ends, fun rank inside => ?_, fun rank inside =>
    (together rank inside).2.1, ends', fun rank inside => ?_⟩
  · rw [refused rank inside, ← one]
    rfl
  · obtain ⟨shared, value⟩ := reused rank inside
    rw [value]
    exact ⟨rfl, congrArg (· + 1) (together rank inside).2.1, rfl⟩

end Context
end DeviceTeams
