import DeviceTeams.Proofs.JointSystems

/-!
# Leads solve in unison

The leads of one group may hold any rows of a system, with any values: their intervals may be empty,
overlap or leave rows out. Nothing that a lead does in a solve depends on numbers that the others do
not have, so all of them enter the same exchanges and come out with one status after one number of
iterations. If the whole vectors would not fit into memory, all of them abort in the same place.
-/
namespace DeviceTeams

/-- The rows of a block, none if they cannot be read. -/
def Csr.storedRows {T : Type} (m : Csr T) : List (List (Nat × T)) :=
  match m.rows with
  | .ok rows => rows
  | .error _ => []

variable {S : Type} [Scalar S]

/-! ## Leads that have prepared their rows -/

/-- A lead has prepared a valid block whose rows lie among the `size` rows of all leads. -/
structure System.Prepared (system : System S) (size : Nat) : Prop where
  valid : system.block.validate = .ok ()
  columns : system.block.ncols = size
  inside : system.firstRow + system.block.nrows ≤ size
  prepared : System.prepare system.block system.firstRow size = .ok system

namespace System

variable {system : System S} {size firstRow : Nat} {rows : List (List (Nat × S))}

theorem nrows_ofRows : (ofRows size firstRow rows).block.nrows = rows.length := by
  rw [ofRows_eq]
  rfl

/-- Tidy rows that lie among those of all leads can be prepared. -/
theorem prepared_ofRows (word : rows.length + 1 < Word.limit) (tidy : ∀ row ∈ rows, Tidy size row)
    (inside : firstRow + rows.length ≤ size) : (ofRows size firstRow rows).Prepared size := by
  have parts := ofRows_eq size firstRow rows
  constructor
  · rw [parts]
    exact Csr.validate_ofRows.mpr ⟨word, tidy⟩
  · rw [parts]
    rfl
  · rw [parts]
    exact inside
  · have prepared := prepare_eq size firstRow rows
    rw [parts] at prepared ⊢
    exact prepared

namespace Prepared

variable (prepared : system.Prepared size)
include prepared

theorem rows_of : system = ofRows size system.firstRow system.block.storedRows ∧
    ∀ row ∈ system.block.storedRows, Tidy size row := by
  obtain ⟨rows, same, _, tidy⟩ := Csr.validate_eq_ok_iff.mp prepared.valid
  rw [prepared.columns] at same tidy
  have own : system.block.storedRows = rows := by rw [same, Csr.storedRows, Csr.rows_ofRows]
  have looked := prepared.prepared
  rw [same, prepare_eq] at looked
  rw [own]
  exact ⟨(Except.ok.inj looked).symm, tidy⟩

theorem length_storedRows : system.block.storedRows.length = system.block.nrows := by
  have same := congrArg (fun system => system.block.nrows) prepared.rows_of.1
  exact (same.trans nrows_ofRows).symm

theorem length_inverseDiagonal :
    system.inverseDiagonal.length = system.block.storedRows.length := by
  have same := congrArg (fun system => system.inverseDiagonal.length) prepared.rows_of.1
  exact same.trans (length_inverseDiagonal_ofRows ..)

end Prepared
end System

/-! ## Their joint system -/

namespace Joint

variable {j : Joint S} {hub : Hub} {size : Nat} {system : Nat → System S}

abbrev ofLeads (hub : Hub) (size : Nat) (system : Nat → System S) : Joint S where
  size
  leads := hub.ranks.length
  band seat := hub.ranks[seat]?.elim ⟨[], 0, []⟩ fun lead =>
    ⟨(system lead).block.storedRows, (system lead).firstRow, (system lead).inverseDiagonal⟩

def seated (hub : Hub) (x : Nat → List S) : Parts S := fun seat => hub.ranks[seat]?.elim [] x

omit [Scalar S] in
theorem seated_eq {seat lead : Nat} (found : hub.ranks[seat]? = some lead) (x : Nat → List S) :
    seated hub x seat = x lead := by
  rw [seated, found, Option.elim_some]

omit [Scalar S] in
theorem band_ofLeads {seat lead : Nat} (found : hub.ranks[seat]? = some lead) :
    (ofLeads hub size system).band seat =
    ⟨(system lead).block.storedRows, (system lead).firstRow, (system lead).inverseDiagonal⟩ := by
  simp only [found, Option.elim_some]

/-- Leads whose whole vectors do not fit into memory all abort unless the right-hand side
vanishes. -/
theorem HeldBy.solve_unison_of_full {node : Nat → Nat} {L : Finset Nat} {N : Nat → Group}
    (held : j.HeldBy node L N) (full : ¬ j.size * 8 < 2 ^ 63) (settings : Settings S)
    (b x : Parts S) :
    Unison L N (fun rank =>
      (BiCgStab.solve (j.system (N rank).rank) (N rank) settings (b (N rank).rank)).start
      (x (N rank).rank)) fun v => ∃ (outcome : Attempt (Status × Nat)) (y : Parts S),
        (∀ rank ∈ L, v rank = (outcome, y (N rank).rank)) ∧
          (Scalar.less (j.norm b) Scalar.tiny = false → outcome = .abort) := by
  have request : Word.request j.size 8 = .abort := if_neg (by simpa using full)
  have aborts : ∀ rank, (j.system (N rank).rank).apply (N rank) (x (N rank).rank) =
      Task.ofAttempt .abort := by
    intro rank
    have placed : (j.system (N rank).rank).place (x (N rank).rank) = .abort := by
      rw [System.place]
      show (Word.request j.size 8 >>= _) = _
      rw [request]
      rfl
    rw [System.apply, placed]
    rfl
  simp only [BiCgStab.solve, BiCgStab.opening, bind_assoc]
  refine held.norm_followedBy b ?_
  split
  · next vanishes =>
    refine .of_finished (fun _ _ => rfl)
      ⟨.ok (.success, 0), fun seat => (x seat).map fun _ => Scalar.zero, fun _ _ => rfl,
      fun large => ?_⟩
    cases large.symm.trans vanishes
  · simp only [bind_assoc, Work.start_get_bind, BiCgStab.product, aborts]
    exact .of_finished (fun _ _ => rfl) ⟨.abort, x, fun _ _ => rfl, fun _ => rfl⟩

end Joint

/-- The ranks of `L` are leads that meet at a hub and have prepared rows of a system with `size`
rows. -/
structure Ensemble (node : Nat → Nat) (L : Finset Nat) (N : Nat → Group) (hub : Hub) (size : Nat)
    (system : Nat → System S) : Prop where
  together : Together node L N
  meets : ∀ rank ∈ L, (N rank).hub = hub
  prepared : ∀ rank ∈ L, (system rank).Prepared size

namespace Ensemble

variable {node : Nat → Nat} {L : Finset Nat} {N : Nat → Group} {hub : Hub} {size : Nat}
  {system : Nat → System S} (ensemble : Ensemble node L N hub size system)
include ensemble

theorem seat {rank : Nat} (inside : rank ∈ L) : hub.ranks[(N rank).rank]? = some rank :=
  ensemble.meets rank inside ▸ ensemble.together.own rank inside

theorem held : (Joint.ofLeads hub size system).HeldBy node L N :=
  ⟨ensemble.together, fun rank inside => by rw [ensemble.meets rank inside]⟩

theorem system_eq {rank : Nat} (inside : rank ∈ L) :
    (Joint.ofLeads hub size system).system (N rank).rank = system rank := by
  have same := (ensemble.prepared rank inside).rows_of.1
  rw [System.ofRows_eq] at same
  rw [Joint.system, Joint.band_ofLeads (ensemble.seat inside)]
  exact (congrArg (fun diagonal => System.mk _ _ _ diagonal)
    (congrArg System.inverseDiagonal same)).trans same.symm

/-- Whoever sits at the hub is one of the leads, if there are any. -/
theorem member_of (some_lead : L.Nonempty) {seat lead : Nat}
    (found : hub.ranks[seat]? = some lead) :
    lead ∈ L ∧ (N lead).rank = seat := by
  obtain ⟨first, inside⟩ := some_lead
  obtain ⟨member, _, sits⟩ :=
    ensemble.together.seat first inside seat lead (by rwa [ensemble.meets first inside])
  exact ⟨member, sits⟩

theorem sound (some_lead : L.Nonempty) (room : size * 8 < 2 ^ 63) :
    (Joint.ofLeads hub size system).Sound := by
  have lead : ∀ seat < hub.ranks.length, ∃ lead, hub.ranks[seat]? = some lead ∧
    (system lead).Prepared size :=
    fun seat below => ⟨_, List.getElem?_eq_getElem below,
      ensemble.prepared _ (ensemble.member_of some_lead (List.getElem?_eq_getElem below)).1⟩
  constructor
  · intro seat below row among
    obtain ⟨lead, found, prepared⟩ := lead seat below
    rw [Joint.band_ofLeads found] at among
    exact (prepared.rows_of.2 row among).inside
  · intro seat below
    obtain ⟨lead, found, prepared⟩ := lead seat below
    rw [Joint.band_ofLeads found]
    exact prepared.length_storedRows ▸ prepared.inside
  · intro seat below
    obtain ⟨lead, found, prepared⟩ := lead seat below
    rw [Joint.band_ofLeads found]
    exact prepared.length_inverseDiagonal
  · exact room

theorem fits_seated (some_lead : L.Nonempty) {x : Nat → List S}
    (lengths : ∀ rank ∈ L, (x rank).length = (system rank).block.nrows) :
    (Joint.ofLeads hub size system).Fits (Joint.seated hub x) := by
  intro seat below
  have found : hub.ranks[seat]? = some hub.ranks[seat] := List.getElem?_eq_getElem below
  have member := (ensemble.member_of some_lead found).1
  rw [Joint.seated_eq found, Joint.band_ofLeads found, lengths _ member]
  exact (ensemble.prepared _ member).length_storedRows.symm

/-! ## Their solves -/

variable {b x : Nat → List S} (right : ∀ rank ∈ L, (b rank).length = (system rank).block.nrows)
  (guess : ∀ rank ∈ L, (x rank).length = (system rank).block.nrows) (settings : Settings S)

/-- A lead solves as the lead in its seat of the joint system does. -/
theorem start_solve_eq {rank : Nat} (inside : rank ∈ L) :
    (BiCgStab.solve (system rank) (N rank) settings (b rank)).start (x rank) =
      (BiCgStab.solve ((Joint.ofLeads hub size system).system (N rank).rank) (N rank) settings
        (Joint.seated hub b (N rank).rank)).start (Joint.seated hub x (N rank).rank) := by
  rw [ensemble.system_eq inside, Joint.seated_eq (ensemble.seat inside),
    Joint.seated_eq (ensemble.seat inside)]

include right guess

/-- Leads whose whole vectors fit into memory find the joint solution, each its part. -/
theorem solve_joint (some_lead : L.Nonempty) (room : size * 8 < 2 ^ 63) :
    Unison L N (fun rank => (BiCgStab.solve (system rank) (N rank) settings (b rank)).start
      (x rank)) fun v => ∀ rank ∈ L,
      v rank = (.ok ((Joint.ofLeads hub size system).solve settings (Joint.seated hub b)
        (Joint.seated hub x)).1,
        ((Joint.ofLeads hub size system).solve settings (Joint.seated hub b) (Joint.seated hub x)).2
        (N rank).rank) :=
  (ensemble.held.solve_unison (ensemble.sound some_lead room) settings
    (ensemble.fits_seated some_lead right)
    (ensemble.fits_seated some_lead guess)).congr fun _ inside =>
      ensemble.start_solve_eq settings inside

theorem solve_unison :
    Unison L N (fun rank => (BiCgStab.solve (system rank) (N rank) settings (b rank)).start
      (x rank)) fun v =>
      ∃ (outcome : Attempt (Status × Nat)) (y : Parts S),
        (size * 8 < 2 ^ 63 → ∃ status iterations, outcome = .ok (status, iterations)) ∧
          ∀ rank ∈ L, v rank = (outcome, y (N rank).rank) := by
  by_cases room : size * 8 < 2 ^ 63
  · rcases L.eq_empty_or_nonempty with rfl | some_lead
    · have nobody : ∀ rank, rank ∉ (∅ : Finset Nat) := Finset.notMem_empty
      exact .of_finished (v := fun _ => (.abort, [])) (fun rank among => absurd among (nobody rank))
        ⟨.ok (.success, 0), fun _ => [], fun _ => ⟨_, _, rfl⟩, fun rank among =>
          absurd among (nobody rank)⟩
    · exact (ensemble.solve_joint right guess settings some_lead room).mono fun v values =>
        ⟨_, _, fun _ => ⟨_, _, rfl⟩, values⟩
  · exact ((ensemble.held.solve_unison_of_full room settings _ _).congr fun _ inside =>
      ensemble.start_solve_eq settings inside).mono fun v ⟨outcome, y, values, _⟩ =>
        ⟨outcome, y, fun fits => absurd fits room, values⟩

/-- The leads of a group come out of a solve with one outcome after the same exchanges, and unless
their whole vectors are too long for the memory this outcome is a status and a number of
iterations. -/
theorem solve_inUnison {n : Nat} (within : L ⊆ Finset.range n) {hubs : Hubs S} {rounds : Rounds}
    (resting : hubs.Resting rounds) :
    ∃ (outcome : Attempt (Status × Nat)) (y : Nat → List S) (shapes : List Payload.Shape),
      (size * 8 < 2 ^ 63 → ∃ status iterations, outcome = .ok (status, iterations)) ∧
      EndsAmong n L hubs
      (fun rank => (BiCgStab.solve (system rank) (N rank) settings (b rank)).start (x rank))
        (fun rank => (outcome, y rank)) ∧
      EndsAmong n L hubs
        (fun rank =>
          ((BiCgStab.solve (system rank) (N rank) settings (b rank)).start (x rank)).recorded)
        fun rank => ((outcome, y rank), shapes.map (Exchange.mk hub)) := by
  obtain ⟨w, shapes, ⟨outcome, y, finds, values⟩, plain, recorded⟩ :=
    (ensemble.solve_unison right guess settings).endsAmong within resting
  refine ⟨outcome, fun rank => y (N rank).rank, shapes, finds, ?_, ?_⟩
  · exact plain.congr (fun _ _ => rfl) fun rank inside => (values rank inside).symm
  · exact recorded.congr (fun _ _ => rfl) fun rank inside => by
      rw [values rank inside, ensemble.meets rank inside]

end Ensemble

def scatteredRows (rank : Nat) : List (List (Nat × Float)) :=
  if rank = 0 then [[(0, 4.0), (1, 1.0)]] else if rank = 2 then [[(1, 0.0 / 0.0)]] else []

def scatteredSystem (rank : Nat) : System Float :=
  .ofRows 2 (if rank = 0 then 0 else 1) (scatteredRows rank)

theorem prepared_scatteredSystem : ∀ rank < 3, (scatteredSystem rank).Prepared 2 := by
  intro rank below
  have either : rank = 0 ∨ rank = 1 ∨ rank = 2 := by omega
  rcases either with rfl | rfl | rfl
  · refine System.prepared_ofRows (by decide) (fun row member => ?_) (by decide)
    obtain rfl := List.mem_singleton.mp member
    exact ⟨by simp, by simp⟩
  · exact System.prepared_ofRows (by decide)
      (fun row member => absurd member List.not_mem_nil) (by decide)
  · refine System.prepared_ofRows (by decide) (fun row member => ?_) (by decide)
    obtain rfl := List.mem_singleton.mp member
    exact ⟨by simp, by simp⟩

/-- The three leads, for a right-hand side of ones, go through the same exchanges and end with one
status. -/
theorem Ensemble.solve_inUnison_scattered :
    ∃ (status : Status) (iterations : Nat) (y : Nat → List Float)
    (shapes : List Payload.Shape),
    EndsAmong 3 (Finset.range 3) []
    (fun rank => ((BiCgStab.solve (scatteredSystem rank) (Group.world [0, 0, 1] rank)
      .standard ((scatteredRows rank).map fun _ => 1.0)).start
      ((scatteredRows rank).map fun _ => 0.0)).recorded)
      fun rank => ((.ok (status, iterations), y rank), shapes.map (Exchange.mk (.world 3))) := by
  have lengths : ∀ (rank : Nat) (value : Float),
      ((scatteredRows rank).map fun _ => value).length = (scatteredSystem rank).block.nrows :=
    fun rank value => (List.length_map ..).trans System.nrows_ofRows.symm
  have ensemble : Ensemble _ (Finset.range 3) (Group.world [0, 0, 1])
    (.world 3) 2 scatteredSystem :=
    ⟨Together.world [0, 0, 1], fun _ _ => rfl, fun rank inside =>
      prepared_scatteredSystem rank (Finset.mem_range.mp inside)⟩
  obtain ⟨outcome, y, shapes, finds, _, recorded⟩ :=
    solve_inUnison ensemble (fun rank _ => lengths rank 1.0)
    (fun rank _ => lengths rank 0.0) .standard (Finset.Subset.refl _) Hubs.resting_nil
  obtain ⟨status, iterations, rfl⟩ := finds (by decide)
  exact ⟨status, iterations, y, shapes, recorded⟩

end DeviceTeams
