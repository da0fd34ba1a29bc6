import DeviceTeams.Ranks.Program

/-!
# A world of ranks

Every rank runs its own program. A rank moves by one step at a time: it reports, it leaves a payload
at a meeting point, or it takes the items of a round that is over. A rank that waits for an
unfinished round cannot move. `Step` allows the ranks to move in any order; `run` is one fair order,
a sweep over all ranks again and again until none of them can move.

Each step leaves the rank with a later part of its program, so the sweeps end, whatever the programs
do.
-/
namespace DeviceTeams

inductive Seat (S : Type) (α : Type) where
  | ready (program : Program S α)
  | waiting (hub : Hub) (number : Nat) (resume : Round (Payload S) → Program S α)

/-- The meeting points that have been visited. -/
abbrev Hubs (S : Type) : Type := List (Hub × Rendezvous (Payload S))

/-- The state of a meeting point. One that is not listed has not been visited. -/
def Hubs.at {S : Type} (hubs : Hubs S) (hub : Hub) : Rendezvous (Payload S) :=
  match hubs with
  | [] => .fresh hub.size
  | (name, state) :: rest => if name = hub then state else Hubs.at rest hub

def Hubs.put {S : Type} (hubs : Hubs S) (hub : Hub) (state : Rendezvous (Payload S)) : Hubs S :=
  match hubs with
  | [] => [(hub, state)]
  | (name, old) :: rest =>
    if name = hub then (hub, state) :: rest else (name, old) :: Hubs.put rest hub state

theorem Hubs.at_put {S : Type} (hubs : Hubs S) (hub other : Hub) (state : Rendezvous (Payload S)) :
    (hubs.put hub state).at other = if hub = other then state else hubs.at other := by
  induction hubs with
  | nil => rfl
  | cons entry rest ih =>
    obtain ⟨name, old⟩ := entry
    by_cases same : name = hub
    · subst same
      simp only [put, Hubs.at, if_true]
      split <;> rfl
    · simp only [put, if_neg same, Hubs.at, ih]
      by_cases found : name = other
      · have : hub ≠ other := fun h => same (found.trans h.symm)
        simp [found, this]
      · simp [found]

@[simp] theorem Hubs.at_put_self {S : Type} (hubs : Hubs S) (hub : Hub)
    (state : Rendezvous (Payload S)) :
    (hubs.put hub state).at hub = state := by
  rw [at_put, if_pos rfl]

/-- What holds of a new state and of all other meeting points holds of all of them once the state is
put. -/
theorem Hubs.forall_put {S : Type} {hubs : Hubs S} {hub : Hub} {state : Rendezvous (Payload S)}
    (P : Hub → Rendezvous (Payload S) → Prop) (here : P hub state)
    (elsewhere : ∀ other, hub ≠ other → P other (hubs.at other)) (other : Hub) :
    P other ((hubs.put hub state).at other) := by
  rw [at_put]
  split
  · next same => exact same ▸ here
  · next apart => exact elsewhere other apart

namespace Seat

variable {S α : Type}

/-- One step of a rank, if it can move. -/
def step? (seat : Seat S α) (hubs : Hubs S) : Option (Seat S α × Hubs S) :=
  match seat with
  | ready (.finished _) => none
  | ready (.report _ next) => some (ready next, hubs)
  | ready (.meet hub rank payload resume) =>
    let number := (hubs.at hub).generation
    some (waiting hub number resume, hubs.put hub ((hubs.at hub).deposit rank payload))
  | waiting hub number resume =>
    ((hubs.at hub).collect? number).map fun round => (ready (resume round), hubs)

def result? : Seat S α → Option α
  | ready (.finished value) => some value
  | _ => none

/-- The first seat is reached from the second by one step. -/
def After (later earlier : Seat S α) : Prop :=
  ∃ hubs hubs', earlier.step? hubs = some (later, hubs')

theorem acc_waiting (hub : Hub) (number : Nat) (resume : Round (Payload S) → Program S α)
    (h : ∀ round, Acc After (ready (resume round))) : Acc After (waiting hub number resume) := by
  refine ⟨_, fun later ⟨hubs, hubs', moved⟩ => ?_⟩
  simp only [step?, Option.map_eq_some_iff] at moved
  obtain ⟨round, _, same⟩ := moved
  cases same
  exact h round

theorem acc_ready (program : Program S α) : Acc After (ready program) := by
  induction program with
  | finished value => exact ⟨_, fun later ⟨hubs, hubs', moved⟩ => by simp [step?] at moved⟩
  | report event next ih =>
    refine ⟨_, fun later ⟨hubs, hubs', moved⟩ => ?_⟩
    simp only [step?, Option.some.injEq, Prod.mk.injEq] at moved
    exact moved.1 ▸ ih
  | meet hub rank payload resume ih =>
    refine ⟨_, fun later ⟨hubs, hubs', moved⟩ => ?_⟩
    simp only [step?, Option.some.injEq, Prod.mk.injEq] at moved
    exact moved.1 ▸ acc_waiting _ _ _ ih

theorem acc_after (seat : Seat S α) : Acc After seat := by
  cases seat with
  | ready program => exact acc_ready program
  | waiting hub number resume =>
    exact acc_waiting hub number resume fun round => acc_ready (resume round)

end Seat

/-- All ranks of a run and the meeting points between them. -/
structure World (S : Type) (α : Type) where
  seats : List (Seat S α)
  hubs : Hubs S

namespace World

variable {S α : Type}

def start (programs : List (Program S α)) : World S α := ⟨programs.map .ready, []⟩

def Step (w w' : World S α) : Prop :=
  ∃ rank seat seat', w.seats[rank]? = some seat ∧ seat.step? w.hubs = some (seat', w'.hubs) ∧
    w'.seats = w.seats.set rank seat'

/-- What every rank has ended with; nothing for a rank that has not ended. -/
def results (w : World S α) : List (Option α) := w.seats.map Seat.result?

/-- Gives every rank one chance to move, in rank order, and tells whether one did. -/
def sweep : List (Seat S α) → Hubs S → Bool × List (Seat S α) × Hubs S
  | [], hubs => (false, [], hubs)
  | seat :: rest, hubs =>
    match seat.step? hubs with
    | some (seat', hubs) =>
      let (_, rest', hubs) := sweep rest hubs
      (true, seat' :: rest', hubs)
    | none =>
      let (moved, rest', hubs) := sweep rest hubs
      (moved, seat :: rest', hubs)

/-- Some seats have moved and none has moved back. -/
inductive Shift : List (Seat S α) → List (Seat S α) → Prop
  | here {seat' seat : Seat S α} {rest' rest : List (Seat S α)} :
      seat'.After seat → rest'.length = rest.length → Shift (seat' :: rest') (seat :: rest)
  | there {seat : Seat S α} {rest' rest : List (Seat S α)} :
      Shift rest' rest → Shift (seat :: rest') (seat :: rest)

theorem Shift.length_eq {later earlier : List (Seat S α)} (h : Shift later earlier) :
    later.length = earlier.length := by
  induction h with
  | here _ same => simp [same]
  | there _ ih => simp [ih]

theorem length_sweep (seats : List (Seat S α)) (hubs : Hubs S) :
    (sweep seats hubs).2.1.length = seats.length := by
  induction seats generalizing hubs with
  | nil => rfl
  | cons seat rest ih => rw [sweep]; split <;> simp [ih]

theorem shift_sweep (seats : List (Seat S α)) (hubs : Hubs S)
    (moved : (sweep seats hubs).1 = true) :
    Shift (sweep seats hubs).2.1 seats := by
  induction seats generalizing hubs with
  | nil => simp [sweep] at moved
  | cons seat rest ih =>
    rw [sweep] at moved ⊢
    split
    · next seat' hubs' stepped => exact .here ⟨hubs, hubs', stepped⟩ (length_sweep rest hubs')
    · next stuck => exact .there (ih hubs (by simpa [stuck] using moved))

theorem acc_shift (n : Nat) (seats : List (Seat S α)) (size : seats.length = n) :
    Acc Shift seats := by
  induction n generalizing seats with
  | zero =>
    cases List.length_eq_zero_iff.mp size
    exact ⟨_, fun _ h => nomatch h⟩
  | succ n ih =>
    obtain ⟨seat, rest, rfl⟩ := List.exists_cons_of_length_eq_add_one size
    have tails : ∀ rest : List (Seat S α), rest.length = n → Acc Shift rest := ih
    clear ih
    have heads := Seat.acc_after seat
    induction heads generalizing rest with
    | intro seat _ earlier =>
      have inner := tails rest (by simpa using size)
      induction inner with
      | intro rest _ shorter =>
        refine ⟨_, fun later h => ?_⟩
        cases h with
        | here moved same => exact earlier _ moved _ (by simpa [same] using size)
        | there shift =>
          exact shorter _ shift (by simpa [shift.length_eq] using size)

instance : WellFoundedRelation (List (Seat S α)) where
  rel := Shift
  wf := ⟨fun seats => acc_shift seats.length seats rfl⟩

/-- Sweeps until no rank can move. -/
def settle (seats : List (Seat S α)) (hubs : Hubs S) : World S α :=
  let swept := sweep seats hubs
  if swept.1 = true then settle swept.2.1 swept.2.2 else ⟨swept.2.1, swept.2.2⟩
termination_by seats
decreasing_by exact shift_sweep seats hubs ‹_›

def run (w : World S α) : World S α := settle w.seats w.hubs

end World
end DeviceTeams
