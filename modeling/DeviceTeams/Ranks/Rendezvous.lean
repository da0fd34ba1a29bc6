/-!
# Rendezvous

The members of a group meet at a rendezvous. Each of them leaves one item; the last one to arrive
publishes the items of all members in rank order and opens the next round. A member that arrived
earlier sees that the round is over by the generation, which counts the rounds, and then takes the
published items.
-/
namespace DeviceTeams

/-- The shared state of a meeting point. -/
structure Rendezvous (P : Type) where
  generation : Nat
  arrived : Nat
  /-- What each member has left in the current round. -/
  slots : List (Option P)
  /-- The items of the last round. -/
  published : List P
deriving Repr

/-- One finished round: its number and the items of all members in rank order. -/
structure Round (P : Type) where
  number : Nat
  items : List P
deriving Repr

namespace Rendezvous

variable {P : Type}

def fresh (size : Nat) : Rendezvous P := ⟨0, 0, List.replicate size none, []⟩

def size (r : Rendezvous P) : Nat := r.slots.length

/-- The round closes: the items left are published and the slots are emptied. -/
def publish (r : Rendezvous P) : Rendezvous P where
  generation := r.generation + 1
  arrived := 0
  slots := List.replicate r.size none
  published := r.slots.filterMap id

/-- A member leaves its item. If it is the last of the round it publishes. -/
def deposit (r : Rendezvous P) (seat : Nat) (item : P) : Rendezvous P :=
  let filled := { r with slots := r.slots.set seat (some item), arrived := r.arrived + 1 }
  if filled.arrived = filled.size then filled.publish else filled

/-- What a member that waits for the end of round `number` can take, once that round is over. -/
def collect? (r : Rendezvous P) (number : Nat) : Option (Round P) :=
  if r.generation = number then none else some ⟨number, r.published⟩

@[simp] theorem size_fresh (n : Nat) : (fresh n : Rendezvous P).size = n := by simp [size, fresh]

@[simp] theorem size_publish (r : Rendezvous P) : r.publish.size = r.size := by simp [size, publish]

@[simp] theorem size_deposit (r : Rendezvous P) (seat : Nat) (item : P) :
    (r.deposit seat item).size = r.size := by
  simp only [deposit]
  split <;> simp [size, publish]

end Rendezvous
end DeviceTeams
