import DeviceTeams.Scalar

/-!
# What ranks send one another

An exchange carries one payload per rank. Payloads keep their kind, and whoever reads one names the
kind it expects: reading a payload of another kind aborts, which is how ranks notice that they
entered different operations. A payload that nobody reads can be of any kind.
-/
namespace DeviceTeams

/-- A meeting point, named by where it comes from: the whole world, or the members of a parent,
given by their seats there, that split off in one of its rounds. Two groups never share a name. -/
inductive Hub where
  | world (size : Nat)
  | split (parent : Hub) (round : Nat) (members : List Nat)
deriving DecidableEq, Repr

def Hub.size : Hub → Nat
  | world size => size
  | split _ _ members => members.length

/-- The kinds of elements that can travel. -/
inductive Element where
  | int32
  | int64
  | word64
  | real
deriving DecidableEq, Repr

abbrev Element.Carrier (S : Type) : Element → Type
  | .int32 => Int
  | .int64 => Int
  | .word64 => Nat
  | .real => S

/-- The value that a buffer holds before anything is written to it. -/
def Element.blank {S : Type} [Scalar S] : (kind : Element) → kind.Carrier S
  | .int32 => (0 : Int)
  | .int64 => (0 : Int)
  | .word64 => (0 : Nat)
  | .real => (Scalar.zero : S)

def Element.width : Element → Nat
  | .int32 => 4
  | _ => 8

/-- What one rank brings to an exchange. -/
inductive Payload (S : Type) where
  | signal
  | choice (color : Option Nat) (key : Nat)
  | meetingPoint (hub : Option Hub)
  | one (kind : Element) (value : kind.Carrier S)
  | many (kind : Element) (values : List (kind.Carrier S))
  | offer (kind : Element) (values : Option (List (kind.Carrier S)))

namespace Payload

variable {S : Type}

def readChoice : Payload S → Attempt (Option Nat × Nat)
  | choice color key => .ok (color, key)
  | _ => .abort

def readMeetingPoint : Payload S → Attempt (Option Hub)
  | meetingPoint hub => .ok hub
  | _ => .abort

def readOne (kind : Element) : Payload S → Attempt (kind.Carrier S)
  | one sent value => if same : sent = kind then .ok (same ▸ value) else .abort
  | _ => .abort

def readMany (kind : Element) : Payload S → Attempt (List (kind.Carrier S))
  | many sent values => if same : sent = kind then .ok (same ▸ values) else .abort
  | _ => .abort

def readOffer (kind : Element) : Payload S → Attempt (Option (List (kind.Carrier S)))
  | offer sent values => if same : sent = kind then .ok (same ▸ values) else .abort
  | _ => .abort

@[simp] theorem readOne_one (kind : Element) (value : kind.Carrier S) :
    readOne kind (one kind value) = .ok value := by simp [readOne]

@[simp] theorem readMany_many (kind : Element) (values : List (kind.Carrier S)) :
    readMany kind (many kind values) = .ok values := by simp [readMany]

@[simp] theorem readOffer_offer (kind : Element) (values : Option (List (kind.Carrier S))) :
    readOffer kind (offer kind values) = .ok values := by simp [readOffer]

end Payload
end DeviceTeams
