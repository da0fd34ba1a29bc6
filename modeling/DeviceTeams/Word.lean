import DeviceTeams.Error

/-!
# Machine words

Counts, indices and offsets are natural numbers below `2 ^ 64`. Arithmetic that would leave this
range aborts instead of wrapping, and so does asking for a buffer of `2 ^ 63` bytes or more.
-/
namespace DeviceTeams.Word

/-- The first natural number that is not a word, `2 ^ 64`. -/
def limit : Nat := 0x10000000000000000

/-- The number itself if it lies below the bound; aborts otherwise. -/
def below (bound n : Nat) : Attempt Nat := if n < bound then .ok n else .abort

def add (a b : Nat) : Attempt Nat := below limit (a + b)

def mul (a b : Nat) : Attempt Nat := below limit (a * b)

/-- One more in a counter of 32 bits. -/
def countUp (n : Nat) : Attempt Nat := below 0x100000000 (n + 1)

/-- The sum in a signed word. -/
def addSigned (a b : Int) : Attempt Int :=
  if -0x8000000000000000 ≤ a + b ∧ a + b < 0x8000000000000000 then .ok (a + b) else .abort

/-- Insists that a buffer of `count` items of `width` bytes can be asked for. -/
def request (count width : Nat) : Attempt Unit := .insist (count * width < 0x8000000000000000)

theorem below_eq_ok_iff {bound n m : Nat} : below bound n = .ok m ↔ n < bound ∧ m = n := by
  by_cases h : n < bound
  · simp [below, h, eq_comm]
  · simp [below, h, Attempt.abort]

theorem add_eq_ok_iff {a b c : Nat} : add a b = .ok c ↔ a + b < limit ∧ c = a + b := below_eq_ok_iff

theorem mul_eq_ok_iff {a b c : Nat} : mul a b = .ok c ↔ a * b < limit ∧ c = a * b := below_eq_ok_iff

end DeviceTeams.Word
