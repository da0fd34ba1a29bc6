import DeviceTeams.Error

/-!
# Modes and outcomes of the engine

A mode says where matrix and vectors live; both modes hold doubles and indices of 32 bits. A status
is what the engine reports after a solve, as a number.
-/
namespace DeviceTeams

/-- Where the data of the engine lives. -/
inductive Mode where
  | device
  | host
deriving DecidableEq, Repr

namespace Mode

def isDevice : Mode → Bool
  | device => true
  | host => false

def tag : Mode → String
  | device => "dDDI"
  | host => "hDDI"

/-- Reads a tag; every other text is refused. -/
def ofTag (text : String) : Attempt Mode :=
  if text = device.tag then .ok device
  else if text = host.tag then .ok host
  else .error (ConfigError.unsupportedMode text)

theorem ofTag_tag (m : Mode) : ofTag m.tag = .ok m := by
  cases m <;> rfl

end Mode

/-- How a solve ended. -/
inductive Status where
  | success
  | failed
  | diverged
  | notConverged
deriving DecidableEq, Repr

namespace Status

def name : Status → String
  | success => "Success"
  | failed => "Failed"
  | diverged => "Diverged"
  | notConverged => "NotConverged"

def code : Status → Int
  | success => 0
  | failed => 1
  | diverged => 2
  | notConverged => 3

/-- The status with a number. Numbers without a status stand for a failure. -/
def ofCode (code : Int) : Status :=
  if code = 0 then success
  else if code = 2 then diverged
  else if code = 3 then notConverged
  else failed

def isSuccess (s : Status) : Bool := s == success

theorem ofCode_code (s : Status) : ofCode s.code = s := by
  cases s <;> rfl

end Status
end DeviceTeams
