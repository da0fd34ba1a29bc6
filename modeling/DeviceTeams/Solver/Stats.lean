import DeviceTeams.Word

/-!
# Timings and counters of a solver instance
-/
namespace DeviceTeams

/-- The time spent in each phase, in the order in which the phases were first seen, and what was
counted. -/
structure Stats where
  /-- Name and nanoseconds of each phase. -/
  phases : List (String × Nat)
  matrixUploads : Nat
  solves : Nat
  failedSolves : Nat
deriving BEq, DecidableEq, Repr

namespace Stats

def empty : Stats := ⟨[], 0, 0, 0⟩

def addTo (name : String) (nanos : Nat) : List (String × Nat) → List (String × Nat)
  | [] => [(name, nanos)]
  | (phase, total) :: rest =>
    if phase = name then (phase, total + nanos) :: rest else (phase, total) :: addTo name nanos rest

def addPhase (s : Stats) (name : String) (nanos : Nat) : Stats :=
  { s with phases := addTo name nanos s.phases }

def phaseTotal (s : Stats) (name : String) : Nat := (s.phases.lookup name).getD 0

/-- A line with a label in a column of 24 characters. -/
def phaseLine (label time : String) : String :=
  "  " ++ label.pushn ' ' (24 - label.length) ++ " " ++ time

/-- The table of phases and counters. `time` writes a number of nanoseconds in the last column. -/
def table (s : Stats) (time : Nat → String) (total : Nat) : List String :=
  ["", "=== teamsolve stats ==="] ++
  s.phases.map (fun (name, nanos) => phaseLine name (time nanos)) ++
  [s!"  Matrix uploads:         {s.matrixUploads}", s!"  Solves:                 {s.solves}"] ++
  (if 0 < s.failedSolves then [s!"  Failed solves:          {s.failedSolves}"] else []) ++
  ["  " ++ "".pushn '─' 33, "  Total:                  " ++ time total]

end Stats
end DeviceTeams
