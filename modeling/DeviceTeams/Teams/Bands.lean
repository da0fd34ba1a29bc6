import DeviceTeams.Word

/-!
# Pairing processes with devices

The processes of a node are dealt out to its devices in contiguous bands, one band for each device
that is used. The first bands are one process wider when the numbers do not divide. The lowest
process of a band leads it. With at least as many devices as processes every process has a device of
its own and the rest stay unused.
-/
namespace DeviceTeams

/-- The device of one process and whether the process drives it. -/
structure Assignment where
  device : Nat
  isLead : Bool
deriving BEq, DecidableEq, Repr

/-- The device of process `rank` among the `processes` processes of a node with `devices`
devices. -/
def Assignment.of (devices processes rank : Nat) : Attempt Assignment := do
  if devices = 0 then throw (ConfigError.noDevices : Failure)
  if processes ≤ rank then throw (TopologyError.rankOutside rank processes : Failure)
  if processes ≤ devices then pure ⟨rank, true⟩
  else
    let basic := processes / devices
    let remain := processes % devices
    let wide ← Word.add basic 1
    let wideEnd ← Word.mul wide remain
    let (device, offset) := if rank < wideEnd then (rank / wide, rank % wide)
      else ((rank - wideEnd) / basic + remain, (rank - wideEnd) % basic)
    pure ⟨device, offset == 0⟩

end DeviceTeams
