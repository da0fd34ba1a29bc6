import DeviceTeams.Main
import DeviceTeams.Session.Run
import DeviceTeams.Proofs.SharedGroups
import DeviceTeams.Proofs.Failures
import DeviceTeams.Proofs.Meetings
import DeviceTeams.Proofs.Lifetimes
import DeviceTeams.Proofs.Regrouping
import DeviceTeams.Proofs.Arrangement
import DeviceTeams.Proofs.Forgetting
import DeviceTeams.Proofs.Unanimity
import DeviceTeams.Proofs.TeamOrder
import DeviceTeams.Proofs.Blocks
import DeviceTeams.Proofs.Laplacian
import DeviceTeams.Proofs.CommandRuns
import DeviceTeams.Proofs.Interventions
import DeviceTeams.Proofs.Extraction
import DeviceTeams.Proofs.Concatenation
import DeviceTeams.Proofs.Stitching
import DeviceTeams.Proofs.Redistribution
import DeviceTeams.Proofs.Conversations
import DeviceTeams.Proofs.Devices
import DeviceTeams.Proofs.UnisonSolves
import DeviceTeams.Proofs.Heads
import DeviceTeams.Proofs.Lookups
import DeviceTeams.Proofs.Tilings
import DeviceTeams.Proofs.ExactScalars
import DeviceTeams.Proofs.ExactPasses
import DeviceTeams.Proofs.Residuals
import DeviceTeams.Proofs.SpreadMatrices
import DeviceTeams.Proofs.Diagonals
import DeviceTeams.Proofs.Checks
import DeviceTeams.Proofs.Products
import DeviceTeams.Proofs.Admissions
import DeviceTeams.Proofs.Cuts
import DeviceTeams.Proofs.NodeGroups
import DeviceTeams.Proofs.Readings
import DeviceTeams.Proofs.EngineCalls
import DeviceTeams.Proofs.EngineRecords
