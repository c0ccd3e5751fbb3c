import Offload.HostObject.Shelf
import Offload.Main
import Offload.Proofs.Listing
import Offload.Proofs.Contracts
import Offload.Proofs.DeviceSafety
import Offload.Proofs.PassSafety
import Offload.Proofs.DeferredDevice
import Offload.Proofs.DeferredPass
import Offload.Proofs.DeferredSession
import Offload.Proofs.Timeline
import Offload.Proofs.DeviceMoves
import Offload.Proofs.StoreRules
import Offload.Proofs.DeviceViews
import Offload.Proofs.LaunchRules
import Offload.Proofs.MachineMoves
import Offload.Proofs.WaitLists
import Offload.Proofs.DeviceAccounts
import Offload.Proofs.LaunchDevice
import Offload.Proofs.Agreement
import Offload.Proofs.DeviceGuises
import Offload.Proofs.StoreAgreement
import Offload.Proofs.PassAgreement
import Offload.Proofs.RetainedStore
import Offload.Proofs.RetainedFrames
import Offload.Proofs.RetainedSession
import Offload.Proofs.QueueOrder
import Offload.Proofs.Outline
import Offload.Proofs.WarmUp
import Offload.Proofs.PassEvents
import Offload.Proofs.Mirrors
import Offload.Proofs.LazyTransfers
import Offload.Proofs.LedgerCalls
import Offload.Proofs.Submissions
import Offload.Proofs.HonouredWaits
import Offload.Proofs.DeviceTurns
import Offload.Proofs.RunOrder
import Offload.Proofs.PendingProfiles
import Offload.Proofs.Failures
import Offload.Proofs.UntrackedStore
import Offload.Proofs.UntrackedPass
import Offload.Proofs.UntrackedSession
import Offload.Proofs.FaultKinds
import Offload.Proofs.Script
import Offload.Proofs.Trace
import Offload.Proofs.Compilations
import Offload.Proofs.WarmStart
import Offload.Proofs.AssembledText
import Offload.Proofs.AskedOperations
import Offload.Proofs.OperationOrder
import Offload.Proofs.DueCommands
import Offload.Proofs.Workpiece
import Offload.Proofs.WorkpieceStore
import Offload.Proofs.WorkpieceMachine
import Offload.Proofs.Rounds
import Offload.Proofs.RoundPrograms
import Offload.Proofs.RepeatedPasses
import Offload.Proofs.BatchedPasses
import Offload.Proofs.Readiness
import Offload.Proofs.CommandAgreement
import Offload.Proofs.LaunchOperands
import Offload.Proofs.LenientIsolation
import Offload.Proofs.StoreOutcomes
import Offload.Proofs.ObjectLengths
import Offload.Proofs.HeldWindows
import Offload.Proofs.WindowedTransfers
import Offload.Proofs.RefusedLaunches
import Offload.Proofs.CommonKernels
import Offload.Proofs.SyncedWindows
import Offload.Proofs.IndependentOperations
import Offload.Proofs.PartialDrains
import Offload.Proofs.WorkingFaults
import Offload.Proofs.LineAssembly
import Offload.Proofs.Construction
import Offload.Proofs.UnreachableFaults
import Offload.Proofs.RetainedPrograms
