import OpenFlight.Theory.Axis.CompiledRuns
import OpenFlight.Theory.Axis.CurveEnds
import OpenFlight.Theory.Axis.DetentEvents
import OpenFlight.Theory.Axis.PipelineVersions
import OpenFlight.Theory.Axis.Playback
import OpenFlight.Theory.Axis.SlewLimit
import OpenFlight.Theory.Axis.SpikeRejection
import OpenFlight.Theory.Axis.StateLayout
import OpenFlight.Theory.Axis.ThrottleEvents
import OpenFlight.Theory.Blackbox.CodecRoundTrip
import OpenFlight.Theory.Blackbox.Recording
import OpenFlight.Theory.Blackbox.RingQueue
import OpenFlight.Theory.Bus.RateLimit
import OpenFlight.Theory.Bus.RouterSlots
import OpenFlight.Theory.CloudProfiles.PlanExact
import OpenFlight.Theory.DcsBios.ChangeTracking
import OpenFlight.Theory.DcsBios.StreamFraming
import OpenFlight.Theory.DcsExport.EngineOrder
import OpenFlight.Theory.Ffb.DeadCommand
import OpenFlight.Theory.Ffb.EnvelopeLimits
import OpenFlight.Theory.Ffb.EnvelopeSlew
import OpenFlight.Theory.Ffb.FaultAccounting
import OpenFlight.Theory.Ffb.FaultCapture
import OpenFlight.Theory.Ffb.FaultResponse
import OpenFlight.Theory.Ffb.ForceLimits
import OpenFlight.Theory.Ffb.InterlockSound
import OpenFlight.Theory.Ffb.StateLatch
import OpenFlight.Theory.Hid.BitExtraction
import OpenFlight.Theory.Hid.FieldStatistics
import OpenFlight.Theory.Hid.GhostRuns
import OpenFlight.Theory.Ipc.BackOff
import OpenFlight.Theory.Ipc.LastHandle
import OpenFlight.Theory.Ipc.TokenBudget
import OpenFlight.Theory.Panels.BurstDetection
import OpenFlight.Theory.Panels.LastCommand
import OpenFlight.Theory.Panels.WriteSpacing
import OpenFlight.Theory.Profile.EditorDiff
import OpenFlight.Theory.Profile.FlatDiff
import OpenFlight.Theory.Profile.MigrationLossless
import OpenFlight.Theory.Profile.MigrationPaths
import OpenFlight.Theory.Profile.Validity
import OpenFlight.Theory.Rules.ParsePrint
import OpenFlight.Theory.Rules.Validation
import OpenFlight.Theory.Rules.ZeroBand
import OpenFlight.Theory.Scheduler.RingFifo
import OpenFlight.Theory.Security.AuditExport
import OpenFlight.Theory.Security.FsConfinement
import OpenFlight.Theory.Service.DisabledAdapters
import OpenFlight.Theory.Service.Lifecycle
import OpenFlight.Theory.Service.ManagerAgreement
import OpenFlight.Theory.Session.CacheTransparency
import OpenFlight.Theory.Session.ParameterHysteresis
import OpenFlight.Theory.Session.PhaseStability
import OpenFlight.Theory.Session.TornSession
import OpenFlight.Theory.Updater.CrashSafety
import OpenFlight.Theory.Updater.DeltaBounds
import OpenFlight.Theory.Updater.LifecycleRuns
import OpenFlight.Theory.Updater.ManifestAtomic
import OpenFlight.Theory.Updater.ManifestInverse
import OpenFlight.Theory.Updater.PathEscape
import OpenFlight.Theory.Updater.RollbackRuns
import OpenFlight.Theory.Updater.StartupDetection
import OpenFlight.Theory.Updater.UpdateAtomic
import OpenFlight.Theory.Watchdog.DeadMan
import OpenFlight.Theory.Watchdog.EscalationLevels
import OpenFlight.Theory.Watchdog.Isolation
import OpenFlight.Theory.Writers.BackupRestore
import OpenFlight.Theory.Writers.NeededPatches
import OpenFlight.Theory.Writers.SetEdits
import OpenFlight.Theory.XPlane.PacketDemand
import OpenFlight.Theory.XPlane.ProtocolRoundTrip
