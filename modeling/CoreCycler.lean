import CoreCycler.Library.StepSystem
import CoreCycler.Library.Directed
import CoreCycler.Library.Dict
import CoreCycler.Library.Reading
import CoreCycler.Library.GroupTesting
import CoreCycler.Library.RetrySearch
import CoreCycler.Library.SearchLedger
import CoreCycler.Library.Checklist
import CoreCycler.Library.Debounce
import CoreCycler.Library.Ranking
import CoreCycler.Library.LogReader
import CoreCycler.Library.Watermark
import CoreCycler.Library.Json
import CoreCycler.Library.CheckedWrites
import CoreCycler.Library.Text
import CoreCycler.Library.Regex
import CoreCycler.Library.EventLoop
import CoreCycler.Library.Descent
import CoreCycler.Library.Grouping
import CoreCycler.Library.Tables
import CoreCycler.Library.Rotation
import CoreCycler.Library.Rounding
import CoreCycler.History.Context
import CoreCycler.History.Schema
import CoreCycler.History.Merge
import CoreCycler.History.MergePasses
import CoreCycler.History.MergeLossless
import CoreCycler.Smu.Commands
import CoreCycler.Smu.CoreMap
import CoreCycler.Smu.PhysicalLayout
import CoreCycler.Engine.Backends
import CoreCycler.Engine.Execution
import CoreCycler.Engine.Signatures
import CoreCycler.Engine.Supervision
import CoreCycler.Engine.LaunchedLanes
import CoreCycler.Engine.StoppedBatch
import CoreCycler.Engine.KeptEvidence
import CoreCycler.Engine.LaneLedger
import CoreCycler.Engine.HonestPasses
import CoreCycler.Engine.LaneCharges
import CoreCycler.Engine.ThermalWatch
import CoreCycler.Engine.Detector
import CoreCycler.Engine.Scheduler
import CoreCycler.Engine.StopProtocol
import CoreCycler.Engine.HeededStops
import CoreCycler.Engine.DutyDriver
import CoreCycler.Engine.StallClock
import CoreCycler.Tuner.Regime
import CoreCycler.Tuner.Config
import CoreCycler.Tuner.State
import CoreCycler.Tuner.Advance
import CoreCycler.Tuner.Verdict
import CoreCycler.Tuner.Penalty
import CoreCycler.Tuner.Track
import CoreCycler.Tuner.TrackVerdicts
import CoreCycler.Tuner.CoreRuns
import CoreCycler.Tuner.FailureVerdicts
import CoreCycler.Tuner.FailBounds
import CoreCycler.Tuner.FailureRetreats
import CoreCycler.Tuner.Battery
import CoreCycler.Tuner.BatteryGate
import CoreCycler.Tuner.Bisect
import CoreCycler.Tuner.BisectSearch
import CoreCycler.Tuner.HuntIsolation
import CoreCycler.Tuner.HuntLedger
import CoreCycler.Tuner.Slots
import CoreCycler.Tuner.HuntReplay
import CoreCycler.Tuner.Journal
import CoreCycler.Tuner.SurvivalEnvelope
import CoreCycler.Tuner.HuntVerdict
import CoreCycler.Tuner.Resume
import CoreCycler.Tuner.QuietResume
import CoreCycler.Tuner.HuntDocument
import CoreCycler.Tuner.HuntReboots
import CoreCycler.Tuner.AppliedCache
import CoreCycler.Tuner.UnnamedEvidence
import CoreCycler.Tuner.HuntSlots
import CoreCycler.Tuner.HuntSeries
import CoreCycler.Tuner.HuntReporter
import CoreCycler.Tuner.HuntEnds
import CoreCycler.Tuner.CrashAttribution
import CoreCycler.Tuner.PeerMask
import CoreCycler.Tuner.Report
import CoreCycler.Tuner.BackoffBounds
import CoreCycler.Tuner.SearchEnds
import CoreCycler.Tuner.EdgeSearch
import CoreCycler.Tuner.Suspicion
import CoreCycler.Tuner.TestOrder
import CoreCycler.Tuner.Validation
import CoreCycler.Tuner.PassLedger
import CoreCycler.Tuner.CleanPass
import CoreCycler.Tuner.ValidationEnds
import CoreCycler.History.Maintenance
import CoreCycler.History.Integrity
import CoreCycler.History.Upkeep
import CoreCycler.Engine.Topology
import CoreCycler.Engine.Containment
import CoreCycler.Engine.CcdLayout
import CoreCycler.Engine.ShownMachine
