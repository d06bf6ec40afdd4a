import ForgeOS.Library.Words
import ForgeOS.Library.FailFast
import ForgeOS.Library.Sorting
import ForgeOS.Library.Journal
import ForgeOS.Library.Trace
import ForgeOS.Library.Streak
import ForgeOS.Library.Conditions
import ForgeOS.Library.Versions
import ForgeOS.Library.Containment
import ForgeOS.Library.Vectors
import ForgeOS.Library.Ledger
import ForgeOS.Library.Slices
import ForgeOS.Python.Text
import ForgeOS.Python.Dict
import ForgeOS.Python.Json
import ForgeOS.Python.Number
import ForgeOS.Python.Url
import ForgeOS.Models
import ForgeOS.Flash.Tools
import ForgeOS.Flash.Executor
import ForgeOS.Flash.Gates
import ForgeOS.Flash.BuildResolver
import ForgeOS.Flash.Planner
import ForgeOS.Flash.Approved
import ForgeOS.Image.Directory
import ForgeOS.Image.Builder
import ForgeOS.Image.Encoding
import ForgeOS.Image.Wipe
import ForgeOS.Image.Extraction
import ForgeOS.Image.Leftover
import ForgeOS.Image.Staleness
import ForgeOS.Image.Provenance
import ForgeOS.Runtime.Host
import ForgeOS.Runtime.Workers
import ForgeOS.Runtime.Blocker
import ForgeOS.Runtime.Resolution
import ForgeOS.Session.StateMachine
import ForgeOS.Session.StateFile
import ForgeOS.Session.Manager
import ForgeOS.Session.Identity
import ForgeOS.Session.Resumption
import ForgeOS.Session.Waiting
import ForgeOS.Session.Crash
import ForgeOS.Runtime.Cycle
import ForgeOS.Runtime.Moves
import ForgeOS.Runtime.SelfHeal
import ForgeOS.Runtime.Events
import ForgeOS.Runtime.Outcome
import ForgeOS.Runtime.Appliance
import ForgeOS.Runtime.History
import ForgeOS.Runtime.CycleStart
import ForgeOS.Runtime.QuestionGate
import ForgeOS.Runtime.Installation
import ForgeOS.Runtime.Commands
import ForgeOS.Learning.Codegen
import ForgeOS.Image.Validation
import ForgeOS.Image.Starter
import ForgeOS.Image.Compatibility
import ForgeOS.Image.Acquisition
import ForgeOS.Image.Downloader
import ForgeOS.Image.DownloadSafety
import ForgeOS.Learning.RetryPlanner
import ForgeOS.Learning.Governance
import ForgeOS.Learning.StrategyMemory
import ForgeOS.Learning.SelfImprovement
import ForgeOS.Learning.Budget
import ForgeOS.Learning.Remediation
import ForgeOS.Learning.Progress
import ForgeOS.Learning.ProductMemory
import ForgeOS.Learning.ProductIdentity
import ForgeOS.Learning.Promotion
import ForgeOS.Boot.Cpio
import ForgeOS.Boot.Ramdisk
import ForgeOS.Boot.Probe
import ForgeOS.Boot.Image
import ForgeOS.Boot.Repack
import ForgeOS.Native.Scalars
import ForgeOS.Native.Json
import ForgeOS.Native.JsonText
import ForgeOS.Native.JsonParser
import ForgeOS.Native.Scan
import ForgeOS.Native.Engine
import ForgeOS.Native.Touch
import ForgeOS.Native.TouchContacts
import ForgeOS.Native.MusicView
import ForgeOS.Native.Panel
import ForgeOS.Library.SingleFlight
import ForgeOS.Native.Bridge
import ForgeOS.Native.BridgeCommands
import ForgeOS.Native.BridgeRevisions
import ForgeOS.Library.CrashHoare
import ForgeOS.Native.Sessiond
import ForgeOS.Native.SessiondJournal
import ForgeOS.Library.Interleaving
import ForgeOS.Galaxy.Requests
import ForgeOS.Galaxy.Exports
import ForgeOS.Galaxy.TabletActions
import ForgeOS.Galaxy.Events
import ForgeOS.Galaxy.Store
import ForgeOS.Galaxy.AgentHost
import ForgeOS.Galaxy.Submissions
import ForgeOS.Galaxy.LateEvents
import ForgeOS.Galaxy.PendingSend
import ForgeOS.Galaxy.Recovery
import ForgeOS.Galaxy.Paths
import ForgeOS.Galaxy.Reports
import ForgeOS.Library.NamedLocks
import ForgeOS.Galaxy.ImportLocks
import ForgeOS.Galaxy.Baselines
import ForgeOS.Galaxy.Drafts
import ForgeOS.Galaxy.Changes
import ForgeOS.Galaxy.Applies
import ForgeOS.Galaxy.Saves
import ForgeOS.Library.UrlPaths
import ForgeOS.Library.Retries
import ForgeOS.Runtime.HealStatus
import ForgeOS.Learning.Replays
import ForgeOS.Flash.FinalReboot
import ForgeOS.Galaxy.RecoveryLosses
import ForgeOS.Library.Enumerations
import ForgeOS.Python.Value
import ForgeOS.Session.Records
import ForgeOS.Session.FormFactor
import ForgeOS.Session.Creation
import ForgeOS.Galaxy.TabletUndo
import ForgeOS.Galaxy.Logins
import ForgeOS.Native.JsonStrings
import ForgeOS.Native.Quote
import ForgeOS.Native.Surface
import ForgeOS.Native.Stores
import ForgeOS.Native.WebSocket
import ForgeOS.Native.Wav
import ForgeOS.Native.SessiondWrites
import ForgeOS.Learning.Candidates
import ForgeOS.Image.SourceResolver
import ForgeOS.Native.AlsaCompat
import ForgeOS.Boot.VerifyTree
import ForgeOS.Galaxy.Symlinks
import ForgeOS.Galaxy.Snapshots
import ForgeOS.Galaxy.LocalApply
import ForgeOS.Galaxy.Questions
import ForgeOS.Library.Labels
import ForgeOS.Galaxy.Staging
import ForgeOS.Galaxy.CleanNames
import ForgeOS.Galaxy.StagedNames
import ForgeOS.Galaxy.Collect
import ForgeOS.Library.Search
import ForgeOS.Boot.MigrateWifi
import ForgeOS.Boot.SavedNetworks
import ForgeOS.Boot.ForgeInit
import ForgeOS.Boot.Supervision
import ForgeOS.Library.SlidingWindow
import ForgeOS.Galaxy.PairingCode
import ForgeOS.Native.Numbers
import ForgeOS.Galaxy.EventWrites
import ForgeOS.Library.Endless
import ForgeOS.Native.PcmSink
import ForgeOS.Library.PercentCoding
import ForgeOS.Library.UrlResolution
import ForgeOS.Galaxy.ReportLinks
import ForgeOS.Galaxy.Materials
import ForgeOS.Library.Addresses
import ForgeOS.Galaxy.GraphRequests
import ForgeOS.Native.CommandText
import ForgeOS.Native.PanelControl
import ForgeOS.Native.DisplayBuffers
import ForgeOS.Galaxy.AuthSessions
import ForgeOS.Library.Absorption
import ForgeOS.Native.Sha1
import ForgeOS.Library.Base64
import ForgeOS.Native.Handshake
import ForgeOS.Native.QueueRendering
import ForgeOS.Native.QueueCompletion
import ForgeOS.Native.StalledAnimations
import ForgeOS.Native.JsonLookup
import ForgeOS.Native.JsonWriter
import ForgeOS.Native.DevTools
import ForgeOS.Native.MaskedFrames
import ForgeOS.Native.Evaluation
import ForgeOS.Native.Expressions
