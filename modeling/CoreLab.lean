import CoreLab.AccessRuns
import CoreLab.AccountLinkRequests
import CoreLab.AccountService
import CoreLab.ActivatedScripts
import CoreLab.AgentHost
import CoreLab.AgentHub
import CoreLab.AgentPolicyService
import CoreLab.AgentRpc
import CoreLab.AgentWs
import CoreLab.AuthService
import CoreLab.Authority
import CoreLab.AuthorizedKeys
import CoreLab.Bookings
import CoreLab.CacheFrames
import CoreLab.CacheSync
import CoreLab.CancelCall
import CoreLab.CancelRace
import CoreLab.Capacity
import CoreLab.CapacityKept
import CoreLab.Compliance
import CoreLab.ComplianceMonitor
import CoreLab.Datetime
import CoreLab.Dispatch
import CoreLab.EarliestSlot
import CoreLab.EnrollmentTokens
import CoreLab.FailureLock
import CoreLab.Frames
import CoreLab.GpuCollector
import CoreLab.GracePeriod
import CoreLab.GroupCancel
import CoreLab.HandlerReturns
import CoreLab.IncrementalSync
import CoreLab.KeyBookkeeping
import CoreLab.KeyLines
import CoreLab.KillRegistry
import CoreLab.LastAdmin
import CoreLab.Lib.Calendar
import CoreLab.Lib.Csv
import CoreLab.Lib.Dict
import CoreLab.Lib.DropAbove
import CoreLab.Lib.GroupBy
import CoreLab.Lib.Isolation
import CoreLab.Lib.IsolationLogic
import CoreLab.Lib.Lines
import CoreLab.Lib.Loops
import CoreLab.Lib.Occupancy
import CoreLab.Lib.Parsers
import CoreLab.Lib.Replica
import CoreLab.Lib.Schema
import CoreLab.Lib.SlidingWindow
import CoreLab.Lib.Streak
import CoreLab.Lib.Table
import CoreLab.Lib.Toml
import CoreLab.Lib.TomlDocument
import CoreLab.Lib.TomlArrays
import CoreLab.Lib.TomlStrings
import CoreLab.Lib.Transactions
import CoreLab.Lib.Transition
import CoreLab.Lib.Wire
import CoreLab.LinkCache
import CoreLab.LockWatch
import CoreLab.LogTail
import CoreLab.LoginLock
import CoreLab.Models
import CoreLab.Modify
import CoreLab.NormalForm
import CoreLab.Operations
import CoreLab.PolicyDispatch
import CoreLab.PolicySync
import CoreLab.Preview
import CoreLab.ProcessKiller
import CoreLab.RateLimit
import CoreLab.Recommender
import CoreLab.RequestBudget
import CoreLab.ReservationGrid
import CoreLab.ReservationRows
import CoreLab.ReservationService
import CoreLab.RpcCorrelation
import CoreLab.Scheduler
import CoreLab.ScriptLifecycle
import CoreLab.ScriptSupervision
import CoreLab.Sessions
import CoreLab.SetupService
import CoreLab.SshChallenge
import CoreLab.SshLock
import CoreLab.StatusMachine
import CoreLab.SyncView
import CoreLab.TimeZones
import CoreLab.Transitions
import CoreLab.UsageService
import CoreLab.Watchdog
import CoreLab.BackendUrls
import CoreLab.UrlUpdates
import CoreLab.AccountScan
import CoreLab.LabUrlService
import CoreLab.Lib.Runs
import CoreLab.PendingRequests
import CoreLab.PolicyTable
import CoreLab.SelectionDrafts
import CoreLab.UrlProbe
import CoreLab.KeyReadback
import CoreLab.WsClient
import CoreLab.WsUser
import CoreLab.AuditLogs
import CoreLab.Telemetry
import CoreLab.FrameRoundTrip
