import Synqro.Lib.Computation
import Synqro.Lib.FileTree
import Synqro.Lib.UnixPath
import Synqro.Lib.LexicalPath
import Synqro.Lib.Json
import Synqro.Lib.JsonDecode
import Synqro.Lib.JsonText
import Synqro.Lib.JsonPlain
import Synqro.Lib.JsonReorder
import Synqro.Lib.SemVer
import Synqro.Lib.Sha2
import Synqro.Lib.Lines
import Synqro.Lib.Base64
import Synqro.Lib.Streak
import Synqro.Lib.LastTouch
import Synqro.Lib.LockedAppend
import Synqro.Lib.JsonLines
import Synqro.Lib.CString
import Synqro.Lib.Utf8
import Synqro.Lib.Utf16
import Synqro.Error
import Synqro.Config
import Synqro.Encoding
import Synqro.World
import Synqro.Calls
import Synqro.Machine
import Synqro.Audit
import Synqro.Snapshot
import Synqro.VerifyLog
import Synqro.Rollback
import Synqro.Restores
import Synqro.Snapshots
import Synqro.Downloader
import Synqro.Ffi
import Synqro.Server
import Synqro.SignedManifest
import Synqro.Effects
import Synqro.Artifact
import Synqro.ManifestChecks
import Synqro.Bookkeeping
import Synqro.BlacklistLaws
import Synqro.RollbackCounts
import Synqro.Runs
import Synqro.Authenticity
import Synqro.AuditTrail
import Synqro.BlacklistTampering
import Synqro.VersionBinding
import Synqro.DegradedMode
import Synqro.ArtifactErrors
import Synqro.LatchedRequests
import Synqro.OfferedVersions
import Synqro.LatestVersion
import Synqro.Redirects
import Synqro.CounterLimits
import Synqro.LogFaults
import Synqro.Initialisation
import Synqro.AuditHistory
import Synqro.Backoff
import Synqro.LatchInterleavings
import Synqro.CrashSafety
import Synqro.ReportFormat
import Synqro.ReportMarkup
import Synqro.ReportMutation
import Synqro.ScrubCompleteness
import Synqro.Keychain
import Synqro.ConcurrentRollbacks
import Synqro.ConcurrentLogs
import Synqro.HostInterface
import Synqro.HostRuns
import Synqro.DartClient
import Synqro.DownloadCap
import Synqro.Traversal
import Synqro.RestoreFrame
import Synqro.PostInstall
import Synqro.RollbackFailures
import Synqro.RoundTrip
import Synqro.Footprints
import Synqro.UpdateUndone
import Synqro.SnapshotFailures
