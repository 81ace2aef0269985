import Tdcs.Lib.Run
import Tdcs.Lib.Transaction
import Tdcs.Lib.Dict
import Tdcs.Lib.Prog
import Tdcs.ConfigModels
import Tdcs.ProcessedFileRepo
import Tdcs.PipelineResult
import Tdcs.FileProcessor
import Tdcs.ClaimProtocol
import Tdcs.Takeover
import Tdcs.ClaimSafety
import Tdcs.Lib.Files
import Tdcs.FileArchiver
import Tdcs.ArchiveHistory
import Tdcs.Extractor
import Tdcs.PipelineWorld
import Tdcs.TableRouter
import Tdcs.Loader
import Tdcs.Pipeline
import Tdcs.LoadExact
import Tdcs.Lib.FirstWins
import Tdcs.Replay
import Tdcs.Yaml
import Tdcs.ConfigValidator
import Tdcs.Config
import Tdcs.ConfigAgreement
import Tdcs.ConfigManager
import Tdcs.ConfigApi
import Tdcs.ConfigAtomic
import Tdcs.ConfigReloads
import Tdcs.TaskManager
import Tdcs.TaskSync
import Tdcs.Lib.Loop
import Tdcs.CircuitBreaker
import Tdcs.WorkerPool
import Tdcs.ClaimReport
import Tdcs.RetryBudget
import Tdcs.RetryAttempts
import Tdcs.PollingScanner
import Tdcs.ScanCoverage
import Tdcs.ScanRetry
import Tdcs.TableLifecycle
import Tdcs.Users
import Tdcs.TaskMerge
import Tdcs.Lib.Json
import Tdcs.TransformSandbox
import Tdcs.Lib.Calendar
import Tdcs.Retention
import Tdcs.RowCounts
import Tdcs.Lib.Calls
import Tdcs.PipelineCalls
import Tdcs.SkippedLoads
import Tdcs.TransientErrors
import Tdcs.TaskUpdate
import Tdcs.ManualRetry
import Tdcs.FatalRetry
import Tdcs.SubmitReject
import Tdcs.FileHandling
import Tdcs.ProbeSettles
import Tdcs.Batches
import Tdcs.ExcelCells
import Tdcs.RoutableConfig
import Tdcs.RegistryComplete
import Tdcs.Backlog
import Tdcs.ColumnNames
import Tdcs.Lib.PercentFormat
import Tdcs.Lib.SqlTokens
import Tdcs.BatchSize
import Tdcs.Dsn
import Tdcs.Lib.YamlScalars
import Tdcs.Placeholders
import Tdcs.Lib.PercentCoding
import Tdcs.Credentials
import Tdcs.ConfigTotal
import Tdcs.SafeMove
import Tdcs.ArchiveRace
import Tdcs.ArchiveAge
import Tdcs.FileSelection
import Tdcs.EventHandler
import Tdcs.StableFiles
import Tdcs.TimerChains
import Tdcs.Passwords
import Tdcs.Lib.Upsert
import Tdcs.QualityLog
import Tdcs.Dashboard
import Tdcs.Lib.SlidingWindow
import Tdcs.LoginRate
import Tdcs.Supervisor
import Tdcs.SandboxEnv
import Tdcs.TaskRepeat
import Tdcs.Lib.Rounding
import Tdcs.Cache
import Tdcs.CleanerRegistry
import Tdcs.Lib.Recency
import Tdcs.CleanerTemplate
import Tdcs.Lib.Notify
import Tdcs.Lib.Heap
import Tdcs.TaskQueue
import Tdcs.CleanerRun
import Tdcs.CleanedFiles
import Tdcs.Sessions
import Tdcs.AuditTrail
import Tdcs.LogFile
import Tdcs.Lib.Pages
import Tdcs.Listing
import Tdcs.DeadLetter
import Tdcs.Delivery
import Tdcs.TaskControl
import Tdcs.TableLocks
import Tdcs.TemplateApi
import Tdcs.Lib.Linear
