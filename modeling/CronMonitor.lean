import CronMonitor.Lib.Runs
import CronMonitor.Db
import CronMonitor.Repo.Scheduler
import CronMonitor.Repo.Incidents
import CronMonitor.StateMachine
import CronMonitor.JobRunner
import CronMonitor.StateMachineFrame
import CronMonitor.ResultTx
import CronMonitor.JobRunnerSteps
import CronMonitor.AtMostOnce
import CronMonitor.LostSlot
import CronMonitor.FinalStatus
import CronMonitor.CheckAtomic
import CronMonitor.IncidentRows
import CronMonitor.IncidentRuns
import CronMonitor.Lib.Episodes
import CronMonitor.IncidentLaw
import CronMonitor.SeverityLaw
import CronMonitor.Cron
import CronMonitor.Scheduler
import CronMonitor.SchedulerSteps
import CronMonitor.FiringDiscipline
import CronMonitor.MissedSlots
import CronMonitor.Lib.OrderedMap
import CronMonitor.Simulator.Contract
import CronMonitor.Simulator.State
import CronMonitor.Simulator.Ops
import CronMonitor.Simulator.Books
import CronMonitor.Auth.Service
import CronMonitor.Auth.Families
import CronMonitor.Auth.Serial
import CronMonitor.Auth.Reuse
import CronMonitor.Targets.Repo
import CronMonitor.Targets.Service
import CronMonitor.Targets.Steps
import CronMonitor.Targets.Requests
import CronMonitor.Targets.FourEyes
import CronMonitor.Targets.LostUpdate
import CronMonitor.Lib.Rows
import CronMonitor.Targets.RequestStatus
import CronMonitor.Lib.Prog
import CronMonitor.Alerts.Repo
import CronMonitor.Alerts.Service
import CronMonitor.Alerts.Frame
import CronMonitor.Alerts.Escalation
import CronMonitor.Alerts.EveryTier
import CronMonitor.Alerts.Programs
import CronMonitor.Alerts.SentOnce
import CronMonitor.Alerts.Recovery
import CronMonitor.Digest.RuleA
import CronMonitor.LoadTest.Domain
import CronMonitor.LoadTest.LifeCycle
import CronMonitor.LoadTest.Metrics
import CronMonitor.LoadTest.MetricsLaw
import CronMonitor.LoadTest.Safety
import CronMonitor.LoadTest.Authorize
import CronMonitor.LoadTest.Execute
import CronMonitor.LoadTest.Judged
import CronMonitor.Lib.Newest
import CronMonitor.LoadTest.Compliance
import CronMonitor.LoadTest.Evidence
import CronMonitor.HealthRuns.Service
import CronMonitor.HealthRuns.Linked
import CronMonitor.Lib.Calendar
import CronMonitor.Sla.Service
import CronMonitor.Sla.Reports
import CronMonitor.Lib.Heap
import CronMonitor.Simulator.Steps
import CronMonitor.Simulator.Money
import CronMonitor.Simulator.Overdraft
import CronMonitor.Simulator.Accounts
import CronMonitor.Simulator.AccountSteps
import CronMonitor.Simulator.Reconciliation
import CronMonitor.Simulator.ExactlyOnce
import CronMonitor.LoadTest.Readiness
import CronMonitor.LoadTest.ReadinessLaw
import CronMonitor.LoadTest.AssessTarget
import CronMonitor.LoadTest.EvidenceSlice
import CronMonitor.LoadTest.Schedules
import CronMonitor.LoadTest.SlotOnce
import CronMonitor.LoadTest.Deliveries
import CronMonitor.HealthCheck.Ssrf
import CronMonitor.HealthCheck.TokenCache
import CronMonitor.HealthCheck.Executor
import CronMonitor.HealthCheck.Vetted
import CronMonitor.MissedRuns
import CronMonitor.LoadTest.Isolation
import CronMonitor.Starvation
import CronMonitor.Alerts.CheckAlerts
import CronMonitor.LoadTest.IsolationLaw
import CronMonitor.Observability.Retention
import CronMonitor.Observability.Hidden
import CronMonitor.Observability.Spared
import CronMonitor.Observability.Errands
import CronMonitor.Observability.Statements
import CronMonitor.Observability.Transparent
import CronMonitor.Lib.Utf16
import CronMonitor.Lib.Json
import CronMonitor.Lib.JsonRoundTrip
import CronMonitor.LoadTest.Pack
import CronMonitor.LoadTest.PackVerify
import CronMonitor.LoadTest.PackLaw
import CronMonitor.LoadTest.PackTamper
import CronMonitor.LoadTest.SafetyGate
import CronMonitor.LoadTest.GuardrailWindow
import CronMonitor.LoadTest.Programme
import CronMonitor.LoadTest.Slo
import CronMonitor.LoadTest.SloLaw
import CronMonitor.LoadTest.Watch
import CronMonitor.LoadTest.WatchLaw
import CronMonitor.LoadTest.Fanout
import CronMonitor.LoadTest.Suite
import CronMonitor.LoadTest.SuiteLaw
import CronMonitor.HealthCheck.Outcome
import CronMonitor.HealthCheck.Validator
import CronMonitor.HealthCheck.ValidatorLaw
import CronMonitor.CronPattern
import CronMonitor.HealthCheck.LockTtl
import CronMonitor.FalseAlarms
import CronMonitor.Frequency
import CronMonitor.LoadTest.Harvest
import CronMonitor.HealthCheck.TokenIsolation
import CronMonitor.Lib.Walks
import CronMonitor.Lib.Outputs
import CronMonitor.Simulator.Cursors
import CronMonitor.Simulator.CursorWalks
import CronMonitor.Lib.Inet
import CronMonitor.HealthCheck.Spellings
import CronMonitor.LoadTest.DataRules
import CronMonitor.LoadTest.DataSecrets
import CronMonitor.Lib.Regex
import CronMonitor.Masking.Pci
import CronMonitor.Masking.PciRuns
import CronMonitor.Masking.PciLaw
import CronMonitor.Masking.Body
import CronMonitor.Lib.JsonEnds
import CronMonitor.Lib.TokenBucket
import CronMonitor.Simulator.RateLimit
import CronMonitor.Lib.Ramps
import CronMonitor.HealthCheck.Retry
import CronMonitor.LoadTest.LoadShape
import CronMonitor.Lib.Buckets
import CronMonitor.LoadTest.Quantiles
import CronMonitor.Lib.Csv
import CronMonitor.Observability.HealthScore
import CronMonitor.Reporting.CsvExports
import CronMonitor.Reporting.Xlsx
import CronMonitor.Reporting.CsvLaw
import CronMonitor.Masking.BodyLaw
import CronMonitor.Simulator.Settlements
import CronMonitor.Simulator.SettlementRuns
import CronMonitor.Simulator.Idempotent
import CronMonitor.Simulator.CanonicalBody
import CronMonitor.Simulator.IdempotencyKeys
import CronMonitor.Lib.AppendOnly
import CronMonitor.Repo.AuditTrail
import CronMonitor.Lib.Throttle
import CronMonitor.Watchdog
import CronMonitor.Auth.Live
import CronMonitor.Auth.WebSession
import CronMonitor.Auth.Access
import CronMonitor.Simulator.StatusSteps
import CronMonitor.Simulator.StatusWalks
import CronMonitor.Simulator.Webhooks
import CronMonitor.Simulator.WebhookCourses
import CronMonitor.Simulator.WebhookTrust
import CronMonitor.Lib.Stories
import CronMonitor.IncidentEvents
import CronMonitor.TimelineLaw
