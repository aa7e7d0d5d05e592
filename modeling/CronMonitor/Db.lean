import CronMonitor.Domain
import CronMonitor.Lib.Effects

/-!
# The database and its clients

The tables the monitor writes, a store that holds them, and the query surface of `src/lib/db.ts`. A
statement is atomic. It runs on the pool, where its effect is committed at once, or on a client whose
open transaction keeps its own version of the tables until `COMMIT`. What Postgres never rolls back, the
sequence behind incident numbers and the stream of random identifiers, sits beside the tables.

Any statement may throw: `failAt = some (n, message)` makes the `n`-th statement from here fail, which
covers lost connections and violated constraints alike. A failed statement changes nothing.
-/

namespace CronMonitor

/-- The text `<target>:<second>`, which both parts can be read back from. -/
structure JobRunId where
  targetId : Uuid
  second : Int
deriving DecidableEq, Repr

/-- The text `lock:job:<target>:<second>`. -/
structure LockKey where
  targetId : Uuid
  second : Int
deriving DecidableEq, Repr

/-- A row of `cron_job_runs`. -/
structure CronJobRun where
  id : Uuid
  targetId : Uuid
  scheduledSlot : Time
  jobRunId : JobRunId
  workerId : String
  lockAcquiredAt : Option Time
  startedAt : Option Time
  completedAt : Option Time
  status : CronRunStatus
  attemptNumber : Nat
deriving DecidableEq, Repr

/-- A row of `health_check_results`. -/
structure HealthCheckResult where
  id : Uuid
  apiId : Uuid
  jobRunId : JobRunId
  checkedAt : Time
  status : HealthStatus
  httpStatus : Option Nat
  responseTimeMs : Option Nat
  errorType : Option CheckFailureType
  errorMessage : Option String
  validationResult : Option String
  responseCode : Option Nat
deriving DecidableEq, Repr

/-- A row of `health_check_traces`. -/
structure HealthCheckTrace where
  checkId : Uuid
  apiId : Uuid
  jobRunId : JobRunId
  requestId : Nat
  correlationId : JobRunId
  checkedAt : Time
  healthStatus : HealthStatus
  attempts : Nat
  failureType : Option CheckFailureType
  trace : RequestResponseTrace
deriving DecidableEq, Repr

/-- A row of `target_schedule_state`. -/
structure TargetScheduleState where
  targetId : Uuid
  lastExpectedRunAt : Option Time
  lastActualRunAt : Option Time
  lastStatus : Option HealthStatus
  consecutiveSuccesses : Nat
  consecutiveFailures : Nat
  missedRunCount : Nat
deriving DecidableEq, Repr

/-- A row of `incidents`. -/
structure Incident where
  id : Uuid
  apiId : Uuid
  incidentNumber : String
  incidentType : IncidentType
  severity : Severity
  endpointClassSnapshot : EndpointClass
  isMoneyMovingSnapshot : Bool
  status : IncidentStatus
  startedAt : Time
  detectedByCheckId : Option Uuid
  resolvedAt : Option Time
  durationSeconds : Option Int
  failureCount : Nat
  failureType : Option CheckFailureType
  escalationLevelReached : Nat
  resolution : Option String
deriving DecidableEq, Repr

/-- The kinds of incident events that a check adds. -/
inductive IncidentEventKind
  | failureChanged | severityEscalated | flappingDetected | latencyElevated | dependencyError | databaseError
  | rcaComputed
deriving DecidableEq, Repr

/-- A row of `incident_events`; `detail` is the JSON text that is stored. -/
structure IncidentEvent where
  incidentId : Uuid
  occurredAt : Time
  kind : IncidentEventKind
  summary : String
  detail : List (String × String)
  source : String
deriving DecidableEq, Repr

/-- A row of `alerts`. -/
structure Alert where
  id : Uuid
  incidentId : Option Uuid
  apiId : Option Uuid
  alertType : AlertType
  channel : AlertChannel
  recipient : String
  status : AlertStatus
  escalationTier : Option Nat
  sentAt : Option Time
  errorMessage : Option String
  createdAt : Time
deriving DecidableEq, Repr

/-- A row of `job_locks`. -/
structure JobLock where
  key : LockKey
  holder : String
  acquiredAt : Time
  expiresAt : Time
deriving DecidableEq, Repr

/-- A row of `notification_contacts`. -/
structure NotificationContact where
  id : Uuid
  channel : AlertChannel
  address : String
  incidentAlerts : Bool
  isActive : Bool
deriving DecidableEq, Repr

/-- The tables, each in insertion order. -/
structure Db where
  cronJobRuns : List CronJobRun
  healthCheckResults : List HealthCheckResult
  healthCheckTraces : List HealthCheckTrace
  scheduleStates : List TargetScheduleState
  incidents : List Incident
  incidentEvents : List IncidentEvent
  alerts : List Alert
  jobLocks : List JobLock
  notificationContacts : List NotificationContact
deriving DecidableEq, Repr

def Db.empty : Db := ⟨[], [], [], [], [], [], [], [], []⟩

/-- The server: a version of the tables, and what no transaction owns. -/
structure Store where
  db : Db
  /-- The next value of `gen_random_uuid`. -/
  nextUuid : Uuid
  /-- The next value of `incident_number_seq`. -/
  incidentNumberSeq : Nat
  now : Time
deriving DecidableEq, Repr

/-- A server just migrated. -/
def Store.empty : Store := ⟨Db.empty, 0, 1, 0⟩

/-- One statement: a result and the store after it. -/
abbrev Stmt (α : Type) := Store → α × Store

/-- `SqlRunner`: the pool, or the client of the open transaction. -/
inductive SqlRunner
  | pool | client
deriving DecidableEq, Repr

/-- A session of one worker: the committed store, the tables as its open transaction sees them, and the
statement that is going to fail. -/
structure Session where
  store : Store
  tx : Option Db
  failAt : Option (Nat × String)
deriving DecidableEq, Repr

abbrev SqlM (α : Type) := Eff String Session α

namespace Session

/-- The store as the client sees it. -/
def clientView (s : Session) : Store := { s.store with db := s.tx.getD s.store.db }

/-- The session after the client's statement left `st`: inside a transaction the tables stay private. -/
def putClient (s : Session) (st : Store) : Session :=
  match s.tx with
  | none => { s with store := st }
  | some _ => { s with store := { st with db := s.store.db }, tx := some st.db }

/-- One statement closer to the failing one. -/
def countdown (s : Session) : Session := { s with failAt := s.failAt.map fun f => (f.1 - 1, f.2) }

def effect {α : Type} (r : SqlRunner) (stmt : Stmt α) (s : Session) : α × Session :=
  match r with
  | .pool => ((stmt s.store).1, { s with store := (stmt s.store).2 })
  | .client => ((stmt s.clientView).1, s.putClient (stmt s.clientView).2)

/-- A step of the session that throws instead when it is the failing one. -/
def guarded {α : Type} (f : Session → α × Session) : SqlM α := fun s =>
  match s.failAt with
  | some (0, message) => (.error message, { s with failAt := none })
  | _ => (.ok (f s.countdown).1, (f s.countdown).2)

end Session

open Session

/-- `query` of `lib/db.ts` and of a pooled client. -/
def query {α : Type} (r : SqlRunner) (stmt : Stmt α) : SqlM α := guarded (effect r stmt)

/-- `getPool().connect()`. -/
def connect : SqlM Unit := guarded fun s => ((), s)

def beginTx : SqlM Unit := guarded fun s => ((), { s with tx := some s.store.db })

def commitTx : SqlM Unit :=
  guarded fun s => ((), { s with store := { s.store with db := s.tx.getD s.store.db }, tx := none })

def rollbackTx : SqlM Unit := guarded fun s => ((), { s with tx := none })

/-- `withTransaction`: the statements of `fn` commit together, or are rolled back when one throws. -/
def withTransaction {α : Type} (fn : SqlM α) : SqlM α := do
  connect
  tryCatch
    (do
      beginTx
      let result ← fn
      commitTx
      return result)
    fun err => do
      rollbackTx
      throw err

end CronMonitor
