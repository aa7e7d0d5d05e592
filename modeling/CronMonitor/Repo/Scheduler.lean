import CronMonitor.Db

/-!
# `scheduler.repo.ts`, `lock.service.ts` and the trace table

`Sql.f` is the meaning of the statement that the repository function `f` sends; `f` itself sends it on
the runner it is given. Functions of the source that take no client run on the pool.
-/

namespace CronMonitor

/-- The columns of `cron_job_runs` that a caller supplies. -/
structure JobRunInput where
  targetId : Uuid
  scheduledSlot : Time
  jobRunId : JobRunId
  workerId : String
deriving DecidableEq, Repr

/-- The key of `cron_job_runs_slot_attempt_unique`. -/
def CronJobRun.key (r : CronJobRun) : Uuid × Time × Nat := (r.targetId, r.scheduledSlot, r.attemptNumber)

/-- The key of the first attempt, the only one the job runner makes. -/
def JobRunInput.key (i : JobRunInput) : Uuid × Time × Nat := (i.targetId, i.scheduledSlot, 1)

structure AlertInput where
  alertType : AlertType
  channel : AlertChannel
  recipient : String
  incidentId : Option Uuid
  apiId : Option Uuid
  errorMessage : Option String
deriving DecidableEq, Repr

def CronRunStatus.isTerminal : CronRunStatus → Bool
  | .success | .deadLettered => true
  | .running | .failed | .skippedLockContended => false

namespace Sql

/-- `INSERT … ON CONFLICT (target_id, scheduled_slot, attempt_number) DO NOTHING RETURNING id`. -/
def claimJobRun (i : JobRunInput) : Stmt (Option Uuid) := fun st =>
  if st.db.cronJobRuns.any (·.key = i.key) then (none, st)
  else
    (some st.nextUuid,
      { st with
        nextUuid := st.nextUuid + 1
        db := { st.db with
          cronJobRuns := st.db.cronJobRuns ++ [{
            id := st.nextUuid, targetId := i.targetId, scheduledSlot := i.scheduledSlot, jobRunId := i.jobRunId
            workerId := i.workerId, lockAcquiredAt := some st.now, startedAt := some st.now, completedAt := none
            status := .running, attemptNumber := 1 }] } })

/-- `UPDATE cron_job_runs SET status = $2, completed_at = now() WHERE id = $1`. -/
def completeJobRun (id : Uuid) (status : CronRunStatus) : Stmt Unit := fun st =>
  ((), { st with db := { st.db with cronJobRuns := st.db.cronJobRuns.map fun r =>
    if r.id = id then { r with status, completedAt := some st.now } else r } })

/-- `INSERT … ON CONFLICT (…) DO UPDATE SET status = EXCLUDED.status, completed_at = now()`. -/
def recordSkippedRun (i : JobRunInput) (status : CronRunStatus) : Stmt Unit := fun st =>
  if st.db.cronJobRuns.any (·.key = i.key) then
    ((), { st with db := { st.db with cronJobRuns := st.db.cronJobRuns.map fun r =>
      if r.key = i.key then { r with status, completedAt := some st.now } else r } })
  else
    ((), { st with
      nextUuid := st.nextUuid + 1
      db := { st.db with
        cronJobRuns := st.db.cronJobRuns ++ [{
          id := st.nextUuid, targetId := i.targetId, scheduledSlot := i.scheduledSlot, jobRunId := i.jobRunId
          workerId := i.workerId, lockAcquiredAt := none, startedAt := some st.now, completedAt := some st.now
          status, attemptNumber := 1 }] } })

/-- `SELECT 1 … WHERE job_run_id = $1 AND status IN ('SUCCESS','DEAD_LETTERED')`. -/
def jobRunExists (id : JobRunId) : Stmt Bool := fun st =>
  (st.db.cronJobRuns.any fun r => r.jobRunId = id && r.status.isTerminal, st)

/-- `INSERT … ON CONFLICT (job_run_id) DO NOTHING RETURNING id`. -/
def insertHealthCheckResult (apiId : Uuid) (jobRunId : JobRunId) (o : HealthCheckOutcome) :
    Stmt (Option Uuid) := fun st =>
  if st.db.healthCheckResults.any (·.jobRunId = jobRunId) then (none, st)
  else
    (some st.nextUuid,
      { st with
        nextUuid := st.nextUuid + 1
        db := { st.db with
          healthCheckResults := st.db.healthCheckResults ++ [{
            id := st.nextUuid, apiId, jobRunId, checkedAt := o.checkedAt, status := o.status
            httpStatus := o.httpStatus, responseTimeMs := o.responseTimeMs, errorType := o.failureType
            errorMessage := o.errorMessage, validationResult := o.validation, responseCode := o.httpStatus }] } })

/-- `INSERT INTO health_check_traces … ON CONFLICT (check_id) DO NOTHING`. -/
def insertTrace (checkId apiId : Uuid) (jobRunId : JobRunId) (requestId : Nat) (o : HealthCheckOutcome)
    (trace : RequestResponseTrace) : Stmt Unit := fun st =>
  if st.db.healthCheckTraces.any (·.checkId = checkId) then ((), st)
  else
    ((), { st with db := { st.db with
      healthCheckTraces := st.db.healthCheckTraces ++ [{
        checkId, apiId, jobRunId, requestId, correlationId := jobRunId, checkedAt := o.checkedAt
        healthStatus := o.status, attempts := o.attempts, failureType := o.failureType, trace }] } })

/-- The row `recordRunOutcome` leaves for a target that had none. -/
def firstScheduleState (targetId : Uuid) (slot now : Time) (status : HealthStatus) : TargetScheduleState where
  targetId
  lastExpectedRunAt := some slot
  lastActualRunAt := some now
  lastStatus := some status
  consecutiveSuccesses := if status = .up then 1 else 0
  consecutiveFailures := if status = .down then 1 else 0
  missedRunCount := 0

/-- The `DO UPDATE SET` of `recordRunOutcome`: only an `UP` extends the streak of successes, only a `DOWN`
that of failures. -/
def nextScheduleState (slot now : Time) (status : HealthStatus) (r : TargetScheduleState) :
    TargetScheduleState :=
  { r with
    lastExpectedRunAt := some slot
    lastActualRunAt := some now
    lastStatus := some status
    consecutiveSuccesses := if status = .up then r.consecutiveSuccesses + 1 else 0
    consecutiveFailures :=
      if status = .down then r.consecutiveFailures + 1 else if status = .up then 0 else r.consecutiveFailures }

/-- The upsert returns the two counters. -/
def recordRunOutcome (targetId : Uuid) (slot : Time) (status : HealthStatus) : Stmt (Nat × Nat) := fun st =>
  match st.db.scheduleStates.find? (·.targetId = targetId) with
  | some r =>
    let r' := nextScheduleState slot st.now status r
    ((r'.consecutiveSuccesses, r'.consecutiveFailures),
      { st with db := { st.db with scheduleStates := st.db.scheduleStates.map fun r =>
        if r.targetId = targetId then nextScheduleState slot st.now status r else r } })
  | none =>
    let r := firstScheduleState targetId slot st.now status
    ((r.consecutiveSuccesses, r.consecutiveFailures),
      { st with db := { st.db with scheduleStates := st.db.scheduleStates ++ [r] } })

/-- `INSERT … ON CONFLICT (target_id) DO UPDATE SET missed_run_count = … + $2`. -/
def bumpMissedRunCount (targetId : Uuid) (n : Nat) : Stmt Unit := fun st =>
  if st.db.scheduleStates.any (·.targetId = targetId) then
    ((), { st with db := { st.db with scheduleStates := st.db.scheduleStates.map fun r =>
      if r.targetId = targetId then { r with missedRunCount := r.missedRunCount + n } else r } })
  else
    ((), { st with db := { st.db with
      scheduleStates := st.db.scheduleStates ++ [{
        targetId, lastExpectedRunAt := none, lastActualRunAt := none, lastStatus := none
        consecutiveSuccesses := 0, consecutiveFailures := 0, missedRunCount := n }] } })

def recordAlert (i : AlertInput) : Stmt Unit := fun st =>
  ((), { st with
    nextUuid := st.nextUuid + 1
    db := { st.db with
      alerts := st.db.alerts ++ [{
        id := st.nextUuid, incidentId := i.incidentId, apiId := i.apiId, alertType := i.alertType
        channel := i.channel, recipient := i.recipient, status := .pending, escalationTier := none
        sentAt := none, errorMessage := i.errorMessage, createdAt := st.now }] } })

/-- `INSERT INTO job_locks … ON CONFLICT (key) DO UPDATE … WHERE job_locks.expires_at < now()`: true when a
row came back, which then names this holder. -/
def acquireLock (key : LockKey) (holder : String) (ttlMs : Nat) : Stmt Bool := fun st =>
  let lock : JobLock := { key, holder, acquiredAt := st.now, expiresAt := st.now + ttlMs }
  match st.db.jobLocks.find? (·.key = key) with
  | none => (true, { st with db := { st.db with jobLocks := st.db.jobLocks ++ [lock] } })
  | some held =>
    if held.expiresAt < st.now then
      (true, { st with db := { st.db with jobLocks := st.db.jobLocks.map fun l =>
        if l.key = key then lock else l } })
    else (false, st)

/-- `DELETE FROM job_locks WHERE key = $1 AND holder = $2`. -/
def releaseLock (key : LockKey) (holder : String) : Stmt Unit := fun st =>
  ((), { st with db := { st.db with jobLocks := st.db.jobLocks.filter fun l =>
    !(l.key = key && l.holder = holder) } })

end Sql

def claimJobRun (i : JobRunInput) (runner : SqlRunner) : SqlM (Option Uuid) := query runner (Sql.claimJobRun i)

def completeJobRun (id : Uuid) (status : CronRunStatus) (runner : SqlRunner) : SqlM Unit :=
  query runner (Sql.completeJobRun id status)

def recordSkippedRun (i : JobRunInput) (status : CronRunStatus) : SqlM Unit :=
  query .pool (Sql.recordSkippedRun i status)

def jobRunExists (id : JobRunId) : SqlM Bool := query .pool (Sql.jobRunExists id)

def insertHealthCheckResult (apiId : Uuid) (jobRunId : JobRunId) (o : HealthCheckOutcome) (runner : SqlRunner) :
    SqlM (Option Uuid) :=
  query runner (Sql.insertHealthCheckResult apiId jobRunId o)

def insertTrace (checkId apiId : Uuid) (jobRunId : JobRunId) (requestId : Nat) (o : HealthCheckOutcome)
    (trace : RequestResponseTrace) (runner : SqlRunner) : SqlM Unit :=
  query runner (Sql.insertTrace checkId apiId jobRunId requestId o trace)

def recordRunOutcome (targetId : Uuid) (slot : Time) (status : HealthStatus) (runner : SqlRunner) :
    SqlM (Nat × Nat) :=
  query runner (Sql.recordRunOutcome targetId slot status)

def bumpMissedRunCount (targetId : Uuid) (n : Nat) : SqlM Unit := query .pool (Sql.bumpMissedRunCount targetId n)

def recordAlert (i : AlertInput) (runner : SqlRunner) : SqlM Unit := query runner (Sql.recordAlert i)

def acquireLock (key : LockKey) (holder : String) (ttlMs : Nat) : SqlM Bool :=
  query .pool (Sql.acquireLock key holder ttlMs)

def releaseLock (key : LockKey) (holder : String) : SqlM Unit := query .pool (Sql.releaseLock key holder)

end CronMonitor
