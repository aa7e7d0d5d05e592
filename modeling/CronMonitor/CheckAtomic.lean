import CronMonitor.JobRunnerSteps

/-!
# A check is recorded as a whole or not at all

Whatever fails between the start of `execute` and the commit of the result transaction, `runClaimed` leaves
one of two states (`check_all_or_nothing`). Either the transaction is committed with everything the check
calls for, as when nothing fails, or the tables are those after the claim but for the dead-lettered run row
and one alert. The sequence of incident numbers is not rolled back with the tables: a number drawn by the
failed transaction stays drawn (`failed_check_draws_number`).
-/

namespace CronMonitor

open Eff Session

variable (env : Env) (rca : Uuid → Except String (List IncidentEventInput)) (target : MonitoredApi) (slot : Time)
  (claimId : Uuid)

/-- The trace table after the check whose result row is `checkId`. -/
def traceRows (outcome : HealthCheckOutcome) (checkId : Option Uuid) (requestId : Nat) (st : Store) :
    List HealthCheckTrace :=
  match checkId, outcome.trace with
  | some id, some trace =>
    (Sql.insertTrace id target.id (jobRunId target.id slot) requestId outcome trace st).2.db.healthCheckTraces
  | _, _ => st.db.healthCheckTraces

/-- `b` holds on top of `st` everything that the check records before the run row, outside the incident
tables. -/
structure CheckRecorded (outcome : HealthCheckOutcome) (st b : Store) : Prop where
  result : b.db.healthCheckResults =
    (Sql.insertHealthCheckResult target.id (jobRunId target.id slot) outcome st).2.db.healthCheckResults
  trace : ∃ requestId, b.db.healthCheckTraces = traceRows target slot outcome
    (Sql.insertHealthCheckResult target.id (jobRunId target.id slot) outcome st).1 requestId st
  counters : b.db.scheduleStates = (Sql.recordRunOutcome target.id slot outcome.status st).2.db.scheduleStates
  locks : b.db.jobLocks = st.db.jobLocks
  contacts : b.db.notificationContacts = st.db.notificationContacts
  now : b.now = st.now

/-- The tables `d` with the run row dead-lettered and one more alert. -/
def deadLetteredDb (message : String) (alertId : Uuid) (now : Time) (d : Db) : Db :=
  { d with
    cronJobRuns := d.cronJobRuns.map fun r =>
      if r.id = claimId then { r with status := .deadLettered, completedAt := some now } else r
    alerts := d.alerts ++ [{
      id := alertId, incidentId := none, apiId := some target.id, alertType := .jobExecutionFailure
      channel := .webhook, recipient := "ops", status := .pending, escalationTier := none, sentAt := none
      errorMessage := some message, createdAt := now }] }

/-! ### The statements of the transaction when none fails -/

variable {env rca target slot claimId}

theorem recordTrace_returns (outcome : HealthCheckOutcome) (checkId : Option Uuid) (v : Store) :
    TxReturns (· = v) (recordTrace target (jobRunId target.id slot) checkId outcome) fun _ v' =>
      ∃ requestId n, v' = { v with
        nextUuid := n, db := { v.db with healthCheckTraces := traceRows target slot outcome checkId requestId v } } := by
  have hnone : TxReturns (· = v) (pure () : SqlM Unit) fun _ v' =>
      ∃ (_ : Nat) (n : Uuid),
        v' = { v with nextUuid := n, db := { v.db with healthCheckTraces := v.db.healthCheckTraces } } := by
    refine TxReturns.pure ?_
    rintro st rfl
    exact ⟨0, st.nextUuid, rfl⟩
  rcases checkId with _ | id
  · exact hnone
  rcases htrace : outcome.trace with _ | trace <;> simp only [recordTrace, traceRows, htrace]
  · exact hnone
  refine TxReturns.bind (newRequestId_returns v) fun requestId => TxReturns.client ?_
  rintro st rfl
  refine ⟨requestId, v.nextUuid + 1, ?_⟩
  simp only [Sql.insertTrace]
  split <;> rfl

theorem recordRunOutcome_congr (status : HealthStatus) {v w : Store} (hs : w.db.scheduleStates = v.db.scheduleStates)
    (hnow : w.now = v.now) : (Sql.recordRunOutcome target.id slot status w).2.db.scheduleStates =
      (Sql.recordRunOutcome target.id slot status v).2.db.scheduleStates := by
  unfold Sql.recordRunOutcome
  rw [hs, hnow]
  split <;> rfl

theorem insertHealthCheckResult_db (target : MonitoredApi) (slot : Time) (outcome : HealthCheckOutcome) (v : Store) :
    (Sql.insertHealthCheckResult target.id (jobRunId target.id slot) outcome v).2 =
      { v with
        nextUuid := (Sql.insertHealthCheckResult target.id (jobRunId target.id slot) outcome v).2.nextUuid
        db := { v.db with healthCheckResults :=
          (Sql.insertHealthCheckResult target.id (jobRunId target.id slot) outcome v).2.db.healthCheckResults } } := by
  unfold Sql.insertHealthCheckResult
  split <;> rfl

theorem traceRows_congr (outcome : HealthCheckOutcome) (checkId : Option Uuid) (requestId : Nat) {v w : Store}
    (h : w.db.healthCheckTraces = v.db.healthCheckTraces) :
    traceRows target slot outcome checkId requestId w = traceRows target slot outcome checkId requestId v := by
  unfold traceRows
  split
  · simp only [Sql.insertTrace, h]
    split
    · exact h
    · rfl
  · exact h

/-- Everything but the run row, when no statement fails. -/
theorem recordCheck_returns (outcome : HealthCheckOutcome) (st : Store) :
    TxReturns (· = st) (recordCheck env target slot outcome) fun _ b =>
      CheckRecorded target slot outcome st b ∧ b.db.cronJobRuns = st.db.cronJobRuns := by
  refine TxReturns.bind (TxReturns.send _ st) fun checkId => TxReturns.of_forall ?_
  rintro v₁ ⟨rfl, rfl⟩
  have hins := insertHealthCheckResult_db target slot outcome st
  set v₁ := (Sql.insertHealthCheckResult target.id (jobRunId target.id slot) outcome st).2
  refine TxReturns.bind (recordTrace_returns outcome _ v₁) fun _ => TxReturns.of_forall ?_
  rintro v₂ ⟨requestId, n, hv₂⟩
  refine TxReturns.bind (TxReturns.send _ v₂) fun counters => TxReturns.of_forall ?_
  rintro v₃ ⟨-, hv₃⟩
  rw [recordRunOutcome_db] at hv₃
  refine ((processCheckOutcome_writes env _).returns v₃).conseq (fun _ h => h) fun t b hb => ?_
  refine ⟨⟨?_, ⟨requestId, ?_⟩, ?_, ?_, ?_, ?_⟩, ?_⟩
  · rw [hb.db, hv₃, hv₂]
  · rw [hb.db, hv₃, hv₂]
    exact traceRows_congr outcome _ _ (by rw [hins])
  · rw [hb.db, hv₃]
    exact recordRunOutcome_congr outcome.status (by rw [hv₂, hins]) (by rw [hv₂, hins])
  · rw [hb.db, hv₃, hv₂, hins]
  · rw [hb.db, hv₃, hv₂, hins]
  · rw [hb.now, hv₃, hv₂, hins]
  · rw [hb.db, hv₃, hv₂, hins]

/-- With no statement failing, the transaction returns and has recorded everything. -/
theorem recordAndComplete_returns (outcome : HealthCheckOutcome) (st : Store) :
    TxReturns (· = st) (recordAndComplete env target slot claimId outcome) fun _ b =>
      CheckRecorded target slot outcome st b ∧
        b.db.cronJobRuns = (Sql.completeJobRun claimId .success st).2.db.cronJobRuns := by
  refine TxReturns.bind (recordCheck_returns outcome st) fun t => TxReturns.bind (TxReturns.client (Q := fun _ b =>
    CheckRecorded target slot outcome st b ∧
      b.db.cronJobRuns = (Sql.completeJobRun claimId .success st).2.db.cronJobRuns) ?_) fun _ => TxReturns.pure fun _ h => h
  rintro v ⟨h, hrun⟩
  refine ⟨⟨h.result, h.trace, h.counters, h.locks, h.contacts, h.now⟩, ?_⟩
  simp only [Sql.completeJobRun, hrun, h.now]

/-! ### From the claim to the result -/

theorem exec_deadLetter (target : MonitoredApi) (claimId : Uuid) {s : Session} (hfail : s.failAt = none)
    (message : String) :
    (exec (deadLetter target claimId message) s).1 = .ok (.deadLettered message) ∧
      (exec (deadLetter target claimId message) s).2.store =
        { s.store with
          nextUuid := s.store.nextUuid + 1
          db := deadLetteredDb target claimId message s.store.nextUuid s.store.now s.store.db } := by
  obtain ⟨store, tx, failAt⟩ := s
  cases hfail
  exact ⟨rfl, rfl⟩

/-- What a committed transaction leaves, and what the root-cause analysis adds to it. -/
theorem exec_executeAndRecord_ok (rca : Uuid → Except String (List IncidentEventInput)) {outcome : HealthCheckOutcome}
    {st : Store} {failAt : Option (Nat × String)} {t : IncidentTransition} {s' : Session}
    (hx : exec (withTransaction (recordAndComplete env target slot claimId outcome)) ⟨st, none, failAt⟩ = (.ok t, s')) :
    (exec (executeAndRecord env rca target slot claimId (.ok outcome)) ⟨st, none, failAt⟩).1 = .ok (.executed outcome) ∧
      MoreEvents s'.store (exec (executeAndRecord env rca target slot claimId (.ok outcome)) ⟨st, none, failAt⟩).2.store := by
  have hok := refreshRcaFor_exec rca t s'
  have hmore := refreshRcaFor_moves rca t s'
  simp only [executeAndRecord]
  rw [exec_bind_ok hx]
  rcases hr : exec (refreshRcaFor rca t) s' with ⟨r, s''⟩
  rw [hr] at hok hmore
  cases hok
  rw [exec_bind_ok hr]
  exact ⟨rfl, hmore⟩

/-- For every outcome of `execute` and every single failure in it or in the transaction: everything the check
calls for is committed, as when nothing fails; or nothing of it is, and the tables are those after the claim
with the run dead-lettered and one more alert. In the second case an incident number may have been drawn. -/
theorem check_all_or_nothing {st : Store} {failAt : Option (Nat × String)}
    {execution : Except String HealthCheckOutcome} {r : Except String RunResult × Session}
    (hsingle : ∀ e, execution = .error e → failAt = none)
    (hr : exec (runClaimed env rca target slot claimId execution) ⟨st, none, failAt⟩ = r) :
    (∃ outcome t v events, execution = .ok outcome ∧ r.1 = .ok (.executed outcome) ∧
        exec (recordAndComplete env target slot claimId outcome) ⟨st, some st.db, none⟩ = (.ok t, v) ∧
        CheckRecorded target slot outcome st v.clientView ∧
        v.clientView.db.cronJobRuns = (Sql.completeJobRun claimId .success st).2.db.cronJobRuns ∧
        r.2.store = { v.clientView with db := { v.clientView.db with
          incidentEvents := v.clientView.db.incidentEvents ++ events } }) ∨
      ∃ message alertId n seq, r.1 = .ok (.deadLettered message) ∧
        r.2.store = ⟨deadLetteredDb target claimId message alertId st.now st.db, n, seq, st.now⟩ ∧
        (seq = st.incidentNumberSeq ∨ seq = st.incidentNumberSeq + 1) := by
  subst hr
  cases execution with
  | error e =>
    obtain ⟨hres, hstore⟩ := exec_deadLetter target claimId (s := ⟨st, none, failAt⟩) (hsingle e rfl) e
    exact .inr ⟨e, _, _, _, hres, hstore, .inl rfl⟩
  | ok outcome =>
    have hmoves := recordAndComplete_moves env target slot claimId outcome
    have hplain := recordAndComplete_plain env target slot claimId outcome
    rcases hx : exec (withTransaction (recordAndComplete env target slot claimId outcome)) ⟨st, none, failAt⟩
      with ⟨e | t, s'⟩
    · obtain ⟨-, hspent, st', hst', hstore⟩ := withTransaction_error Recorded.refl hmoves hplain rfl hx
      obtain ⟨hres, hdead⟩ := exec_deadLetter target claimId hspent e
      have hrun : exec (runClaimed env rca target slot claimId (.ok outcome)) ⟨st, none, failAt⟩ =
          exec (deadLetter target claimId e) s' := by
        simp only [runClaimed, exec_tryCatch, executeAndRecord]
        rw [exec_bind_error hx]
      rw [hrun]
      refine .inr ⟨e, st'.nextUuid, st'.nextUuid + 1, st'.incidentNumberSeq, hres, ?_, ?_⟩
      · rw [hdead, hstore]
        simp only [show st'.now = st.now from hst'.now]
      · have hge : st.incidentNumberSeq ≤ st'.incidentNumberSeq := hst'.seq_ge
        have hle : st'.incidentNumberSeq ≤ st.incidentNumberSeq + 1 := hst'.seq_le
        omega
    · obtain ⟨v, hv, -, hstore⟩ := withTransaction_ok Recorded.refl hmoves hplain hx
      obtain ⟨hres, events, hevents⟩ := exec_executeAndRecord_ok rca hx
      obtain ⟨-, hrec, hruns⟩ := (recordAndComplete_returns outcome st).exec ⟨rfl, rfl, rfl⟩ rfl hv
      have hrun : exec (runClaimed env rca target slot claimId (.ok outcome)) ⟨st, none, failAt⟩ =
          exec (executeAndRecord env rca target slot claimId (.ok outcome)) ⟨st, none, failAt⟩ := by
        rw [runClaimed, exec_tryCatch]
        rcases hy : exec (executeAndRecord env rca target slot claimId (.ok outcome)) ⟨st, none, failAt⟩ with ⟨r, s''⟩
        rw [hy] at hres
        cases hres
        rfl
      rw [hrun]
      refine .inl ⟨outcome, t, v, events, rfl, hres, hv, hrec, hruns, ?_⟩
      rw [hevents, hstore]

/-- A check that found its target down, for which no trace was captured. -/
def downOutcome : HealthCheckOutcome where
  status := .down
  httpStatus := none
  responseTimeMs := none
  failureType := some .connectionError
  errorMessage := some "ECONNREFUSED"
  validation := none
  attempts := 3
  trace := none
  checkedAt := 60500

/-- The store after the claim of the slot `60000` on an empty database. -/
def claimedStore : Store :=
  (Sql.claimJobRun ⟨makeMonitoredApi.id, 60000, jobRunId makeMonitoredApi.id 60000, "w1"⟩ Store.empty).2

/-- The alert of the opened incident cannot be written: the transaction is rolled back. -/
def lostConnection : Option (Nat × String) := some (6, "connection lost")

theorem check_all_or_nothing_lostConnection :
    ∃ r, exec (runClaimed Env.default (fun _ => .ok []) makeMonitoredApi 60000 0 (.ok downOutcome))
        ⟨claimedStore, none, lostConnection⟩ = r ∧
      ∃ message alertId n seq, r.1 = .ok (.deadLettered message) ∧
        r.2.store = ⟨deadLetteredDb makeMonitoredApi 0 message alertId claimedStore.now claimedStore.db, n, seq,
          claimedStore.now⟩ ∧
        (seq = claimedStore.incidentNumberSeq ∨ seq = claimedStore.incidentNumberSeq + 1) := by
  obtain ⟨r, hr⟩ : ∃ r, exec (runClaimed Env.default (fun _ => .ok []) makeMonitoredApi 60000 0 (.ok downOutcome))
      ⟨claimedStore, none, lostConnection⟩ = r := ⟨_, rfl⟩
  refine ⟨r, hr, ?_⟩
  rcases check_all_or_nothing (fun e h => by cases h) hr with ⟨o, t, v, es, -, hres, -⟩ | h
  · rw [← hr] at hres
    cases hres
  · exact h

/-- The incident that the failed transaction opened is gone, and so is its number: the next one is `2`. -/
theorem failed_check_draws_number :
    ∃ r, exec (runClaimed Env.default (fun _ => .ok []) makeMonitoredApi 60000 0 (.ok downOutcome))
        ⟨claimedStore, none, lostConnection⟩ = r ∧ r.1 = .ok (.deadLettered "connection lost") ∧
      r.2.store.db.incidents = [] ∧ claimedStore.incidentNumberSeq = 1 ∧ r.2.store.incidentNumberSeq = 2 :=
  ⟨_, rfl, rfl, rfl, rfl, rfl⟩

end CronMonitor
