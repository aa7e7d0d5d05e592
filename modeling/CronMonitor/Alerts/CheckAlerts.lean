import CronMonitor.Alerts.Frame
import CronMonitor.CheckAtomic

/-!
# The alerts of a whole check

The result transaction of a check, whatever branch the state machine takes, queues alerts about its target under fresh
identifiers and leaves the alerts that there are (`check_queues`).
-/

namespace CronMonitor

open Eff

/-- Pending alerts about `apiId` are added under fresh identifiers. -/
structure Queues (apiId : Uuid) (a b : Store) : Prop where
  uuid : a.nextUuid ≤ b.nextUuid
  alerts : ∃ new, b.db.alerts = a.db.alerts ++ new ∧ Drawn a.nextUuid b.nextUuid (new.map (·.id)) ∧
    ∀ n ∈ new, n.status = .pending ∧ n.apiId = some apiId

variable {apiId : Uuid} {a b c : Store}

theorem Queues.of_eq (hal : b.db.alerts = a.db.alerts) (huuid : a.nextUuid ≤ b.nextUuid) : Queues apiId a b :=
  ⟨huuid, [], by simp [hal], .nil, by simp⟩

theorem Queues.refl (a : Store) : Queues apiId a a := .of_eq rfl le_rfl

theorem Queues.trans (h : Queues apiId a b) (h' : Queues apiId b c) : Queues apiId a c := by
  obtain ⟨new, hal, hdrawn, hnew⟩ := h.alerts
  obtain ⟨new', hal', hdrawn', hnew'⟩ := h'.alerts
  refine ⟨h.uuid.trans h'.uuid, new ++ new', by rw [hal', hal, List.append_assoc], ?_, ?_⟩
  · rw [List.map_append]
    exact hdrawn.append hdrawn' h.uuid h'.uuid
  · exact List.forall_mem_append.2 ⟨hnew, hnew'⟩

theorem Queues.alert {new : Alert} (hal : b.db.alerts = a.db.alerts ++ [new]) (hid : new.id = a.nextUuid)
    (hnext : b.nextUuid = a.nextUuid + 1) (hnew : new.status = .pending ∧ new.apiId = some apiId) : Queues apiId a b := by
  refine ⟨hnext ▸ Nat.le_succ _, [new], hal, ⟨List.nodup_singleton _, ?_⟩, by simpa using hnew⟩
  simp [hid, hnext]

/-! ### Transactions -/

/-- Where no statement fails, the client's view has such alerts added. -/
def TxQueues (apiId : Uuid) {α : Type} (m : SqlM α) : Prop := ∀ v, TxReturns (· = v) m fun _ v' => Queues apiId v v'

namespace TxQueues

variable {α β : Type} {m : SqlM α}

theorem pure (x : α) : TxQueues apiId (Pure.pure x : SqlM α) := fun _ => TxReturns.pure fun st h => h ▸ .refl st

theorem client {stmt : Stmt α} (h : ∀ st, Queues apiId st (stmt st).2) : TxQueues apiId (query .client stmt) :=
  fun _ => TxReturns.client fun st hst => hst ▸ h st

theorem pool {stmt : Stmt α} (h : ∀ st, (stmt st).2 = st) : TxQueues apiId (query .pool stmt) :=
  fun _ => TxReturns.pool h fun _ st hst => hst ▸ .refl st

theorem bind {f : α → SqlM β} (hm : TxQueues apiId m) (hf : ∀ x, TxQueues apiId (f x)) : TxQueues apiId (m >>= f) :=
  fun v => TxReturns.bind (hm v) fun x => TxReturns.of_forall fun v' hv' =>
    (hf x v').conseq (fun _ h => h) fun _ _ h => hv'.trans h

theorem forM {g : β → SqlM PUnit} (hg : ∀ x, TxQueues apiId (g x)) : ∀ l : List β, TxQueues apiId (l.forM g)
  | [] => pure _
  | x :: l => bind (hg x) fun _ => forM hg l

/-- A statement that leaves the alerts alone. -/
theorem quiet {stmt : Stmt α} (hal : ∀ st, (stmt st).2.db.alerts = st.db.alerts)
    (huuid : ∀ st : Store, st.nextUuid ≤ (stmt st).2.nextUuid) : TxQueues apiId (query .client stmt) :=
  client fun st => .of_eq (hal st) (huuid st)

end TxQueues

/-! ### The branches of the state machine -/

section Branches

variable (env : Env)

theorem recordAlert_queues (i : AlertInput) (h : i.apiId = some apiId) : TxQueues apiId (recordAlert i .client) :=
  TxQueues.client fun _ => .alert rfl rfl rfl ⟨rfl, h⟩

theorem recordIncidentEvent_queues (i : IncidentEventInput) : TxQueues apiId (recordIncidentEvent i .client) :=
  TxQueues.quiet (fun _ => rfl) fun _ => le_rfl

theorem updateIncident_queues (id : Uuid) (f : Incident → Incident) :
    TxQueues apiId (query .client (Sql.updateIncident id f)) :=
  TxQueues.quiet (fun _ => rfl) fun _ => le_rfl

theorem incidentAlertContacts_queues : TxQueues apiId incidentAlertContacts := TxQueues.pool fun _ => rfl

theorem recordDefaultAlerts_queues (ty : AlertType) (incidentId : Uuid) (msg : String) :
    TxQueues apiId (recordDefaultAlerts env ty apiId incidentId msg .client) := by
  unfold recordDefaultAlerts
  refine TxQueues.bind (TxQueues.forM (fun _ => recordAlert_queues _ rfl) _) fun _ => ?_
  exact TxQueues.bind incidentAlertContacts_queues fun _ => TxQueues.forM (fun _ => recordAlert_queues _ rfl) _

theorem queueRecoveryAlerts_queues (incidentId : Uuid) :
    TxQueues apiId (queueRecoveryAlerts env incidentId apiId .client) := by
  unfold queueRecoveryAlerts
  refine TxQueues.bind (TxQueues.pool fun _ => rfl) fun _ => TxQueues.bind incidentAlertContacts_queues fun _ => ?_
  refine TxQueues.forM (fun d => TxQueues.bind (TxQueues.client fun st => ?_) fun _ => TxQueues.pure _) _
  exact .alert rfl rfl rfl ⟨rfl, rfl⟩

theorem checkFlapping_queues (target : MonitoredApi) (active : Option Incident) :
    TxQueues target.id (checkFlapping env target active .client) := by
  unfold checkFlapping
  refine TxQueues.bind (TxQueues.quiet (fun _ => rfl) fun _ => le_rfl) fun transitions => ?_
  split
  · exact TxQueues.pure _
  cases active with
  | none => exact TxQueues.pure _
  | some i =>
    simp only
    split
    · refine TxQueues.bind (updateIncident_queues _ _) fun _ => ?_
      refine TxQueues.bind (recordIncidentEvent_queues _) fun _ => ?_
      exact TxQueues.bind (recordDefaultAlerts_queues env _ _ _) fun _ => TxQueues.pure _
    · exact TxQueues.pure _

theorem openForCheck_queues (ctx : CheckContext) : TxQueues ctx.target.id (openForCheck env ctx .client) := by
  unfold openForCheck
  refine TxQueues.bind (TxQueues.quiet (fun _ => rfl) fun _ => Nat.le_succ _) fun incident => ?_
  refine TxQueues.bind (recordDefaultAlerts_queues env _ _ _) fun _ => ?_
  refine TxQueues.bind (checkFlapping_queues env _ _) fun flapped => ?_
  cases flapped with
  | none => exact TxQueues.pure _
  | some f =>
    simp only
    split <;> exact TxQueues.pure _

theorem recordFailure_queues (ctx : CheckContext) (active : Incident) :
    TxQueues ctx.target.id (recordFailure env ctx active .client) := by
  unfold recordFailure noteFailureChange promoteIfDegraded
  refine TxQueues.bind ?_ fun _ => TxQueues.bind (updateIncident_queues _ _) fun _ =>
    TxQueues.bind ?_ fun active' => TxQueues.bind (checkFlapping_queues env _ _) fun flapped => ?_
  · split
    · exact TxQueues.pure _
    · split
      · exact TxQueues.pure _
      · exact recordIncidentEvent_queues _
  · split
    · refine TxQueues.bind (updateIncident_queues _ _) fun _ => ?_
      refine TxQueues.bind (updateIncident_queues _ _) fun _ => ?_
      exact TxQueues.bind (recordIncidentEvent_queues _) fun _ => TxQueues.pure _
    · exact TxQueues.pure _
  · cases flapped with
    | none => exact TxQueues.pure _
    | some f =>
      simp only
      split <;> exact TxQueues.pure _

theorem recoverIfStreak_queues (ctx : CheckContext) (active : Incident) :
    TxQueues ctx.target.id (recoverIfStreak env ctx active .client) := by
  unfold recoverIfStreak
  split
  · refine TxQueues.bind (TxQueues.quiet (fun _ => rfl) fun _ => le_rfl) fun resolved => ?_
    cases resolved with
    | none => exact TxQueues.pure _
    | some r => exact TxQueues.bind (queueRecoveryAlerts_queues env _) fun _ => TxQueues.pure _
  · exact TxQueues.pure _

theorem processCheckOutcome_queues (ctx : CheckContext) :
    TxQueues ctx.target.id (processCheckOutcome env ctx .client) := by
  refine TxQueues.bind (TxQueues.quiet (fun _ => rfl) fun _ => le_rfl) fun active => ?_
  unfold processFound
  split
  · exact TxQueues.pure _
  · exact TxQueues.pure _
  · exact recoverIfStreak_queues env ctx _
  · exact openForCheck_queues env ctx
  · exact openForCheck_queues env ctx
  · exact recordFailure_queues env ctx _
  · exact recordFailure_queues env ctx _

/-! ### The transaction -/

variable (target : MonitoredApi) (slot : Time) (claimId : Uuid) (outcome : HealthCheckOutcome)

theorem recordTrace_queues (runId : JobRunId) (checkId : Option Uuid) :
    TxQueues apiId (recordTrace target runId checkId outcome) := by
  unfold recordTrace
  split
  · refine TxQueues.bind (fun v => (newRequestId_returns v).conseq (fun _ h => h) ?_) fun requestId => ?_
    · rintro n st rfl
      exact .of_eq rfl (Nat.le_succ _)
    · refine TxQueues.quiet (fun st => ?_) fun st => ?_ <;> unfold Sql.insertTrace <;> split <;> rfl
  · exact TxQueues.pure _

/-- What follows the result row. -/
theorem recordCheck_rest_queues (checkId : Option Uuid) : TxQueues target.id (do
    recordTrace target (jobRunId target.id slot) checkId outcome
    let counters ← recordRunOutcome target.id slot outcome.status .client
    processCheckOutcome env ⟨target, outcome.status, outcome.failureType, checkId, counters.1⟩ .client) := by
  refine TxQueues.bind (recordTrace_queues target outcome _ _) fun _ =>
    TxQueues.bind (TxQueues.quiet (fun st => ?_) fun st => ?_) fun counters => processCheckOutcome_queues env _
  · unfold Sql.recordRunOutcome
    split <;> rfl
  · unfold Sql.recordRunOutcome
    split <;> exact le_rfl

theorem insertHealthCheckResult_queues (runId : JobRunId) (st : Store) :
    Queues apiId st (Sql.insertHealthCheckResult target.id runId outcome st).2 := by
  unfold Sql.insertHealthCheckResult
  split
  · exact .refl st
  · exact .of_eq rfl (Nat.le_succ _)

/-- The alerts of the transaction come after the identifier of its result. -/
theorem recordAndComplete_queues (st : Store) :
    TxReturns (· = st) (recordAndComplete env target slot claimId outcome) fun _ b => Queues target.id
      (Sql.insertHealthCheckResult target.id (jobRunId target.id slot) outcome st).2 b := by
  set inserted := (Sql.insertHealthCheckResult target.id (jobRunId target.id slot) outcome st).2 with hinserted
  have hcheck : TxReturns (· = st) (recordCheck env target slot outcome) fun _ b => Queues target.id inserted b := by
    refine TxReturns.bind (TxReturns.send _ st) fun checkId => TxReturns.of_forall ?_
    rintro v ⟨-, rfl⟩
    exact recordCheck_rest_queues env target slot outcome checkId _
  refine TxReturns.bind hcheck fun t => TxReturns.of_forall fun v hv => ?_
  have hend : TxQueues target.id (completeJobRun claimId .success .client >>= fun _ => pure t) :=
    TxQueues.bind (TxQueues.quiet (fun _ => rfl) fun _ => le_rfl) fun _ => TxQueues.pure _
  exact (hend v).conseq (fun _ h => h) fun _ _ h => hv.trans h

/-- What the result transaction commits. -/
theorem check_queues (st : Store) :
    let inserted := (Sql.insertHealthCheckResult target.id (jobRunId target.id slot) outcome st).2
    let st' := ((withTransaction (recordAndComplete env target slot claimId outcome)).exec ⟨st, none, none⟩).2.store
    Queues target.id st st' ∧ inserted.nextUuid ≤ st'.nextUuid ∧
      st'.db.healthCheckResults = inserted.db.healthCheckResults := by
  obtain ⟨t, st', hx, hqueues, hrecorded⟩ := withTransaction_returns
    ((recordAndComplete_queues env target slot claimId outcome st).and
      (@recordAndComplete_returns env target slot claimId outcome st))
  simp only [hx]
  exact ⟨(insertHealthCheckResult_queues target outcome _ st).trans hqueues, hqueues.uuid, hrecorded.1.result⟩

end Branches

end CronMonitor
