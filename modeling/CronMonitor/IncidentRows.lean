import CronMonitor.ResultTx

/-!
# What one check does to the incident table

`nextIncidents` is the incident table after a check as a function of the store before it: which row is
opened, which row takes the failure, which row is resolved. `processCheckOutcome_incidents` says that the
state machine, with its alerts and timeline entries, leaves exactly that table. Everything about the life of
incidents is derived from it.
-/

namespace CronMonitor

open Eff Session

variable (env : Env) (ctx : CheckContext)

/-- The target changed state too often in the window. -/
def isFlapping (v : Store) : Bool :=
  env.flappingThreshold ≤ (Sql.countStatusTransitions ctx.target.id env.flappingWindowMinutes v).1

/-- The incident that a failing check asks for when none is open. -/
def openInput : OpenIncidentInput where
  apiId := ctx.target.id
  incidentType := if ctx.status = .down then .outage else .degradation
  severity := if ctx.status = .down then ctx.target.severityDefault else degrade ctx.target.severityDefault
  endpointClassSnapshot := ctx.target.endpointClass
  isMoneyMovingSnapshot := ctx.target.isMoneyMoving
  detectedByCheckId := ctx.checkId
  failureType := ctx.failureType

/-- The row after the flapping test, when the state machine took it for `known`. -/
def flapRow (known : Incident) (v : Store) (i : Incident) : Incident :=
  if isFlapping env ctx v ∧ known.incidentType ≠ .flapping then { i with incidentType := .flapping } else i

/-- A failing check promotes the incident `known` to an outage. -/
def promotes (known : Incident) : Prop := ctx.status = .down ∧ known.incidentType = .degradation

instance (known : Incident) : Decidable (promotes ctx known) := inferInstanceAs (Decidable (_ ∧ _))

/-- The incident as the state machine knows it after the promotion. -/
def promoted (known : Incident) : Incident :=
  if promotes ctx known then { known with incidentType := .outage, severity := ctx.target.severityDefault } else known

/-- The row after the increment and the promotion. -/
def failedRow (known i : Incident) : Incident :=
  let i := { i with failureCount := i.failureCount + 1, failureType := ctx.failureType <|> i.failureType }
  if promotes ctx known then
    { i with
      escalationLevelReached := max i.escalationLevelReached 0
      incidentType := .outage
      severity := ctx.target.severityDefault }
  else i

/-- `UPDATE incidents SET … WHERE id = $1` on the table itself. -/
def updateRows (id : Uuid) (f : Incident → Incident) (rows : List Incident) : List Incident :=
  rows.map fun i => if i.id = id then f i else i

/-- The incident table after the check, when the state machine has found `active`. -/
def foundIncidents (active : Option Incident) (v : Store) : List Incident :=
  match ctx.status, active with
  | .unknown, _ => v.db.incidents
  | .up, none => v.db.incidents
  | .up, some a =>
    if env.incidentRecoveryStreak ≤ ctx.consecutiveSuccesses then
      v.db.incidents.map fun i => if i.id = a.id && i.isActive then Sql.resolvedRow v.now none i else i
    else v.db.incidents
  | .down, none | .degraded, none =>
    updateRows v.nextUuid (flapRow env ctx (Sql.newIncident (openInput ctx) v) v)
      (v.db.incidents ++ [Sql.newIncident (openInput ctx) v])
  | .down, some a | .degraded, some a =>
    updateRows a.id (fun i => flapRow env ctx (promoted ctx a) v (failedRow ctx a i)) v.db.incidents

/-- The incident table after the check. -/
def nextIncidents (v : Store) : List Incident :=
  foundIncidents env ctx (Sql.findActiveIncident ctx.target.id v).1 v

theorem updateRows_updateRows {id : Uuid} {f g : Incident → Incident} (hf : ∀ i, (f i).id = i.id)
    (rows : List Incident) : updateRows id g (updateRows id f rows) = updateRows id (fun i => g (f i)) rows := by
  simp only [updateRows, List.map_map]
  refine List.map_congr_left fun i _ => ?_
  by_cases hi : i.id = id
  · simp [hi, hf]
  · simp [hi]

theorem updateRows_self {id : Uuid} {f : Incident → Incident} (hf : ∀ i, f i = i) (rows : List Incident) :
    updateRows id f rows = rows := by
  simp [updateRows, hf]

/-! ### The statements, with the incident table they leave -/

/-- The incident table is `rows`, all identifiers below `n` are drawn; results and clock are those of `v`. -/
structure Shows (v : Store) (n : Uuid) (rows : List Incident) (w : Store) : Prop where
  incidents : w.db.incidents = rows
  uuid : n ≤ w.nextUuid
  results : w.db.healthCheckResults = v.db.healthCheckResults
  now : w.now = v.now

variable {env ctx} {v : Store} {n : Uuid} {rows : List Incident}

theorem recordAlert_shows (i : AlertInput) :
    TxReturns (Shows v n rows) (recordAlert i .client) fun _ => Shows v n rows :=
  TxReturns.client fun _ h => ⟨h.incidents, h.uuid.trans (Nat.le_succ _), h.results, h.now⟩

theorem recordIncidentEvent_shows (i : IncidentEventInput) :
    TxReturns (Shows v n rows) (recordIncidentEvent i .client) fun _ => Shows v n rows :=
  TxReturns.client fun _ h => ⟨h.incidents, h.uuid, h.results, h.now⟩

theorem updateIncident_shows (id : Uuid) (f : Incident → Incident) :
    TxReturns (Shows v n rows) (query .client (Sql.updateIncident id f)) fun _ => Shows v n (updateRows id f rows) :=
  TxReturns.client fun _ h => ⟨congrArg (updateRows id f) h.incidents, h.uuid, h.results, h.now⟩

theorem recordDefaultAlerts_shows (ty : AlertType) (apiId incidentId : Uuid) (msg : String) :
    TxReturns (Shows v n rows) (recordDefaultAlerts env ty apiId incidentId msg .client) fun _ => Shows v n rows := by
  refine TxReturns.bind (TxReturns.forM (fun _ => recordAlert_shows _) _) fun _ => ?_
  refine TxReturns.bind (TxReturns.pool (fun _ => rfl) fun _ _ h => h) fun contacts => ?_
  exact TxReturns.forM (fun _ => recordAlert_shows _) _

theorem queueRecoveryAlerts_shows (incidentId apiId : Uuid) :
    TxReturns (Shows v n rows) (queueRecoveryAlerts env incidentId apiId .client) fun _ => Shows v n rows := by
  refine TxReturns.bind (TxReturns.pool (fun _ => rfl) fun _ _ h => h) fun notified => ?_
  refine TxReturns.bind (TxReturns.pool (fun _ => rfl) fun _ _ h => h) fun contacts => ?_
  refine TxReturns.forM (fun d => TxReturns.bind (TxReturns.client (Q := fun _ => Shows v n rows) ?_) fun _ => ?_) _
  · exact fun _ h => ⟨h.incidents, h.uuid.trans (Nat.le_succ _), h.results, h.now⟩
  · exact TxReturns.pure fun _ h => h

theorem noteFailureChange_shows (active : Incident) :
    TxReturns (Shows v n rows) (noteFailureChange ctx active .client) fun _ => Shows v n rows := by
  unfold noteFailureChange
  split
  · exact TxReturns.pure fun _ h => h
  · split
    · exact TxReturns.pure fun _ h => h
    · exact recordIncidentEvent_shows _

theorem countStatusTransitions_shows :
    TxReturns (Shows v n rows) (countStatusTransitions ctx.target.id env.flappingWindowMinutes .client) fun count w =>
      Shows v n rows w ∧ count = (Sql.countStatusTransitions ctx.target.id env.flappingWindowMinutes v).1 := by
  refine TxReturns.client fun w h => ⟨h, ?_⟩
  simp only [Sql.countStatusTransitions, h.results, h.now]

/-- The flapping test of an open incident. -/
theorem checkFlapping_shows (active : Incident) :
    TxReturns (Shows v n rows) (checkFlapping env ctx.target (some active) .client) fun _ =>
      Shows v n (updateRows active.id (flapRow env ctx active v) rows) := by
  refine TxReturns.bind countStatusTransitions_shows fun count => TxReturns.of_forall ?_
  rintro w ⟨hw, rfl⟩
  refine TxReturns.of_view (P := Shows v n rows) ?_ hw
  by_cases hflap : isFlapping env ctx v
  · have hlt : ¬ (Sql.countStatusTransitions ctx.target.id env.flappingWindowMinutes v).1 < env.flappingThreshold := by
      simpa [isFlapping] using hflap
    rw [if_neg hlt]
    by_cases hty : active.incidentType = .flapping
    · have hrow : ∀ i, flapRow env ctx active v i = i := fun i => by simp [flapRow, hty]
      simp only [hty, ne_eq, not_true_eq_false, if_false]
      rw [updateRows_self hrow]
      exact TxReturns.pure fun _ h => h
    · have hrow : flapRow env ctx active v = fun i => { i with incidentType := .flapping } := by
        funext i
        simp [flapRow, hty, hflap]
      simp only [ne_eq, hty, not_false_eq_true, if_true]
      rw [hrow]
      refine TxReturns.bind (updateIncident_shows _ _) fun _ => ?_
      refine TxReturns.bind (recordIncidentEvent_shows _) fun _ => ?_
      exact TxReturns.bind (recordDefaultAlerts_shows _ _ _ _) fun _ => TxReturns.pure fun _ h => h
  · have hlt : (Sql.countStatusTransitions ctx.target.id env.flappingWindowMinutes v).1 < env.flappingThreshold := by
      simpa [isFlapping] using hflap
    have hrow : ∀ i, flapRow env ctx active v i = i := fun i => by simp [flapRow, hflap]
    rw [if_pos hlt, updateRows_self hrow]
    exact TxReturns.pure fun _ h => h

/-! ### The branches of the state machine -/

/-- The check opens an incident. -/
def opens (ctx : CheckContext) (v : Store) : Prop :=
  (ctx.status = .down ∨ ctx.status = .degraded) ∧ (Sql.findActiveIncident ctx.target.id v).1 = none

theorem openForCheck_incidents (v : Store) :
    TxReturns (· = v) (openForCheck env ctx .client) fun _ w =>
      v.nextUuid < w.nextUuid ∧ w.db.incidents = updateRows v.nextUuid (flapRow env ctx (Sql.newIncident (openInput ctx) v) v)
        (v.db.incidents ++ [Sql.newIncident (openInput ctx) v]) := by
  refine TxReturns.bind (TxReturns.send (Sql.openIncident (openInput ctx)) v) fun incident => TxReturns.of_forall ?_
  rintro w ⟨rfl, rfl⟩
  refine TxReturns.of_view (P := Shows v (v.nextUuid + 1) (v.db.incidents ++ [Sql.newIncident (openInput ctx) v])) ?_
    ⟨rfl, Nat.le_refl _, rfl, rfl⟩
  refine TxReturns.bind (recordDefaultAlerts_shows _ _ _ _) fun _ => ?_
  refine TxReturns.bind (checkFlapping_shows _) fun flapped => ?_
  cases flapped with
  | none => exact TxReturns.pure fun _ h => ⟨h.uuid, h.incidents⟩
  | some f =>
    simp only
    split <;> exact TxReturns.pure fun _ h => ⟨h.uuid, h.incidents⟩

theorem promoteIfDegraded_shows (active : Incident) :
    TxReturns (Shows v n rows) (promoteIfDegraded ctx active .client) fun known w => known = promoted ctx active ∧
      Shows v n (updateRows active.id (fun i => if promotes ctx active then
        { i with
          escalationLevelReached := max i.escalationLevelReached 0
          incidentType := .outage
          severity := ctx.target.severityDefault } else i) rows) w := by
  unfold promoteIfDegraded
  by_cases hp : promotes ctx active
  · have hp' : ctx.status = .down ∧ active.incidentType = .degradation := hp
    rw [if_pos hp']
    simp only [promoted, if_pos hp]
    refine TxReturns.bind (updateIncident_shows _ _) fun _ => TxReturns.bind (updateIncident_shows _ _) fun _ => ?_
    refine TxReturns.bind (recordIncidentEvent_shows _) fun _ => TxReturns.pure fun w h => ⟨rfl, ?_⟩
    rw [updateRows_updateRows] at h
    · exact h
    · exact fun _ => rfl
  · have hp' : ¬ (ctx.status = .down ∧ active.incidentType = .degradation) := hp
    rw [if_neg hp']
    simp only [promoted, if_neg hp]
    rw [updateRows_self fun _ => rfl]
    exact TxReturns.pure fun w h => ⟨rfl, h⟩

theorem failedRow_id (known i : Incident) : (failedRow ctx known i).id = i.id := by
  unfold failedRow
  split <;> rfl

theorem promoted_id (known : Incident) : (promoted ctx known).id = known.id := by
  unfold promoted
  split <;> rfl

theorem recordFailure_incidents (active : Incident) (v : Store) :
    TxReturns (· = v) (recordFailure env ctx active .client) fun _ w =>
      w.db.incidents =
        updateRows active.id (fun i => flapRow env ctx (promoted ctx active) v (failedRow ctx active i)) v.db.incidents := by
  refine TxReturns.of_view (P := Shows v 0 v.db.incidents) ?_ ⟨rfl, Nat.zero_le _, rfl, rfl⟩
  refine TxReturns.bind (noteFailureChange_shows _) fun _ => TxReturns.bind (updateIncident_shows _ _) fun _ => ?_
  refine TxReturns.bind (promoteIfDegraded_shows _) fun known => TxReturns.of_forall ?_
  rintro w ⟨rfl, hw⟩
  rw [updateRows_updateRows] at hw
  case hf => exact fun _ => rfl
  refine TxReturns.of_view (P := Shows v 0 (updateRows active.id (failedRow ctx active) v.db.incidents)) ?_ hw
  refine TxReturns.bind (checkFlapping_shows _) fun flapped => ?_
  rw [promoted_id, updateRows_updateRows (failedRow_id active)]
  cases flapped with
  | none => exact TxReturns.pure fun _ h => h.incidents
  | some f =>
    simp only
    split <;> exact TxReturns.pure fun _ h => h.incidents

theorem recoverIfStreak_incidents (active : Incident) (v : Store) :
    TxReturns (· = v) (recoverIfStreak env ctx active .client) fun _ w =>
      w.db.incidents = if env.incidentRecoveryStreak ≤ ctx.consecutiveSuccesses then
        v.db.incidents.map fun i => if i.id = active.id && i.isActive then Sql.resolvedRow v.now none i else i
      else v.db.incidents := by
  unfold recoverIfStreak
  split
  · refine TxReturns.bind (TxReturns.send (Sql.resolveIncident active.id none) v) fun resolved => TxReturns.of_forall ?_
    rintro w ⟨rfl, rfl⟩
    refine TxReturns.of_view (P := Shows v 0 _) ?_ ⟨rfl, Nat.zero_le _, rfl, rfl⟩
    rcases (Sql.resolveIncident active.id none v).1 with _ | r
    · exact TxReturns.pure fun _ h => h.incidents
    · exact TxReturns.bind (queueRecoveryAlerts_shows _ _) fun _ => TxReturns.pure fun _ h => h.incidents
  · refine TxReturns.pure ?_
    rintro _ rfl
    rfl

/-- The incident table after the state machine ran on the incident it has found. -/
theorem processFound_incidents (active : Option Incident) (v : Store) :
    TxReturns (· = v) (processFound env ctx active .client) fun _ w =>
      ((ctx.status = .down ∨ ctx.status = .degraded) ∧ active = none → v.nextUuid < w.nextUuid) ∧
        w.db.incidents = foundIncidents env ctx active v := by
  unfold processFound foundIncidents
  have hnoop {p : Prop} (hp : ¬ p) : TxReturns (· = v) (pure .noop : SqlM IncidentTransition) fun _ w =>
      (p → v.nextUuid < w.nextUuid) ∧ w.db.incidents = v.db.incidents := by
    refine TxReturns.pure ?_
    rintro _ rfl
    exact ⟨fun h => absurd h hp, rfl⟩
  rcases ctx.status <;> rcases active with _ | a
  case up.none => exact hnoop (by simp)
  case up.some => exact (recoverIfStreak_incidents a v).conseq (fun _ h => h) fun _ _ h => ⟨by simp, h⟩
  case down.none | degraded.none =>
    exact (openForCheck_incidents v).conseq (fun _ h => h) fun _ _ h => ⟨fun _ => h.1, h.2⟩
  case down.some | degraded.some =>
    exact (recordFailure_incidents a v).conseq (fun _ h => h) fun _ _ h => ⟨by simp, h⟩
  case unknown.none | unknown.some => exact hnoop (by simp)

/-- The incident table after the state machine ran on a check. -/
theorem processCheckOutcome_incidents (v : Store) :
    TxReturns (· = v) (processCheckOutcome env ctx .client) fun _ w =>
      (opens ctx v → v.nextUuid < w.nextUuid) ∧ w.db.incidents = nextIncidents env ctx v := by
  refine TxReturns.bind (TxReturns.send (Sql.findActiveIncident ctx.target.id) v) fun active => TxReturns.of_forall ?_
  rintro w ⟨rfl, hw⟩
  obtain rfl : v = w := hw.symm
  exact processFound_incidents _ v

end CronMonitor
