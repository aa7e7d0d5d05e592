import CronMonitor.IncidentRuns

/-!
# What one check writes in the timeline

`foundEvents` is what a check adds to `incident_events` as a function of the incident it has found and of the store before
it, beside `foundIncidents`. `processFound_events` says that the state machine adds exactly that, and
`recordFound_tables` what the result transaction does to both tables at once.
-/

namespace CronMonitor

open Eff Session

/-- The row that an input becomes. -/
def IncidentEventInput.at_ (i : IncidentEventInput) (now : Time) : IncidentEvent where
  incidentId := i.incidentId
  occurredAt := now
  kind := i.kind
  summary := i.summary
  detail := i.detail
  source := i.source

variable (env : Env) (ctx : CheckContext)

/-- `known` fails in a way that it did not fail before. -/
def failureChange (known : Incident) (f : CheckFailureType) : IncidentEventInput where
  incidentId := known.id
  kind := .failureChanged
  summary := match known.failureType with
    | none => "Failure classified as " ++ f.label
    | some g => "Failure changed: " ++ g.label ++ " → " ++ f.label
  detail := [("from", (known.failureType.map (·.label)).getD "null"), ("to", f.label),
    ("checkId", (ctx.checkId.map toString).getD "null")]
  source := "state_machine"

def promotion (known : Incident) : IncidentEventInput where
  incidentId := known.id
  kind := .severityEscalated
  summary := "Promoted to OUTAGE (" ++ known.severity.label ++ " → " ++ ctx.target.severityDefault.label ++
    ") — a DOWN check while degraded"
  detail := [("from", known.severity.label), ("to", ctx.target.severityDefault.label)]
  source := "state_machine"

def flapping (known : Incident) (transitions : Nat) : IncidentEventInput where
  incidentId := known.id
  kind := .flappingDetected
  summary := "\"" ++ ctx.target.name ++ "\" changed state " ++ toString transitions ++ "× in " ++
    toString env.flappingWindowMinutes ++ " min"
  detail := [("transitions", toString transitions), ("windowMinutes", toString env.flappingWindowMinutes)]
  source := "state_machine"

/-- The failure that a check records of `known`, if it is another one. -/
def newFailure (known : Incident) : Option CheckFailureType :=
  ctx.failureType.filter fun f => known.failureType ≠ some f

def failureEvents (known : Incident) (now : Time) : List IncidentEvent :=
  ((newFailure ctx known).map fun f => (failureChange ctx known f).at_ now).toList

def promotionEvents (known : Incident) (now : Time) : List IncidentEvent :=
  if promotes ctx known then [(promotion ctx known).at_ now] else []

/-- The flapping test, when the state machine took the incident for `known`. -/
def flappingEvents (known : Incident) (v : Store) : List IncidentEvent :=
  if isFlapping env ctx v ∧ known.incidentType ≠ .flapping then
    [(flapping env ctx known (Sql.countStatusTransitions ctx.target.id env.flappingWindowMinutes v).1).at_ v.now]
  else []

/-- What the check adds to the timeline, when the state machine has found `active`. -/
def foundEvents (active : Option Incident) (v : Store) : List IncidentEvent :=
  match ctx.status, active with
  | .unknown, _ | .up, _ => []
  | .down, none | .degraded, none => flappingEvents env ctx (Sql.newIncident (openInput ctx) v) v
  | .down, some a | .degraded, some a =>
    failureEvents ctx a v.now ++ promotionEvents ctx a v.now ++ flappingEvents env ctx (promoted ctx a) v

/-! ### The statements, with the timeline they leave -/

/-- The timeline is `events`; results and clock are those of `v`. -/
structure Logs (v : Store) (events : List IncidentEvent) (w : Store) : Prop where
  events : w.db.incidentEvents = events
  results : w.db.healthCheckResults = v.db.healthCheckResults
  now : w.now = v.now

variable {env ctx} {v : Store} {events : List IncidentEvent}

theorem recordAlert_logs (i : AlertInput) :
    TxReturns (Logs v events) (recordAlert i .client) fun _ => Logs v events :=
  TxReturns.client fun _ h => ⟨h.events, h.results, h.now⟩

theorem updateIncident_logs (id : Uuid) (f : Incident → Incident) :
    TxReturns (Logs v events) (query .client (Sql.updateIncident id f)) fun _ => Logs v events :=
  TxReturns.client fun _ h => ⟨h.events, h.results, h.now⟩

theorem recordIncidentEvent_logs (i : IncidentEventInput) :
    TxReturns (Logs v events) (recordIncidentEvent i .client) fun _ => Logs v (events ++ [i.at_ v.now]) := by
  refine TxReturns.client fun w h => ⟨?_, h.results, h.now⟩
  show w.db.incidentEvents ++ [i.at_ w.now] = _
  rw [h.events, h.now]

theorem recordDefaultAlerts_logs (ty : AlertType) (apiId incidentId : Uuid) (msg : String) :
    TxReturns (Logs v events) (recordDefaultAlerts env ty apiId incidentId msg .client) fun _ => Logs v events := by
  refine TxReturns.bind (TxReturns.forM (fun _ => recordAlert_logs _) _) fun _ => ?_
  refine TxReturns.bind (TxReturns.pool (fun _ => rfl) fun _ _ h => h) fun contacts => ?_
  exact TxReturns.forM (fun _ => recordAlert_logs _) _

theorem queueRecoveryAlerts_logs (incidentId apiId : Uuid) :
    TxReturns (Logs v events) (queueRecoveryAlerts env incidentId apiId .client) fun _ => Logs v events := by
  refine TxReturns.bind (TxReturns.pool (fun _ => rfl) fun _ _ h => h) fun notified => ?_
  refine TxReturns.bind (TxReturns.pool (fun _ => rfl) fun _ _ h => h) fun contacts => ?_
  refine TxReturns.forM (fun d => TxReturns.bind (TxReturns.client (Q := fun _ => Logs v events) ?_) fun _ => ?_) _
  · exact fun _ h => ⟨h.events, h.results, h.now⟩
  · exact TxReturns.pure fun _ h => h

theorem noteFailureChange_logs (known : Incident) :
    TxReturns (Logs v events) (noteFailureChange ctx known .client) fun _ =>
      Logs v (events ++ failureEvents ctx known v.now) := by
  unfold noteFailureChange failureEvents newFailure
  cases ctx.failureType with
  | none => exact TxReturns.pure fun _ h => by simpa using h
  | some f =>
    by_cases hknown : known.failureType = some f
    · simp only [if_pos hknown]
      have hold : (some f).filter (fun f => decide (known.failureType ≠ some f)) = none := by
        simp [Option.filter, hknown]
      rw [hold]
      exact TxReturns.pure fun _ h => by simpa using h
    · simp only [if_neg hknown]
      have hnew : (some f).filter (fun f => decide (known.failureType ≠ some f)) = some f := by simp [hknown]
      rw [hnew]
      exact recordIncidentEvent_logs (failureChange ctx known f)

theorem countStatusTransitions_logs :
    TxReturns (Logs v events) (countStatusTransitions ctx.target.id env.flappingWindowMinutes .client) fun count w =>
      Logs v events w ∧ count = (Sql.countStatusTransitions ctx.target.id env.flappingWindowMinutes v).1 := by
  refine TxReturns.client fun w h => ⟨h, ?_⟩
  simp only [Sql.countStatusTransitions, h.results, h.now]

theorem checkFlapping_logs (known : Incident) :
    TxReturns (Logs v events) (checkFlapping env ctx.target (some known) .client) fun _ =>
      Logs v (events ++ flappingEvents env ctx known v) := by
  refine TxReturns.bind countStatusTransitions_logs fun count => TxReturns.of_forall ?_
  rintro w ⟨hw, rfl⟩
  refine TxReturns.of_view (P := Logs v events) ?_ hw
  unfold flappingEvents
  by_cases hflap : isFlapping env ctx v
  · have hlt : ¬ (Sql.countStatusTransitions ctx.target.id env.flappingWindowMinutes v).1 < env.flappingThreshold := by
      simpa [isFlapping] using hflap
    rw [if_neg hlt]
    by_cases hty : known.incidentType = .flapping
    · simp only [hty, ne_eq, not_true_eq_false, and_false, if_false, List.append_nil]
      exact TxReturns.pure fun _ h => h
    · simp only [ne_eq, hty, not_false_eq_true, and_true, if_true, if_pos hflap]
      refine TxReturns.bind (updateIncident_logs _ _) fun _ => ?_
      refine TxReturns.bind (recordIncidentEvent_logs (flapping env ctx known _)) fun _ => ?_
      exact TxReturns.bind (recordDefaultAlerts_logs _ _ _ _) fun _ => TxReturns.pure fun _ h => h
  · have hlt : (Sql.countStatusTransitions ctx.target.id env.flappingWindowMinutes v).1 < env.flappingThreshold := by
      simpa [isFlapping] using hflap
    rw [if_pos hlt]
    simp only [hflap, Bool.false_eq_true, false_and, if_false, List.append_nil]
    exact TxReturns.pure fun _ h => h

/-! ### The branches of the state machine -/

theorem openForCheck_events (v : Store) : TxReturns (· = v) (openForCheck env ctx .client) fun _ w =>
    w.db.incidentEvents =
      v.db.incidentEvents ++ flappingEvents env ctx (Sql.newIncident (openInput ctx) v) v := by
  refine TxReturns.bind (TxReturns.send (Sql.openIncident (openInput ctx)) v) fun incident => TxReturns.of_forall ?_
  rintro w ⟨rfl, rfl⟩
  refine TxReturns.of_view (P := Logs v v.db.incidentEvents) ?_ ⟨rfl, rfl, rfl⟩
  refine TxReturns.bind (recordDefaultAlerts_logs _ _ _ _) fun _ => ?_
  refine TxReturns.bind (checkFlapping_logs _) fun flapped => ?_
  cases flapped with
  | none => exact TxReturns.pure fun _ h => h.events
  | some f =>
    simp only
    split <;> exact TxReturns.pure fun _ h => h.events

theorem promoteIfDegraded_logs (known : Incident) :
    TxReturns (Logs v events) (promoteIfDegraded ctx known .client) fun after w => after = promoted ctx known ∧
      Logs v (events ++ promotionEvents ctx known v.now) w := by
  unfold promoteIfDegraded promotionEvents
  by_cases hp : promotes ctx known
  · have hp' : ctx.status = .down ∧ known.incidentType = .degradation := hp
    rw [if_pos hp']
    simp only [promoted, if_pos hp]
    refine TxReturns.bind (updateIncident_logs _ _) fun _ => TxReturns.bind (updateIncident_logs _ _) fun _ => ?_
    exact TxReturns.bind (recordIncidentEvent_logs (promotion ctx known)) fun _ => TxReturns.pure fun w h => ⟨rfl, h⟩
  · have hp' : ¬ (ctx.status = .down ∧ known.incidentType = .degradation) := hp
    rw [if_neg hp']
    simp only [promoted, if_neg hp, List.append_nil]
    exact TxReturns.pure fun w h => ⟨rfl, h⟩

theorem recordFailure_events (known : Incident) (v : Store) :
    TxReturns (· = v) (recordFailure env ctx known .client) fun _ w =>
      w.db.incidentEvents = v.db.incidentEvents ++ (failureEvents ctx known v.now ++ promotionEvents ctx known v.now ++
        flappingEvents env ctx (promoted ctx known) v) := by
  refine TxReturns.of_view (P := Logs v v.db.incidentEvents) ?_ ⟨rfl, rfl, rfl⟩
  refine TxReturns.bind (noteFailureChange_logs _) fun _ => TxReturns.bind (updateIncident_logs _ _) fun _ => ?_
  refine TxReturns.bind (promoteIfDegraded_logs _) fun after => TxReturns.of_forall ?_
  rintro w ⟨rfl, hw⟩
  refine TxReturns.of_view (P := Logs v _) ?_ hw
  refine TxReturns.bind (checkFlapping_logs _) fun flapped => ?_
  simp only [List.append_assoc]
  cases flapped with
  | none => exact TxReturns.pure fun _ h => h.events
  | some f =>
    simp only
    split <;> exact TxReturns.pure fun _ h => h.events

theorem recoverIfStreak_events (known : Incident) (v : Store) :
    TxReturns (· = v) (recoverIfStreak env ctx known .client) fun _ w => w.db.incidentEvents = v.db.incidentEvents := by
  have hidle : TxReturns (· = v) (pure .noop : SqlM IncidentTransition) fun _ w =>
      w.db.incidentEvents = v.db.incidentEvents := by
    refine TxReturns.pure ?_
    rintro _ rfl
    rfl
  unfold recoverIfStreak
  split
  · refine TxReturns.bind (TxReturns.send (Sql.resolveIncident known.id none) v) fun resolved => TxReturns.of_forall ?_
    rintro w ⟨rfl, rfl⟩
    refine TxReturns.of_view (P := Logs v v.db.incidentEvents) ?_ ⟨rfl, rfl, rfl⟩
    rcases (Sql.resolveIncident known.id none v).1 with _ | r
    · exact TxReturns.pure fun _ h => h.events
    · exact TxReturns.bind (queueRecoveryAlerts_logs _ _) fun _ => TxReturns.pure fun _ h => h.events
  · exact hidle

/-- The timeline after the state machine ran on the incident it has found. -/
theorem processFound_events (active : Option Incident) (v : Store) :
    TxReturns (· = v) (processFound env ctx active .client) fun _ w =>
      w.db.incidentEvents = v.db.incidentEvents ++ foundEvents env ctx active v := by
  unfold processFound foundEvents
  have hnoop : TxReturns (· = v) (pure .noop : SqlM IncidentTransition) fun _ w =>
      w.db.incidentEvents = v.db.incidentEvents ++ [] := by
    refine TxReturns.pure ?_
    rintro _ rfl
    exact (List.append_nil _).symm
  rcases ctx.status <;> rcases active with _ | a
  case up.none | unknown.none | unknown.some => exact hnoop
  case up.some =>
    refine (recoverIfStreak_events a v).conseq (fun _ h => h) fun _ _ h => ?_
    rw [List.append_nil]
    exact h
  case down.none | degraded.none => exact openForCheck_events v
  case down.some | degraded.some => exact recordFailure_events a v

/-! ### The result transaction -/

/-- What the result transaction does to incidents and timeline when it has found `active`: the state machine runs on a
view `v` that has both as they were. -/
structure Checked (env : Env) (active : Option Incident) (target : MonitoredApi) (outcome : HealthCheckOutcome)
    (st st' : Store) (ctx : CheckContext) (v : Store) : Prop where
  target : ctx.target = target
  status : ctx.status = outcome.status
  before : v.db.incidents = st.db.incidents ∧ v.db.incidentEvents = st.db.incidentEvents ∧ v.now = st.now
  drawn : st.nextUuid ≤ v.nextUuid ∧ v.nextUuid ≤ st'.nextUuid ∧
    ((ctx.status = .down ∨ ctx.status = .degraded) ∧ active = none → v.nextUuid < st'.nextUuid)
  incidents : st'.db.incidents = foundIncidents env ctx active v
  events : st'.db.incidentEvents = v.db.incidentEvents ++ foundEvents env ctx active v
  now : st'.now = st.now

theorem Checked.uuid {env : Env} {active : Option Incident} {target : MonitoredApi} {outcome : HealthCheckOutcome}
    {st st' v : Store} {ctx : CheckContext} (h : Checked env active target outcome st st' ctx v) :
    st.nextUuid ≤ st'.nextUuid :=
  h.drawn.1.trans h.drawn.2.1

/-- Incidents, timeline and clock are those of `st`. -/
structure Unmoved (st v : Store) : Prop where
  incidents : v.db.incidents = st.db.incidents
  events : v.db.incidentEvents = st.db.incidentEvents
  now : v.now = st.now
  uuid : st.nextUuid ≤ v.nextUuid

theorem Unmoved.trans {a b c : Store} (h : Unmoved a b) (h' : Unmoved b c) : Unmoved a c :=
  ⟨h'.incidents.trans h.incidents, h'.events.trans h.events, h'.now.trans h.now, h.uuid.trans h'.uuid⟩

theorem insertHealthCheckResult_unmoved (apiId : Uuid) (runId : JobRunId) (outcome : HealthCheckOutcome) (v : Store) :
    Unmoved v (Sql.insertHealthCheckResult apiId runId outcome v).2 := by
  unfold Sql.insertHealthCheckResult
  split
  · exact ⟨rfl, rfl, rfl, Nat.le_refl _⟩
  · exact ⟨rfl, rfl, rfl, Nat.le_succ _⟩

theorem recordTrace_unmoved {st : Store} (target : MonitoredApi) (runId : JobRunId) (checkId : Option Uuid)
    (outcome : HealthCheckOutcome) :
    TxReturns (Unmoved st) (recordTrace target runId checkId outcome) fun _ => Unmoved st := by
  unfold recordTrace
  split
  · refine TxReturns.of_forall fun v hv => TxReturns.bind (newRequestId_returns v) fun requestId => TxReturns.client ?_
    rintro w rfl
    unfold Sql.insertTrace
    split <;> exact hv.trans ⟨rfl, rfl, rfl, Nat.le_succ _⟩
  · exact TxReturns.pure fun _ h => h

theorem recordRunOutcome_unmoved (target : MonitoredApi) (slot : Time) (status : HealthStatus) (v : Store) :
    Unmoved v (Sql.recordRunOutcome target.id slot status v).2 := by
  rw [recordRunOutcome_db]
  exact ⟨rfl, rfl, rfl, Nat.le_refl _⟩

theorem recordBy_tables (env : Env) (active : Option Incident) (target : MonitoredApi) (slot : Time)
    (outcome : HealthCheckOutcome) (st : Store) :
    TxReturns (· = st) (recordBy (processFound env · active .client) target slot outcome) fun _ st' =>
      ∃ ctx v, Checked env active target outcome st st' ctx v := by
  refine TxReturns.bind (TxReturns.client (Q := fun _ => Unmoved st) ?_) fun checkId => ?_
  · rintro _ rfl
    exact insertHealthCheckResult_unmoved _ _ _ _
  refine TxReturns.bind (recordTrace_unmoved _ _ _ _) fun _ => ?_
  refine TxReturns.bind (TxReturns.client (Q := fun _ => Unmoved st) fun v hv => ?_) fun counters => ?_
  · exact hv.trans (recordRunOutcome_unmoved _ _ _ v)
  refine TxReturns.of_forall fun v hv => ?_
  refine ((processFound_incidents active v).and ((processFound_events active v).and
    ((processFound_writes env _ active).returns v))).conseq (fun _ h => h) ?_
  rintro t w ⟨⟨hopens, hinc⟩, hev, honly⟩
  exact ⟨_, v, rfl, rfl, ⟨hv.incidents, hv.events, hv.now⟩, ⟨hv.uuid, honly.uuid, hopens⟩, hinc, hev,
    honly.now.trans hv.now⟩

/-- Completing the run touches neither table. -/
theorem recordFound_tables (env : Env) (active : Option Incident) (target : MonitoredApi) (slot : Time) (claimId : Uuid)
    (outcome : HealthCheckOutcome) (st : Store) :
    TxReturns (· = st) (recordFound env active target slot claimId outcome) fun _ st' =>
      ∃ ctx v, Checked env active target outcome st st' ctx v := by
  refine TxReturns.bind (recordBy_tables env active target slot outcome st) fun t => ?_
  refine TxReturns.bind (TxReturns.client (Q := fun _ st' => ∃ ctx v, Checked env active target outcome st st' ctx v) ?_)
    fun _ => TxReturns.pure fun _ h => h
  rintro w ⟨ctx, v, h⟩
  exact ⟨ctx, v, h.target, h.status, h.before, h.drawn, h.incidents, h.events, h.now⟩

end CronMonitor
