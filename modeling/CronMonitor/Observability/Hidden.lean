import CronMonitor.Alerts.Frame
import CronMonitor.Observability.Retention

/-!
# What sweeps hide

The tables with sweeps are those without, less the rows in `Gone`. As long as these are alerts that were drawn before,
none of them pending, and results older than the flapping window, no statement of the alert runner sees the difference
(`exec_hide`), except the two that recompute how far an incident is escalated and who heard of it.
-/

namespace CronMonitor.Observability
open Alerts Eff

/-- The alerts and results that were deleted. No program here reads the other two tables: `traces` and `jobRuns` are what
is left of them. -/
structure Gone where
  alerts : List Uuid
  results : List Uuid
  traces : List HealthCheckTrace
  jobRuns : List CronJobRun

namespace Gone

def hide (g : Gone) (db : Db) : Db :=
  { db with
    alerts := db.alerts.filter (·.id ∉ g.alerts)
    healthCheckResults := db.healthCheckResults.filter (·.id ∉ g.results)
    healthCheckTraces := g.traces
    cronJobRuns := g.jobRuns }

def hideStore (g : Gone) (st : Store) : Store := { st with db := g.hide st.db }

def hideAlerts (g : Gone) (st : AlertStore) : AlertStore := { st with db := g.hide st.db }

def hideSession (g : Gone) (s : Session) : Session := { s with store := g.hideStore s.store, tx := s.tx.map g.hide }

/-- What was deleted lies in the past. -/
structure Past (env : Env) (g : Gone) (st : Store) : Prop where
  alerts : ∀ id ∈ g.alerts, id < st.nextUuid
  results : ∀ r ∈ st.db.healthCheckResults, r.id ∈ g.results → r.checkedAt ≤ st.now - env.flappingWindowMinutes * 60000

variable {env : Env} {g : Gone} {st st' : Store}

theorem Past.later (h : g.Past env st) (huuid : st.nextUuid ≤ st'.nextUuid)
    (hresults : st'.db.healthCheckResults = st.db.healthCheckResults) (hnow : st.now ≤ st'.now) : g.Past env st' where
  alerts id hid := Nat.lt_of_lt_of_le (h.alerts id hid) huuid
  results r hr hid := (h.results r (hresults ▸ hr) hid).trans (sub_le_sub_right hnow _)

/-! ### Transactions -/

/-- The statement does not see what is hidden. -/
structure Blind (env : Env) (g : Gone) {α : Type} (stmt : Stmt α) : Prop where
  eq : ∀ st, g.Past env st → stmt (g.hideStore st) = ((stmt st).1, g.hideStore (stmt st).2)
  uuid : ∀ st, st.nextUuid ≤ (stmt st).2.nextUuid
  results : ∀ st, (stmt st).2.db.healthCheckResults = st.db.healthCheckResults
  now : ∀ st, (stmt st).2.now = st.now

/-- The committed tables and the client's view. -/
def PastIn (env : Env) (g : Gone) (s : Session) : Prop := g.Past env s.store ∧ g.Past env s.clientView

abbrev TxBlind (env : Env) (g : Gone) {α : Type} (m : SqlM α) : Prop := Commutes g.hideSession (g.PastIn env) m

theorem clientView_hideSession (s : Session) : (g.hideSession s).clientView = g.hideStore s.clientView := by
  obtain ⟨store, _ | d, failAt⟩ := s <;> rfl

theorem guarded_blind {α : Type} {f : Session → α × Session}
    (hf : ∀ s, g.PastIn env s → f (g.hideSession s) = ((f s).1, g.hideSession (f s).2) ∧ g.PastIn env (f s).2) :
    TxBlind env g (Session.guarded f) := by
  intro s hs
  obtain ⟨hx, hP⟩ := hf s.countdown hs
  have hok := congrArg (fun r : α × Session => ((Except.ok r.1 : Except String α), r.2)) hx
  obtain ⟨store, tx, _ | ⟨_ | n, message⟩⟩ := s
  · exact ⟨hok, hP⟩
  · exact ⟨rfl, hs⟩
  · exact ⟨hok, hP⟩

theorem Blind.query {α : Type} {stmt : Stmt α} (h : Blind env g stmt) (r : SqlRunner) : TxBlind env g (query r stmt) := by
  refine guarded_blind fun s ⟨hstore, hview⟩ => ?_
  cases r with
  | pool =>
    refine ⟨by simp only [Session.effect, hideSession, h.eq _ hstore], ?_, ?_⟩
    · exact hstore.later (h.uuid _) (h.results _) (h.now _).ge
    · obtain ⟨store, _ | d, failAt⟩ := s
      · exact hstore.later (h.uuid _) (h.results _) (h.now _).ge
      · exact hview.later (h.uuid store) rfl (h.now store).ge
  | client =>
    have heq := h.eq _ hview
    have hafter : g.Past env (stmt s.clientView).2 := hview.later (h.uuid _) (h.results _) (h.now _).ge
    simp only [Session.effect, clientView_hideSession, heq]
    obtain ⟨store, _ | d, failAt⟩ := s
    · exact ⟨rfl, hafter, hafter⟩
    · exact ⟨rfl, hstore.later (h.uuid ⟨d, _, _, _⟩) rfl (h.now ⟨d, _, _, _⟩).ge, hafter⟩

theorem transaction_blind {α : Type} {fn : SqlM α} (h : TxBlind env g fn) : TxBlind env g (withTransaction fn) := by
  rw [withTransaction_eq]
  refine Commutes.bind (guarded_blind fun s hs => ⟨rfl, hs⟩) fun _ => Commutes.tryCatch ?_ fun e => ?_
  · refine Commutes.bind (guarded_blind fun s hs => ⟨rfl, hs.1, hs.1⟩) fun _ => Commutes.bind h fun a => ?_
    refine Commutes.bind (guarded_blind fun s hs => ⟨?_, hs.2, hs.2⟩) fun _ => Commutes.pure _
    obtain ⟨store, _ | d, failAt⟩ := s <;> rfl
  · exact Commutes.bind (guarded_blind fun s hs => ⟨rfl, hs.1, hs.1⟩) fun _ => Commutes.throw _

/-! ### The branches of the state machine -/

theorem hide_concat {d d' : Db} {new : Alert} (hnew : new.id ∉ g.alerts)
    (hd : d' = { d with alerts := d.alerts ++ [new] }) :
    { g.hide d with alerts := (g.hide d).alerts ++ [new] } = g.hide d' := by
  subst hd
  simp [hide, List.filter_append, hnew]

theorem Past.fresh (h : g.Past env st) : st.nextUuid ∉ g.alerts :=
  fun hmem => Nat.lt_irrefl _ (h.alerts _ hmem)

theorem recordAlert_blind (i : AlertInput) : TxBlind env g (recordAlert i .client) := by
  refine Blind.query ⟨fun st h => ?_, fun _ => Nat.le_succ _, fun _ => rfl, fun _ => rfl⟩ _
  exact Prod.ext rfl (congrArg (fun d => { st with nextUuid := st.nextUuid + 1, db := d }) (hide_concat h.fresh rfl))

theorem incidentAlertContacts_blind : TxBlind env g incidentAlertContacts :=
  Blind.query ⟨fun _ _ => rfl, fun _ => le_rfl, fun _ => rfl, fun _ => rfl⟩ _

theorem recordIncidentEvent_blind (i : IncidentEventInput) : TxBlind env g (recordIncidentEvent i .client) :=
  Blind.query ⟨fun _ _ => rfl, fun _ => le_rfl, fun _ => rfl, fun _ => rfl⟩ _

theorem updateIncident_blind (id : Uuid) (f : Incident → Incident) :
    TxBlind env g (query .client (Sql.updateIncident id f)) :=
  Blind.query ⟨fun _ _ => rfl, fun _ => le_rfl, fun _ => rfl, fun _ => rfl⟩ _

theorem openIncident_blind (i : OpenIncidentInput) : TxBlind env g (openIncident i .client) :=
  Blind.query ⟨fun _ _ => rfl, fun _ => Nat.le_succ _, fun _ => rfl, fun _ => rfl⟩ _

/-- The results that are hidden are older than the flapping window. -/
theorem countStatusTransitions_blind (apiId : Uuid) :
    TxBlind env g (countStatusTransitions apiId env.flappingWindowMinutes .client) := by
  refine Blind.query ⟨fun st h => ?_, fun _ => le_rfl, fun _ => rfl, fun _ => rfl⟩ _
  simp only [Sql.countStatusTransitions, hideStore, hide, List.filter_filter]
  refine Prod.ext ?_ rfl
  show countChanges ((sortByCheckedAt (List.filter _ _)).map _) = countChanges ((sortByCheckedAt (List.filter _ _)).map _)
  congr 3
  refine List.filter_congr fun r hr => ?_
  by_cases hid : r.id ∈ g.results
  · have hold := h.results r hr hid
    simp [not_lt.2 hold]
  · rw [decide_eq_true hid, Bool.and_true]
    rfl

variable (env)

theorem recordDefaultAlerts_blind (ty : AlertType) (apiId incidentId : Uuid) (msg : String) :
    TxBlind env g (recordDefaultAlerts env ty apiId incidentId msg .client) := by
  unfold recordDefaultAlerts
  refine Commutes.bind (Commutes.forM (fun _ => recordAlert_blind _) _) fun _ => ?_
  exact Commutes.bind incidentAlertContacts_blind fun _ => Commutes.forM (fun _ => recordAlert_blind _) _

theorem checkFlapping_blind (target : MonitoredApi) (active : Option Incident) :
    TxBlind env g (checkFlapping env target active .client) := by
  unfold checkFlapping
  refine Commutes.bind (countStatusTransitions_blind _) fun transitions => ?_
  split
  · exact Commutes.pure _
  cases active with
  | none => exact Commutes.pure _
  | some i =>
    simp only
    split
    · refine Commutes.bind (updateIncident_blind _ _) fun _ => ?_
      refine Commutes.bind (recordIncidentEvent_blind _) fun _ => ?_
      exact Commutes.bind (recordDefaultAlerts_blind env _ _ _ _) fun _ => Commutes.pure _
    · exact Commutes.pure _

theorem openForCheck_blind (ctx : CheckContext) : TxBlind env g (openForCheck env ctx .client) := by
  unfold openForCheck
  refine Commutes.bind (openIncident_blind _) fun incident => ?_
  refine Commutes.bind (recordDefaultAlerts_blind env _ _ _ _) fun _ => ?_
  refine Commutes.bind (checkFlapping_blind env _ _) fun flapped => ?_
  cases flapped with
  | none => exact Commutes.pure _
  | some f =>
    simp only
    split <;> exact Commutes.pure _

theorem recordFailure_blind (ctx : CheckContext) (active : Incident) :
    TxBlind env g (recordFailure env ctx active .client) := by
  unfold recordFailure noteFailureChange promoteIfDegraded
  refine Commutes.bind ?_ fun _ => Commutes.bind (updateIncident_blind _ _) fun _ =>
    Commutes.bind ?_ fun active' => Commutes.bind (checkFlapping_blind env _ _) fun flapped => ?_
  · split
    · exact Commutes.pure _
    · split
      · exact Commutes.pure _
      · exact recordIncidentEvent_blind _
  · split
    · refine Commutes.bind (updateIncident_blind _ _) fun _ => ?_
      refine Commutes.bind (updateIncident_blind _ _) fun _ => ?_
      exact Commutes.bind (recordIncidentEvent_blind _) fun _ => Commutes.pure _
    · exact Commutes.pure _
  · cases flapped with
    | none => exact Commutes.pure _
    | some f =>
      simp only
      split <;> exact Commutes.pure _

/-! ### Command by command -/

variable {env} {w : World} {t : AlertStore}

theorem transaction_hide {fn : SqlM IncidentTransition} (hfn : TxBlind env g fn) (h : g.Past env t.toStore) :
    (g.hideAlerts t).transaction fn = g.hideAlerts (t.transaction fn) := by
  have hx := (transaction_blind hfn ⟨t.toStore, none, none⟩ ⟨h, h⟩).1
  have hst := congrArg (fun r => r.2.store) hx
  exact congrArg (fun st : Store => { t with toStore := st }) hst

theorem createAlert_hide (i : CreateAlertInput) (tier : Option Nat) (h : g.Past env t.toStore) :
    (g.hideAlerts t).createAlert i tier = g.hideAlerts (t.createAlert i tier) :=
  congrArg (fun d => { t with nextUuid := t.nextUuid + 1, db := d }) (hide_concat h.fresh rfl)

theorem commitRecovery_hide (incidentId apiId : Uuid) (dests : List (AlertChannel × String)) (h : g.Past env t.toStore) :
    commitRecovery incidentId apiId dests (g.hideAlerts t) = g.hideAlerts (commitRecovery incidentId apiId dests t) := by
  have hfold : ∀ u : AlertStore, g.Past env u.toStore → dests.foldl (fun st d =>
      st.createAlert ⟨.apiRecovered, d.1, d.2, some incidentId, some apiId⟩ none) (g.hideAlerts u) =
        g.hideAlerts (dests.foldl (fun st d =>
          st.createAlert ⟨.apiRecovered, d.1, d.2, some incidentId, some apiId⟩ none) u) := by
    induction dests with
    | nil => exact fun _ _ => rfl
    | cons d dests ih =>
      intro u hu
      rw [List.foldl_cons, List.foldl_cons, createAlert_hide _ _ hu]
      exact ih _ (hu.later (Nat.le_succ _) rfl le_rfl)
  have hresolved := hfold (t.lift (Sql.resolveIncident incidentId none)).2 (h.later le_rfl rfl le_rfl)
  exact congrArg (fun st : AlertStore =>
    { st with locked := st.locked.erase incidentId, told := incidentId :: st.told }) hresolved

/-- No alert that is hidden is pending. -/
def Settled (g : Gone) (t : AlertStore) : Prop := ∀ a ∈ t.db.alerts, a.id ∈ g.alerts → a.status ≠ .pending

theorem listPendingAlerts_hide (limit : Nat) (h : g.Settled t) :
    (g.hideAlerts t).listPendingAlerts limit = t.listPendingAlerts limit := by
  have hfilter : (g.hideAlerts t).db.alerts.filter (·.status = .pending) = t.db.alerts.filter (·.status = .pending) := by
    show List.filter _ (List.filter _ _) = _
    rw [List.filter_filter]
    refine List.filter_congr fun a ha => ?_
    by_cases hid : a.id ∈ g.alerts
    · simp [h a ha hid]
    · simp [hid]
  rw [AlertStore.listPendingAlerts, hfilter]
  rfl

theorem markAlert_hide (id : Uuid) (status : AlertStatus) (detail : Option String) :
    (g.hideAlerts t).markAlert id status detail = g.hideAlerts (t.markAlert id status detail) := by
  have hfilter : ((t.db.alerts.filter (·.id ∉ g.alerts)).map fun a =>
      if a.id = id then AlertStore.markedRow status detail t.now a else a) =
        (t.db.alerts.map fun a => if a.id = id then AlertStore.markedRow status detail t.now a else a).filter
          (·.id ∉ g.alerts) := by
    rw [List.filter_map]
    congr 1
    refine List.filter_congr fun a _ => ?_
    rw [Function.comp_apply, markAlert_id]
  exact congrArg (fun alerts : List Alert => { t with db := { g.hide t.db with alerts } }) hfilter

theorem exec_hide {c : AlertCmd} (htier : ∀ id, c ≠ .highestTierFired id)
    (hnotified : ∀ id, c ≠ .notifiedTargetsForIncident id) (h : g.Past env t.toStore) (hs : g.Settled t) :
    c.exec env w (g.hideAlerts t) = ((c.exec env w t).1, g.hideAlerts (c.exec env w t).2) := by
  cases c with
  | highestTierFired id => exact absurd rfl (htier id)
  | notifiedTargetsForIncident id => exact absurd rfl (hnotified id)
  | createAlert i tier => exact Prod.ext rfl (createAlert_hide i tier h)
  | listPendingAlerts limit =>
    have hlist := listPendingAlerts_hide limit hs
    refine Prod.ext hlist ?_
    exact congrArg (fun l : List Alert => { g.hideAlerts t with held := t.held ++ l.map Alert.id }) hlist
  | markAlert id status detail =>
    have hmark := markAlert_hide id status detail (g := g) (t := t)
    exact Prod.ext rfl (congrArg (fun st : AlertStore => { st with held := t.held.erase id }) hmark)
  | openForCheck ctx => exact Prod.ext rfl (transaction_hide (openForCheck_blind env ctx) h)
  | recordFailure ctx active => exact Prod.ext rfl (transaction_hide (recordFailure_blind env ctx active) h)
  | resolveInTransaction id =>
    have hfind : (g.hideAlerts t).db.incidents = t.db.incidents := rfl
    simp only [AlertCmd.exec, hfind]
    split <;> rfl
  | commitRecovery incidentId apiId dests => exact Prod.ext rfl (commitRecovery_hide incidentId apiId dests h)
  | _ => rfl

end Gone

end CronMonitor.Observability
