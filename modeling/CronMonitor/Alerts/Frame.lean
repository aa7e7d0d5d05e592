import CronMonitor.Alerts.Service
import CronMonitor.Lib.Rows
import CronMonitor.Tx

/-!
# What the commands of the alert runner leave alone

`Grows` relates the tables before and after the transaction of a check that does not recover: rows of `alerts` and
`incidents` are added under fresh identifiers, and of the incidents that were there only the type, the severity, the
failure columns and the escalation level change.
-/

namespace CronMonitor

open Eff

/-- The columns of an incident that neither an escalation nor a failing check changes. -/
structure Incident.Core where
  id : Uuid
  apiId : Uuid
  status : IncidentStatus
  startedAt : Time
  isMoneyMovingSnapshot : Bool
  incidentNumber : String
deriving DecidableEq, Repr

def Incident.core (i : Incident) : Incident.Core :=
  ⟨i.id, i.apiId, i.status, i.startedAt, i.isMoneyMovingSnapshot, i.incidentNumber⟩

/-- The identifiers were drawn between `lo` and `hi`. -/
def Drawn (lo hi : Uuid) (ids : List Uuid) : Prop := ids.Nodup ∧ ∀ id ∈ ids, lo ≤ id ∧ id < hi

theorem Drawn.nil {lo hi : Uuid} : Drawn lo hi [] := ⟨List.nodup_nil, by simp⟩

theorem Drawn.append {a b c : Uuid} {ids ids' : List Uuid} (h : Drawn a b ids) (h' : Drawn b c ids') (hab : a ≤ b)
    (hbc : b ≤ c) : Drawn a c (ids ++ ids') := by
  refine ⟨List.nodup_append.2 ⟨h.1, h'.1, fun x hx y hy => ?_⟩, fun id hid => ?_⟩
  · exact Nat.ne_of_lt (Nat.lt_of_lt_of_le (h.2 x hx).2 (h'.2 y hy).1)
  · rcases List.mem_append.1 hid with hid | hid
    · exact ⟨(h.2 id hid).1, Nat.lt_of_lt_of_le (h.2 id hid).2 hbc⟩
    · exact ⟨Nat.le_trans hab (h'.2 id hid).1, (h'.2 id hid).2⟩

/-- The alerts of checks: pending, of no tier, neither escalations nor recoveries. -/
def Alert.FromCheck (a : Alert) : Prop :=
  a.status = .pending ∧ a.escalationTier = none ∧ a.alertType ≠ .escalationTriggered ∧ a.alertType ≠ .apiRecovered

structure Grows (a b : Store) : Prop where
  alerts : ∃ new, b.db.alerts = a.db.alerts ++ new ∧ Drawn a.nextUuid b.nextUuid (new.map (·.id)) ∧
    ∀ n ∈ new, n.FromCheck
  incidents : ∃ new : List Incident, b.db.incidents.map (·.core) = a.db.incidents.map (·.core) ++ new.map (·.core) ∧
    Drawn a.nextUuid b.nextUuid (new.map (·.id)) ∧ ∀ n ∈ new, n.status = .opened
  contacts : b.db.notificationContacts = a.db.notificationContacts
  uuid : a.nextUuid ≤ b.nextUuid
  now : b.now = a.now

namespace Grows

variable {a b c : Store}

theorem refl (a : Store) : Grows a a :=
  ⟨⟨[], by simp, .nil, by simp⟩, ⟨[], by simp, .nil, by simp⟩, rfl, le_rfl, rfl⟩

theorem trans (h : Grows a b) (h' : Grows b c) : Grows a c := by
  obtain ⟨new, hal, hdr, hp⟩ := h.alerts
  obtain ⟨new', hal', hdr', hp'⟩ := h'.alerts
  obtain ⟨inc, hin, hid, ho⟩ := h.incidents
  obtain ⟨inc', hin', hid', ho'⟩ := h'.incidents
  refine ⟨⟨new ++ new', by rw [hal', hal, List.append_assoc], ?_, ?_⟩,
    ⟨inc ++ inc', by rw [hin', hin, List.map_append, List.append_assoc], ?_, ?_⟩, h'.contacts.trans h.contacts,
    h.uuid.trans h'.uuid, h'.now.trans h.now⟩
  · rw [List.map_append]
    exact hdr.append hdr' h.uuid h'.uuid
  · exact List.forall_mem_append.2 ⟨hp, hp'⟩
  · rw [List.map_append]
    exact hid.append hid' h.uuid h'.uuid
  · exact List.forall_mem_append.2 ⟨ho, ho'⟩

end Grows

/-! ### Transactions that only let tables grow -/

/-- Where no statement fails, the client's view grows. -/
def TxGrows {α : Type} (m : SqlM α) : Prop := ∀ v, TxReturns (· = v) m fun _ v' => Grows v v'

namespace TxGrows

variable {α β : Type} {m : SqlM α}

theorem pure (a : α) : TxGrows (Pure.pure a : SqlM α) := fun _ => TxReturns.pure fun st h => h ▸ .refl st

theorem client {stmt : Stmt α} (h : ∀ st, Grows st (stmt st).2) : TxGrows (query .client stmt) :=
  fun _ => TxReturns.client fun st hst => hst ▸ h st

theorem pool {stmt : Stmt α} (h : ∀ st, (stmt st).2 = st) : TxGrows (query .pool stmt) :=
  fun _ => TxReturns.pool h fun _ st hst => hst ▸ .refl st

theorem bind {f : α → SqlM β} (hm : TxGrows m) (hf : ∀ a, TxGrows (f a)) : TxGrows (m >>= f) := fun v =>
  TxReturns.bind (hm v) fun a => TxReturns.of_forall fun v' hv' => (hf a v').conseq (fun _ h => h) fun _ _ h => hv'.trans h

theorem forM {g : β → SqlM PUnit} (hg : ∀ b, TxGrows (g b)) : ∀ l : List β, TxGrows (l.forM g)
  | [] => pure _
  | b :: l => bind (hg b) fun _ => forM hg l

/-- What the transaction commits. -/
theorem transaction (h : TxGrows m) (st : Store) : Grows st ((withTransaction m).exec ⟨st, none, none⟩).2.store := by
  obtain ⟨a, st', hx, hgrows⟩ := withTransaction_returns (h st)
  rw [hx]
  exact hgrows

end TxGrows

/-! ### Statement by statement -/

theorem grows_alert {st st' : Store} {new : Alert} (hdb : st'.db = { st.db with alerts := st.db.alerts ++ [new] })
    (hid : new.id = st.nextUuid) (hnext : st'.nextUuid = st.nextUuid + 1) (hnow : st'.now = st.now)
    (hnew : new.FromCheck) : Grows st st' := by
  refine ⟨⟨[new], by rw [hdb], ⟨List.nodup_singleton _, ?_⟩, ?_⟩, ⟨[], by simp [hdb], .nil, by simp⟩, by rw [hdb],
    hnext ▸ Nat.le_succ _, hnow⟩
  · simp [hid, hnext]
  · simpa using hnew

theorem recordAlert_grows {i : AlertInput} (h : i.alertType ≠ .escalationTriggered ∧ i.alertType ≠ .apiRecovered) :
    TxGrows (recordAlert i .client) :=
  TxGrows.client fun _ => grows_alert rfl rfl rfl rfl ⟨rfl, rfl, h⟩

theorem recordIncidentEvent_grows (i : IncidentEventInput) : TxGrows (recordIncidentEvent i .client) :=
  TxGrows.client fun _ => ⟨⟨[], by simp [Sql.recordIncidentEvent], .nil, by simp⟩,
    ⟨[], by simp [Sql.recordIncidentEvent], .nil, by simp⟩, rfl, le_rfl, rfl⟩

theorem updateIncident_core (id : Uuid) {f : Incident → Incident} (hf : ∀ i, (f i).core = i.core) (st : Store) :
    (Sql.updateIncident id f st).2.db.incidents.map (·.core) = st.db.incidents.map (·.core) := by
  rw [Sql.updateIncident, List.map_map]
  refine List.map_congr_left fun i _ => ?_
  show (if i.id = id then f i else i).core = i.core
  split
  · exact hf i
  · rfl

theorem escalateIncident_core (id : Uuid) (level : Nat) (st : Store) :
    (Sql.escalateIncident id level st).2.db.incidents.map (·.core) = st.db.incidents.map (·.core) :=
  updateIncident_core id (f := fun i => { i with escalationLevelReached := max i.escalationLevelReached level })
    (fun _ => rfl) st

theorem updateIncident_grows (id : Uuid) {f : Incident → Incident} (hf : ∀ i, (f i).core = i.core) :
    TxGrows (query .client (Sql.updateIncident id f)) :=
  TxGrows.client fun st => ⟨⟨[], by simp [Sql.updateIncident], .nil, by simp⟩,
    ⟨[], by simp [updateIncident_core id hf st], .nil, by simp⟩, rfl, le_rfl, rfl⟩

theorem openIncident_grows (i : OpenIncidentInput) : TxGrows (openIncident i .client) :=
  TxGrows.client fun st => ⟨⟨[], by simp [Sql.openIncident], .nil, by simp⟩,
    ⟨[Sql.newIncident i st], by simp [Sql.openIncident], ⟨List.nodup_singleton _, by simp [Sql.newIncident, Sql.openIncident]⟩,
      by simp [Sql.newIncident]⟩, rfl, Nat.le_succ _, rfl⟩

theorem read_grows {α : Type} {stmt : Stmt α} (h : ∀ st, (stmt st).2 = st) : TxGrows (query .client stmt) :=
  TxGrows.client fun st => by
    rw [h]
    exact .refl st

theorem incidentAlertContacts_grows : TxGrows incidentAlertContacts := TxGrows.pool fun _ => rfl

/-! ### The branches -/

variable (env : Env)

theorem recordDefaultAlerts_grows {ty : AlertType} (h : ty ≠ .escalationTriggered ∧ ty ≠ .apiRecovered)
    (apiId incidentId : Uuid) (msg : String) : TxGrows (recordDefaultAlerts env ty apiId incidentId msg .client) := by
  unfold recordDefaultAlerts
  refine TxGrows.bind (TxGrows.forM (fun _ => recordAlert_grows h) _) fun _ => ?_
  exact TxGrows.bind incidentAlertContacts_grows fun _ => TxGrows.forM (fun _ => recordAlert_grows h) _

theorem checkFlapping_grows (target : MonitoredApi) (active : Option Incident) :
    TxGrows (checkFlapping env target active .client) := by
  unfold checkFlapping
  refine TxGrows.bind (read_grows fun _ => rfl) fun transitions => ?_
  split
  · exact TxGrows.pure _
  cases active with
  | none => exact TxGrows.pure _
  | some a =>
    simp only
    split
    · refine TxGrows.bind (updateIncident_grows _ fun _ => rfl) fun _ => ?_
      refine TxGrows.bind (recordIncidentEvent_grows _) fun _ => ?_
      exact TxGrows.bind (recordDefaultAlerts_grows env (by decide) _ _ _) fun _ => TxGrows.pure _
    · exact TxGrows.pure _

theorem openForCheck_grows (ctx : CheckContext) : TxGrows (openForCheck env ctx .client) := by
  unfold openForCheck
  refine TxGrows.bind (openIncident_grows _) fun incident => ?_
  refine TxGrows.bind (recordDefaultAlerts_grows env (by split <;> decide) _ _ _) fun _ => ?_
  refine TxGrows.bind (checkFlapping_grows env _ _) fun flapped => ?_
  cases flapped with
  | none => exact TxGrows.pure _
  | some f =>
    simp only
    split <;> exact TxGrows.pure _

theorem recordFailure_grows (ctx : CheckContext) (active : Incident) : TxGrows (recordFailure env ctx active .client) := by
  unfold recordFailure noteFailureChange promoteIfDegraded
  refine TxGrows.bind ?_ fun _ => TxGrows.bind (updateIncident_grows _ fun _ => rfl) fun _ =>
    TxGrows.bind ?_ fun active' => TxGrows.bind (checkFlapping_grows env _ _) fun flapped => ?_
  · split
    · exact TxGrows.pure _
    · split
      · exact TxGrows.pure _
      · exact recordIncidentEvent_grows _
  · split
    · refine TxGrows.bind (updateIncident_grows _ fun _ => rfl) fun _ => ?_
      refine TxGrows.bind (updateIncident_grows _ fun _ => rfl) fun _ => ?_
      exact TxGrows.bind (recordIncidentEvent_grows _) fun _ => TxGrows.pure _
    · exact TxGrows.pure _
  · cases flapped with
    | none => exact TxGrows.pure _
    | some f =>
      simp only
      split <;> exact TxGrows.pure _

namespace Alerts

/-! ### Queuing several alerts -/

/-- What an alert says, apart from when it was queued and what became of it. -/
structure About where
  incidentId : Option Uuid
  apiId : Option Uuid
  alertType : AlertType
  channel : AlertChannel
  recipient : String
  status : AlertStatus
  escalationTier : Option Nat
deriving DecidableEq, Repr

def about (a : Alert) : About :=
  ⟨a.incidentId, a.apiId, a.alertType, a.channel, a.recipient, a.status, a.escalationTier⟩

def aboutInput (i : CreateAlertInput) (escalationTier : Option Nat) : About :=
  ⟨i.incidentId, i.apiId, i.alertType, i.channel, i.recipient, .pending, escalationTier⟩

theorem foldl_createAlert {β : Type} (input : β → CreateAlertInput) (tier : Option Nat) (l : List β) (st : AlertStore) :
    ∃ new : List Alert, l.foldl (fun st b => st.createAlert (input b) tier) st =
        { st with
          nextUuid := st.nextUuid + l.length
          db := { st.db with alerts := st.db.alerts ++ new } } ∧
      new.map (·.id) = List.range' st.nextUuid l.length ∧ new.map about = l.map fun b => aboutInput (input b) tier := by
  induction l generalizing st with
  | nil => exact ⟨[], by simp, rfl, rfl⟩
  | cons b l ih =>
    obtain ⟨new, hst, hids, habout⟩ := ih (st.createAlert (input b) tier)
    refine ⟨{ Sql.newAlert (input b) st.toStore with escalationTier := tier } :: new, ?_, ?_, ?_⟩
    · have hnext : st.nextUuid + 1 + l.length = st.nextUuid + (l.length + 1) := by rw [Nat.add_assoc, Nat.add_comm 1]
      rw [List.foldl_cons, hst, List.length_cons, ← hnext]
      simp only [AlertStore.createAlert, List.append_assoc, List.singleton_append]
    · rw [List.map_cons, hids, List.length_cons, List.range'_succ]
      rfl
    · rw [List.map_cons, habout]
      rfl

theorem drawn_range' (n len : Nat) : Drawn n (n + len) (List.range' n len) :=
  ⟨List.nodup_range', by simp⟩

/-- The alert as it was queued. -/
def asQueued (a : Alert) : About := { about a with status := .pending }

/-- All alerts as they were queued. -/
def AlertStore.queue (st : AlertStore) : List About := st.db.alerts.map asQueued

theorem markAlert_queue (id : Uuid) (status : AlertStatus) (detail : Option String) (st : AlertStore) :
    (st.markAlert id status detail).queue = st.queue := by
  show (st.db.alerts.map _).map asQueued = _
  rw [List.map_map]
  refine List.map_congr_left fun a _ => ?_
  show asQueued (if a.id = id then _ else a) = _
  split <;> rfl

theorem resolveIncident_ids (id : Uuid) (resolution : Option String) (st : Store) :
    (Sql.resolveIncident id resolution st).2.db.incidents.map (·.id) = st.db.incidents.map (·.id) := by
  rw [Sql.resolveIncident, List.map_map]
  refine List.map_congr_left fun i _ => ?_
  show (if _ then _ else i : Incident).id = i.id
  split <;> rfl

/-- A recovery resolves its incident and queues an alert for each destination. -/
theorem commitRecovery_eq (incidentId apiId : Uuid) (dests : List (AlertChannel × String)) (st : AlertStore) :
    ∃ new : List Alert, commitRecovery incidentId apiId dests st =
        { (st.lift (Sql.resolveIncident incidentId none)).2 with
          nextUuid := st.nextUuid + dests.length
          db := { (Sql.resolveIncident incidentId none st.toStore).2.db with alerts := st.db.alerts ++ new }
          locked := st.locked.erase incidentId
          told := incidentId :: st.told } ∧
      new.map (·.id) = List.range' st.nextUuid dests.length ∧
      new.map about = dests.map fun d => aboutInput ⟨.apiRecovered, d.1, d.2, some incidentId, some apiId⟩ none := by
  obtain ⟨new, hst, hids, habout⟩ := foldl_createAlert (fun d : AlertChannel × String =>
    ⟨.apiRecovered, d.1, d.2, some incidentId, some apiId⟩) none dests (st.lift (Sql.resolveIncident incidentId none)).2
  refine ⟨new, ?_, hids, habout⟩
  simp only [commitRecovery, hst]
  rfl

/-! ### Command by command -/

variable {env : Env} {w : World} {st st' : AlertStore}

/-- Pending alerts are added under fresh identifiers. -/
def Adds (st st' : AlertStore) : Prop :=
  st.nextUuid ≤ st'.nextUuid ∧ ∃ new, st'.db.alerts = st.db.alerts ++ new ∧
    Drawn st.nextUuid st'.nextUuid (new.map (·.id)) ∧ ∀ n ∈ new, n.status = .pending

theorem Adds.of_eq (hal : st'.db.alerts = st.db.alerts) (huuid : st'.nextUuid = st.nextUuid) : Adds st st' :=
  ⟨huuid.ge, [], by simp [hal], .nil, by simp⟩

theorem Adds.of_grows {α : Type} {fn : SqlM α} (h : TxGrows fn) : Adds st (st.transaction fn) := by
  have hgrows : Grows st.toStore (st.transaction fn).toStore := h.transaction st.toStore
  obtain ⟨new, hal, hdrawn, hnew⟩ := hgrows.alerts
  exact ⟨hgrows.uuid, new, hal, hdrawn, fun n hn => (hnew n hn).1⟩

/-- Every command but `markAlert` leaves the alerts that there are. -/
theorem exec_adds {c : AlertCmd} (hc : ∀ id status detail, c ≠ .markAlert id status detail) (st : AlertStore) :
    Adds st (c.exec env w st).2 := by
  cases c with
  | markAlert id status detail => exact absurd rfl (hc id status detail)
  | createAlert i tier =>
    exact ⟨Nat.le_succ _, [{ Sql.newAlert i st.toStore with escalationTier := tier }], rfl,
      ⟨List.nodup_singleton _, by simp [Sql.newAlert, AlertCmd.exec, AlertStore.createAlert]⟩, by simp [Sql.newAlert]⟩
  | openForCheck ctx => exact .of_grows (openForCheck_grows env ctx)
  | recordFailure ctx active => exact .of_grows (recordFailure_grows env ctx active)
  | resolveInTransaction id =>
    simp only [AlertCmd.exec]
    split <;> exact .of_eq rfl rfl
  | commitRecovery incidentId apiId dests =>
    obtain ⟨new, hst, hids, habout⟩ := commitRecovery_eq incidentId apiId dests st
    simp only [AlertCmd.exec, hst]
    refine ⟨Nat.le_add_right _ _, new, rfl, hids ▸ drawn_range' _ _, fun n hn => ?_⟩
    obtain ⟨d, -, heq⟩ := List.mem_map.1 (habout ▸ List.mem_map_of_mem hn)
    exact (congrArg About.status heq).symm
  | _ => exact .of_eq rfl rfl

/-- The identifiers of alerts are distinct and come from the generator. -/
def Keyed (st : AlertStore) : Prop :=
  (st.db.alerts.map (·.id)).Nodup ∧ ∀ a ∈ st.db.alerts, a.id < st.nextUuid

theorem Keyed.adds (h : Keyed st) (ha : Adds st st') : Keyed st' := by
  obtain ⟨huuid, new, hal, ⟨hnodup, hdrawn⟩, -⟩ := ha
  rw [Keyed, hal]
  refine ⟨?_, fun a ha => ?_⟩
  · rw [List.map_append]
    refine List.nodup_append.2 ⟨h.1, hnodup, fun x hx y hy => ?_⟩
    obtain ⟨b, hb, rfl⟩ := List.mem_map.1 hx
    exact Nat.ne_of_lt (Nat.lt_of_lt_of_le (h.2 b hb) (hdrawn y hy).1)
  · rcases List.mem_append.1 ha with ha | ha
    · exact Nat.lt_of_lt_of_le (h.2 a ha) huuid
    · exact (hdrawn a.id (List.mem_map_of_mem ha)).2

theorem markAlert_id (id : Uuid) (status : AlertStatus) (detail : Option String) (now : Time) (a : Alert) :
    (if a.id = id then AlertStore.markedRow status detail now a else a).id = a.id := by
  split <;> rfl

theorem Keyed.markAlert (h : Keyed st) (id : Uuid) (status : AlertStatus) (detail : Option String) :
    Keyed (st.markAlert id status detail) := by
  refine ⟨?_, fun a ha => ?_⟩
  · show ((st.db.alerts.map _).map _).Nodup
    rw [List.map_map]
    exact (List.map_congr_left fun a _ => markAlert_id id status detail st.now a) ▸ h.1
  · obtain ⟨b, hb, rfl⟩ := List.mem_map.1 ha
    rw [markAlert_id]
    exact h.2 b hb

/-- The status of the alert with the identifier `id`. -/
def AlertStore.statusOf (id : Uuid) (st : AlertStore) : Option AlertStatus :=
  (st.db.alerts.find? (·.id = id)).map (·.status)

theorem Keyed.statusOf (h : Keyed st) {a : Alert} (ha : a ∈ st.db.alerts) : st.statusOf a.id = some a.status := by
  have hfind : st.db.alerts.find? (·.id = a.id) = some a := by
    cases hf : st.db.alerts.find? (·.id = a.id) with
    | none => exact absurd (List.find?_eq_none.1 hf a ha) (by simp)
    | some b =>
      have hid : b.id = a.id := by simpa using List.find?_some hf
      rw [List.inj_on_of_nodup_map h.1 (List.mem_of_find?_eq_some hf) ha hid]
  rw [AlertStore.statusOf, hfind]
  rfl

theorem Adds.statusOf (h : Adds st st') {id : Uuid} {status : AlertStatus} (hs : st.statusOf id = some status) :
    st'.statusOf id = some status := by
  obtain ⟨-, new, hal, -, -⟩ := h
  obtain ⟨a, ha, hstatus⟩ := Option.map_eq_some_iff.1 hs
  rw [AlertStore.statusOf, hal, List.find?_append, ha, Option.some_or, Option.map_some, hstatus]

theorem markAlert_statusOf (id : Uuid) (status : AlertStatus) (detail : Option String) (st : AlertStore) (id' : Uuid) :
    (st.markAlert id status detail).statusOf id' =
      if id' = id then (st.statusOf id').map fun _ => status else st.statusOf id' := by
  show ((st.db.alerts.map _).find? _).map _ = _
  rw [List.find?_map_of_key (markAlert_id id status detail st.now) st.db.alerts id', Option.map_map, AlertStore.statusOf]
  cases hf : st.db.alerts.find? (·.id = id') with
  | none => simp
  | some a =>
    have hid : a.id = id' := by simpa using List.find?_some hf
    by_cases h : id' = id <;> simp [hid, h, AlertStore.markedRow]

end Alerts

end CronMonitor
