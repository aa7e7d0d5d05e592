import CronMonitor.Alerts.Frame
import CronMonitor.Alerts.Programs
import CronMonitor.Lib.Runs

/-!
# Who is told that an incident is over

A recovery queues an alert for the default destinations, the contacts, and whom it has read that an alert of the
incident was sent to. What is sent after it has read is on nobody's list, and a manual resolution queues nothing. If
nothing is sent too late, except where every recovery goes or an alert of the incident has gone before, and only incidents
that nobody has heard of are resolved by hand, everyone who heard of an incident hears that it is over.
-/

namespace CronMonitor.Alerts

open Runs Prog

namespace AlertStore

/-- Where alerts of the incident were sent, recovery alerts apart. -/
def heard (incidentId : Uuid) (st : AlertStore) : List (AlertChannel × String) :=
  (st.db.alerts.filter fun a =>
    a.incidentId = some incidentId && a.status = .sent && a.alertType ≠ .apiRecovered).map fun a => (a.channel, a.recipient)

/-- Where recovery alerts of the incident go. -/
def recovered (incidentId : Uuid) (st : AlertStore) : List (AlertChannel × String) :=
  (st.db.alerts.filter fun a => a.incidentId = some incidentId && a.alertType = .apiRecovered).map fun a =>
    (a.channel, a.recipient)

def Resolved (incidentId : Uuid) (st : AlertStore) : Prop :=
  ∃ i ∈ st.db.incidents, i.id = incidentId ∧ i.status = .resolved

instance (incidentId : Uuid) : DecidablePred (Resolved incidentId) := fun _ => inferInstanceAs (Decidable (∃ _ ∈ _, _))

/-- Whoever heard of a resolved incident has a recovery alert of it. -/
def EveryoneTold (st : AlertStore) : Prop :=
  ∀ incidentId, st.Resolved incidentId → ∀ d ∈ st.heard incidentId, d ∈ st.recovered incidentId

/-- The same, asked for only when no alert is pending. -/
def RecoveryComplete (st : AlertStore) : Prop := (∀ a ∈ st.db.alerts, a.status ≠ .pending) → st.EveryoneTold

/-- The contacts that every recovery notifies. -/
def contacts (st : AlertStore) : List NotificationContact := (Sql.incidentAlertContacts st.toStore).1

end AlertStore

/-- Where every recovery goes: the default destinations and the contacts. -/
def standing (env : Env) (st : AlertStore) : List (AlertChannel × String) :=
  env.alertDefaultChannels.map (fun channel => (channel, env.alertDefaultRecipient)) ++
    st.contacts.map fun c => (c.channel, c.address)

/-- An alert of an incident may still be sent where one of it was sent before. Elsewhere it comes too late once a recovery
has read whom to notify, unless it goes where every recovery goes; and after a resolution by hand in any case. -/
def InTime (env : Env) (st : AlertStore) (a : Alert) : Prop :=
  a.alertType = .apiRecovered ∨ ∀ incidentId ∈ a.incidentId, (a.channel, a.recipient) ∈ st.heard incidentId ∨
    (incidentId ∈ st.asked → (a.channel, a.recipient) ∈ standing env st) ∧
      (st.Resolved incidentId → incidentId ∈ st.told ∧ (a.channel, a.recipient) ∈ standing env st)

instance (env : Env) (st : AlertStore) : DecidablePred (InTime env st) := fun a =>
  inferInstanceAs (Decidable (_ ∨ ∀ incidentId ∈ a.incidentId, _))

/-- The alerts that the step marks as sent. -/
def sending (s : AlertSys) (l : AlertLabel) : List Alert :=
  match s.command l with
  | some (.markAlert id .sent _) => s.store.db.alerts.filter (·.id = id)
  | _ => []

/-- The incident that the step resolves by hand. -/
def resolving (s : AlertSys) (l : AlertLabel) : Option Uuid :=
  match s.command l with
  | some (.resolveIncident id _) => some id
  | _ => none

/-- No alert is sent too late, and no incident that somebody has heard of is resolved by hand. -/
def TellsEveryone (env : Env) (s : AlertSys) (l : AlertLabel) : Prop :=
  (∀ a ∈ sending s l, InTime env s.store a) ∧
    ∀ id ∈ resolving s l, s.store.Resolved id ∨ s.store.heard id = []

instance (env : Env) (s : AlertSys) : DecidablePred (TellsEveryone env s) := fun _ => inferInstanceAs (Decidable (_ ∧ _))

/-! ### The protocol of a recovery -/

/-- What a recovery has read of whom to notify, and whom it is going to. -/
inductive Hearing
  | idle
  | heard (incidentId : Uuid) (notified : List (AlertChannel × String))
  | ready (incidentId : Uuid) (dests : List (AlertChannel × String))
deriving DecidableEq

def Hearing.next (env : Env) : Protocol AlertCmd AlertCmd.Ans Hearing
  | x, .notifiedTargetsForIncident id => if x = .idle then some fun notified => .heard id notified else none
  | x, .incidentAlertContacts =>
    match x with
    | .heard id notified => some fun contacts => .ready id (recoveryDests env contacts notified)
    | _ => none
  | x, .commitRecovery id _ dests => if x = .ready id dests then some fun _ => .idle else none
  | x, _ => if x = .idle then some fun _ => .idle else none

variable {env : Env} {w : World} {st st' : AlertStore}

theorem Hearing.next_of_not_recovers {c : AlertCmd} (h : c.NoRecovery) :
    Hearing.next env .idle c = some fun _ => .idle := by
  cases c <;> first | rfl | cases h

theorem Hearing.quiet {α : Type} {p : AlertProg α} (h : p.Issues AlertCmd.NoRecovery) :
    Follows (Hearing.next env) .idle p fun _ y => y = .idle :=
  Follows.of_issues h fun _ hc => next_of_not_recovers hc

theorem deliver_issues (result : DeliveryResult) (a : Alert) : (deliver result a).Issues AlertCmd.NoRecovery := by
  unfold deliver
  refine .bind (readBy_issues fun _ => .cmd (P := AlertCmd.NoRecovery) rfl) fun incident => ?_
  refine .bind (readBy_issues fun _ => .cmd (P := AlertCmd.NoRecovery) rfl) fun target => ?_
  refine .bind (readBy_issues fun _ => .cmd (P := AlertCmd.NoRecovery) rfl) fun window => ?_
  cases window with
  | some window => exact .bind (.cmd (P := AlertCmd.NoRecovery) rfl) fun _ => trivial
  | none =>
    refine .bind (.cmd (P := AlertCmd.NoRecovery) rfl) fun body => .bind (.cmd (P := AlertCmd.NoRecovery) rfl) fun outcome => ?_
    split <;> exact .bind (.cmd (P := AlertCmd.NoRecovery) rfl) fun _ => trivial

theorem cycle_issues (now : Time) : (cycle now).Issues AlertCmd.NoRecovery := by
  unfold cycle runDeliveryCycle
  refine .bind (runEscalationCycle_issues (fun _ h => h.2) now) fun _ => .bind (.bind ?_ fun _ => ?_) fun _ => trivial
  · exact .cmd (P := AlertCmd.NoRecovery) rfl
  · exact .foldlM deliver_issues _ _

theorem processCheck_follows (ctx : CheckContext) :
    Follows (Hearing.next env) .idle (processCheck env ctx) fun _ y => y = .idle := by
  unfold processCheck
  refine .bind (.cmd rfl fun active => ?_)
  split
  · rfl
  · rfl
  · unfold recover
    split
    · refine .bind (.cmd rfl fun resolved => ?_)
      cases resolved with
      | none => rfl
      | some resolved =>
        refine .bind (.cmd rfl fun notified => .bind (.cmd rfl fun contacts => ?_))
        exact .cmd (if_pos rfl) fun _ => rfl
    · rfl
  all_goals exact .cmd rfl fun _ => rfl

theorem AlertRequest.hearing_follows (r : AlertRequest) :
    Follows (Hearing.next env) .idle (r.program env) fun _ _ => True := by
  cases r with
  | cycle now => exact (Hearing.quiet (cycle_issues now)).mono fun _ _ _ => trivial
  | check ctx => exact (processCheck_follows ctx).mono fun _ _ _ => trivial
  | resolve id resolution actor =>
    refine .bind ((Hearing.quiet (resolveIncidentManually_issues (fun _ h => h.2) id resolution actor)).mono ?_)
    exact fun _ _ _ => trivial

/-! ### What the commands leave alone -/

theorem mem_heard {incidentId : Uuid} {d : AlertChannel × String} : d ∈ st.heard incidentId ↔
    ∃ a ∈ st.db.alerts, a.incidentId = some incidentId ∧ a.status = .sent ∧ a.alertType ≠ .apiRecovered ∧
      (a.channel, a.recipient) = d := by
  simp [AlertStore.heard, List.mem_map, List.mem_filter, and_assoc]

theorem mem_recovered {incidentId : Uuid} {d : AlertChannel × String} : d ∈ st.recovered incidentId ↔
    ∃ a ∈ st.db.alerts, a.incidentId = some incidentId ∧ a.alertType = .apiRecovered ∧ (a.channel, a.recipient) = d := by
  simp [AlertStore.recovered, List.mem_map, List.mem_filter, and_assoc]

/-- Nobody new hears of an incident, and no recovery alert goes away. -/
structure Tame (st st' : AlertStore) : Prop where
  heard : ∀ incidentId, ∀ d ∈ st'.heard incidentId, d ∈ st.heard incidentId
  recovered : ∀ incidentId, ∀ d ∈ st.recovered incidentId, d ∈ st'.recovered incidentId

theorem Adds.tame (h : Adds st st') : Tame st st' := by
  obtain ⟨-, new, hal, -, hnew⟩ := h
  refine ⟨fun incidentId d hd => ?_, fun incidentId d hd => ?_⟩
  · obtain ⟨a, ha, hid, hsent, hd⟩ := mem_heard.1 hd
    rcases List.mem_append.1 (hal ▸ ha) with ha | ha
    · exact mem_heard.2 ⟨a, ha, hid, hsent, hd⟩
    · cases (hnew a ha).symm.trans hsent
  · obtain ⟨a, ha, hd⟩ := mem_recovered.1 hd
    exact mem_recovered.2 ⟨a, hal ▸ List.mem_append_left _ ha, hd⟩

/-- Marking an alert leaves what it says. -/
theorem mem_markAlert {id : Uuid} {status : AlertStatus} {detail : Option String} {a : Alert} :
    a ∈ (st.markAlert id status detail).db.alerts ↔
      ∃ b ∈ st.db.alerts, (if b.id = id then AlertStore.markedRow status detail st.now b else b) = a :=
  List.mem_map

theorem markAlert_recovered (id : Uuid) (status : AlertStatus) (detail : Option String) (incidentId : Uuid) :
    ∀ d ∈ st.recovered incidentId, d ∈ (st.markAlert id status detail).recovered incidentId := by
  intro d hd
  obtain ⟨a, ha, hd⟩ := mem_recovered.1 hd
  refine mem_recovered.2 ⟨_, mem_markAlert.2 ⟨a, ha, rfl⟩, ?_⟩
  split <;> exact hd

/-- Who hears of an incident when an alert is marked: whoever had heard, and if it was sent, its recipient. -/
theorem markAlert_heard {id : Uuid} {status : AlertStatus} {detail : Option String} {incidentId : Uuid}
    {d : AlertChannel × String} (hd : d ∈ (st.markAlert id status detail).heard incidentId) :
    d ∈ st.heard incidentId ∨ status = .sent ∧ ∃ a ∈ st.db.alerts, a.id = id ∧ a.incidentId = some incidentId ∧
      a.alertType ≠ .apiRecovered ∧ (a.channel, a.recipient) = d := by
  obtain ⟨a, ha, hid, hsent, hne, hd⟩ := mem_heard.1 hd
  obtain ⟨b, hb, rfl⟩ := mem_markAlert.1 ha
  split at hid
  · rename_i hbid
    rw [if_pos hbid] at hsent hne hd
    exact .inr ⟨hsent, b, hb, hbid, hid, hne, hd⟩
  · rename_i hbid
    rw [if_neg hbid] at hsent hne hd
    exact .inl (mem_heard.2 ⟨b, hb, hid, hsent, hne, hd⟩)

theorem exec_tame {c : AlertCmd} (hc : ∀ id detail, c ≠ .markAlert id .sent detail) (st : AlertStore) :
    Tame st (c.exec env w st).2 := by
  by_cases hmark : ∃ id status detail, c = .markAlert id status detail
  · obtain ⟨id, status, detail, rfl⟩ := hmark
    refine ⟨fun incidentId d hd => ?_, markAlert_recovered id status detail⟩
    rcases markAlert_heard hd with hd | ⟨rfl, -⟩
    · exact hd
    · exact absurd rfl (hc id detail)
  · exact (exec_adds (fun id status detail hc => hmark ⟨id, status, detail, hc⟩) st).tame

theorem exec_contacts (c : AlertCmd) (st : AlertStore) : (c.exec env w st).2.contacts = st.contacts := by
  have hsame : (c.exec env w st).2.db.notificationContacts = st.db.notificationContacts := by
    cases c with
    | openForCheck ctx => exact ((openForCheck_grows env ctx).transaction st.toStore).contacts
    | recordFailure ctx active => exact ((recordFailure_grows env ctx active).transaction st.toStore).contacts
    | resolveInTransaction id =>
      simp only [AlertCmd.exec]
      split <;> rfl
    | commitRecovery incidentId apiId dests =>
      obtain ⟨new, hst, -, -⟩ := commitRecovery_eq incidentId apiId dests st
      simp only [AlertCmd.exec, hst]
      rfl
    | _ => rfl
  rw [AlertStore.contacts, Sql.incidentAlertContacts, hsame]
  rfl

theorem exec_asked (c : AlertCmd) (st : AlertStore) : ∀ id ∈ st.asked, id ∈ (c.exec env w st).2.asked := by
  intro id hid
  cases c with
  | notifiedTargetsForIncident id => exact List.mem_cons_of_mem _ hid
  | resolveInTransaction id =>
    simp only [AlertCmd.exec]
    split <;> exact hid
  | commitRecovery incidentId apiId dests =>
    obtain ⟨new, hst, -, -⟩ := commitRecovery_eq incidentId apiId dests st
    simp only [AlertCmd.exec, hst]
    exact hid
  | _ => exact hid

/-- Only a commit tells. -/
theorem exec_told {c : AlertCmd} {id : Uuid} (h : id ∈ (c.exec env w st).2.told) :
    id ∈ st.told ∨ ∃ apiId dests, c = .commitRecovery id apiId dests := by
  cases c with
  | resolveInTransaction id =>
    simp only [AlertCmd.exec] at h
    split at h <;> exact .inl h
  | commitRecovery incidentId apiId dests =>
    obtain ⟨new, hst, -, -⟩ := commitRecovery_eq incidentId apiId dests st
    simp only [AlertCmd.exec, hst] at h
    rcases List.mem_cons.1 h with rfl | h
    · exact .inr ⟨apiId, dests, rfl⟩
    · exact .inl h
  | _ => exact .inl h

theorem resolved_iff {incidentId : Uuid} :
    st.Resolved incidentId ↔ ∃ c ∈ st.db.incidents.map (·.core), c.id = incidentId ∧ c.status = .resolved := by
  simp [AlertStore.Resolved, Incident.core]

theorem Resolved.of_grows {α : Type} {fn : SqlM α} (h : TxGrows fn) {incidentId : Uuid}
    (hr : (st.transaction fn).Resolved incidentId) : st.Resolved incidentId := by
  obtain ⟨new, hinc, -, hopen⟩ := (h.transaction st.toStore).incidents
  obtain ⟨c, hc, hid, hstatus⟩ := resolved_iff.1 hr
  rcases List.mem_append.1 (hinc ▸ hc : c ∈ st.db.incidents.map (·.core) ++ _) with hc | hc
  · exact resolved_iff.2 ⟨c, hc, hid, hstatus⟩
  · obtain ⟨n, hn, rfl⟩ := List.mem_map.1 hc
    cases (hopen n hn).symm.trans hstatus

/-- Resolving one incident. -/
theorem Resolved.of_resolve {id incidentId : Uuid} {resolution : Option String}
    (h : st'.db.incidents = (Sql.resolveIncident id resolution st.toStore).2.db.incidents)
    (hr : st'.Resolved incidentId) : st.Resolved incidentId ∨ id = incidentId := by
  obtain ⟨i, hi, hid, hstatus⟩ := hr
  obtain ⟨j, hj, rfl⟩ := List.mem_map.1 (h ▸ hi : i ∈ st.db.incidents.map _)
  split at hid
  · rename_i hm
    exact .inr ((by simpa using (Bool.and_eq_true_iff.1 hm).1 : j.id = id).symm.trans hid)
  · rename_i hm
    rw [if_neg hm] at hstatus
    exact .inl ⟨j, hj, hid, hstatus⟩

/-- An incident is resolved by a recovery or by hand. -/
theorem exec_resolved {c : AlertCmd} {incidentId : Uuid} (h : (c.exec env w st).2.Resolved incidentId) :
    st.Resolved incidentId ∨ (∃ apiId dests, c = .commitRecovery incidentId apiId dests) ∨
      ∃ resolution, c = .resolveIncident incidentId resolution := by
  cases c with
  | escalateIncident id level =>
    obtain ⟨c, hc, hstatus⟩ := resolved_iff.1 h
    exact .inl (resolved_iff.2 ⟨c, escalateIncident_core id level st.toStore ▸ hc, hstatus⟩)
  | openForCheck ctx => exact .inl (Resolved.of_grows (openForCheck_grows env ctx) h)
  | recordFailure ctx active => exact .inl (Resolved.of_grows (recordFailure_grows env ctx active) h)
  | resolveInTransaction id =>
    simp only [AlertCmd.exec] at h
    split at h <;> exact .inl h
  | commitRecovery id apiId dests =>
    obtain ⟨new, hst, -, -⟩ := commitRecovery_eq id apiId dests st
    simp only [AlertCmd.exec, hst] at h
    refine (Resolved.of_resolve rfl h).imp_right ?_
    rintro rfl
    exact .inl ⟨apiId, dests, rfl⟩
  | resolveIncident id resolution =>
    refine (Resolved.of_resolve rfl h).imp_right ?_
    rintro rfl
    exact .inr ⟨resolution, rfl⟩
  | _ => exact .inl h

/-! ### What the recoveries at work still have to tell -/

/-- Whoever heard of the incident is among `dests` or has a recovery alert of it. -/
def Covers (incidentId : Uuid) (dests : List (AlertChannel × String)) (st : AlertStore) : Prop :=
  ∀ d ∈ st.heard incidentId, d ∈ dests ∨ d ∈ st.recovered incidentId

def Hearing.Ok (env : Env) (st : AlertStore) : Hearing → Prop
  | idle => True
  | heard id notified => id ∈ st.asked ∧ Covers id (recoveryDests env st.contacts notified) st
  | ready id dests => id ∈ st.asked ∧ standing env st ⊆ dests ∧ Covers id dests st

/-- Every recovery that has committed has gone where every recovery goes. -/
def Announced (env : Env) (st : AlertStore) : Prop := ∀ id ∈ st.told, standing env st ⊆ st.recovered id

/-- Whoever newly hears of an incident does so in time. -/
structure Tells (env : Env) (st st' : AlertStore) : Prop where
  heard : ∀ incidentId, ∀ d ∈ st'.heard incidentId, d ∈ st.heard incidentId ∨
    (incidentId ∈ st.asked → d ∈ standing env st) ∧ (st.Resolved incidentId → incidentId ∈ st.told ∧ d ∈ standing env st)
  recovered : ∀ incidentId, ∀ d ∈ st.recovered incidentId, d ∈ st'.recovered incidentId

theorem Tame.tells (h : Tame st st') : Tells env st st' := ⟨fun k d hd => .inl (h.heard k d hd), h.recovered⟩

theorem markAlert_tells {id : Uuid} {status : AlertStatus} {detail : Option String}
    (h : ∀ a ∈ st.db.alerts, a.id = id → InTime env st a) : Tells env st (st.markAlert id status detail) := by
  refine ⟨fun incidentId d hd => ?_, markAlert_recovered id status detail⟩
  rcases markAlert_heard hd with hd | ⟨-, a, ha, hid, hinc, hne, rfl⟩
  · exact .inl hd
  · exact (h a ha hid).resolve_left hne incidentId hinc

theorem standing_congr (h : st'.contacts = st.contacts) : standing env st' = standing env st := by
  rw [standing, standing, h]

theorem mem_recoveryDests {notified : List (AlertChannel × String)} {d : AlertChannel × String} :
    d ∈ recoveryDests env st.contacts notified ↔ d ∈ standing env st ∨ d ∈ notified := by
  simp only [recoveryDests, standing, List.mem_reverse, List.mem_dedup, List.mem_append]

theorem standing_subset (notified : List (AlertChannel × String)) :
    standing env st ⊆ recoveryDests env st.contacts notified := fun _ hd => mem_recoveryDests.2 (.inl hd)

theorem Covers.tells {incidentId : Uuid} {dests : List (AlertChannel × String)} (h : Covers incidentId dests st)
    (ht : Tells env st st') (hasked : incidentId ∈ st.asked) (hstanding : standing env st ⊆ dests) :
    Covers incidentId dests st' := by
  intro d hd
  rcases ht.heard incidentId d hd with hd | ⟨hd, -⟩
  · exact (h d hd).imp_right (ht.recovered incidentId d)
  · exact .inl (hstanding (hd hasked))

theorem Hearing.Ok.tells {x : Hearing} (h : x.Ok env st) (ht : Tells env st st') (hcontacts : st'.contacts = st.contacts)
    (hasked : ∀ id ∈ st.asked, id ∈ st'.asked) : x.Ok env st' := by
  cases x with
  | idle => trivial
  | heard id notified =>
    obtain ⟨hmem, hcov⟩ := h
    exact ⟨hasked _ hmem, hcontacts ▸ hcov.tells ht hmem (standing_subset notified)⟩
  | ready id dests =>
    obtain ⟨hmem, hsub, hcov⟩ := h
    have hsub' : standing env st' ⊆ dests := standing_congr hcontacts ▸ hsub
    exact ⟨hasked _ hmem, hsub', hcov.tells ht hmem hsub⟩

/-- Nobody who heard of a resolved incident is left out, if nobody who heard of one that is now resolved was. -/
theorem EveryoneTold.tells (h : st.EveryoneTold) (hann : Announced env st) (ht : Tells env st st')
    (hnew : ∀ incidentId, st'.Resolved incidentId → st.Resolved incidentId ∨
      ∀ d ∈ st'.heard incidentId, d ∈ st'.recovered incidentId) : st'.EveryoneTold := by
  intro incidentId hres d hd
  rcases hnew incidentId hres with hres | hall
  · refine ht.recovered incidentId d ?_
    rcases ht.heard incidentId d hd with hd | ⟨-, hlate⟩
    · exact h incidentId hres d hd
    · exact hann incidentId (hlate hres).1 (hlate hres).2
  · exact hall d hd

/-- A recovery queues an alert for each of its destinations. -/
theorem commitRecovery_recovered {incidentId apiId : Uuid} {dests : List (AlertChannel × String)}
    {d : AlertChannel × String} (hd : d ∈ dests) : d ∈ (commitRecovery incidentId apiId dests st).recovered incidentId := by
  obtain ⟨new, hst, -, habout⟩ := commitRecovery_eq incidentId apiId dests st
  have hmem : aboutInput ⟨.apiRecovered, d.1, d.2, some incidentId, some apiId⟩ none ∈ new.map about :=
    habout ▸ List.mem_map_of_mem hd
  obtain ⟨a, ha, heq⟩ := List.mem_map.1 hmem
  refine mem_recovered.2 ⟨a, hst ▸ List.mem_append_right _ ha, congrArg About.incidentId heq, congrArg About.alertType heq, ?_⟩
  exact Prod.ext (congrArg About.channel heq) (congrArg About.recipient heq)

theorem Announced.exec {c : AlertCmd} (h : Announced env st) (ht : Tells env st (c.exec env w st).2)
    (hcommit : ∀ id apiId dests, c = .commitRecovery id apiId dests → standing env st ⊆ dests) :
    Announced env (c.exec env w st).2 := by
  intro id hid
  rw [standing_congr (exec_contacts c st)]
  rcases exec_told hid with hid | ⟨apiId, dests, rfl⟩
  · exact fun d hd => ht.recovered id d (h id hid hd)
  · exact fun d hd => commitRecovery_recovered (hcommit id apiId dests rfl hd)

structure Telling (env : Env) (s : AlertSys) (hs : List Hearing) : Prop where
  tracked : s.Tracked (Hearing.next env) hs
  told : s.store.EveryoneTold
  announced : Announced env s.store
  ok : ∀ x ∈ hs, x.Ok env s.store

/-! ### Runs -/

variable {s s' : AlertSys} {hs : List Hearing} {l : AlertLabel}

theorem TellsEveryone.tells {c : AlertCmd} (h : TellsEveryone env s l) (hc : s.command l = some c)
    (hstore : s'.store = (c.exec env w (s.store.elapse w.elapsed)).2) : Tells env s.store s'.store := by
  have ht : Tells env (s.store.elapse w.elapsed) (c.exec env w (s.store.elapse w.elapsed)).2 := by
    by_cases hmark : ∃ id detail, c = .markAlert id .sent detail
    · obtain ⟨id, detail, rfl⟩ := hmark
      have hsent : ∀ a ∈ s.store.db.alerts, a.id = id → InTime env s.store a := by
        simpa [sending, hc] using h.1
      have ht : Tells env _ ((s.store.elapse w.elapsed).markAlert id .sent detail) := markAlert_tells hsent
      exact ⟨ht.heard, ht.recovered⟩
    · exact (exec_tame (fun id detail hc => hmark ⟨id, detail, hc⟩) _).tells
  rw [hstore]
  exact ⟨ht.heard, ht.recovered⟩

theorem Telling.start (h : Telling env s hs) (hstore : s'.store = s.store)
    (htracked : s'.Tracked (Hearing.next env) (hs ++ [.idle])) : Telling env s' (hs ++ [.idle]) := by
  refine ⟨htracked, hstore ▸ h.told, hstore ▸ h.announced, ?_⟩
  rw [hstore]
  exact List.forall_mem_append.2 ⟨h.ok, List.forall_mem_singleton.2 trivial⟩

/-- What a recovery knows after its next command, and whom that leaves out. -/
theorem Telling.advance {i : Nat} {c : AlertCmd} {x : Hearing} {f : c.Ans → Hearing} (h : Telling env s hs)
    (hl : TellsEveryone env s l) (hc : s.command l = some c) (hi : hs[i]? = some x) (hf : Hearing.next env x c = some f)
    (hstore : s'.store = (c.exec env w (s.store.elapse w.elapsed)).2) :
    s'.store.EveryoneTold ∧ (f (c.exec env w (s.store.elapse w.elapsed)).1).Ok env s'.store := by
  have ht := hl.tells hc hstore
  have hx := h.ok x (List.mem_of_getElem? hi)
  have hres : ∀ incidentId, s'.store.Resolved incidentId → s.store.Resolved incidentId ∨
      (∃ apiId dests, c = .commitRecovery incidentId apiId dests) ∨ ∃ resolution, c = .resolveIncident incidentId resolution :=
    fun incidentId hr =>
      have hr : (c.exec env w (s.store.elapse w.elapsed)).2.Resolved incidentId := hstore ▸ hr
      show (s.store.elapse w.elapsed).Resolved incidentId ∨ _ from exec_resolved hr
  cases c with
  | notifiedTargetsForIncident id =>
    obtain ⟨rfl, hnext⟩ := Option.ite_none_right_eq_some.1 hf
    cases hnext
    refine ⟨EveryoneTold.tells h.told h.announced ht fun k hr => .inl ((hres k hr).resolve_right (by simp)), ?_⟩
    rw [hstore]
    refine ⟨List.mem_cons_self, fun d hd => .inl (mem_recoveryDests.2 (.inr (List.mem_dedup.2 ?_)))⟩
    simpa [AlertStore.heard, AlertCmd.exec, AlertStore.elapse] using hd
  | incidentAlertContacts =>
    cases x with
    | heard id notified =>
      cases hf
      refine ⟨EveryoneTold.tells h.told h.announced ht fun k hr => .inl ((hres k hr).resolve_right (by simp)), ?_⟩
      rw [hstore]
      exact ⟨hx.1, standing_subset notified, hx.2⟩
    | idle => cases hf
    | ready id dests => cases hf
  | commitRecovery id apiId dests =>
    obtain ⟨rfl, hnext⟩ := Option.ite_none_right_eq_some.1 hf
    cases hnext
    obtain ⟨hasked, hsub, hcov⟩ := hx
    refine ⟨EveryoneTold.tells h.told h.announced ht fun k hr => (hres k hr).imp_right ?_, trivial⟩
    rintro (⟨apiId', dests', heq⟩ | ⟨resolution, heq⟩) d hd
    · obtain rfl : id = k := (AlertCmd.commitRecovery.inj heq).1
      rcases hcov.tells ht hasked hsub d hd with hd | hd
      · rw [hstore]
        exact commitRecovery_recovered hd
      · exact hd
    · cases heq
  | resolveIncident id resolution =>
    obtain ⟨rfl, hnext⟩ := Option.ite_none_right_eq_some.1 hf
    cases hnext
    have hnone : s.store.Resolved id ∨ s.store.heard id = [] := hl.2 id (by simp [resolving, hc])
    refine ⟨EveryoneTold.tells h.told h.announced ht fun k hr => ?_, trivial⟩
    rcases hres k hr with hr | ⟨apiId, dests, heq⟩ | ⟨resolution', heq⟩
    · exact .inl hr
    · cases heq
    · obtain rfl : id = k := (AlertCmd.resolveIncident.inj heq).1
      refine hnone.imp_right fun hnobody d hd => ?_
      rw [hstore] at hd
      cases hnobody ▸ (show d ∈ s.store.heard id from hd)
  | _ =>
    obtain ⟨rfl, hnext⟩ := Option.ite_none_right_eq_some.1 hf
    cases hnext
    exact ⟨EveryoneTold.tells h.told h.announced ht fun k hr => .inl ((hres k hr).resolve_right (by simp)), trivial⟩

/-- A commit goes where every recovery goes. -/
theorem Telling.announced_advance {i : Nat} {c : AlertCmd} {x : Hearing} {f : c.Ans → Hearing} (h : Telling env s hs)
    (ht : Tells env s.store s'.store) (hi : hs[i]? = some x) (hf : Hearing.next env x c = some f)
    (hstore : s'.store = (c.exec env w (s.store.elapse w.elapsed)).2) : Announced env s'.store := by
  have ht' : Tells env (s.store.elapse w.elapsed) (c.exec env w (s.store.elapse w.elapsed)).2 := by
    rw [hstore] at ht
    exact ⟨ht.heard, ht.recovered⟩
  rw [hstore]
  have hannounced : Announced env (s.store.elapse w.elapsed) := h.announced
  refine hannounced.exec ht' ?_
  rintro id apiId dests rfl
  obtain ⟨rfl, -⟩ := Option.ite_none_right_eq_some.1 hf
  exact (h.ok _ (List.mem_of_getElem? hi)).2.1

theorem Telling.step (h : Telling env s hs) (hstep : alertStep env s l = some s') (hl : TellsEveryone env s l) :
    ∃ hs', Telling env s' hs' := by
  rcases h.tracked.step (m := alertSemantics env) (fun _ => .idle) AlertRequest.hearing_follows hstep with
    ⟨p, -, hstore, htracked⟩ | ⟨i, w, c, x, f, -, hc, hi, hf, -, hstore, htracked⟩
  · exact ⟨_, h.start hstore htracked⟩
  · obtain ⟨htold, hok⟩ := h.advance hl hc hi hf hstore
    have ht := hl.tells hc hstore
    have hcontacts : s'.store.contacts = s.store.contacts := by
      rw [hstore]
      exact exec_contacts c (s.store.elapse w.elapsed)
    refine ⟨_, htracked, htold, h.announced_advance ht hi hf hstore, List.forall_mem_set h.ok (fun y hy => ?_) hok⟩
    exact hy.tells ht hcontacts fun t hasked => hstore ▸ exec_asked c (s.store.elapse w.elapsed) t hasked

/-- Where no alert is sent too late, and no incident is resolved by hand that somebody has heard of, recoveries are
complete in every state. -/
theorem recovery_complete {st₀ : AlertStore} {tr : List AlertLabel} (h : st₀.EveryoneTold) (htold : st₀.told = [])
    (hl : Along (alertStep env) (fun s l _ => TellsEveryone env s l) ⟨st₀, []⟩ tr) :
    Throughout (alertStep env) (fun s => s.store.RecoveryComplete) ⟨st₀, []⟩ tr := by
  have hstart : Telling env ⟨st₀, []⟩ [] := ⟨⟨rfl, by simp⟩, h, by simp [Announced, htold], by simp⟩
  refine ⟨fun _ => h, hl.under_inv (I := fun s => ∃ hs, Telling env s hs) ⟨[], hstart⟩ ?_⟩
  rintro s l s' ⟨hs, h⟩ hstep hl
  obtain ⟨hs', h'⟩ := h.step hstep hl
  exact ⟨⟨hs', h'⟩, fun _ => h'.told⟩

/-- An incident is open, and somebody on call has been sent its alert. -/
def oneHeard : AlertStore where
  db := { Db.empty with
    incidents := [Sql.newIncident ⟨1, .outage, .critical, .internal, false, none, some .http5xx⟩ Store.empty]
    alerts := [⟨2, some 0, some 1, .apiDown, .email, "oncall", .sent, none, some 0, some "accepted", 0⟩] }
  nextUuid := 3
  incidentNumberSeq := 2
  now := 0
  targets := [⟨1, "Transfers", none⟩]
  policies := []
  windows := []
  auditLogs := []
  locked := []
  held := []
  sent := []
  asked := []
  told := []

def ticked : World := ⟨1000, ⟨true, "accepted"⟩, ""⟩

instance : DecidablePred AlertStore.EveryoneTold := fun st =>
  decidable_of_iff (∀ i ∈ st.db.incidents, i.status = .resolved → ∀ d ∈ st.heard i.id, d ∈ st.recovered i.id)
    ⟨fun h _ ⟨i, hi, hid, hs⟩ => hid ▸ h i hi hs, fun h i hi hs => h i.id ⟨i, hi, rfl, hs⟩⟩

instance : DecidablePred AlertStore.RecoveryComplete := fun _ => inferInstanceAs (Decidable (_ → _))

/-- The alert of the default destination is still queued. -/
def alsoQueued : AlertStore :=
  { oneHeard with
    db := { oneHeard.db with
      alerts := oneHeard.db.alerts ++ [⟨3, some 0, some 1, .apiDown, .webhook, "ops", .pending, none, none, none, 0⟩] }
    nextUuid := 4 }

/-- A check recovers the incident, and the `n` commands of a cycle deliver what was queued before and then. -/
def recoveredByCheck (n : Nat) : List AlertLabel :=
  .start (.check ⟨makeMonitoredApi, .up, none, none, 2⟩) :: List.replicate 5 (.advance 0 ticked) ++
    .start (.cycle 15000) :: List.replicate n (.advance 1 ticked)

theorem recovery_complete_by_check : ∃ s, run (alertStep .default) ⟨alsoQueued, []⟩ (recoveredByCheck 18) = some s ∧
    s.store.Resolved 0 ∧ s.store.heard 0 = [(.email, "oncall"), (.webhook, "ops")] ∧
      (∀ a ∈ s.store.db.alerts, a.status ≠ .pending) ∧ s.store.RecoveryComplete := by
  obtain ⟨s, hr, hs⟩ := Option.map_eq_some_iff.1 (show (run (alertStep .default) ⟨alsoQueued, []⟩ (recoveredByCheck 18)).map
    (fun s => decide (s.store.Resolved 0 ∧ s.store.heard 0 = [(.email, "oncall"), (.webhook, "ops")] ∧
      ∀ a ∈ s.store.db.alerts, a.status ≠ .pending)) = some true by decide +kernel)
  obtain ⟨hres, hheard, hdone⟩ := of_decide_eq_true hs
  exact ⟨s, hr, hres, hheard, hdone, (recovery_complete (by decide +kernel) rfl (by decide +kernel)).last hr⟩

/-- A resolution by hand queues no recovery alert. -/
theorem recovery_incomplete_by_hand : ¬ ∀ (env : Env) (st₀ : AlertStore) (tr : List AlertLabel) (s : AlertSys),
    st₀.EveryoneTold → run (alertStep env) ⟨st₀, []⟩ tr = some s → s.store.RecoveryComplete := by
  intro h
  obtain ⟨s, hr, hs⟩ := Option.map_eq_some_iff.1 (show (run (alertStep .default) ⟨oneHeard, []⟩
    [.start (.resolve 0 "provider fixed it" (.user 7)), .advance 0 ticked, .advance 0 ticked, .advance 0 ticked]).map
      (fun s => decide ((∀ a ∈ s.store.db.alerts, a.status ≠ .pending) ∧ ¬ s.store.EveryoneTold)) = some true by
        decide +kernel)
  obtain ⟨hdone, hnot⟩ := of_decide_eq_true hs
  exact hnot (h .default oneHeard _ s (by decide +kernel) hr hdone)

-- The alert is still pending when the recovery reads, and sent to somebody whom the recovery leaves out.
example : (run (alertStep .default) ⟨oneHeard.mapAlerts fun a => { a with status := .pending, sentAt := none }, []⟩
    (recoveredByCheck 13)).map (fun s => decide s.store.RecoveryComplete) = some false := by
  decide +kernel

end CronMonitor.Alerts
