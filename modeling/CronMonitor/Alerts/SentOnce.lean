import CronMonitor.Alerts.Frame
import CronMonitor.Alerts.Programs
import CronMonitor.Lib.Runs

/-!
# How often an alert is sent

A delivery cycle holds the alerts it has listed until it marks them, but listing claims nothing: a second cycle lists
what the first one still holds. Where no cycle lists an alert that another one holds, each alert is handed to a channel
at most once, and its status, once final, stays.
-/

namespace CronMonitor.Alerts

open Runs Prog

/-! ### The protocol of a delivery -/

/-- What a program still has to do with the alerts it has listed. -/
structure Batch where
  todo : List Uuid
  /-- the first of them has been handed to its channel -/
  handed : Bool
deriving DecidableEq

def Batch.next : Protocol AlertCmd AlertCmd.Ans Batch
  | x, .listPendingAlerts _ => if x = ⟨[], false⟩ then some fun listed => ⟨listed.map (·.id), false⟩ else none
  | x, .send id _ _ => if x.todo.head? = some id ∧ x.handed = false then some fun _ => { x with handed := true } else none
  | x, .markAlert id status _ =>
    if x.todo.head? = some id ∧ status ≠ .pending then some fun _ => ⟨x.todo.tail, false⟩ else none
  | x, _ => some fun _ => x

theorem Batch.next_list (limit : Nat) : Batch.next ⟨[], false⟩ (.listPendingAlerts limit) =
    some fun listed : List Alert => ⟨listed.map (·.id), false⟩ := rfl

variable {env : Env} {w : World} {st st' : AlertStore} {x : Batch}

theorem Batch.next_of_not_delivers {c : AlertCmd} (h : c.NoDelivery) : Batch.next x c = some fun _ => x := by
  cases c <;> first | rfl | cases h

theorem Batch.quiet {α : Type} {p : AlertProg α} (h : p.Issues AlertCmd.NoDelivery) :
    Follows Batch.next x p fun _ y => y = x :=
  Follows.of_issues h fun _ hc => next_of_not_delivers hc

theorem deliver_follows (result : DeliveryResult) (a : Alert) (rest : List Uuid) :
    Follows Batch.next ⟨a.id :: rest, false⟩ (deliver result a) fun _ y => y = ⟨rest, false⟩ := by
  unfold deliver
  refine .bind ((Batch.quiet (readBy_issues fun _ => .cmd (P := AlertCmd.NoDelivery) rfl)).mono ?_)
  rintro incident _ rfl
  refine .bind ((Batch.quiet (readBy_issues fun _ => .cmd (P := AlertCmd.NoDelivery) rfl)).mono ?_)
  rintro target _ rfl
  refine .bind ((Batch.quiet (readBy_issues fun _ => .cmd (P := AlertCmd.NoDelivery) rfl)).mono ?_)
  rintro window _ rfl
  cases window with
  | some window => exact .bind (.cmd (if_pos ⟨rfl, nofun⟩) fun _ => rfl)
  | none =>
    refine .bind (.cmd rfl fun body => .bind (.cmd (if_pos ⟨rfl, rfl⟩) fun outcome => ?_))
    split <;> exact .bind (.cmd (if_pos ⟨rfl, nofun⟩) fun _ => rfl)

theorem runDeliveryCycle_follows : Follows Batch.next ⟨[], false⟩ runDeliveryCycle fun _ _ => True := by
  unfold runDeliveryCycle
  refine .bind (.cmd (Batch.next_list 200) fun listed => ?_)
  refine (Follows.foldlM (I := fun l y => y = ⟨l.map (·.id), false⟩) ?_ listed _ _ rfl).mono fun _ _ _ => trivial
  rintro result a l _ rfl
  exact deliver_follows result a _

theorem processCheck_issues (env : Env) (ctx : CheckContext) : (processCheck env ctx).Issues AlertCmd.NoDelivery := by
  unfold processCheck
  refine .bind (.cmd rfl) fun active => ?_
  split
  · trivial
  · trivial
  · unfold recover
    split
    · refine .bind (.cmd rfl) fun resolved => ?_
      split
      · trivial
      · exact .bind (.cmd rfl) fun _ => .bind (.cmd rfl) fun _ => .cmd rfl
    · trivial
  all_goals exact .cmd rfl

theorem AlertRequest.batch_follows (r : AlertRequest) :
    Follows Batch.next ⟨[], false⟩ (r.program env) fun _ _ => True := by
  cases r with
  | cycle now =>
    refine .bind ((Batch.quiet (runEscalationCycle_issues (fun _ h => h.1) now)).mono ?_)
    rintro _ _ rfl
    exact .bind (runDeliveryCycle_follows.mono fun _ _ _ => trivial)
  | check ctx => exact (Batch.quiet (processCheck_issues env ctx)).mono fun _ _ _ => trivial
  | resolve id resolution actor =>
    refine .bind ((Batch.quiet (resolveIncidentManually_issues (fun _ h => h.1) id resolution actor)).mono ?_)
    exact fun _ _ _ => trivial

/-! ### What the cycles hold -/

/-- The cycles at work are in the states `hs`; what each still has to mark is pending and in no other's hands, and an
alert that was sent is in the hands of the cycle that sent it, or marked. -/
structure Handled (s : AlertSys) (hs : List Batch) : Prop where
  tracked : s.Tracked Batch.next hs
  keyed : Keyed s.store
  todo : ∀ x ∈ hs, x.todo.Nodup ∧ ∀ id ∈ x.todo, id ∈ s.store.held ∧ s.store.statusOf id = some .pending
  apart : ∀ id, hs.AtMostOne fun x => id ∈ x.todo
  nodup : s.store.sent.Nodup
  sent : ∀ id ∈ s.store.sent, (∃ x ∈ hs, x.handed = true ∧ x.todo.head? = some id) ∨
    ∃ status, s.store.statusOf id = some status ∧ status ≠ .pending

/-- A final status stays. -/
def KeepsFinal (st st' : AlertStore) : Prop :=
  ∀ id status, st.statusOf id = some status → status ≠ .pending → st'.statusOf id = some status

/-- The alerts that the step lists. -/
def listing (s : AlertSys) (l : AlertLabel) : List Alert :=
  match s.command l with
  | some (.listPendingAlerts limit) => s.store.listPendingAlerts limit
  | _ => []

/-- No cycle lists an alert that another one still holds. -/
def ListsFree (s : AlertSys) (l : AlertLabel) : Prop := ∀ a ∈ listing s l, a.id ∉ s.store.held

theorem exec_held_sent (env : Env) (w : World) {c : AlertCmd} (h : c.NoDelivery) (st : AlertStore) :
    (c.exec env w st).2.held = st.held ∧ (c.exec env w st).2.sent = st.sent := by
  cases c with
  | commitRecovery incidentId apiId dests =>
    obtain ⟨new, hst, -, -⟩ := commitRecovery_eq incidentId apiId dests st
    simp only [AlertCmd.exec, hst]
    exact ⟨rfl, rfl⟩
  | resolveInTransaction id =>
    simp only [AlertCmd.exec]
    split <;> exact ⟨rfl, rfl⟩
  | listPendingAlerts _ => cases h
  | send _ _ _ => cases h
  | markAlert _ _ _ => cases h
  | _ => exact ⟨rfl, rfl⟩

theorem Adds.keepsFinal (h : Adds st st') : KeepsFinal st st' := fun _ _ hs _ => h.statusOf hs

/-- Alerts are added, and nothing else happens to them. -/
theorem Handled.adds {s s' : AlertSys} {hs : List Batch} (h : Handled s hs) (htracked : s'.Tracked Batch.next hs)
    (ha : Adds s.store s'.store) (hheld : s'.store.held = s.store.held) (hsent : s'.store.sent = s.store.sent) :
    Handled s' hs := by
  refine ⟨htracked, h.keyed.adds ha, fun x hx => ⟨(h.todo x hx).1, fun id hid => ?_⟩, h.apart, hsent ▸ h.nodup, ?_⟩
  · obtain ⟨hmem, hstatus⟩ := (h.todo x hx).2 id hid
    exact ⟨hheld ▸ hmem, ha.statusOf hstatus⟩
  · rw [hsent]
    intro id hid
    rcases h.sent id hid with hx | ⟨status, hstatus, hne⟩
    · exact .inl hx
    · exact .inr ⟨status, ha.statusOf hstatus, hne⟩

theorem Handled.start {s s' : AlertSys} {hs : List Batch} (h : Handled s hs) (hstore : s'.store = s.store)
    (htracked : s'.Tracked Batch.next (hs ++ [⟨[], false⟩])) : Handled s' (hs ++ [⟨[], false⟩]) := by
  refine ⟨htracked, hstore ▸ h.keyed, ?_, fun id => (h.apart id).append List.not_mem_nil, hstore ▸ h.nodup, ?_⟩
  · rw [hstore]
    exact List.forall_mem_append.2 ⟨h.todo, by simp⟩
  · rw [hstore]
    intro id hid
    rcases h.sent id hid with ⟨x, hx, hhead⟩ | hfinal
    · exact .inl ⟨x, List.mem_append_left _ hx, hhead⟩
    · exact .inr hfinal

/-- What is listed is pending, each alert once. -/
theorem listPendingAlerts_spec (hk : Keyed st) (limit : Nat) :
    ((st.listPendingAlerts limit).map (·.id)).Nodup ∧
      ∀ a ∈ st.listPendingAlerts limit, st.statusOf a.id = some .pending := by
  have hsub : ((st.listPendingAlerts limit).map (·.id)).Sublist
      (((st.db.alerts.filter (·.status = .pending)).insertionSort fun a b => a.createdAt ≤ b.createdAt).map (·.id)) :=
    (List.take_sublist _ _).map _
  have hperm := List.perm_insertionSort (fun a b : Alert => a.createdAt ≤ b.createdAt)
    (st.db.alerts.filter (·.status = .pending))
  refine ⟨hsub.nodup ((hperm.map _).nodup_iff.2 (List.Nodup.sublist (List.filter_sublist.map _) hk.1)), fun a ha => ?_⟩
  obtain ⟨hmem, hstatus⟩ := List.mem_filter.1 (hperm.subset (List.mem_of_mem_take ha))
  rw [hk.statusOf hmem, of_decide_eq_true hstatus]

section Delivery

variable {s s' : AlertSys} {hs : List Batch} {i : Nat} {id : Uuid}

theorem Handled.list {listed : List Alert} (h : Handled s hs) (hi : hs[i]? = some ⟨[], false⟩)
    (htracked : s'.Tracked Batch.next (hs.set i ⟨listed.map (·.id), false⟩)) (ha : Adds s.store s'.store)
    (hnodup : (listed.map (·.id)).Nodup) (hpending : ∀ a ∈ listed, s.store.statusOf a.id = some .pending)
    (hheld : s'.store.held = s.store.held ++ listed.map (·.id)) (hsent : s'.store.sent = s.store.sent)
    (hfree : ∀ a ∈ listed, a.id ∉ s.store.held) : Handled s' (hs.set i ⟨listed.map (·.id), false⟩) := by
  refine ⟨htracked, h.keyed.adds ha, ?_, fun id => (h.apart id).set hi fun hid => .inr fun x hx hmem => ?_,
    hsent ▸ h.nodup, ?_⟩
  · refine List.forall_mem_set h.todo (fun x hx => ⟨hx.1, fun id hid => ⟨?_, ha.statusOf (hx.2 id hid).2⟩⟩)
      ⟨hnodup, fun id hid => ⟨?_, ?_⟩⟩
    · exact hheld ▸ List.mem_append_left _ (hx.2 id hid).1
    · exact hheld ▸ List.mem_append_right _ hid
    · obtain ⟨a, ha', rfl⟩ := List.mem_map.1 hid
      exact ha.statusOf (hpending a ha')
  · obtain ⟨a, ha', rfl⟩ := List.mem_map.1 hid
    exact hfree a ha' ((h.todo x hx).2 _ hmem).1
  · rw [hsent]
    intro id hid
    rcases h.sent id hid with ⟨x, hx, hhanded, hhead⟩ | ⟨status, hstatus, hne⟩
    · refine .inl ⟨x, List.mem_set_of_ne hx hi ?_, hhanded, hhead⟩
      rintro rfl
      cases hhanded
    · exact .inr ⟨status, ha.statusOf hstatus, hne⟩

/-- An alert that a cycle still has to mark and has not handed over was not sent. -/
theorem Handled.not_sent (h : Handled s hs) (hi : hs[i]? = some x) (hhead : x.todo.head? = some id)
    (hhanded : x.handed = false) : id ∉ s.store.sent := by
  have hmem : id ∈ x.todo := List.mem_of_mem_head? hhead
  intro hsent
  rcases h.sent id hsent with ⟨y, hy, hyhanded, hyhead⟩ | ⟨status, hstatus, hne⟩
  · obtain ⟨j, hj⟩ := List.mem_iff_getElem?.1 hy
    obtain rfl := h.apart id i j x y hi hj hmem (List.mem_of_mem_head? hyhead)
    obtain rfl := Option.some.inj (hi.symm.trans hj)
    cases hhanded.symm.trans hyhanded
  · have hpending := ((h.todo x (List.mem_of_getElem? hi)).2 id hmem).2
    exact hne (Option.some.inj (hstatus.symm.trans hpending))

theorem Handled.send (h : Handled s hs) (hi : hs[i]? = some x) (hhead : x.todo.head? = some id)
    (hhanded : x.handed = false) (htracked : s'.Tracked Batch.next (hs.set i { x with handed := true }))
    (ha : Adds s.store s'.store) (hheld : s'.store.held = s.store.held) (hsent : s'.store.sent = s.store.sent ++ [id]) :
    Handled s' (hs.set i { x with handed := true }) := by
  have hlt := (List.getElem?_eq_some_iff.1 hi).1
  refine ⟨htracked, h.keyed.adds ha, ?_, fun id => (h.apart id).set hi .inl, ?_, ?_⟩
  · have hkept : ∀ y ∈ hs, y.todo.Nodup ∧ ∀ id ∈ y.todo, id ∈ s'.store.held ∧ s'.store.statusOf id = some .pending :=
      fun y hy => ⟨(h.todo y hy).1, fun id hid =>
        ⟨hheld ▸ ((h.todo y hy).2 id hid).1, ha.statusOf ((h.todo y hy).2 id hid).2⟩⟩
    exact List.forall_mem_set hkept (fun _ hy => hy) (hkept x (List.mem_of_getElem? hi))
  · rw [hsent]
    exact List.nodup_append.2 ⟨h.nodup, List.nodup_singleton _, fun y hy z hz => by
      rw [List.mem_singleton.1 hz]
      exact fun heq => h.not_sent hi hhead hhanded (heq ▸ hy)⟩
  · rw [hsent]
    intro id' hid'
    rcases List.mem_append.1 hid' with hid' | hid'
    · rcases h.sent id' hid' with ⟨y, hy, hyhanded, hyhead⟩ | ⟨status, hstatus, hne⟩
      · refine .inl ⟨y, List.mem_set_of_ne hy hi ?_, hyhanded, hyhead⟩
        rintro rfl
        cases hhanded.symm.trans hyhanded
      · exact .inr ⟨status, ha.statusOf hstatus, hne⟩
    · obtain rfl := List.mem_singleton.1 hid'
      exact .inl ⟨_, List.mem_set hlt _, rfl, hhead⟩

theorem Handled.mark {status : AlertStatus} (h : Handled s hs) (hi : hs[i]? = some x) (hhead : x.todo.head? = some id)
    (hne : status ≠ .pending) (htracked : s'.Tracked Batch.next (hs.set i ⟨x.todo.tail, false⟩))
    (hkeyed : Keyed s'.store) (hheld : s'.store.held = s.store.held.erase id) (hsent : s'.store.sent = s.store.sent)
    (hstatus : ∀ id', s'.store.statusOf id' =
      if id' = id then (s.store.statusOf id').map fun _ => status else s.store.statusOf id') :
    KeepsFinal s.store s'.store ∧ Handled s' (hs.set i ⟨x.todo.tail, false⟩) := by
  have htodo : x.todo = id :: x.todo.tail := List.eq_cons_of_mem_head? hhead
  obtain ⟨hnodup, hx⟩ := h.todo x (List.mem_of_getElem? hi)
  have hmem : id ∈ x.todo := List.mem_of_mem_head? hhead
  have hpending := (hx id hmem).2
  have hmarked : s'.store.statusOf id = some status := by rw [hstatus, if_pos rfl, hpending, Option.map_some]
  have hother : ∀ {id'}, id' ≠ id → s'.store.statusOf id' = s.store.statusOf id' := fun hid' => by
    rw [hstatus, if_neg hid']
  refine ⟨fun id' status' hs' hne' => ?_, htracked, hkeyed, fun y hy => ?_, fun id' => (h.apart id').set hi fun hid' =>
    .inl (List.mem_of_mem_tail hid'), hsent ▸ h.nodup, ?_⟩
  · rw [hother]
    · exact hs'
    · rintro rfl
      exact hne' (Option.some.inj (hs'.symm.trans hpending))
  · -- What another cycle holds is not the alert that is marked, and neither is the rest of this batch.
    have hkept : ∀ {z : Batch}, z ∈ hs → ∀ id' ∈ z.todo, id' ≠ id →
        id' ∈ s'.store.held ∧ s'.store.statusOf id' = some .pending := fun hz id' hid' hne' => by
      rw [hother hne', hheld]
      exact ⟨(List.mem_erase_of_ne hne').2 ((h.todo _ hz).2 id' hid').1, ((h.todo _ hz).2 id' hid').2⟩
    obtain ⟨j, hj⟩ := List.mem_iff_getElem?.1 hy
    rcases List.getElem?_set_cases hj with ⟨rfl, rfl⟩ | ⟨hij, hj⟩
    · refine ⟨hnodup.tail, fun id' hid' => hkept (List.mem_of_getElem? hi) id' (List.mem_of_mem_tail hid') ?_⟩
      rintro rfl
      rw [htodo, List.nodup_cons] at hnodup
      exact hnodup.1 hid'
    · refine ⟨(h.todo y (List.mem_of_getElem? hj)).1, fun id' hid' => hkept (List.mem_of_getElem? hj) id' hid' ?_⟩
      rintro rfl
      exact hij (h.apart _ i j x y hi hj hmem hid')
  · rw [hsent]
    intro id' hid'
    by_cases heq : id' = id
    · exact .inr ⟨status, heq ▸ hmarked, hne⟩
    · rw [hother heq]
      refine (h.sent id' hid').imp_left ?_
      rintro ⟨y, hy, hyhanded, hyhead⟩
      refine ⟨y, List.mem_set_of_ne hy hi ?_, hyhanded, hyhead⟩
      rintro rfl
      exact heq (Option.some.inj (hyhead.symm.trans hhead))

end Delivery

/-! ### Runs -/

theorem Handled.step {s s' : AlertSys} {hs : List Batch} {l : AlertLabel} (h : Handled s hs)
    (hstep : alertStep env s l = some s') (hfree : ListsFree s l) :
    KeepsFinal s.store s'.store ∧ ∃ hs', Handled s' hs' := by
  rcases h.tracked.step (m := alertSemantics env) (fun _ => ⟨[], false⟩) AlertRequest.batch_follows hstep with
    ⟨p, -, hstore, htracked⟩ | ⟨i, w, c, x, f, -, hc, hi, hf, -, hstore, htracked⟩
  · exact ⟨hstore ▸ fun _ _ hs _ => hs, _, h.start hstore htracked⟩
  replace hstore : s'.store = (c.exec env w (s.store.elapse w.elapsed)).2 := hstore
  by_cases hquiet : c.NoDelivery
  · have hadds : Adds s.store s'.store := by
      rw [hstore]
      refine exec_adds ?_ (s.store.elapse w.elapsed)
      rintro _ _ _ rfl
      cases hquiet
    obtain ⟨hheld, hsent⟩ := exec_held_sent env w hquiet (s.store.elapse w.elapsed)
    rw [Batch.next_of_not_delivers hquiet] at hf
    cases hf
    have hset : hs.set i x = hs := by
      obtain ⟨hlt, rfl⟩ := List.getElem?_eq_some_iff.1 hi
      exact List.set_getElem_self hlt
    rw [hset] at htracked
    exact ⟨hadds.keepsFinal, hs, h.adds htracked hadds (hstore ▸ hheld) (hstore ▸ hsent)⟩
  cases c with
  | listPendingAlerts limit =>
    obtain ⟨rfl, hf⟩ := Option.ite_none_right_eq_some.1 hf
    cases hf
    have hadds : Adds s.store s'.store := hstore ▸ .of_eq rfl rfl
    obtain ⟨hnodup, hpending⟩ := listPendingAlerts_spec h.keyed limit
    have hlisted : ∀ a ∈ s.store.listPendingAlerts limit, a.id ∉ s.store.held := by
      simpa only [ListsFree, listing, hc] using hfree
    exact ⟨hadds.keepsFinal, _, h.list hi htracked hadds hnodup hpending (hstore ▸ rfl) (hstore ▸ rfl) hlisted⟩
  | send id channel n =>
    obtain ⟨⟨hhead, hhanded⟩, hf⟩ := Option.ite_none_right_eq_some.1 hf
    cases hf
    have hadds : Adds s.store s'.store := hstore ▸ .of_eq rfl rfl
    exact ⟨hadds.keepsFinal, _, h.send hi hhead hhanded htracked hadds (hstore ▸ rfl) (hstore ▸ rfl)⟩
  | markAlert id status detail =>
    obtain ⟨⟨hhead, hne⟩, hf⟩ := Option.ite_none_right_eq_some.1 hf
    cases hf
    have hlater : Keyed (s.store.elapse w.elapsed) := h.keyed
    have hkeyed : Keyed s'.store := hstore ▸ hlater.markAlert id status detail
    obtain ⟨hfinal, h'⟩ := h.mark hi hhead hne htracked hkeyed (hstore ▸ rfl) (hstore ▸ rfl)
      (hstore ▸ markAlert_statusOf id status detail (s.store.elapse w.elapsed))
    exact ⟨hfinal, _, h'⟩
  | _ => exact absurd rfl hquiet

/-- Where no cycle lists an alert that another one still holds, no alert is sent twice and no final status changes. -/
theorem sent_at_most_once {st₀ : AlertStore} {tr : List AlertLabel} (hkeyed : Keyed st₀) (hsent : st₀.sent = [])
    (hfree : Along (alertStep env) (fun s l _ => ListsFree s l) ⟨st₀, []⟩ tr) :
    Throughout (alertStep env) (fun s => s.store.sent.Nodup) ⟨st₀, []⟩ tr ∧
      Along (alertStep env) (fun s _ s' => KeepsFinal s.store s'.store) ⟨st₀, []⟩ tr := by
  have hstart : Handled ⟨st₀, []⟩ [] :=
    ⟨⟨rfl, by simp⟩, hkeyed, by simp, fun _ => by simp [List.AtMostOne], by simp [hsent], by simp [hsent]⟩
  have hrun : Along (alertStep env) (fun s _ s' => s'.store.sent.Nodup ∧ KeepsFinal s.store s'.store) ⟨st₀, []⟩ tr := by
    refine hfree.under_inv (I := fun s => ∃ hs, Handled s hs) ⟨[], hstart⟩ ?_
    rintro s l s' ⟨hs, h⟩ hstep hl
    obtain ⟨hfinal, hs', h'⟩ := h.step hstep hl
    exact ⟨⟨hs', h'⟩, h'.nodup, hfinal⟩
  exact ⟨⟨hstart.nodup, hrun.mono fun _ _ _ _ h => h.1⟩, hrun.mono fun _ _ _ _ h => h.2⟩

/-- One alert is pending. -/
def oneQueued : AlertStore where
  db := { Db.empty with alerts := [⟨1, none, none, .schedulerHeartbeatMissed, .email, "oncall", .pending, none, none, none, 0⟩] }
  nextUuid := 2
  incidentNumberSeq := 1
  now := 0
  targets := []
  policies := []
  windows := []
  auditLogs := []
  locked := []
  held := []
  sent := []
  asked := []
  told := []

theorem keyed_oneQueued : Keyed oneQueued := ⟨List.nodup_singleton _, List.forall_mem_singleton.2 Nat.one_lt_two⟩

instance (s : AlertSys) : DecidablePred (ListsFree s) := fun _ => inferInstanceAs (Decidable (∀ a ∈ _, _))

def accepted : World := ⟨0, ⟨true, "accepted"⟩, ""⟩

def refused : World := ⟨0, ⟨false, "HTTP 503"⟩, ""⟩

theorem sent_at_most_once_in_turn : ∃ s, run (alertStep .default) ⟨oneQueued, []⟩
    [.start (.cycle 0), .advance 0 accepted, .advance 0 accepted, .advance 0 accepted, .advance 0 accepted,
      .advance 0 accepted, .start (.cycle 15000), .advance 1 accepted, .advance 1 accepted] = some s ∧
    s.store.sent.Nodup ∧ s.store.sent = [1] := by
  obtain ⟨s, hr, hs⟩ := Option.map_eq_some_iff.1 (show (run (alertStep .default) ⟨oneQueued, []⟩
    [.start (.cycle 0), .advance 0 accepted, .advance 0 accepted, .advance 0 accepted, .advance 0 accepted,
      .advance 0 accepted, .start (.cycle 15000), .advance 1 accepted, .advance 1 accepted]).map (·.store.sent) =
        some [1] by decide +kernel)
  exact ⟨s, hr, (sent_at_most_once keyed_oneQueued rfl (by decide +kernel)).1.last hr, hs⟩

/-- Both cycles list the alert before either has marked it. -/
theorem sent_twice_overlapping : ¬ ∀ (env : Env) (st₀ : AlertStore) (tr : List AlertLabel) (s : AlertSys), Keyed st₀ →
    st₀.sent = [] → st₀.held = [] → run (alertStep env) ⟨st₀, []⟩ tr = some s →
      s.store.sent.Nodup ∧ Along (alertStep env) (fun s _ s' => KeepsFinal s.store s'.store) ⟨st₀, []⟩ tr := by
  intro h
  obtain ⟨s, hr, hs⟩ := Option.map_eq_some_iff.1 (show (run (alertStep .default) ⟨oneQueued, []⟩
    [.start (.cycle 0), .advance 0 accepted, .advance 0 accepted, .advance 0 accepted, .start (.cycle 15000),
      .advance 1 refused, .advance 1 refused, .advance 1 refused, .advance 0 accepted, .advance 0 accepted,
      .advance 1 refused, .advance 1 refused]).map (fun s => (s.store.sent, s.store.statusOf 1)) =
        some ([1, 1], some .failed) by decide +kernel)
  have hnodup := (h .default _ _ s keyed_oneQueued rfl rfl hr).1
  rw [(Prod.mk.inj hs).1] at hnodup
  exact absurd hnodup (by decide)

end CronMonitor.Alerts
