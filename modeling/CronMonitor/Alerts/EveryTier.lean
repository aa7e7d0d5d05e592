import CronMonitor.Alerts.Escalation
import Mathlib.Data.List.TakeWhile

/-!
# Which tiers an incident reaches

Passes over an incident that stays open, and between them any commands of checks, of deliveries and of recoveries.
Enough late passes take it through the tiers up to the first whose condition it does not meet, so every tier whose
condition it meets has fired exactly if none of them comes after one whose condition it does not meet.
-/

namespace CronMonitor.Alerts

open Runs

variable {env : Env} {w : World} {now : Time} {st st' : AlertStore} {c : Incident.Core} {policyId : Uuid}
  {tiers : List EscalationTier} {k : Nat}

/-! ### Between two passes -/

theorem escalations_eq (incidentId : Uuid) (st : AlertStore) : escalations incidentId st =
    (st.queue.filter fun a => a.incidentId = some incidentId && a.alertType = .escalationTriggered).map fun a =>
      (a.escalationTier, a.channel, a.recipient) := by
  rw [AlertStore.queue, List.filter_map, List.map_map]
  rfl

/-- Alerts of no tier are queued. -/
def Untiered (st st' : AlertStore) : Prop :=
  ∃ new, st'.queue = st.queue ++ new ∧ ∀ n ∈ new, n.alertType ≠ .escalationTriggered ∧ n.escalationTier = none

theorem Untiered.of_eq (h : st'.queue = st.queue) : Untiered st st' := ⟨[], by simp [h], by simp⟩

theorem Untiered.queued {new : List Alert} (hal : st'.db.alerts = st.db.alerts ++ new)
    (hnew : ∀ n ∈ new, n.alertType ≠ .escalationTriggered ∧ n.escalationTier = none) : Untiered st st' := by
  refine ⟨new.map asQueued, by rw [AlertStore.queue, hal, List.map_append]; rfl, fun n hn => ?_⟩
  obtain ⟨a, ha, rfl⟩ := List.mem_map.1 hn
  exact hnew a ha

theorem Escalated.frame (h : Escalated c policyId tiers k st) (hkeys : (st'.db.incidents.map (·.id)).Nodup)
    (hdrawn : ∀ i ∈ st'.db.incidents, i.id < st'.nextUuid) (hrow : c ∈ st'.db.incidents.map (·.core))
    (htargets : st'.targets = st.targets) (hpolicies : st'.policies = st.policies) (hq : Untiered st st') :
    Escalated c policyId tiers k st' := by
  obtain ⟨new, hq, hnew⟩ := hq
  refine ⟨hkeys, hdrawn, hrow, ?_, ?_, ?_, fun a ha hid hne => ?_, h.le, h.met⟩
  · rw [AlertStore.findTargetById, htargets]
    exact h.target
  · rw [AlertStore.getEscalationPolicy, hpolicies]
    exact h.policy
  · have hnone : new.filter (fun a => a.incidentId = some c.id && a.alertType = .escalationTriggered) = [] :=
      List.filter_eq_nil_iff.2 fun n hn => by simp [(hnew n hn).1]
    rw [escalations_eq, hq, List.filter_append, hnone, List.append_nil, ← escalations_eq]
    exact h.fired
  · have hmem : asQueued a ∈ st.queue ++ new := hq ▸ List.mem_map_of_mem ha
    rcases List.mem_append.1 hmem with hmem | hmem
    · obtain ⟨b, hb, heq⟩ := List.mem_map.1 hmem
      have htier : b.escalationTier = a.escalationTier := congrArg About.escalationTier heq
      rw [← htier]
      refine h.others b hb ((congrArg About.incidentId heq).trans hid) fun htype => hne ?_
      exact (congrArg About.alertType heq).symm.trans htype
    · exact (hnew _ hmem).2

theorem Escalated.same (h : Escalated c policyId tiers k st) (hs : SameCase st st') (hq : Untiered st st') :
    Escalated c policyId tiers k st' := by
  refine h.frame (hs.ids ▸ h.keys) (fun i hi => ?_) (hs.cores ▸ h.row) hs.targets hs.policies hq
  obtain ⟨j, hj, hcore⟩ := hs.exists_core hi
  have hid : j.id = i.id := congrArg Incident.Core.id hcore
  exact hid ▸ Nat.lt_of_lt_of_le (h.drawn j hj) hs.uuid

/-- The transaction of a check. -/
theorem Escalated.grows {α : Type} {fn : SqlM α} (h : Escalated c policyId tiers k st) (hg : TxGrows fn) :
    Escalated c policyId tiers k (st.transaction fn) ∧ Untiered st (st.transaction fn) := by
  have hgrows : Grows st.toStore (st.transaction fn).toStore := hg.transaction st.toStore
  obtain ⟨new, hal, -, hnew⟩ := hgrows.alerts
  obtain ⟨inc, hinc, ⟨hnodup, hdrawn⟩, -⟩ := hgrows.incidents
  have hq : Untiered st (st.transaction fn) := .queued hal fun n hn => ⟨(hnew n hn).2.2.1, (hnew n hn).2.1⟩
  have hids : (st.transaction fn).db.incidents.map (·.id) = st.db.incidents.map (·.id) ++ inc.map (·.id) := by
    have hcores := congrArg (List.map Incident.Core.id) hinc
    rw [List.map_append, List.map_map, List.map_map, List.map_map] at hcores
    exact hcores
  refine ⟨h.frame ?_ (fun i hi => ?_) (hinc ▸ List.mem_append_left _ h.row) rfl rfl hq, hq⟩
  · rw [hids]
    refine List.nodup_append.2 ⟨h.keys, hnodup, fun x hx y hy => ?_⟩
    obtain ⟨i, hi, rfl⟩ := List.mem_map.1 hx
    exact Nat.ne_of_lt (Nat.lt_of_lt_of_le (h.drawn i hi) (hdrawn y hy).1)
  · have hmem : i.id ∈ st.db.incidents.map (·.id) ++ inc.map (·.id) := hids ▸ List.mem_map_of_mem hi
    rcases List.mem_append.1 hmem with hmem | hmem
    · obtain ⟨j, hj, heq⟩ := List.mem_map.1 hmem
      exact heq ▸ Nat.lt_of_lt_of_le (h.drawn j hj) hgrows.uuid
    · exact (hdrawn _ hmem).2

/-- Another incident is resolved. -/
theorem Escalated.resolve {id : Uuid} {resolution : Option String} (h : Escalated c policyId tiers k st)
    (hrows : st'.db.incidents = (Sql.resolveIncident id resolution st.toStore).2.db.incidents)
    (ho : StaysOpen c.id st') (huuid : st.nextUuid ≤ st'.nextUuid) (htargets : st'.targets = st.targets)
    (hpolicies : st'.policies = st.policies) (hq : Untiered st st') : Escalated c policyId tiers k st' := by
  have hids : st'.db.incidents.map (·.id) = st.db.incidents.map (·.id) := hrows ▸ resolveIncident_ids id resolution _
  refine h.frame (hids ▸ h.keys) (fun i hi => ?_) ?_ htargets hpolicies hq
  · obtain ⟨j, hj, heq⟩ := List.mem_map.1 (hids ▸ List.mem_map_of_mem hi)
    exact heq ▸ Nat.lt_of_lt_of_le (h.drawn j hj) huuid
  · obtain ⟨i, hi, hcore⟩ := List.mem_map.1 h.row
    have hid : i.id = c.id := congrArg Incident.Core.id hcore
    have hmem : (if i.id = id && i.isActive then Sql.resolvedRow st.now resolution i else i) ∈ st'.db.incidents :=
      hrows ▸ List.mem_map_of_mem hi
    by_cases hm : i.id = id && i.isActive
    · rw [if_pos hm] at hmem
      exact absurd (ho.1 _ hmem hid) (by simp [Sql.resolvedRow])
    · rw [if_neg hm] at hmem
      exact hcore ▸ List.mem_map_of_mem hmem

/-- A command that does not belong to a pass. -/
theorem Escalated.command {cmd : AlertCmd} (h : Escalated c policyId tiers k st)
    (ho : StaysOpen c.id (cmd.exec env w st).2) (hc : ∀ i tier, cmd ≠ .createAlert i tier) :
    Escalated c policyId tiers k (cmd.exec env w st).2 ∧ Untiered st (cmd.exec env w st).2 := by
  cases cmd with
  | createAlert i tier => exact absurd rfl (hc i tier)
  | escalateIncident id level =>
    have hq : Untiered st (st.lift (Sql.escalateIncident id level)).2 := .of_eq rfl
    exact ⟨h.same (escalateIncident_same id level st) hq, hq⟩
  | markAlert id status detail =>
    have hq : Untiered st ((AlertCmd.markAlert id status detail).exec env w st).2 :=
      .of_eq (markAlert_queue id status detail st)
    exact ⟨h.same ⟨rfl, rfl, rfl, le_rfl⟩ hq, hq⟩
  | openForCheck ctx => exact h.grows (openForCheck_grows env ctx)
  | recordFailure ctx active => exact h.grows (recordFailure_grows env ctx active)
  | resolveInTransaction id =>
    simp only [AlertCmd.exec] at ho ⊢
    split <;> exact ⟨h.same ⟨rfl, rfl, rfl, le_rfl⟩ (.of_eq rfl), .of_eq rfl⟩
  | commitRecovery incidentId apiId dests =>
    obtain ⟨new, hst, -, habout⟩ := commitRecovery_eq incidentId apiId dests st
    simp only [AlertCmd.exec, hst] at ho ⊢
    have hnew : ∀ n ∈ new, n.alertType ≠ .escalationTriggered ∧ n.escalationTier = none := by
      intro n hn
      obtain ⟨d, -, heq⟩ := List.mem_map.1 (habout ▸ List.mem_map_of_mem hn)
      refine ⟨fun htype => ?_, (congrArg About.escalationTier heq).symm⟩
      cases (congrArg About.alertType heq).trans htype
    exact ⟨h.resolve rfl ho (Nat.le_add_right _ _) rfl rfl (.queued rfl hnew), .queued rfl hnew⟩
  | resolveIncident id resolution =>
    have hq : Untiered st (st.lift (Sql.resolveIncident id (some resolution))).2 := .of_eq rfl
    exact ⟨h.resolve rfl ho le_rfl rfl rfl hq, hq⟩
  | _ => exact ⟨h.same ⟨rfl, rfl, rfl, le_rfl⟩ (.of_eq rfl), .of_eq rfl⟩

/-! ### Runs -/

/-- A pass, or a command of anything else. -/
inductive EscalationLabel
  | cycle (now : Time) (w : World)
  | command (c : AlertCmd) (w : World)

def escalationStep (env : Env) (st : AlertStore) : EscalationLabel → Option AlertStore
  | .cycle now w => some ((runEscalationCycle now).exec (AlertCmd.exec env w) st).2
  | .command (.createAlert _ _) _ => none
  | .command c w => if c.enabled st then some (c.exec env w (st.elapse w.elapsed)).2 else none

/-- A pass past all delays. -/
def EscalationLabel.late (c : Incident.Core) (tiers : List EscalationTier) : EscalationLabel → Bool
  | cycle now _ => tiers.all fun tier => tierIsDue c.startedAt tier.delayMinutes now
  | command _ _ => false

/-- A step that adds an alert of a tier of the incident is a pass for which the tier is due. -/
def OnTime (c : Incident.Core) (tiers : List EscalationTier) (st : AlertStore) (l : EscalationLabel) (st' : AlertStore) :
    Prop :=
  ∀ a ∈ st'.db.alerts.drop st.db.alerts.length, a.incidentId = some c.id → ∀ j, a.escalationTier = some j →
    ∃ now w tier, l = .cycle now w ∧ tiers[j]? = some tier ∧ tier.dueAt c.startedAt now

/-- One alert for each recipient of each tier whose condition the incident meets, in the order of the tiers. -/
def metBatches (c : Incident.Core) (tiers : List EscalationTier) : List (Option Nat × AlertChannel × String) :=
  batches (tiers.zipIdx.filter fun p => p.1.Met c.isMoneyMovingSnapshot)

/-- No tier whose condition the incident meets comes after one whose condition it does not meet. -/
def Unblocked (c : Incident.Core) (tiers : List EscalationTier) : Prop :=
  tiers.Pairwise fun a b => b.Met c.isMoneyMovingSnapshot → a.Met c.isMoneyMovingSnapshot

instance : Decidable (Unblocked c tiers) := inferInstanceAs (Decidable (List.Pairwise _ _))

/-- The tiers before the first whose condition the incident does not meet. -/
def reach (c : Incident.Core) (tiers : List EscalationTier) : List EscalationTier :=
  tiers.takeWhile fun tier => tier.Met c.isMoneyMovingSnapshot

theorem met_of_mem_reach {tier : EscalationTier} (h : tier ∈ reach c tiers) : tier.Met c.isMoneyMovingSnapshot :=
  of_decide_eq_true (List.mem_takeWhile_imp (p := fun t : EscalationTier => t.Met c.isMoneyMovingSnapshot) h)

theorem pairwise_iff_dropWhile {α : Type} {p : α → Prop} [DecidablePred p] (l : List α) :
    l.Pairwise (fun a b => p b → p a) ↔ ∀ x ∈ l.dropWhile (fun a => p a), ¬ p x := by
  induction l with
  | nil => simp
  | cons a l ih =>
    by_cases ha : p a
    · simp [ha, ih]
    · simp only [List.pairwise_cons, ha, imp_false, List.dropWhile_cons, decide_false, Bool.false_eq_true, if_false,
        List.forall_mem_cons, not_false_iff, true_and, and_iff_left_iff_imp]
      exact fun hl => List.pairwise_iff_forall_sublist.2 fun hab hb => absurd hb (hl _ (hab.subset (by simp)))

theorem batches_eq_nil {l : List (EscalationTier × Nat)} : batches l = [] ↔ l = [] := by
  cases l with
  | nil => simp [batches]
  | cons p l => simp [batches, p.1.recipients_ne]

/-- The batches of the tiers within reach are all of them exactly if no tier out of reach is met. -/
theorem batches_reach_iff : batches (reach c tiers).zipIdx = metBatches c tiers ↔ Unblocked c tiers := by
  have hsplit : tiers.zipIdx = (reach c tiers).zipIdx ++
      (tiers.dropWhile fun tier => tier.Met c.isMoneyMovingSnapshot).zipIdx (reach c tiers).length := by
    conv_lhs => rw [← List.takeWhile_append_dropWhile (p := fun tier => tier.Met c.isMoneyMovingSnapshot) (l := tiers)]
    rw [List.zipIdx_append, Nat.zero_add]
    rfl
  have hall : (reach c tiers).zipIdx.filter (fun p => p.1.Met c.isMoneyMovingSnapshot) = (reach c tiers).zipIdx := by
    refine List.filter_eq_self.2 fun p hp => ?_
    have hmem : p.1 ∈ reach c tiers := (List.mem_zipIdx' hp).2 ▸ List.getElem_mem _
    exact decide_eq_true (met_of_mem_reach hmem)
  rw [metBatches, hsplit, List.filter_append, hall, batches, batches, List.flatMap_append, List.self_eq_append_right,
    Unblocked, pairwise_iff_dropWhile]
  show batches _ = [] ↔ _
  rw [batches_eq_nil, List.filter_eq_nil_iff]
  constructor
  · intro h tier htier hmet
    obtain ⟨i, hi, rfl⟩ := List.getElem_of_mem htier
    exact h (_, (reach c tiers).length + i) (List.mk_add_mem_zipIdx_iff_getElem?.2 (List.getElem?_eq_getElem hi))
      (decide_eq_true hmet)
  · intro h p hp hmet
    exact h p.1 (List.fst_mem_of_mem_zipIdx hp) (of_decide_eq_true hmet)

theorem Escalated.le_reach (h : Escalated c policyId tiers k st) : k ≤ (reach c tiers).length := by
  have hsplit : reach c tiers = tiers.take k ++ reach c (tiers.drop k) := by
    conv_lhs => rw [reach, ← List.take_append_drop k tiers]
    exact List.takeWhile_append_of_pos fun tier htier => decide_eq_true (h.met tier htier)
  have hle := h.le
  rw [hsplit, List.length_append, List.length_take]
  omega

/-- A late pass takes the incident one tier further, within reach. -/
theorem tierAfter_late (hk : k < (reach c tiers).length)
    (hlate : tiers.all fun tier => tierIsDue c.startedAt tier.delayMinutes now) : tierAfter c tiers now k = k + 1 := by
  have hreach : reach c tiers <+: tiers := List.takeWhile_prefix _
  have htier : tiers[k]? = some (reach c tiers)[k] := by
    rw [hreach.getElem hk]
    exact List.getElem?_eq_getElem _
  have hmet := met_of_mem_reach (List.getElem_mem hk)
  have hdue := List.all_eq_true.1 hlate _ (hreach.subset (List.getElem_mem hk))
  have hnext : nextTier c tiers now k = some (reach c tiers)[k] := by
    rw [nextTier, htier, Option.filter_some, if_pos]
    exact decide_eq_true ⟨hmet, hdue⟩
  rw [tierAfter, hnext]
  rfl

theorem le_tierAfter : k ≤ tierAfter c tiers now k := by
  unfold tierAfter
  split <;> omega

theorem OnTime.of_addsTier (h : AddsTier c tiers now k st st') : OnTime c tiers st (.cycle now w) st' := by
  obtain ⟨new, hal, hnew⟩ := h
  intro a ha hid j hj
  rw [hal, List.drop_left] at ha
  obtain ⟨htier, hsome⟩ := hnew a ha hid
  obtain rfl : j = k := Option.some.inj (hj.symm.trans htier)
  obtain ⟨tier, hnext⟩ := Option.isSome_iff_exists.1 hsome
  obtain ⟨hk, hp⟩ := Option.filter_eq_some_iff.1 hnext
  exact ⟨now, w, tier, rfl, hk, tierIsDue_iff.1 (of_decide_eq_true hp).2⟩

theorem OnTime.of_untiered {l : EscalationLabel} (h : Untiered st st') : OnTime c tiers st l st' := by
  obtain ⟨new, hq, hnew⟩ := h
  intro a ha _ j hj
  have hmem : asQueued a ∈ st'.queue.drop st.queue.length := by
    rw [AlertStore.queue, AlertStore.queue, List.length_map, ← List.map_drop]
    exact List.mem_map_of_mem ha
  rw [hq, List.drop_left] at hmem
  cases hj.symm.trans (hnew _ hmem).2

/-- One step: the incident stays within reach, no tier fires early, and a late pass takes it further. -/
theorem Escalated.step {l : EscalationLabel} (h : Escalated c policyId tiers k st) (ho : StaysOpen c.id st)
    (ho' : StaysOpen c.id st') (hs : escalationStep env st l = some st') :
    OnTime c tiers st l st' ∧ ∃ k', Escalated c policyId tiers k' st' ∧ k ≤ k' ∧
      (l.late c tiers → k < (reach c tiers).length → k + 1 ≤ k') := by
  cases l with
  | cycle now w =>
    cases hs
    obtain ⟨h', -, hadds⟩ := h.cycle env w now ho
    exact ⟨.of_addsTier hadds, _, h', le_tierAfter, fun hlate hk => (tierAfter_late hk hlate).ge⟩
  | command cmd w =>
    have hcmd : (∀ i tier, cmd ≠ .createAlert i tier) ∧ (cmd.exec env w (st.elapse w.elapsed)).2 = st' := by
      cases cmd <;> simp_all [escalationStep]
    obtain ⟨hne, rfl⟩ := hcmd
    have hlater : Escalated c policyId tiers k (st.elapse w.elapsed) := h.same ⟨rfl, rfl, rfl, le_rfl⟩ (.of_eq rfl)
    obtain ⟨h', hq⟩ := hlater.command ho' hne
    exact ⟨.of_untiered hq, k, h', le_rfl, fun hlate => nomatch hlate⟩

theorem Escalated.run {tr : List EscalationLabel} (h : Escalated c policyId tiers k st)
    (ho : Throughout (escalationStep env) (StaysOpen c.id) st tr) (hr : Runs.run (escalationStep env) st tr = some st') :
    Along (escalationStep env) (OnTime c tiers) st tr ∧ ∃ k', Escalated c policyId tiers k' st' ∧
      min (reach c tiers).length (k + tr.countP (·.late c tiers)) ≤ k' := by
  induction tr generalizing st k with
  | nil =>
    cases hr
    exact ⟨trivial, k, h, by simp⟩
  | cons l tr ih =>
    obtain ⟨s, hs, hr⟩ := run_cons_iff.1 hr
    obtain ⟨ho₁, halong⟩ := ho
    obtain ⟨ho₂, halong⟩ := halong s hs
    obtain ⟨htime, k₁, h₁, hle, hlate⟩ := h.step ho₁ ho₂ hs
    obtain ⟨hrest, k₂, h₂, hk₂⟩ := ih h₁ ⟨ho₂, halong⟩ hr
    refine ⟨fun s' hs' => ?_, k₂, h₂, ?_⟩
    · obtain rfl := Option.some.inj (hs.symm.trans hs')
      exact ⟨htime, hrest⟩
    · have hreach := h₁.le_reach
      rw [List.countP_cons]
      by_cases hl : l.late c tiers
      · rw [if_pos hl]
        by_cases hk : k < (reach c tiers).length
        · have := hlate hl hk
          omega
        · omega
      · rw [if_neg hl]
        omega

/-- With enough late passes every tier whose condition the incident meets has fired, in order and once, and none
early, if and only if no such tier comes after one whose condition it does not meet. -/
theorem every_tier_iff {tr : List EscalationLabel} (h : Escalated c policyId tiers 0 st)
    (hr : Runs.run (escalationStep env) st tr = some st')
    (ho : Throughout (escalationStep env) (StaysOpen c.id) st tr) (hlate : tiers.length ≤ tr.countP (·.late c tiers)) :
    escalations c.id st' = metBatches c tiers ∧ Along (escalationStep env) (OnTime c tiers) st tr ↔
      Unblocked c tiers := by
  obtain ⟨htime, k, hk, hle⟩ := h.run ho hr
  have hreach : (reach c tiers).length ≤ tiers.length := (List.takeWhile_prefix _).length_le
  have hlast := hk.le_reach
  obtain rfl : k = (reach c tiers).length := by omega
  have htake : tiers.take (reach c tiers).length = reach c tiers :=
    (List.prefix_iff_eq_take.1 (List.takeWhile_prefix _)).symm
  rw [hk.fired, htake, and_iff_left htime]
  exact batches_reach_iff

/-- An incident that has just opened, on a target whose policy has these tiers. -/
def underPolicy (tiers : List EscalationTier) (isMoneyMoving : Bool) : AlertStore where
  db := { Db.empty with incidents := [Sql.newIncident
    ⟨5, .outage, .critical, .paymentStatus, isMoneyMoving, none, some .http5xx⟩ Store.empty] }
  nextUuid := 1
  incidentNumberSeq := 2
  now := 0
  targets := [⟨5, "Transfers", some 9⟩]
  policies := [⟨9, tiers⟩]
  windows := []
  auditLogs := []
  locked := []
  held := []
  sent := []
  asked := []
  told := []

/-- The incident of `underPolicy`. -/
def openedCore (isMoneyMoving : Bool) : Incident.Core := ⟨0, 5, .opened, 0, isMoneyMoving, incidentNumberText 0 1⟩

theorem escalated_underPolicy (tiers : List EscalationTier) (isMoneyMoving : Bool) :
    Escalated (openedCore isMoneyMoving) 9 tiers 0 (underPolicy tiers isMoneyMoving) where
  keys := List.nodup_singleton _
  drawn := List.forall_mem_singleton.2 Nat.zero_lt_one
  row := List.mem_singleton.2 rfl
  target := ⟨_, rfl, rfl⟩
  policy := ⟨_, rfl, rfl⟩
  fired := rfl
  others := fun _ ha => nomatch ha
  le := Nat.zero_le _
  met := fun _ ht => nomatch ht

instance (incidentId : Uuid) : DecidablePred (StaysOpen incidentId) := fun _ => inferInstanceAs (Decidable (_ ∧ _))

instance {P : AlertStore → Prop} [DecidablePred P] (tr : List EscalationLabel) :
    Decidable (Throughout (escalationStep env) P st tr) := inferInstanceAs (Decidable (_ ∧ _))

def alwaysTier (delayMinutes : Nat) (recipient : String) : EscalationTier :=
  ⟨delayMinutes, .sms, [recipient], .always, by simp⟩

def moneyTier (delayMinutes : Nat) (recipient : String) : EscalationTier :=
  ⟨delayMinutes, .sms, [recipient], .isMoneyMoving, by simp⟩

/-- Four passes an hour after the incident opened, with a delivery in between. -/
def hourLater : List EscalationLabel :=
  [.cycle 3600000 ⟨0, ⟨true, ""⟩, ""⟩, .command (.markAlert 1 .sent (some "accepted")) ⟨0, ⟨true, ""⟩, ""⟩,
    .cycle 3600000 ⟨0, ⟨true, ""⟩, ""⟩, .cycle 3600000 ⟨0, ⟨true, ""⟩, ""⟩, .cycle 3600000 ⟨0, ⟨true, ""⟩, ""⟩]

theorem every_tier_conditional_last : ∃ st',
    Runs.run (escalationStep .default) (underPolicy [alwaysTier 0 "oncall", alwaysTier 15 "lead", moneyTier 30 "exec"] false)
      hourLater = some st' ∧
      escalations 0 st' = metBatches (openedCore false) [alwaysTier 0 "oncall", alwaysTier 15 "lead", moneyTier 30 "exec"] := by
  obtain ⟨st', hr⟩ := Option.isSome_iff_exists.1 (show (Runs.run (escalationStep .default)
    (underPolicy [alwaysTier 0 "oncall", alwaysTier 15 "lead", moneyTier 30 "exec"] false) hourLater).isSome by
      decide +kernel)
  exact ⟨st', hr, ((every_tier_iff (escalated_underPolicy _ false) hr (by decide +kernel) (by decide +kernel)).2
    (by decide +kernel)).1⟩

/-- A conditional tier in the middle: the tier after it never fires. -/
theorem every_tier_conditional_between : ¬ ∀ (env : Env) (st st' : AlertStore) (c : Incident.Core) (policyId : Uuid)
    (tiers : List EscalationTier) (tr : List EscalationLabel), Escalated c policyId tiers 0 st →
      Runs.run (escalationStep env) st tr = some st' → Throughout (escalationStep env) (StaysOpen c.id) st tr →
        tiers.length ≤ tr.countP (·.late c tiers) → escalations c.id st' = metBatches c tiers := by
  intro h
  obtain ⟨st', hr, hs⟩ := Option.map_eq_some_iff.1 (show (Runs.run (escalationStep .default)
    (underPolicy [alwaysTier 0 "oncall", moneyTier 15 "exec", alwaysTier 30 "lead"] false) hourLater).map
      (escalations 0) = some [(some 0, .sms, "oncall")] by decide +kernel)
  have hall := h .default _ st' (openedCore false) 9 _ _ (escalated_underPolicy _ false) hr (by decide +kernel)
    (by decide +kernel)
  rw [show escalations (openedCore false).id st' = _ from hs] at hall
  exact absurd hall (by decide +kernel)

end CronMonitor.Alerts
