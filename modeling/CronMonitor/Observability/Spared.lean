import CronMonitor.Alerts.Escalation
import CronMonitor.Alerts.Recovery
import CronMonitor.Alerts.SentOnce
import CronMonitor.Observability.Hidden

/-!
# What a sweep has to leave

How far an incident is escalated and who heard of it are recomputed from its alerts. A sweep spares them if what each
alert that it deletes says of an incident that is not over is still said by an alert it leaves, one that no delivery has
in hand.
-/

namespace CronMonitor.Observability
open Alerts

/-- The tier of `a` is not counted, or `kept` has one as high for the incident. -/
def TierKept (st : AlertStore) (kept : List Alert) (a : Alert) : Prop :=
  (a.status = .failed ∧ a.id ∉ st.held) ∨ ∀ tier ∈ a.escalationTier, ∃ b ∈ kept,
    (b.status ≠ .pending ∧ b.status ≠ .failed ∧ b.id ∉ st.held) ∧ b.incidentId = a.incidentId ∧
      ∃ tier' ∈ b.escalationTier, tier ≤ tier'

/-- The recipient of `a` did not hear of the incident, or from an alert of `kept` as well. -/
def RecipientKept (st : AlertStore) (kept : List Alert) (a : Alert) : Prop :=
  a.alertType = .apiRecovered ∨ (a.status ≠ .sent ∧ a.id ∉ st.held) ∨ ∃ b ∈ kept,
    (b.status = .sent ∧ b.id ∉ st.held) ∧ b.incidentId = a.incidentId ∧ b.alertType ≠ .apiRecovered ∧
      (b.channel, b.recipient) = (a.channel, a.recipient)

def Kept (st : AlertStore) (kept : List Alert) (a : Alert) : Prop := TierKept st kept a ∧ RecipientKept st kept a

instance (st : AlertStore) (kept : List Alert) (a : Alert) : Decidable (Kept st kept a) :=
  inferInstanceAs (Decidable ((_ ∨ ∀ tier ∈ a.escalationTier, ∃ b ∈ kept, _ ∧ _ ∧ ∃ tier' ∈ b.escalationTier, _) ∧
    (_ ∨ _ ∨ ∃ b ∈ kept, _)))

namespace RetentionSys

variable (env : Env)

/-- What a batch deletes of an incident that is not resolved, or of any incident while an escalation pass is in progress,
is said by the alerts that it leaves; and no result goes that lies in the flapping window. -/
def Spares (s : RetentionSys) : RetentionLabel → Prop
  | .prune i (some rows) => ∀ spec ∈ s.deleting i,
    (spec.name = .alerts → ∀ a ∈ s.store.db.alerts, a.id ∈ rows → ∀ incidentId ∈ a.incidentId,
      ¬ s.store.Resolved incidentId ∨ s.pass.isSome → Kept s.store (s.store.db.alerts.filter (·.id ∉ rows)) a) ∧
    (spec.name = .healthCheckResults → ∀ r ∈ s.store.db.healthCheckResults, r.id ∈ rows →
      r.checkedAt ≤ s.store.now - env.flappingWindowMinutes * 60000)
  | _ => True

instance (s : RetentionSys) (l : RetentionLabel) : Decidable (s.Spares env l) :=
  match l with
  | .prune i (some _) => inferInstanceAs (Decidable (∀ spec ∈ s.deleting i,
      (_ → ∀ a ∈ s.store.db.alerts, _ → ∀ incidentId ∈ a.incidentId, _ → _) ∧
        (_ → ∀ r ∈ s.store.db.healthCheckResults, _ → _)))
  | .prune _ none | .start _ | .advance _ _ _ | .escalate _ | .pass _ | .sweep _ | .elapse _ => isTrue trivial

end RetentionSys

/-! ### From one state to the next -/

namespace Gone

variable {env : Env} {w : World} {g : Gone} {st st' : AlertStore} {incidentId : Uuid}

/-- What the deleted alerts say of an incident is said by the others. -/
def Remembers (g : Gone) (st : AlertStore) (incidentId : Uuid) : Prop :=
  ∀ a ∈ st.db.alerts, a.id ∈ g.alerts → a.incidentId = some incidentId →
    Kept st (st.db.alerts.filter (·.id ∉ g.alerts)) a

/-- An alert that was marked and is in no delivery's hands stays as it is, and no alert says something else. -/
structure Keeps (st st' : AlertStore) : Prop where
  marked : ∀ a ∈ st.db.alerts, a.status ≠ .pending → a.id ∉ st.held → a ∈ st'.db.alerts ∧ a.id ∉ st'.held
  old : ∀ a' ∈ st'.db.alerts, a'.id < st.nextUuid → ∃ a ∈ st.db.alerts, a.id = a'.id ∧ asQueued a = asQueued a' ∧
    (a.id ∉ st.held → a' = a) ∧ (a.status ≠ .pending → a'.status ≠ .pending)

theorem Keeps.settled (h : Keeps st st') (hpast : g.Past env st.toStore) (hs : g.Settled st) : g.Settled st' := by
  intro a' ha' hid
  obtain ⟨a, ha, heq, -, -, hstatus⟩ := h.old a' ha' (hpast.alerts _ hid)
  exact hstatus (hs a ha (heq ▸ hid))

theorem Keeps.remembers (h : Keeps st st') (hpast : g.Past env st.toStore) (hs : g.Settled st)
    (hr : g.Remembers st incidentId) : g.Remembers st' incidentId := by
  have hkept : ∀ b ∈ st.db.alerts.filter (·.id ∉ g.alerts), b.status ≠ .pending → b.id ∉ st.held →
      b ∈ st'.db.alerts.filter (·.id ∉ g.alerts) ∧ b.id ∉ st'.held := by
    intro b hb hstatus hheld
    obtain ⟨hmem, hgone⟩ := List.mem_filter.1 hb
    obtain ⟨hmem', hheld'⟩ := h.marked b hmem hstatus hheld
    exact ⟨List.mem_filter.2 ⟨hmem', hgone⟩, hheld'⟩
  intro a' ha' hid hincident
  obtain ⟨a, ha, heq, habout, hsame, -⟩ := h.old a' ha' (hpast.alerts _ hid)
  have hinc : a.incidentId = a'.incidentId := congrArg About.incidentId habout
  have htype : a.alertType = a'.alertType := congrArg About.alertType habout
  have hdest' : (a.channel, a.recipient) = (a'.channel, a'.recipient) :=
    congrArg (fun b : About => (b.channel, b.recipient)) habout
  have htier : a.escalationTier = a'.escalationTier := congrArg About.escalationTier habout
  have hpending := hs a ha (heq ▸ hid)
  obtain ⟨ht, hrec⟩ := hr a ha (heq ▸ hid) (hinc.trans hincident)
  constructor
  · rcases ht with ⟨hfailed, hheld⟩ | ht
    · obtain rfl := hsame hheld
      exact .inl ⟨hfailed, (h.marked _ ha hpending hheld).2⟩
    · refine .inr fun tier htier' => ?_
      obtain ⟨b, hb, ⟨hpend, hfail, hheld⟩, hbinc, hle⟩ := ht tier (htier.symm ▸ htier')
      obtain ⟨hb', hheld'⟩ := hkept b hb hpend hheld
      exact ⟨b, hb', ⟨hpend, hfail, hheld'⟩, hbinc.trans hinc, hle⟩
  · rcases hrec with hrecovered | ⟨hsent, hheld⟩ | ⟨b, hb, ⟨hsent, hheld⟩, hbinc, hne, hdest⟩
    · exact .inl (htype ▸ hrecovered)
    · obtain rfl := hsame hheld
      exact .inr (.inl ⟨hsent, (h.marked _ ha hpending hheld).2⟩)
    · obtain ⟨hb', hheld'⟩ := hkept b hb (by simp [hsent]) hheld
      exact .inr (.inr ⟨b, hb', ⟨hsent, hheld'⟩, hbinc.trans hinc, hne, hdest.trans hdest'⟩)

theorem Keeps.of_adds (h : Adds st st') (hheld : st'.held = st.held) : Keeps st st' := by
  obtain ⟨-, new, hal, ⟨-, hdrawn⟩, -⟩ := h
  refine ⟨fun a ha _ hnot => ⟨hal ▸ List.mem_append_left _ ha, hheld ▸ hnot⟩, fun a' ha' hlt => ?_⟩
  rcases List.mem_append.1 (hal ▸ ha') with ha' | ha'
  · exact ⟨a', ha', rfl, rfl, fun _ => rfl, id⟩
  · exact absurd hlt (Nat.not_lt.2 (hdrawn a'.id (List.mem_map_of_mem ha')).1)

theorem Keeps.mark {id : Uuid} {status : AlertStatus} {detail : Option String} (hid : id ∈ st.held)
    (hstatus : status ≠ .pending) : Keeps st ((AlertCmd.markAlert id status detail).exec env w st).2 := by
  refine ⟨fun a ha _ hheld => ⟨List.mem_map.2 ⟨a, ha, if_neg ?_⟩, fun hmem => hheld (List.mem_of_mem_erase hmem)⟩, ?_⟩
  · rintro rfl
    exact hheld hid
  · intro a' ha' _
    obtain ⟨a, ha, rfl⟩ := List.mem_map.1 ha'
    refine ⟨a, ha, (markAlert_id id status detail _ a).symm, ?_, fun hheld => if_neg ?_, fun hpending => ?_⟩
    · split <;> rfl
    · rintro rfl
      exact hheld hid
    · split
      · exact hstatus
      · exact hpending

theorem Keeps.list {limit : Nat} (hkeyed : Keyed st) : Keeps st ((AlertCmd.listPendingAlerts limit).exec env w st).2 := by
  refine ⟨fun a ha hstatus hheld => ⟨ha, fun hmem => ?_⟩, fun a' ha' _ => ⟨a', ha', rfl, rfl, fun _ => rfl, id⟩⟩
  rcases List.mem_append.1 hmem with hmem | hmem
  · exact hheld hmem
  · -- what is listed is pending
    obtain ⟨b, hb, hid⟩ := List.mem_map.1 hmem
    have hpending := (listPendingAlerts_spec hkeyed limit).2 b hb
    rw [hid, hkeyed.statusOf ha] at hpending
    exact hstatus (Option.some.inj hpending)

/-- Where a delivery marks only what it has in hand, every command keeps. -/
theorem exec_keeps {c : AlertCmd} (hkeyed : Keyed st)
    (hmark : ∀ id status detail, c = .markAlert id status detail → id ∈ st.held ∧ status ≠ .pending) :
    Keeps st (c.exec env w st).2 := by
  cases c with
  | markAlert id status detail =>
    obtain ⟨hid, hstatus⟩ := hmark id status detail rfl
    exact .mark hid hstatus
  | listPendingAlerts limit => exact .list hkeyed
  | send id channel n => exact .of_adds (.of_eq rfl rfl) rfl
  | _ =>
    refine .of_adds (exec_adds (by rintro _ _ _ ⟨⟩) st) ?_
    exact (exec_held_sent env w rfl st).1

/-! ### What is recomputed -/

theorem tier_le_highest {a : Alert} {tier : Nat} (ha : a ∈ st.db.alerts) (hinc : a.incidentId = some incidentId)
    (hstatus : a.status ≠ .failed) (htier : a.escalationTier = some tier) :
    (tier : Int) ≤ st.highestTierFired incidentId := by
  refine mem_le_foldl_max (List.mem_filterMap.2 ⟨a, List.mem_filter.2 ⟨ha, ?_⟩, htier⟩) _
  simp [hinc, hstatus]

theorem highest_le {bound : Int} (hbound : -1 ≤ bound) (h : ∀ a ∈ st.db.alerts, a.incidentId = some incidentId →
    a.status ≠ .failed → ∀ tier ∈ a.escalationTier, (tier : Int) ≤ bound) : st.highestTierFired incidentId ≤ bound := by
  refine foldl_max_le hbound fun tier htier => ?_
  obtain ⟨a, ha, htier⟩ := List.mem_filterMap.1 htier
  obtain ⟨ha, hp⟩ := List.mem_filter.1 ha
  simp only [Bool.and_eq_true, decide_eq_true_eq] at hp
  exact h a ha hp.1 hp.2 tier htier

theorem neg_one_le_highest : -1 ≤ st.highestTierFired incidentId := le_foldl_max _ _

theorem mem_hideAlerts {a : Alert} : a ∈ (g.hideAlerts st).db.alerts ↔ a ∈ st.db.alerts ∧ a.id ∉ g.alerts := by
  simp [hideAlerts, hide]

/-- How far an incident is escalated can still be seen. -/
theorem Remembers.highest (h : g.Remembers st incidentId) :
    (g.hideAlerts st).highestTierFired incidentId = st.highestTierFired incidentId := by
  refine le_antisymm (highest_le neg_one_le_highest fun a ha hinc hstatus tier htier => ?_)
    (highest_le neg_one_le_highest fun a ha hinc hstatus tier htier => ?_)
  · exact tier_le_highest (mem_hideAlerts.1 ha).1 hinc hstatus htier
  · by_cases hid : a.id ∈ g.alerts
    · rcases (h a ha hid hinc).1 with ⟨hfailed, -⟩ | hkept
      · exact absurd hfailed hstatus
      · obtain ⟨b, hb, ⟨-, hfail, -⟩, hbinc, tier', htier', hle⟩ := hkept tier htier
        have hb' : b ∈ (g.hideAlerts st).db.alerts := hb
        have := tier_le_highest hb' (hbinc.trans hinc) hfail htier'
        omega
    · exact tier_le_highest (mem_hideAlerts.2 ⟨ha, hid⟩) hinc hstatus htier

theorem mem_notified {d : AlertChannel × String} : d ∈ (Sql.notifiedTargetsForIncident incidentId st.toStore).1 ↔
    d ∈ st.heard incidentId :=
  List.mem_dedup

/-- Who heard of an incident can still be seen. -/
theorem Remembers.notified (h : g.Remembers st incidentId) :
    (Sql.notifiedTargetsForIncident incidentId (g.hideAlerts st).toStore).1.Perm
      (Sql.notifiedTargetsForIncident incidentId st.toStore).1 := by
  refine (List.perm_ext_iff_of_nodup (List.nodup_dedup _) (List.nodup_dedup _)).2 fun d => ?_
  refine mem_notified.trans (Iff.trans ?_ mem_notified.symm)
  rw [mem_heard, mem_heard]
  constructor
  · rintro ⟨a, ha, hinc, hsent, hne, hd⟩
    exact ⟨a, (mem_hideAlerts.1 ha).1, hinc, hsent, hne, hd⟩
  · rintro ⟨a, ha, hinc, hsent, hne, hd⟩
    by_cases hid : a.id ∈ g.alerts
    · rcases (h a ha hid hinc).2 with hrecovered | ⟨hnot, -⟩ | ⟨b, hb, ⟨hbsent, -⟩, hbinc, hbne, hdest⟩
      · exact absurd hrecovered hne
      · exact absurd hsent hnot
      · exact ⟨b, hb, hbinc.trans hinc, hbsent, hbne, hdest.trans hd⟩
    · exact ⟨a, mem_hideAlerts.2 ⟨ha, hid⟩, hinc, hsent, hne, hd⟩

theorem precedes_trans {a b d : AlertChannel × String} (hab : Precedes a b) (hbd : Precedes b d) : Precedes a d := by
  rcases hab with hab | ⟨hab, hle⟩ <;> rcases hbd with hbd | ⟨hbd, hle'⟩
  · exact .inl (hab.trans hbd)
  · exact .inl (hbd ▸ hab)
  · exact .inl (hab ▸ hbd)
  · exact .inr ⟨hab.trans hbd, String.le_trans hle hle'⟩

theorem precedes_total (a b : AlertChannel × String) : Precedes a b ∨ Precedes b a := by
  rcases lt_trichotomy a.1.rank b.1.rank with hlt | heq | hlt
  · exact .inl (.inl hlt)
  · exact (String.le_total a.2 b.2).imp (fun hle => .inr ⟨heq, hle⟩) fun hle => .inr ⟨heq.symm, hle⟩
  · exact .inr (.inl hlt)

theorem precedes_antisymm {a b : AlertChannel × String} (hab : Precedes a b) (hba : Precedes b a) : a = b := by
  have hboth : a.1.rank = b.1.rank ∧ a.2 = b.2 := by
    rcases hab with hab | ⟨hab, hle⟩ <;> rcases hba with hba | ⟨hba, hle'⟩
    · omega
    · omega
    · omega
    · exact ⟨hab, String.le_antisymm hle hle'⟩
  refine Prod.ext ?_ hboth.2
  have hrank := hboth.1
  revert hrank
  cases a.1 <;> cases b.1 <;> decide

/-- The answer of a `SELECT DISTINCT` depends on its rows alone. -/
theorem distinct_congr {order rows rows' : List (AlertChannel × String)} (h : rows.Perm rows') :
    distinct order rows = distinct order rows' := by
  have hiff : order.Perm rows ↔ order.Perm rows' := ⟨fun ho => ho.trans h, fun ho => ho.trans h.symm⟩
  unfold distinct
  by_cases ho : order.Perm rows
  · rw [if_pos ho, if_pos (hiff.1 ho)]
  · rw [if_neg ho, if_neg fun ho' => ho (hiff.2 ho')]
    have : IsTrans (AlertChannel × String) Precedes := ⟨fun _ _ _ => precedes_trans⟩
    have : Std.Total Precedes := ⟨precedes_total⟩
    have : Std.Antisymm Precedes := ⟨fun _ _ => precedes_antisymm⟩
    refine List.Perm.eq_of_pairwise' (List.pairwise_insertionSort Precedes rows)
      (List.pairwise_insertionSort Precedes rows') ?_
    exact ((List.perm_insertionSort Precedes rows).trans h).trans (List.perm_insertionSort Precedes rows').symm

theorem enabled_hide (c : AlertCmd) : c.enabled (g.hideAlerts st) = c.enabled st := by cases c <;> rfl

theorem take_eq {c : AlertCmd} {order : List (AlertChannel × String)} (hc : ∀ id, c ≠ .notifiedTargetsForIncident id) :
    take env w order c st = if c.enabled st then some (c.exec env w (st.elapse w.elapsed)) else none := by
  cases c with
  | notifiedTargetsForIncident id => exact absurd rfl (hc id)
  | _ => rfl

/-- A statement of the alert runner, on the tables with sweeps and on those without. -/
theorem take_hide {c : AlertCmd} {order : List (AlertChannel × String)} (hpast : g.Past env st.toStore)
    (hs : g.Settled st) (htier : ∀ id, c = .highestTierFired id → g.Remembers st id)
    (hnotified : ∀ id, c = .notifiedTargetsForIncident id → g.Remembers st id) :
    take env w order c (g.hideAlerts st) =
      (take env w order c st).map fun r => (r.1, g.hideAlerts r.2) := by
  by_cases hn : ∃ id, c = .notifiedTargetsForIncident id
  · obtain ⟨id, rfl⟩ := hn
    have heq := @distinct_congr order _ _ (hnotified id rfl).notified
    exact congrArg (fun notified => some (notified, { g.hideAlerts (st.elapse w.elapsed) with
      asked := id :: st.asked })) heq
  have hn' : ∀ id, c ≠ .notifiedTargetsForIncident id := fun id hc => hn ⟨id, hc⟩
  have hexec : c.exec env w (g.hideAlerts (st.elapse w.elapsed)) =
      ((c.exec env w (st.elapse w.elapsed)).1, g.hideAlerts (c.exec env w (st.elapse w.elapsed)).2) := by
    by_cases ht : ∃ id, c = .highestTierFired id
    · obtain ⟨id, rfl⟩ := ht
      exact Prod.ext (htier id rfl).highest rfl
    · have hlater : g.Past env (st.elapse w.elapsed).toStore :=
        hpast.later le_rfl rfl (le_add_of_nonneg_right (Int.natCast_nonneg _))
      exact exec_hide (fun id hc => ht ⟨id, hc⟩) hn' hlater hs
  rw [take_eq hn', take_eq hn', enabled_hide]
  split
  · exact congrArg some hexec
  · rfl

end Gone

end CronMonitor.Observability
