import CronMonitor.Alerts.Frame
import CronMonitor.Lib.Rows
import CronMonitor.Lib.Runs

/-!
# How far an incident is escalated

A pass takes the tier after the highest one it finds among the alerts of the incident. Firing it leaves alerts of that
tier, so the next pass takes the next one; passing over it leaves none, and the next pass takes it again. An incident
is therefore escalated up to the first tier whose condition it does not meet.
-/

namespace CronMonitor.Alerts

open Runs

/-- The incident meets the condition of the tier. -/
def EscalationTier.Met (isMoneyMoving : Bool) (tier : EscalationTier) : Prop :=
  tier.condition = .isMoneyMoving → isMoneyMoving = true

instance (isMoneyMoving : Bool) (tier : EscalationTier) : Decidable (tier.Met isMoneyMoving) :=
  inferInstanceAs (Decidable (_ → _))

def EscalationTier.dueAt (startedAt : Time) (tier : EscalationTier) (now : Time) : Prop :=
  tier.delayMinutes * 60000 ≤ now - startedAt

theorem tierIsDue_iff {startedAt now : Time} {tier : EscalationTier} :
    tierIsDue startedAt tier.delayMinutes now = true ↔ tier.dueAt startedAt now := decide_eq_true_iff

/-! ### One incident of a pass -/

/-- What a pass does to the store for an incident whose policy it has. -/
def escalated (now : Time) (policy : Option EscalationPolicy) (work : EscalatableIncident) (st : AlertStore) : AlertStore :=
  match policy.bind fun policy => policy.tiers[(st.highestTierFired work.incident.id + 1).toNat]? with
  | none => st
  | some tier =>
    let index := (st.highestTierFired work.incident.id + 1).toNat
    if tier.condition = .isMoneyMoving ∧ ¬ work.incident.isMoneyMovingSnapshot then
      (st.lift (Sql.escalateIncident work.incident.id index)).2
    else if ¬ tierIsDue work.incident.startedAt tier.delayMinutes now then st
    else ((tier.recipients.foldl (fun st recipient => st.createAlert
      ⟨.escalationTriggered, tier.channel, recipient, some work.incident.id, some work.incident.apiId⟩ (some index))
        st).lift (Sql.escalateIncident work.incident.id index)).2

/-- The policies read so far are those of the table. -/
def EscalationPass.Fresh (st : AlertStore) (pass : EscalationPass) : Prop :=
  ∀ id policy, pass.policyCache.lookup id = some policy → policy = st.getEscalationPolicy id

variable {env : Env} {w : World} {now : Time} {st : AlertStore}

theorem EscalationPass.policy_exec (env : Env) (w : World) {pass : EscalationPass} (h : pass.Fresh st) (id : Uuid) :
    ∃ pass', (pass.policy id).exec (AlertCmd.exec env w) st = ((st.getEscalationPolicy id, pass'), st) ∧
      pass'.Fresh st := by
  unfold policy
  cases hl : pass.policyCache.lookup id with
  | some p =>
    rw [h id p hl]
    exact ⟨pass, rfl, h⟩
  | none =>
    refine ⟨_, rfl, fun id' p hp => ?_⟩
    rw [List.lookup_cons] at hp
    split at hp
    · rename_i heq
      rw [eq_of_beq heq, ← Option.some.inj hp]
      rfl
    · exact h id' p hp

theorem fireTier_exec (incident : Incident) (tier : EscalationTier) (index : Nat) :
    (fireTier incident tier index).exec (AlertCmd.exec env w) st = ((), tier.recipients.foldl (fun st recipient =>
      st.createAlert ⟨.escalationTriggered, tier.channel, recipient, some incident.id, some incident.apiId⟩
        (some index)) st) :=
  Prog.exec_forM _ _ _

theorem escalate_exec (env : Env) (w : World) (now : Time) {pass : EscalationPass} (h : pass.Fresh st)
    (work : EscalatableIncident) :
    ∃ pass', (escalate now pass work).exec (AlertCmd.exec env w) st =
      (pass', escalated now (st.getEscalationPolicy work.escalationPolicyId) work st) ∧ pass'.Fresh st := by
  obtain ⟨pass', hx, hfresh⟩ := EscalationPass.policy_exec env w h work.escalationPolicyId
  unfold escalate escalated
  rw [Prog.exec_bind, hx]
  cases st.getEscalationPolicy work.escalationPolicyId with
  | none => exact ⟨pass', rfl, hfresh⟩
  | some policy =>
    simp only [Option.bind_some]
    split
    · rename_i hnil
      simp only [hnil, List.getElem?_nil]
      exact ⟨pass', rfl, hfresh⟩
    · simp only [Prog.cmd_bind, Prog.exec_call, AlertCmd.exec]
      cases policy.tiers[(st.highestTierFired work.incident.id + 1).toNat]? with
      | none => exact ⟨pass', rfl, hfresh⟩
      | some tier =>
        simp only []
        split
        · exact ⟨pass', rfl, hfresh⟩
        · split
          · exact ⟨pass', rfl, hfresh⟩
          · refine ⟨{ pass' with tiersFired := pass'.tiersFired + 1 }, ?_, hfresh⟩
            rw [Prog.exec_bind, fireTier_exec]
            rfl

/-- What a pass leaves alone. -/
structure SameCase (a b : AlertStore) : Prop where
  cores : b.db.incidents.map (·.core) = a.db.incidents.map (·.core)
  targets : b.targets = a.targets
  policies : b.policies = a.policies
  uuid : a.nextUuid ≤ b.nextUuid

theorem SameCase.trans {a b c : AlertStore} (h : SameCase a b) (h' : SameCase b c) : SameCase a c :=
  ⟨h'.cores.trans h.cores, h'.targets.trans h.targets, h'.policies.trans h.policies, h.uuid.trans h'.uuid⟩

theorem escalateIncident_same (id : Uuid) (level : Nat) (st : AlertStore) :
    SameCase st (st.lift (Sql.escalateIncident id level)).2 :=
  ⟨escalateIncident_core id level st.toStore, rfl, rfl, le_rfl⟩

/-- The alerts that firing a tier adds. -/
def tierAlerts (work : EscalatableIncident) (tier : EscalationTier) (index : Nat) : List About :=
  tier.recipients.map fun recipient => aboutInput
    ⟨.escalationTriggered, tier.channel, recipient, some work.incident.id, some work.incident.apiId⟩ (some index)

/-- A pass fires the tier after the highest one, if the incident meets its condition and it is due, and otherwise adds
no alert. -/
theorem escalated_cases (now : Time) (policy : Option EscalationPolicy) (work : EscalatableIncident)
    (st : AlertStore) {index : Nat} (hindex : (st.highestTierFired work.incident.id + 1).toNat = index) :
    SameCase st (escalated now policy work st) ∧
      ((∃ tier, (policy.bind fun p => p.tiers[index]?) = some tier ∧ tier.Met work.incident.isMoneyMovingSnapshot ∧
          tier.dueAt work.incident.startedAt now ∧ ∃ new,
            (escalated now policy work st).db.alerts = st.db.alerts ++ new ∧ new.map about = tierAlerts work tier index) ∨
        (escalated now policy work st).db.alerts = st.db.alerts ∧
          ∀ tier, (policy.bind fun p => p.tiers[index]?) = some tier → tier.Met work.incident.isMoneyMovingSnapshot →
            ¬ tier.dueAt work.incident.startedAt now) := by
  have hsame : SameCase st st := ⟨rfl, rfl, rfl, le_rfl⟩
  unfold escalated
  simp only [hindex]
  cases policy.bind fun p => p.tiers[index]? with
  | none => exact ⟨hsame, .inr ⟨rfl, fun _ h => nomatch h⟩⟩
  | some tier =>
    simp only []
    by_cases hmet : tier.condition = .isMoneyMoving ∧ ¬ work.incident.isMoneyMovingSnapshot
    · rw [if_pos hmet]
      refine ⟨escalateIncident_same _ _ st, .inr ⟨rfl, ?_⟩⟩
      rintro _ ⟨⟩ h
      exact absurd (h hmet.1) hmet.2
    · rw [if_neg hmet]
      by_cases hdue : tierIsDue work.incident.startedAt tier.delayMinutes now
      · rw [if_neg (not_not_intro hdue)]
        obtain ⟨new, hst, -, habout⟩ := foldl_createAlert (fun recipient =>
          ⟨.escalationTriggered, tier.channel, recipient, some work.incident.id, some work.incident.apiId⟩) (some index)
          tier.recipients st
        have hqueued : SameCase st (tier.recipients.foldl (fun st recipient => st.createAlert
            ⟨.escalationTriggered, tier.channel, recipient, some work.incident.id, some work.incident.apiId⟩
            (some index)) st) := by
          rw [hst]
          exact ⟨rfl, rfl, rfl, Nat.le_add_right _ _⟩
        have hraised := hqueued.trans (escalateIncident_same work.incident.id index _)
        rw [hst] at hraised ⊢
        refine ⟨hraised, .inl ⟨tier, rfl, ?_, tierIsDue_iff.1 hdue, new, rfl, habout⟩⟩
        intro hc
        by_contra hmm
        exact hmet ⟨hc, hmm⟩
      · rw [if_pos hdue]
        refine ⟨hsame, .inr ⟨rfl, ?_⟩⟩
        rintro _ ⟨⟩ - hd
        exact hdue (tierIsDue_iff.2 hd)

/-! ### The tiers of one incident -/

/-- The escalations of an incident: the tier, the channel and the recipient of each. -/
def escalations (incidentId : Uuid) (st : AlertStore) : List (Option Nat × AlertChannel × String) :=
  (st.db.alerts.filter fun a => a.incidentId = some incidentId && a.alertType = .escalationTriggered).map fun a =>
    (a.escalationTier, a.channel, a.recipient)

/-- One alert for each recipient of each tier, in order. -/
def batches (tiers : List (EscalationTier × Nat)) : List (Option Nat × AlertChannel × String) :=
  tiers.flatMap fun p => p.1.recipients.map fun recipient => (some p.2, p.1.channel, recipient)

/-- The incident with the core `c` is escalated under the policy with these tiers, and its first `k` tiers have
fired. -/
structure Escalated (c : Incident.Core) (policyId : Uuid) (tiers : List EscalationTier) (k : Nat) (st : AlertStore) :
    Prop where
  keys : (st.db.incidents.map (·.id)).Nodup
  drawn : ∀ i ∈ st.db.incidents, i.id < st.nextUuid
  row : c ∈ st.db.incidents.map (·.core)
  target : ∃ t, st.findTargetById c.apiId = some t ∧ t.escalationPolicyId = some policyId
  policy : ∃ p, st.getEscalationPolicy policyId = some p ∧ p.tiers = tiers
  fired : escalations c.id st = batches (tiers.take k).zipIdx
  others : ∀ a ∈ st.db.alerts, a.incidentId = some c.id → a.alertType ≠ .escalationTriggered → a.escalationTier = none
  le : k ≤ tiers.length
  met : ∀ tier ∈ tiers.take k, tier.Met c.isMoneyMovingSnapshot

/-- The incident is open and none of its alerts has failed. -/
def StaysOpen (incidentId : Uuid) (st : AlertStore) : Prop :=
  (∀ i ∈ st.db.incidents, i.id = incidentId → i.status = .opened) ∧
    ∀ a ∈ st.db.alerts, a.incidentId = some incidentId → a.status ≠ .failed

variable {c : Incident.Core} {policyId : Uuid} {tiers : List EscalationTier} {k : Nat}

/-! The highest tier among the alerts is the last one that fired. -/

theorem le_foldl_max (l : List Nat) (m : Int) : m ≤ l.foldl (fun (m : Int) (k : Nat) => max m k) m := by
  induction l generalizing m with
  | nil => exact le_rfl
  | cons x l ih => exact (le_max_left _ _).trans (ih _)

theorem mem_le_foldl_max {l : List Nat} {x : Nat} (hx : x ∈ l) (m : Int) :
    (x : Int) ≤ l.foldl (fun (m : Int) (k : Nat) => max m k) m := by
  induction l generalizing m with
  | nil => cases hx
  | cons y l ih =>
    rcases List.mem_cons.1 hx with rfl | hx
    · exact (le_max_right _ _).trans (le_foldl_max l _)
    · exact ih hx _

theorem foldl_max_le {l : List Nat} {m b : Int} (hm : m ≤ b) (hl : ∀ x ∈ l, (x : Int) ≤ b) :
    l.foldl (fun (m : Int) (k : Nat) => max m k) m ≤ b := by
  induction l generalizing m with
  | nil => exact hm
  | cons x l ih => exact ih (max_le hm (hl x List.mem_cons_self)) fun y hy => hl y (List.mem_cons_of_mem _ hy)

theorem mem_batches {l : List (EscalationTier × Nat)} {x : Option Nat × AlertChannel × String} (h : x ∈ batches l) :
    ∃ p ∈ l, x.1 = some p.2 := by
  obtain ⟨p, hp, hx⟩ := List.mem_flatMap.1 h
  obtain ⟨r, -, rfl⟩ := List.mem_map.1 hx
  exact ⟨p, hp, rfl⟩

theorem highestTierFired_eq (h : Escalated c policyId tiers k st) (ho : StaysOpen c.id st) :
    (st.highestTierFired c.id + 1).toNat = k := by
  have htier : ∀ a ∈ st.db.alerts, a.incidentId = some c.id → ∀ j, a.escalationTier = some j → j < k := by
    intro a ha hi j hj
    have htype : a.alertType = .escalationTriggered := by
      by_contra hne
      rw [h.others a ha hi hne] at hj
      cases hj
    have hmem : (a.escalationTier, a.channel, a.recipient) ∈ escalations c.id st :=
      List.mem_map_of_mem (List.mem_filter.2 ⟨ha, by simp [hi, htype]⟩)
    rw [h.fired] at hmem
    obtain ⟨p, hp, heq⟩ := mem_batches hmem
    obtain rfl : j = p.2 := Option.some.inj (hj.symm.trans heq)
    have hlt := (List.mem_zipIdx hp).2.1
    simp at hlt
    omega
  have hlast : ∀ j, k = j + 1 → ∃ a ∈ st.db.alerts, a.incidentId = some c.id ∧ a.escalationTier = some j := by
    rintro j rfl
    have hlen : j < tiers.length := h.le
    obtain ⟨r, hr⟩ := List.exists_mem_of_ne_nil _ tiers[j].recipients_ne
    have hmem : (some j, tiers[j].channel, r) ∈ escalations c.id st := by
      rw [h.fired]
      refine List.mem_flatMap.2 ⟨(tiers[j], j), ?_, List.mem_map_of_mem hr⟩
      rw [List.mk_mem_zipIdx_iff_getElem?, List.getElem?_take_of_lt (Nat.lt_succ_self j)]
      exact List.getElem?_eq_getElem hlen
    obtain ⟨a, ha, heq⟩ := List.mem_map.1 hmem
    obtain ⟨ha, hp⟩ := List.mem_filter.1 ha
    simp only [Bool.and_eq_true, decide_eq_true_eq] at hp
    exact ⟨a, ha, hp.1, congrArg Prod.fst heq⟩
  suffices hmax : st.highestTierFired c.id = (k : Int) - 1 by omega
  rw [AlertStore.highestTierFired]
  refine le_antisymm (foldl_max_le (show (-1 : Int) ≤ k - 1 by omega) fun j hj => ?_) ?_
  · obtain ⟨a, ha, hj⟩ := List.mem_filterMap.1 hj
    obtain ⟨ha, hp⟩ := List.mem_filter.1 ha
    simp only [Bool.and_eq_true, decide_eq_true_eq] at hp
    have := htier a ha hp.1 j hj
    omega
  · cases k with
    | zero => exact le_foldl_max _ _
    | succ j =>
      obtain ⟨a, ha, hi, hj⟩ := hlast j rfl
      have hmem : j ∈ (st.db.alerts.filter fun a => a.incidentId = some c.id && a.status ≠ .failed).filterMap
          (·.escalationTier) :=
        List.mem_filterMap.2 ⟨a, List.mem_filter.2 ⟨ha, by simp [hi, ho.2 a ha hi]⟩, hj⟩
      have hle := mem_le_foldl_max hmem (-1)
      omega

/-! ### A pass -/

theorem SameCase.ids {a b : AlertStore} (h : SameCase a b) :
    b.db.incidents.map (·.id) = a.db.incidents.map (·.id) := by
  have hcores := congrArg (List.map Incident.Core.id) h.cores
  rw [List.map_map, List.map_map] at hcores
  exact hcores

theorem SameCase.exists_core {a b : AlertStore} (h : SameCase a b) {i : Incident} (hi : i ∈ b.db.incidents) :
    ∃ j ∈ a.db.incidents, j.core = i.core :=
  List.mem_map.1 (h.cores ▸ List.mem_map_of_mem hi)

section Pass

variable {st' : AlertStore}

theorem StaysOpen.extend {incidentId : Uuid} (new : List Alert) (h : StaysOpen incidentId st) (hs : SameCase st st')
    (hal : st'.db.alerts = st.db.alerts ++ new) (hnew : ∀ n ∈ new, n.status = .pending) : StaysOpen incidentId st' := by
  refine ⟨fun i hi hid => ?_, fun a ha hid => ?_⟩
  · obtain ⟨j, hj, hcore⟩ := hs.exists_core hi
    have hstatus : j.status = i.status := congrArg Incident.Core.status hcore
    exact hstatus ▸ h.1 j hj ((congrArg Incident.Core.id hcore).trans hid)
  · rw [hal] at ha
    rcases List.mem_append.1 ha with ha | ha
    · exact h.2 a ha hid
    · simp [hnew a ha]

theorem Escalated.extend {k' : Nat} (new : List Alert) (h : Escalated c policyId tiers k st) (hs : SameCase st st')
    (hal : st'.db.alerts = st.db.alerts ++ new)
    (hfired : batches (tiers.take k').zipIdx = batches (tiers.take k).zipIdx ++ (new.filter fun a =>
      a.incidentId = some c.id && a.alertType = .escalationTriggered).map fun a => (a.escalationTier, a.channel, a.recipient))
    (hnew : ∀ n ∈ new, n.alertType = .escalationTriggered) (hle : k' ≤ tiers.length)
    (hmet : ∀ tier ∈ tiers.take k', tier.Met c.isMoneyMovingSnapshot) : Escalated c policyId tiers k' st' := by
  refine ⟨hs.ids ▸ h.keys, fun i hi => ?_, hs.cores ▸ h.row, ?_, ?_, ?_, fun a ha hid hne => ?_, hle, hmet⟩
  · obtain ⟨j, hj, hcore⟩ := hs.exists_core hi
    have hid : j.id = i.id := congrArg Incident.Core.id hcore
    exact hid ▸ Nat.lt_of_lt_of_le (h.drawn j hj) hs.uuid
  · rw [AlertStore.findTargetById, hs.targets]
    exact h.target
  · rw [AlertStore.getEscalationPolicy, hs.policies]
    exact h.policy
  · rw [escalations, hal, List.filter_append, List.map_append, hfired]
    exact congrArg (· ++ _) h.fired
  · rw [hal] at ha
    rcases List.mem_append.1 ha with ha | ha
    · exact h.others a ha hid hne
    · exact absurd (hnew a ha) hne

/-- An alert of a tier. -/
theorem tierAlerts_mem {work : EscalatableIncident} {tier : EscalationTier} {index : Nat} {new : List Alert}
    (h : new.map about = tierAlerts work tier index) {n : Alert} (hn : n ∈ new) :
    n.status = .pending ∧ n.alertType = .escalationTriggered ∧ n.incidentId = some work.incident.id ∧
      n.escalationTier = some index := by
  have hmem : about n ∈ tierAlerts work tier index := h ▸ List.mem_map_of_mem hn
  obtain ⟨recipient, -, heq⟩ := List.mem_map.1 hmem
  exact ⟨(congrArg About.status heq).symm, (congrArg About.alertType heq).symm, (congrArg About.incidentId heq).symm,
    (congrArg About.escalationTier heq).symm⟩

/-- The tier that a pass fires next, if the incident is at tier `k`. -/
def nextTier (c : Incident.Core) (tiers : List EscalationTier) (now : Time) (k : Nat) : Option EscalationTier :=
  tiers[k]?.filter fun tier => tier.Met c.isMoneyMovingSnapshot ∧ tierIsDue c.startedAt tier.delayMinutes now

/-- How far the incident is after the pass. -/
def tierAfter (c : Incident.Core) (tiers : List EscalationTier) (now : Time) (k : Nat) : Nat :=
  if (nextTier c tiers now k).isSome then k + 1 else k

/-- The pass adds alerts, of this incident only those of the next tier. -/
def AddsTier (c : Incident.Core) (tiers : List EscalationTier) (now : Time) (k : Nat) (st st' : AlertStore) : Prop :=
  ∃ new, st'.db.alerts = st.db.alerts ++ new ∧ ∀ n ∈ new, n.incidentId = some c.id →
    n.escalationTier = some k ∧ (nextTier c tiers now k).isSome

/-- Another incident of the pass. -/
theorem Escalated.other (now : Time) (policy : Option EscalationPolicy) {work : EscalatableIncident}
    (h : Escalated c policyId tiers k st) (ho : StaysOpen c.id st) (hne : work.incident.id ≠ c.id) :
    Escalated c policyId tiers k (escalated now policy work st) ∧ StaysOpen c.id (escalated now policy work st) ∧
      SameCase st (escalated now policy work st) ∧ ∃ new, (escalated now policy work st).db.alerts = st.db.alerts ++ new ∧
        ∀ n ∈ new, n.incidentId ≠ some c.id := by
  obtain ⟨hs, hcases⟩ := escalated_cases now policy work st rfl
  have hadd : ∃ new, (escalated now policy work st).db.alerts = st.db.alerts ++ new ∧ ∀ n ∈ new,
      n.status = .pending ∧ n.alertType = .escalationTriggered ∧ n.incidentId = some work.incident.id := by
    rcases hcases with ⟨tier, -, -, -, new, hal, habout⟩ | ⟨hal, -⟩
    · refine ⟨new, hal, fun n hn => ?_⟩
      obtain ⟨hst, hty, hid, -⟩ := tierAlerts_mem habout hn
      exact ⟨hst, hty, hid⟩
    · exact ⟨[], by simp [hal], by simp⟩
  obtain ⟨new, hal, hnew⟩ := hadd
  have hother : ∀ n ∈ new, n.incidentId ≠ some c.id := fun n hn heq => by
    rw [(hnew n hn).2.2] at heq
    exact hne (Option.some.inj heq)
  refine ⟨h.extend new hs hal ?_ (fun n hn => (hnew n hn).2.1) h.le h.met, ho.extend new hs hal fun n hn => (hnew n hn).1, hs,
    new, hal, hother⟩
  have hnone : new.filter (fun a => a.incidentId = some c.id && a.alertType = .escalationTriggered) = [] :=
    List.filter_eq_nil_iff.2 fun n hn => by simp [hother n hn]
  rw [hnone, List.map_nil, List.append_nil]

/-- The incident itself. -/
theorem Escalated.this (now : Time) {work : EscalatableIncident} (h : Escalated c policyId tiers k st)
    (ho : StaysOpen c.id st) (hwork : work.incident.core = c) (hpolicy : work.escalationPolicyId = policyId) :
    Escalated c policyId tiers (tierAfter c tiers now k)
        (escalated now (st.getEscalationPolicy work.escalationPolicyId) work st) ∧
      StaysOpen c.id (escalated now (st.getEscalationPolicy work.escalationPolicyId) work st) ∧
      SameCase st (escalated now (st.getEscalationPolicy work.escalationPolicyId) work st) ∧
      AddsTier c tiers now k st (escalated now (st.getEscalationPolicy work.escalationPolicyId) work st) := by
  obtain ⟨p, hp, htiers⟩ := h.policy
  rw [hpolicy, hp]
  subst hwork htiers
  have hindex := highestTierFired_eq h ho
  obtain ⟨hs, hcases⟩ := escalated_cases now (some p) work st hindex
  simp only [Option.bind_some] at hcases
  rcases hcases with ⟨tier, htier, hmet, hdue, new, hal, habout⟩ | ⟨hal, hnot⟩
  · have hnext : nextTier work.incident.core p.tiers now k = some tier := by
      rw [nextTier, htier, Option.filter_some, if_pos]
      exact decide_eq_true ⟨hmet, tierIsDue_iff.2 hdue⟩
    have hafter : tierAfter work.incident.core p.tiers now k = k + 1 := by simp [tierAfter, hnext]
    have hlt : k < p.tiers.length := (List.getElem?_eq_some_iff.1 htier).1
    have htake : p.tiers.take (k + 1) = p.tiers.take k ++ [tier] := by simp [List.take_add_one, htier]
    rw [hafter]
    refine ⟨h.extend new hs hal ?_ (fun n hn => (tierAlerts_mem habout hn).2.1) hlt ?_,
      ho.extend new hs hal fun n hn => (tierAlerts_mem habout hn).1, hs,
      ⟨new, hal, fun n hn _ => ⟨(tierAlerts_mem habout hn).2.2.2, by simp [hnext]⟩⟩⟩
    · have hall : new.filter (fun a => a.incidentId = some work.incident.core.id &&
          a.alertType = .escalationTriggered) = new :=
        List.filter_eq_self.2 fun n hn => by
          obtain ⟨-, hty, hid, -⟩ := tierAlerts_mem habout hn
          simp [hty, hid, Incident.core]
      have hkey : new.map (fun a => (a.escalationTier, a.channel, a.recipient)) =
          (new.map about).map fun a => (a.escalationTier, a.channel, a.recipient) := by
        rw [List.map_map]
        rfl
      rw [hall, hkey, habout, htake, List.zipIdx_append, batches, List.flatMap_append, List.length_take_of_le hlt.le]
      simp [batches, tierAlerts, aboutInput, Function.comp_def]
    · rw [htake]
      exact List.forall_mem_append.2 ⟨h.met, List.forall_mem_singleton.2 hmet⟩
  · have hnext : nextTier work.incident.core p.tiers now k = none := by
      rw [nextTier, Option.filter_eq_none_iff]
      intro tier htier hp
      obtain ⟨hmet, hdue⟩ := of_decide_eq_true hp
      exact hnot tier htier hmet (tierIsDue_iff.1 hdue)
    have hafter : tierAfter work.incident.core p.tiers now k = k := by simp [tierAfter, hnext]
    rw [hafter]
    exact ⟨h.extend [] hs (by simpa using hal) (by simp) (by simp) h.le h.met,
      ho.extend [] hs (by simpa using hal) (by simp), hs, [], by simpa using hal, by simp⟩

theorem EscalationPass.Fresh.mono {pass : EscalationPass} (h : pass.Fresh st) (hs : SameCase st st') : pass.Fresh st' := by
  intro id policy hl
  rw [AlertStore.getEscalationPolicy, hs.policies]
  exact h id policy hl

/-- The incidents before and after this one in a pass. -/
theorem Escalated.others_pass (env : Env) (w : World) (now : Time) {work : List EscalatableIncident}
    {pass : EscalationPass} (h : Escalated c policyId tiers k st) (ho : StaysOpen c.id st) (hp : pass.Fresh st)
    (hne : ∀ w ∈ work, w.incident.id ≠ c.id) : ∃ pass' st',
      (work.foldlM (escalate now) pass).exec (AlertCmd.exec env w) st = (pass', st') ∧
        Escalated c policyId tiers k st' ∧ StaysOpen c.id st' ∧ SameCase st st' ∧ pass'.Fresh st' ∧
          ∃ new, st'.db.alerts = st.db.alerts ++ new ∧ ∀ n ∈ new, n.incidentId ≠ some c.id := by
  induction work generalizing pass st with
  | nil => exact ⟨pass, st, rfl, h, ho, ⟨rfl, rfl, rfl, le_rfl⟩, hp, [], by simp, by simp⟩
  | cons x work ih =>
    obtain ⟨pass₁, hx, hp₁⟩ := escalate_exec env w now hp x
    obtain ⟨h₁, ho₁, hs₁, new, hal, hnew⟩ := h.other now (st.getEscalationPolicy x.escalationPolicyId) ho
      (hne x List.mem_cons_self)
    obtain ⟨pass₂, st₂, hx₂, h₂, ho₂, hs₂, hp₂, new₂, hal₂, hnew₂⟩ := ih h₁ ho₁ (hp₁.mono hs₁)
      fun y hy => hne y (List.mem_cons_of_mem _ hy)
    refine ⟨pass₂, st₂, ?_, h₂, ho₂, hs₁.trans hs₂, hp₂, new ++ new₂, by rw [hal₂, hal, List.append_assoc],
      List.forall_mem_append.2 ⟨hnew, hnew₂⟩⟩
    rw [List.foldlM_cons, Prog.exec_bind, hx]
    exact hx₂

theorem filterMap_map_sublist {α β γ : Type} {f : α → Option β} {g : β → γ} {h : α → γ}
    (hf : ∀ a b, f a = some b → g b = h a) (l : List α) : ((l.filterMap f).map g).Sublist (l.map h) := by
  induction l with
  | nil => exact List.Sublist.refl _
  | cons a l ih =>
    cases ha : f a with
    | none =>
      rw [List.filterMap_cons_none ha]
      exact ih.cons _
    | some b =>
      rw [List.filterMap_cons_some ha, List.map_cons, List.map_cons, hf a b ha]
      exact ih.cons_cons _

theorem escalatable_incident {incident : Incident} {work : EscalatableIncident} (h : st.escalatable incident = some work) :
    work.incident = incident := by
  rw [AlertStore.escalatable] at h
  split at h
  · obtain ⟨target, -, h⟩ := Option.bind_eq_some_iff.1 h
    obtain ⟨policyId, -, rfl⟩ := Option.map_eq_some_iff.1 h
    rfl
  · cases h

/-- The incident is on the work list, once. -/
theorem Escalated.split (h : Escalated c policyId tiers k st) (ho : StaysOpen c.id st) :
    ∃ pre work post, st.listOpenIncidentsForEscalation = pre ++ work :: post ∧ work.incident.core = c ∧
      work.escalationPolicyId = policyId ∧ ∀ w ∈ pre ++ post, w.incident.id ≠ c.id := by
  obtain ⟨inc, hinc, hcore⟩ := List.mem_map.1 h.row
  obtain ⟨target, htarget, hpid⟩ := h.target
  have hid : inc.id = c.id := congrArg Incident.Core.id hcore
  have hrow : st.escalatable inc = some ⟨inc, policyId, target.name⟩ := by
    have hapi : inc.apiId = c.apiId := congrArg Incident.Core.apiId hcore
    rw [AlertStore.escalatable, if_pos (ho.1 inc hinc hid), hapi, htarget, Option.bind_some, hpid, Option.map_some]
  have hperm := List.perm_insertionSort (fun a b : EscalatableIncident => a.incident.startedAt ≤ b.incident.startedAt)
    (st.db.incidents.filterMap st.escalatable)
  have hmem : (⟨inc, policyId, target.name⟩ : EscalatableIncident) ∈ st.listOpenIncidentsForEscalation :=
    hperm.mem_iff.2 (List.mem_filterMap.2 ⟨inc, hinc, hrow⟩)
  have hnodup : (st.listOpenIncidentsForEscalation.map (·.incident.id)).Nodup := by
    refine (hperm.map _).nodup_iff.2 (List.Nodup.sublist (filterMap_map_sublist ?_ _) h.keys)
    exact fun a b hab => congrArg Incident.id (escalatable_incident hab)
  obtain ⟨pre, post, hsplit⟩ := List.append_of_mem hmem
  refine ⟨pre, _, post, hsplit, hcore, rfl, fun w hw heq => ?_⟩
  rw [hsplit, List.map_append, List.map_cons] at hnodup
  have hnot := (List.nodup_middle.1 hnodup).notMem
  rw [← List.map_append] at hnot
  exact hnot (List.mem_map.2 ⟨w, hw, heq.trans hid.symm⟩)

/-- A pass takes the incident to its next tier, if that is due, and adds no other alert of it. -/
theorem Escalated.cycle (env : Env) (w : World) (now : Time) (h : Escalated c policyId tiers k st)
    (ho : StaysOpen c.id st) :
    Escalated c policyId tiers (tierAfter c tiers now k) ((runEscalationCycle now).exec (AlertCmd.exec env w) st).2 ∧
      StaysOpen c.id ((runEscalationCycle now).exec (AlertCmd.exec env w) st).2 ∧
      AddsTier c tiers now k st ((runEscalationCycle now).exec (AlertCmd.exec env w) st).2 := by
  obtain ⟨pre, work, post, hsplit, hcore, hpid, hne⟩ := h.split ho
  have hfresh : (⟨[], 0⟩ : EscalationPass).Fresh st := fun _ _ hl => nomatch hl
  obtain ⟨pass₁, st₁, hx₁, h₁, ho₁, hs₁, hp₁, new₁, hal₁, hnew₁⟩ := h.others_pass env w now ho
    hfresh fun x hx => hne x (List.mem_append_left _ hx)
  obtain ⟨pass₂, hx₂, hp₂⟩ := escalate_exec env w now hp₁ work
  obtain ⟨h₂, ho₂, hs₂, new₂, hal₂, hnew₂⟩ := h₁.this now ho₁ hcore hpid
  obtain ⟨pass₃, st₃, hx₃, h₃, ho₃, -, -, new₃, hal₃, hnew₃⟩ := h₂.others_pass env w now ho₂
    (hp₂.mono hs₂) fun x hx => hne x (List.mem_append_right _ hx)
  have hexec : ((runEscalationCycle now).exec (AlertCmd.exec env w) st).2 = st₃ := by
    have hfold : (st.listOpenIncidentsForEscalation.foldlM (escalate now) ⟨[], 0⟩).exec (AlertCmd.exec env w) st =
        (pass₃, st₃) := by
      rw [hsplit, List.foldlM_append, Prog.exec_bind, hx₁, List.foldlM_cons, Prog.exec_bind, hx₂]
      exact hx₃
    show ((st.listOpenIncidentsForEscalation.foldlM (escalate now) ⟨[], 0⟩ >>= fun pass =>
      Prog.ret (⟨st.listOpenIncidentsForEscalation.length, pass.tiersFired⟩ : EscalationResult)).exec
        (AlertCmd.exec env w) st).2 = st₃
    rw [Prog.exec_bind, hfold]
    rfl
  rw [hexec]
  refine ⟨h₃, ho₃, new₁ ++ new₂ ++ new₃, by rw [hal₃, hal₂, hal₁]; simp, fun n hn hid => ?_⟩
  simp only [List.mem_append] at hn
  rcases hn with (hn | hn) | hn
  · exact absurd hid (hnew₁ n hn)
  · exact hnew₂ n hn hid
  · exact absurd hid (hnew₃ n hn)

end Pass

end CronMonitor.Alerts
