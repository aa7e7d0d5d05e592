import CronMonitor.Observability.Errands

/-!
# What the statements do to what is in hand

Every statement of the alert runner, by itself: incidents are added under fresh identifiers and stay resolved, the row
of an incident stays locked until its recovery commits, and what a delivery marks it has listed before.
-/

namespace CronMonitor.Observability
open Alerts Runs Prog

variable {env : Env} {w : World} {g : Gone} {st : AlertStore}

/-! ### Statement by statement -/

theorem take_cases {c : AlertCmd} {order : List (AlertChannel × String)} {r : c.Ans × AlertStore}
    (h : take env w order c st = some r) :
    c.enabled st ∧ r.2 = (c.exec env w (st.elapse w.elapsed)).2 ∧
      ((∀ id, c ≠ .notifiedTargetsForIncident id) → r.1 = (c.exec env w (st.elapse w.elapsed)).1) := by
  by_cases hn : ∃ id, c = .notifiedTargetsForIncident id
  · obtain ⟨id, rfl⟩ := hn
    cases h
    exact ⟨rfl, rfl, fun hne => absurd rfl (hne id)⟩
  · rw [Gone.take_eq fun id hc => hn ⟨id, hc⟩] at h
    obtain ⟨hen, h⟩ := Option.ite_none_right_eq_some.1 h
    cases h
    exact ⟨hen, rfl, fun _ => rfl⟩

theorem exec_past (c : AlertCmd) (h : g.Past env st.toStore) : g.Past env (c.exec env w st).2.toStore := by
  cases c with
  | createAlert i tier => exact h.later (Nat.le_succ _) rfl le_rfl
  | openForCheck ctx =>
    exact (Gone.transaction_blind (Gone.openForCheck_blind env ctx) ⟨st.toStore, none, none⟩ ⟨h, h⟩).2.1
  | recordFailure ctx active =>
    exact (Gone.transaction_blind (Gone.recordFailure_blind env ctx active) ⟨st.toStore, none, none⟩ ⟨h, h⟩).2.1
  | resolveInTransaction id =>
    simp only [AlertCmd.exec]
    split <;> exact h
  | commitRecovery incidentId apiId dests =>
    obtain ⟨new, hst, -, -⟩ := commitRecovery_eq incidentId apiId dests st
    simp only [AlertCmd.exec, hst]
    exact h.later (Nat.le_add_right _ _) rfl le_rfl
  | _ => exact h.later le_rfl rfl le_rfl

theorem exec_uuid (c : AlertCmd) : st.nextUuid ≤ (c.exec env w st).2.nextUuid := by
  by_cases hm : ∃ id status detail, c = .markAlert id status detail
  · obtain ⟨id, status, detail, rfl⟩ := hm
    exact le_rfl
  · exact (exec_adds (fun id status detail hc => hm ⟨id, status, detail, hc⟩) st).1

theorem transaction_incident_ids {α : Type} {fn : SqlM α} (h : TxGrows fn) : ∃ new,
    (st.transaction fn).db.incidents.map (·.id) = st.db.incidents.map (·.id) ++ new ∧
      Drawn st.nextUuid (st.transaction fn).nextUuid new := by
  obtain ⟨new, hinc, hdrawn, -⟩ := (h.transaction st.toStore).incidents
  have hcores := congrArg (List.map Incident.Core.id) hinc
  rw [List.map_append, List.map_map, List.map_map, List.map_map] at hcores
  exact ⟨new.map Incident.id, hcores, hdrawn⟩

/-- Incidents are added under fresh identifiers. -/
theorem exec_incident_ids (c : AlertCmd) : ∃ new,
    (c.exec env w st).2.db.incidents.map (·.id) = st.db.incidents.map (·.id) ++ new ∧
      Drawn st.nextUuid (c.exec env w st).2.nextUuid new := by
  have hsame : ∀ {st' : AlertStore}, st'.db.incidents.map (·.id) = st.db.incidents.map (·.id) →
      ∃ new, st'.db.incidents.map (·.id) = st.db.incidents.map (·.id) ++ new ∧ Drawn st.nextUuid st'.nextUuid new :=
    fun h => ⟨[], by rw [h, List.append_nil], .nil⟩
  cases c with
  | openForCheck ctx => exact transaction_incident_ids (openForCheck_grows env ctx)
  | recordFailure ctx active => exact transaction_incident_ids (recordFailure_grows env ctx active)
  | escalateIncident id level =>
    have hcores := congrArg (List.map Incident.Core.id) (escalateIncident_core id level st.toStore)
    rw [List.map_map, List.map_map] at hcores
    exact hsame hcores
  | resolveInTransaction id =>
    simp only [AlertCmd.exec]
    split <;> exact hsame rfl
  | commitRecovery incidentId apiId dests =>
    obtain ⟨new, hst, -, -⟩ := commitRecovery_eq incidentId apiId dests st
    simp only [AlertCmd.exec, hst]
    exact ⟨[], by rw [List.append_nil]; exact resolveIncident_ids incidentId none st.toStore, .nil⟩
  | resolveIncident id resolution => exact hsame (resolveIncident_ids id (some resolution) st.toStore)
  | _ => exact hsame rfl

theorem resolveIncident_resolved {id incidentId : Uuid} {resolution : Option String} {st' : AlertStore}
    (h : st'.db.incidents = (Sql.resolveIncident id resolution st.toStore).2.db.incidents) (hr : st.Resolved incidentId) :
    st'.Resolved incidentId := by
  obtain ⟨i, hi, hid, hstatus⟩ := hr
  refine ⟨i, ?_, hid, hstatus⟩
  rw [h]
  refine List.mem_map.2 ⟨i, hi, if_neg ?_⟩
  simp [Incident.isActive, hstatus]

theorem transaction_resolved {α : Type} {fn : SqlM α} (h : TxGrows fn) {incidentId : Uuid} (hr : st.Resolved incidentId) :
    (st.transaction fn).Resolved incidentId := by
  obtain ⟨new, hinc, -, -⟩ := (h.transaction st.toStore).incidents
  obtain ⟨core, hcore, hid⟩ := resolved_iff.1 hr
  exact resolved_iff.2 ⟨core, hinc ▸ List.mem_append_left _ hcore, hid⟩

/-- A resolved incident stays resolved. -/
theorem exec_stays_resolved (c : AlertCmd) {incidentId : Uuid} (hr : st.Resolved incidentId) :
    (c.exec env w st).2.Resolved incidentId := by
  cases c with
  | openForCheck ctx => exact transaction_resolved (openForCheck_grows env ctx) hr
  | recordFailure ctx active => exact transaction_resolved (recordFailure_grows env ctx active) hr
  | escalateIncident id level =>
    obtain ⟨core, hcore, hid⟩ := resolved_iff.1 hr
    exact resolved_iff.2 ⟨core, (escalateIncident_core id level st.toStore).symm ▸ hcore, hid⟩
  | resolveInTransaction id =>
    simp only [AlertCmd.exec]
    split <;> exact hr
  | commitRecovery id apiId dests =>
    obtain ⟨new, hst, -, -⟩ := commitRecovery_eq id apiId dests st
    simp only [AlertCmd.exec, hst]
    exact resolveIncident_resolved rfl hr
  | resolveIncident id resolution => exact resolveIncident_resolved rfl hr
  | _ => exact hr

theorem exec_locked {c : AlertCmd} {id : Uuid} (hid : id ∈ st.locked)
    (hc : ∀ apiId dests, c ≠ .commitRecovery id apiId dests) : id ∈ (c.exec env w st).2.locked := by
  cases c with
  | resolveInTransaction incidentId =>
    simp only [AlertCmd.exec]
    split
    · exact List.mem_cons_of_mem _ hid
    · exact hid
  | commitRecovery incidentId apiId dests =>
    obtain ⟨new, hst, -, -⟩ := commitRecovery_eq incidentId apiId dests st
    simp only [AlertCmd.exec, hst]
    refine (List.mem_erase_of_ne ?_).2 hid
    rintro rfl
    exact hc apiId dests rfl
  | _ => exact hid

/-- An incident never falls back while no alert is marked FAILED. -/
theorem exec_highest {c : AlertCmd} (hc : ∀ id detail, c ≠ .markAlert id .failed detail) (incidentId : Uuid) :
    st.highestTierFired incidentId ≤ (c.exec env w st).2.highestTierFired incidentId := by
  refine Gone.highest_le Gone.neg_one_le_highest fun a ha hinc hstatus tier htier => ?_
  by_cases hm : ∃ id status detail, c = .markAlert id status detail
  · obtain ⟨id, status, detail, rfl⟩ := hm
    have hmem : (if a.id = id then AlertStore.markedRow status detail st.now a else a) ∈
        ((AlertCmd.markAlert id status detail).exec env w st).2.db.alerts := List.mem_map_of_mem ha
    have hne : status ≠ .failed := by
      rintro rfl
      exact hc id detail rfl
    refine Gone.tier_le_highest hmem ?_ ?_ ?_ <;> split
    · exact hinc
    · exact hinc
    · exact hne
    · exact hstatus
    · exact htier
    · exact htier
  · have hadds : Adds st (c.exec env w st).2 := exec_adds (fun id status detail hc => hm ⟨id, status, detail, hc⟩) st
    obtain ⟨-, new, hal, -, -⟩ := hadds
    exact Gone.tier_le_highest (hal ▸ List.mem_append_left _ ha) hinc hstatus htier

/-! ### What the programs have in hand -/

section InHand

variable {c : AlertCmd} {i : Nat}

/-- Deliveries hold what they have listed and not marked. -/
theorem held_after {hs : List Batch} {y : Batch} {f : c.Ans → Batch}
    (h : ∀ id, (hs.map (·.todo.count id)).sum ≤ st.held.count id) (hi : hs[i]? = some y)
    (hf : Batch.next y c = some f) (id : Uuid) :
    ((hs.set i (f (c.exec env w st).1)).map (·.todo.count id)).sum ≤ (c.exec env w st).2.held.count id := by
  have hset := List.sum_map_set_add (fun x : Batch => x.todo.count id) hi (b := f (c.exec env w st).1)
  have hle := h id
  by_cases hquiet : c.NoDelivery
  · obtain rfl := Option.some.inj ((Batch.next_of_not_delivers hquiet).symm.trans hf)
    rw [(exec_held_sent env w hquiet st).1]
    dsimp only at hset ⊢
    omega
  cases c with
  | listPendingAlerts limit =>
    obtain ⟨rfl, hf⟩ := Option.ite_none_right_eq_some.1 hf
    cases hf
    simp only [AlertCmd.exec, List.count_append, List.count_nil] at hset ⊢
    omega
  | send id' channel n =>
    obtain ⟨-, hf⟩ := Option.ite_none_right_eq_some.1 hf
    cases hf
    simp only [AlertCmd.exec] at hset ⊢
    omega
  | markAlert id' status detail =>
    obtain ⟨⟨hhead, -⟩, hf⟩ := Option.ite_none_right_eq_some.1 hf
    cases hf
    have htodo : y.todo.count id = y.todo.tail.count id + if id' == id then 1 else 0 := by
      conv_lhs => rw [List.eq_cons_of_mem_head? hhead, List.count_cons]
    simp only [AlertCmd.exec, List.count_erase] at hset ⊢
    omega
  | _ => exact absurd rfl hquiet

theorem mem_held {hs : List Batch} {y : Batch} {id : Uuid}
    (h : ∀ id, (hs.map (·.todo.count id)).sum ≤ st.held.count id) (hi : hs[i]? = some y) (hid : id ∈ y.todo) :
    id ∈ st.held := by
  have hmem : y.todo.count id ∈ hs.map (·.todo.count id) := List.mem_map.2 ⟨y, List.mem_of_getElem? hi, rfl⟩
  have hle := List.single_le_sum (fun _ _ => Nat.zero_le _) _ hmem
  have hpos := List.count_pos_iff.2 hid
  have := h id
  exact List.count_pos_iff.1 (by omega)

/-- What a recovery holds is locked and not resolved, and stays so until it commits. -/
theorem stays_held {id : Uuid} (hen : c.enabled st) (hlocked : id ∈ st.locked) (hr : ¬ st.Resolved id)
    (hc : ∀ apiId dests, c ≠ .commitRecovery id apiId dests) :
    id ∈ (c.exec env w st).2.locked ∧ ¬ (c.exec env w st).2.Resolved id := by
  refine ⟨exec_locked hlocked hc, fun hres => ?_⟩
  rcases exec_resolved hres with hres | ⟨apiId, dests, hcommit⟩ | ⟨resolution, rfl⟩
  · exact hr hres
  · exact hc apiId dests hcommit
  · exact of_decide_eq_true hen hlocked

/-- The incident that a recovery locks is not resolved. -/
theorem lock_fresh {id id' : Uuid} (hkeys : (st.db.incidents.map (·.id)).Nodup)
    (h : ((AlertCmd.resolveInTransaction id).exec env w st).1.map Incident.id = some id') :
    id' = id ∧ id ∈ ((AlertCmd.resolveInTransaction id).exec env w st).2.locked ∧
      ¬ ((AlertCmd.resolveInTransaction id).exec env w st).2.Resolved id := by
  simp only [AlertCmd.exec] at h ⊢
  split at h
  · rename_i i hfind
    have hmem := List.mem_of_find?_eq_some hfind
    have hp := List.find?_some hfind
    simp only [Bool.and_eq_true, decide_eq_true_eq] at hp
    have hid : i.id = id' := Option.some.inj h
    refine ⟨hid.symm.trans hp.1, ?_⟩
    refine ⟨List.mem_cons_self, ?_⟩
    rintro ⟨j, hj, hjid, hstatus⟩
    obtain rfl : i = j := List.inj_on_of_nodup_map hkeys hmem hj (hp.1.trans hjid.symm)
    exact absurd hstatus (by simpa [Incident.isActive] using hp.2)
  · cases h

theorem holds_after {xs : List (Option Uuid)} {z : Option Uuid} {f : c.Ans → Option Uuid} (hen : c.enabled st)
    (hkeys : (st.db.incidents.map (·.id)).Nodup)
    (hholds : ∀ y ∈ xs, ∀ id ∈ y, id ∈ st.locked ∧ ¬ st.Resolved id) (hapart : ∀ id, xs.AtMostOne (· = some id))
    (hi : xs[i]? = some z) (hf : holding z c = some f) :
    (∀ y ∈ xs.set i (f (c.exec env w st).1), ∀ id ∈ y,
      id ∈ (c.exec env w st).2.locked ∧ ¬ (c.exec env w st).2.Resolved id) ∧
        ∀ id, (xs.set i (f (c.exec env w st).1)).AtMostOne (· = some id) := by
  -- a commit is of what the program holds
  have hcommit : ∀ {id apiId dests}, c = .commitRecovery id apiId dests → z = some id := by
    rintro id apiId dests rfl
    exact (Option.ite_none_right_eq_some.1 hf).1
  -- what the program holds next is what it has held, or what it locks now
  have hnext : ∀ id, f (c.exec env w st).1 = some id →
      (z = some id ∧ ∀ apiId dests, c ≠ .commitRecovery id apiId dests) ∨ c = .resolveInTransaction id ∧
        id ∉ st.locked ∧ id ∈ (c.exec env w st).2.locked ∧ ¬ (c.exec env w st).2.Resolved id := by
    intro id hid
    cases c with
    | resolveInTransaction id' =>
      obtain ⟨rfl, hf⟩ := Option.ite_none_right_eq_some.1 hf
      cases hf
      obtain ⟨rfl, hlocked, hres⟩ := lock_fresh hkeys hid
      exact .inr ⟨rfl, of_decide_eq_true hen, hlocked, hres⟩
    | notifiedTargetsForIncident id' =>
      obtain ⟨-, hf⟩ := Option.ite_none_right_eq_some.1 hf
      cases hf
      exact .inl ⟨hid, nofun⟩
    | commitRecovery id' apiId dests =>
      obtain ⟨-, hf⟩ := Option.ite_none_right_eq_some.1 hf
      cases hf
      cases hid
    | highestTierFired id' => cases hf
    | _ =>
      cases hf
      exact .inl ⟨hid, nofun⟩
  refine ⟨fun y hy id hid => ?_, fun id => (hapart id).set hi fun hid => ?_⟩
  · obtain rfl : y = some id := hid
    obtain ⟨j, hj⟩ := List.mem_iff_getElem?.1 hy
    rcases List.getElem?_set_cases hj with ⟨rfl, heq⟩ | ⟨hij, hj⟩
    · rcases hnext id heq.symm with ⟨rfl, hc⟩ | ⟨-, -, hlocked, hres⟩
      · obtain ⟨hlocked, hres⟩ := hholds _ (List.mem_of_getElem? hi) id rfl
        exact stays_held hen hlocked hres hc
      · exact ⟨hlocked, hres⟩
    · obtain ⟨hlocked, hres⟩ := hholds _ (List.mem_of_getElem? hj) id rfl
      refine stays_held hen hlocked hres fun apiId dests hc => hij ?_
      exact hapart id i j _ _ hi hj (hcommit hc) rfl
  · rcases hnext id hid with ⟨hz, -⟩ | ⟨-, hlocked, -⟩
    · exact .inl hz
    · refine .inr fun y hy heq => hlocked ?_
      exact (hholds y hy id heq).1

end InHand

end CronMonitor.Observability
