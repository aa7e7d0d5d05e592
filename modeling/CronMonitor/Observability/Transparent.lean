import CronMonitor.Alerts.EveryTier
import CronMonitor.Observability.Statements

/-!
# Retention is transparent

Beside a run with sweeps goes the run without them, its tables holding all rows that were deleted. As long as the sweeps
spare what is recomputed (`Spares`), both take the same steps: they fire the same tiers and queue the same recovery
alerts (`sweeps_transparent`).
-/

namespace CronMonitor.Observability
open Alerts Runs Prog

variable {env : Env} {w : World} {g : Gone} {st : AlertStore}

/-! ### The tables of the run without sweeps -/

structure Sound (env : Env) (g : Gone) (st : AlertStore) : Prop where
  alerts : Keyed st
  incidents : (st.db.incidents.map (·.id)).Nodup ∧ ∀ id ∈ st.db.incidents.map (·.id), id < st.nextUuid
  past : g.Past env st.toStore
  settled : g.Settled st

theorem Sound.exec {c : AlertCmd} (h : Sound env g st)
    (hmark : ∀ id status detail, c = .markAlert id status detail → id ∈ st.held ∧ status ≠ .pending) :
    Sound env g (c.exec env w st).2 := by
  refine ⟨?_, ?_, exec_past c h.past, (Gone.exec_keeps h.alerts hmark).settled h.past h.settled⟩
  · by_cases hm : ∃ id status detail, c = .markAlert id status detail
    · obtain ⟨id, status, detail, rfl⟩ := hm
      exact h.alerts.markAlert id status detail
    · exact h.alerts.adds (exec_adds (fun id status detail hc => hm ⟨id, status, detail, hc⟩) st)
  · obtain ⟨new, hids, hnodup, hdrawn⟩ : ∃ new, (c.exec env w st).2.db.incidents.map (·.id) =
        st.db.incidents.map (·.id) ++ new ∧ Drawn st.nextUuid (c.exec env w st).2.nextUuid new := exec_incident_ids c
    have huuid : st.nextUuid ≤ (c.exec env w st).2.nextUuid := exec_uuid c
    rw [hids]
    refine ⟨List.nodup_append.2 ⟨h.incidents.1, hnodup, fun x hx y hy => ?_⟩, fun id hid => ?_⟩
    · exact Nat.ne_of_lt (Nat.lt_of_lt_of_le (h.incidents.2 x hx) (hdrawn y hy).1)
    · rcases List.mem_append.1 hid with hid | hid
      · exact Nat.lt_of_lt_of_le (h.incidents.2 id hid) huuid
      · exact (hdrawn id hid).2

theorem Sound.elapse (h : Sound env g st) (ms : Nat) : Sound env g (st.elapse ms) :=
  ⟨h.alerts, h.incidents, h.past.later le_rfl rfl (le_add_of_nonneg_right (Int.natCast_nonneg _)), h.settled⟩

/-- A statement keeps the tables sound and remembers what they remembered. -/
theorem Sound.take {c : AlertCmd} {order : List (AlertChannel × String)} {r : c.Ans × AlertStore} (h : Sound env g st)
    (ht : take env w order c st = some r)
    (hmark : ∀ id status detail, c = .markAlert id status detail → id ∈ st.held ∧ status ≠ .pending) :
    Sound env g r.2 ∧ (∀ id, g.Remembers st id → g.Remembers r.2 id) ∧ ∀ id, ¬ r.2.Resolved id → ¬ st.Resolved id := by
  obtain ⟨-, hr, -⟩ := take_cases ht
  have hlater := h.elapse w.elapsed
  have hsound : Sound env g (c.exec env w (st.elapse w.elapsed)).2 := hlater.exec hmark
  have hkeeps : Gone.Keeps (st.elapse w.elapsed) (c.exec env w (st.elapse w.elapsed)).2 :=
    Gone.exec_keeps hlater.alerts hmark
  rw [hr]
  refine ⟨⟨hsound.alerts, hsound.incidents, hsound.past, hsound.settled⟩, fun id hrem => ?_, fun id hres hst => hres ?_⟩
  · exact hkeeps.remembers hlater.past hlater.settled hrem
  · have hlater : (st.elapse w.elapsed).Resolved id := hst
    exact exec_stays_resolved c hlater

/-! ### The programs of the run without sweeps -/

/-- What deliveries have in hand is held, what recoveries have locked is not resolved, and what is said of an incident
that is not resolved, or that the pass in progress has listed, is said by alerts that were not deleted. -/
structure Inv (env : Env) (g : Gone) (t : RetentionSys) (hs : List Batch) (xs : List (Option Uuid)) (x : Pass) : Prop where
  sound : Sound env g t.store
  batches : Concurrent.Tracked Batch.next ⟨t.store, t.calls⟩ hs
  held : ∀ id, (hs.map (·.todo.count id)).sum ≤ t.store.held.count id
  holders : Concurrent.Tracked holding ⟨t.store, t.calls⟩ xs
  holds : ∀ y ∈ xs, ∀ id ∈ y, id ∈ t.store.locked ∧ ¬ t.store.Resolved id
  apart : ∀ id, xs.AtMostOne (· = some id)
  pass : ∀ p ∈ t.pass, Follows Pass.next x p fun _ _ => True
  remembers : ∀ id, ¬ t.store.Resolved id ∨ (t.pass.isSome ∧ id ∈ x.work) → g.Remembers t.store id

/-- Tiers are decided once, and seen once their first alert is queued. -/
structure FiredOnce (t : RetentionSys) : Prop where
  nodup : t.fired.Nodup
  seen : ∀ e ∈ t.fired, (e.2 : Int) ≤ t.store.highestTierFired e.1 ∨ ∃ p ∈ t.pass, upcoming p = some e

variable {t : RetentionSys} {hs : List Batch} {xs : List (Option Uuid)} {x : Pass}

theorem Inv.start (h : Inv env g t hs xs x) (r : RetentionRequest) :
    Inv env g { t with calls := t.calls ++ [r.program env] } (hs ++ [⟨[], false⟩]) (xs ++ [none]) x where
  sound := h.sound
  batches := h.batches.start (RetentionRequest.batch_follows env r)
  held id := by simpa using h.held id
  holders := h.holders.start (RetentionRequest.holding_follows env r)
  holds := List.forall_mem_append.2 ⟨h.holds, by simp⟩
  apart id := (h.apart id).append (by simp)
  pass := h.pass
  remembers := h.remembers

/-- What a program reads of the alerts of an incident is remembered. -/
theorem Inv.reads {i : Nat} {c : AlertCmd} {k : c.Ans → AlertProg Unit} (h : Inv env g t hs xs x)
    (hi : t.calls[i]? = some (.call c k)) :
    (∀ id, c ≠ .highestTierFired id) ∧ ∀ id, c = .notifiedTargetsForIncident id → g.Remembers t.store id := by
  obtain ⟨hlt, -⟩ := List.getElem?_eq_some_iff.1 hi
  obtain ⟨z, hz⟩ : ∃ z, xs[i]? = some z := ⟨_, List.getElem?_eq_getElem (h.holders.length ▸ hlt)⟩
  obtain ⟨f, hf, -⟩ := h.holders.follows i _ z hi hz
  constructor
  · rintro id rfl
    cases hf
  · rintro id rfl
    obtain ⟨hhold, -⟩ := Option.ite_none_right_eq_some.1 hf
    exact h.remembers id (.inl (h.holds z (List.mem_of_getElem? hz) id hhold).2)

/-- A program takes its next statement. -/
theorem Inv.advance {i : Nat} {c : AlertCmd} {k : c.Ans → AlertProg Unit} {order : List (AlertChannel × String)}
    {r : c.Ans × AlertStore} (h : Inv env g t hs xs x) (hi : t.calls[i]? = some (.call c k))
    (ht : take env w order c t.store = some r) :
    ∃ hs' xs', Inv env g { t with
      store := r.2, calls := t.calls.set i (k r.1), recovered := t.recovered ++ recovering c } hs' xs' x := by
  have hlt : i < t.calls.length := (List.getElem?_eq_some_iff.1 hi).1
  obtain ⟨y, hy⟩ : ∃ y, hs[i]? = some y := ⟨_, List.getElem?_eq_getElem (h.batches.length ▸ hlt)⟩
  obtain ⟨z, hz⟩ : ∃ z, xs[i]? = some z := ⟨_, List.getElem?_eq_getElem (h.holders.length ▸ hlt)⟩
  obtain ⟨f, hf, hk⟩ := h.batches.follows i _ y hi hy
  obtain ⟨f', hf', hk'⟩ := h.holders.follows i _ z hi hz
  obtain ⟨hen, hr, hans⟩ := take_cases ht
  have hmark : ∀ id status detail, c = .markAlert id status detail → id ∈ t.store.held ∧ status ≠ .pending := by
    rintro id status detail rfl
    obtain ⟨⟨hhead, hne⟩, -⟩ := Option.ite_none_right_eq_some.1 hf
    exact ⟨mem_held h.held hy (List.mem_of_mem_head? hhead), hne⟩
  obtain ⟨hsound, hrem, hres⟩ := h.sound.take ht hmark
  -- the answer of `SELECT DISTINCT` does not matter to either protocol
  have hfans : f r.1 = f (c.exec env w (t.store.elapse w.elapsed)).1 ∧
      f' r.1 = f' (c.exec env w (t.store.elapse w.elapsed)).1 := by
    by_cases hn : ∃ id, c = .notifiedTargetsForIncident id
    · obtain ⟨id, rfl⟩ := hn
      cases hf
      obtain ⟨-, hf'⟩ := Option.ite_none_right_eq_some.1 hf'
      cases hf'
      exact ⟨rfl, rfl⟩
    · rw [hans fun id hc => hn ⟨id, hc⟩]
      exact ⟨rfl, rfl⟩
  have hlater : c.enabled (t.store.elapse w.elapsed) := by cases c <;> exact hen
  have hheld : ∀ id, ((hs.set i (f (c.exec env w (t.store.elapse w.elapsed)).1)).map (·.todo.count id)).sum ≤
      (c.exec env w (t.store.elapse w.elapsed)).2.held.count id := held_after h.held hy hf
  obtain ⟨hholds, hapart⟩ := holds_after hlater h.sound.incidents.1 h.holds h.apart hz hf'
  refine ⟨hs.set i (f r.1), xs.set i (f' r.1), hsound, ?_, ?_, ?_, ?_, ?_, h.pass, ?_⟩
  · exact h.batches.set _ _ (hk r.1)
  · rw [hfans.1, hr]
    exact hheld
  · exact h.holders.set _ _ (hk' r.1)
  · rw [hfans.2, hr]
    exact hholds
  · rw [hfans.2]
    exact hapart
  · rintro id (hid | hid)
    · exact hrem id (h.remembers id (.inl (hres id hid)))
    · exact hrem id (h.remembers id (.inr hid))

/-- What a pass has listed is open. -/
theorem listed_open (h : Sound env g st) {id : Uuid}
    (hid : id ∈ st.listOpenIncidentsForEscalation.map fun work => work.incident.id) : ¬ st.Resolved id := by
  obtain ⟨work, hwork, rfl⟩ := List.mem_map.1 hid
  obtain ⟨i, hi, hsome⟩ := List.mem_filterMap.1 ((List.mem_insertionSort _).1 hwork)
  unfold AlertStore.escalatable at hsome
  split at hsome
  · rename_i hopen
    obtain ⟨target, -, htarget⟩ := Option.bind_eq_some_iff.1 hsome
    obtain ⟨policyId, -, rfl⟩ := Option.map_eq_some_iff.1 htarget
    rintro ⟨j, hj, hjid, hstatus⟩
    obtain rfl : j = i := List.inj_on_of_nodup_map h.incidents.1 hj hi hjid
    cases hopen.symm.trans hstatus
  · cases hsome

/-- A command of a pass. -/
theorem Pass.next_some {c : AlertCmd} {f : c.Ans → Pass} (hf : Pass.next x c = some f) :
    c.NoDelivery ∧ (∀ id, c ≠ .notifiedTargetsForIncident id) ∧ (∀ id apiId dests, c ≠ .commitRecovery id apiId dests) := by
  cases c <;> first | cases hf; done | exact ⟨rfl, nofun, nofun⟩

theorem Inv.pass_reads {c : AlertCmd} {k : c.Ans → AlertProg EscalationResult} (h : Inv env g t hs xs x)
    (hp : t.pass = some (.call c k)) :
    (∀ id, c = .highestTierFired id → g.Remembers t.store id) ∧ ∀ id, c ≠ .notifiedTargetsForIncident id := by
  obtain ⟨f, hf, -⟩ := h.pass _ hp
  refine ⟨?_, (Pass.next_some hf).2.1⟩
  rintro id rfl
  obtain ⟨hid, -⟩ := Option.ite_none_right_eq_some.1 hf
  exact h.remembers id (.inr ⟨by rw [hp]; rfl, hid⟩)

/-- The pass takes its next statement. -/
theorem Inv.passes {c : AlertCmd} {k : c.Ans → AlertProg EscalationResult} {r : c.Ans × AlertStore}
    (h : Inv env g t hs xs x) (hp : t.pass = some (.call c k)) (ht : take env w [] c t.store = some r) :
    ∃ x', Inv env g { t with
      store := r.2, pass := unfinished (k r.1), fired := t.fired ++ firing c (k r.1) } hs xs x' := by
  obtain ⟨f, hf, hk⟩ := h.pass _ hp
  obtain ⟨hquiet, hnotified, hcommit⟩ := Pass.next_some hf
  obtain ⟨hen, hr, hans⟩ := take_cases ht
  have hsome : t.pass.isSome := by rw [hp]; rfl
  obtain ⟨hsound, hrem, hres⟩ := h.sound.take ht (by
    rintro _ _ _ rfl
    cases hquiet)
  have hlater : c.enabled (t.store.elapse w.elapsed) := by cases c <;> exact hen
  have hheld : r.2.held = t.store.held := by
    rw [hr]
    exact (exec_held_sent env w hquiet (t.store.elapse w.elapsed)).1
  refine ⟨f r.1, hsound, h.batches.on _, ?_, h.holders.on _, ?_, h.apart, ?_, ?_⟩
  · rw [hheld]
    exact h.held
  · intro y hy id hid
    obtain ⟨hlocked, hopen⟩ := h.holds y hy id hid
    rw [hr]
    exact stays_held hlater hlocked hopen (hcommit id)
  · intro p hpass
    have hnext : k r.1 = p := by
      cases hkr : k r.1 with
      | ret a => rw [hkr] at hpass; cases hpass
      | call c' k' => rw [hkr] at hpass; exact Option.some.inj hpass
    exact hnext ▸ hk r.1
  · rintro id (hid | ⟨-, hid⟩)
    · exact hrem id (h.remembers id (.inl (hres id hid)))
    · refine hrem id ?_
      cases c with
      | listOpenIncidentsForEscalation =>
        obtain ⟨-, hf⟩ := Option.ite_none_right_eq_some.1 hf
        cases hf
        rw [hans hnotified] at hid
        exact h.remembers id (.inl (listed_open (h.sound.elapse w.elapsed) hid))
      | highestTierFired id' =>
        obtain ⟨-, hf⟩ := Option.ite_none_right_eq_some.1 hf
        cases hf
        exact h.remembers id (.inr ⟨hsome, hid⟩)
      | createAlert i tier =>
        obtain ⟨-, hf⟩ := Option.ite_none_right_eq_some.1 hf
        cases hf
        exact h.remembers id (.inr ⟨hsome, hid⟩)
      | getEscalationPolicy _ | escalateIncident _ _ =>
        cases hf
        exact h.remembers id (.inr ⟨hsome, hid⟩)
      | _ => cases hf

/-! ### How often a tier is fired -/

theorem take_highest {c : AlertCmd} {order : List (AlertChannel × String)} {r : c.Ans × AlertStore}
    (ht : take env w order c st = some r) (hc : ∀ id detail, c ≠ .markAlert id .failed detail) (incidentId : Uuid) :
    st.highestTierFired incidentId ≤ r.2.highestTierFired incidentId := by
  obtain ⟨-, hr, -⟩ := take_cases ht
  rw [hr]
  have hlater : (st.elapse w.elapsed).highestTierFired incidentId ≤
      (c.exec env w (st.elapse w.elapsed)).2.highestTierFired incidentId := exec_highest hc incidentId
  exact hlater

theorem FiredOnce.advance {i : Nat} {c : AlertCmd} {k : c.Ans → AlertProg Unit} {order : List (AlertChannel × String)}
    {r : c.Ans × AlertStore} (h : FiredOnce t) (ht : take env w order c t.store = some r)
    (hc : ∀ id detail, c ≠ .markAlert id .failed detail) :
    FiredOnce { t with
      store := r.2, calls := t.calls.set i (k r.1), recovered := t.recovered ++ recovering c } where
  nodup := h.nodup
  seen e he := (h.seen e he).imp_left fun hle => hle.trans (take_highest ht hc e.1)

/-- What a pass goes on to fire comes after all that was fired. -/
theorem Inv.fires {c : AlertCmd} {k : c.Ans → AlertProg EscalationResult} {r : c.Ans × AlertStore} {e : Uuid × Nat}
    (h : Inv env g t hs xs x) (hp : t.pass = some (.call c k)) (ht : take env w [] c t.store = some r)
    (he : e ∈ firing c (k r.1)) : t.store.highestTierFired e.1 < e.2 ∧ upcoming (k r.1) = some e := by
  cases c with
  | highestTierFired id =>
    have hup : upcoming (k r.1) = some e := Option.mem_toList.1 he
    refine ⟨?_, hup⟩
    obtain ⟨f, hf, hk⟩ := h.pass _ hp
    obtain ⟨-, hf⟩ := Option.ite_none_right_eq_some.1 hf
    cases hf
    have hans : r.1 = t.store.highestTierFired id := (take_cases ht).2.2 nofun
    have hnext := hk r.1
    cases hkr : k r.1 with
    | ret a => rw [hkr] at hup; cases hup
    | call c' k' =>
      rw [hkr] at hup hnext
      cases c' with
      | createAlert i tier =>
        -- the protocol ties the tier to the answer
        obtain ⟨f', hf', -⟩ := hnext
        obtain ⟨⟨e', hasked, hinc, htier⟩, -⟩ := Option.ite_none_right_eq_some.1 hf'
        obtain rfl := Option.some.inj hasked
        subst htier
        simp only [upcoming, Option.bind_some, hinc, Option.map_some, Option.some.injEq] at hup
        subst hup
        have hle : -1 ≤ t.store.highestTierFired id := Gone.neg_one_le_highest
        simp only [hans]
        omega
      | _ => cases hup
  | _ => cases he

theorem FiredOnce.passes {c : AlertCmd} {k : c.Ans → AlertProg EscalationResult} {r : c.Ans × AlertStore}
    (h : FiredOnce t) (hinv : Inv env g t hs xs x) (hp : t.pass = some (.call c k))
    (ht : take env w [] c t.store = some r) :
    FiredOnce { t with store := r.2, pass := unfinished (k r.1), fired := t.fired ++ firing c (k r.1) } := by
  have hc : ∀ id detail, c ≠ .markAlert id .failed detail := by
    obtain ⟨f, hf, -⟩ := hinv.pass _ hp
    rintro id detail rfl
    cases (Pass.next_some hf).1
  refine ⟨?_, fun e he => ?_⟩
  · refine List.nodup_append.2 ⟨h.nodup, ?_, fun a ha b hb hab => ?_⟩
    · cases c with
      | highestTierFired id =>
        simp only [firing]
        cases upcoming (k r.1) <;> simp
      | _ => exact List.nodup_nil
    · subst hab
      obtain ⟨hlt, -⟩ := hinv.fires hp ht hb
      rcases h.seen a ha with hle | ⟨p, hpass, hup⟩
      · omega
      · obtain rfl := Option.some.inj (hp.symm.trans hpass)
        cases c with
        | highestTierFired id => cases hup
        | _ => cases hb
  · rcases List.mem_append.1 he with he | he
    · left
      rcases h.seen e he with hle | ⟨p, hpass, hup⟩
      · exact hle.trans (take_highest ht hc e.1)
      · -- its first alert is queued now
        obtain rfl := Option.some.inj (hp.symm.trans hpass)
        cases c with
        | createAlert i tier =>
          obtain ⟨tier', rfl, hup⟩ := Option.bind_eq_some_iff.1 hup
          obtain ⟨id, hinc, rfl⟩ := Option.map_eq_some_iff.1 hup
          obtain ⟨-, hr, -⟩ := take_cases ht
          rw [hr]
          exact Gone.tier_le_highest (List.mem_append_right _ List.mem_cons_self) hinc nofun rfl
        | _ => cases hup
    · right
      obtain ⟨-, hup⟩ := hinv.fires hp ht he
      refine ⟨k r.1, ?_, hup⟩
      cases hkr : k r.1 with
      | ret a => rw [hkr] at hup; cases hup
      | call c' k' => rfl

/-! ### Both runs -/

/-- The run with sweeps is the other one, but for the rows that are gone and the sweeps at work. -/
structure Hides (g : Gone) (s t : RetentionSys) : Prop where
  store : s.store = g.hideAlerts t.store
  calls : s.calls = t.calls
  pass : s.pass = t.pass
  fired : s.fired = t.fired
  recovered : s.recovered = t.recovered

variable {s s' : RetentionSys}

/-- A step of anything but a sweep is taken in both runs. -/
theorem Hides.step {l : RetentionLabel} (hh : Hides g s t) (h : Inv env g t hs xs x) (hl : l.sweeps = false)
    (hstep : s.step env l = some s') : ∃ t' hs' xs' x', t.step env l = some t' ∧ Hides g s' t' ∧
      Inv env g t' hs' xs' x' ∧ (¬ s.Fails l → FiredOnce t → FiredOnce t') := by
  obtain ⟨store, calls, pass, sweeps, fired, recovered⟩ := s
  obtain ⟨rfl, rfl, rfl, rfl, rfl⟩ := hh
  cases l with
  | start r =>
    cases hstep
    exact ⟨_, _, _, x, rfl, ⟨rfl, rfl, rfl, rfl, rfl⟩, h.start r, fun _ hf => ⟨hf.nodup, hf.seen⟩⟩
  | advance i w order =>
    simp only [RetentionSys.step] at hstep ⊢
    split at hstep
    · rename_i c k hi
      obtain ⟨r', ht', rfl⟩ := Option.map_eq_some_iff.1 hstep
      obtain ⟨htier, hnotified⟩ := h.reads hi
      rw [Gone.take_hide h.sound.past h.sound.settled (fun id hc => absurd hc (htier id)) hnotified] at ht'
      obtain ⟨r, ht, rfl⟩ := Option.map_eq_some_iff.1 ht'
      obtain ⟨hs', xs', h'⟩ := h.advance hi ht
      refine ⟨{ t with store := r.2, calls := t.calls.set i (k r.1), recovered := t.recovered ++ recovering c }, hs',
        xs', x, by rw [ht]; rfl, ⟨rfl, rfl, rfl, rfl, rfl⟩, h', fun hfails hf => hf.advance ht ?_⟩
      rintro id detail rfl
      simp only [RetentionSys.Fails, hi] at hfails
      exact hfails trivial
    · cases hstep
  | escalate now =>
    simp only [RetentionSys.step] at hstep ⊢
    split at hstep
    · rename_i hnone
      cases hstep
      refine ⟨_, hs, xs, ⟨[], none⟩, if_pos hnone, ⟨rfl, rfl, rfl, rfl, rfl⟩, ?_, fun _ hf => ⟨hf.nodup, fun e he => ?_⟩⟩
      · refine ⟨h.sound, h.batches, h.held, h.holders, h.holds, h.apart, ?_, ?_⟩
        · rintro p hp
          obtain rfl := Option.some.inj hp
          exact Pass.runEscalationCycle_follows now
        · rintro id (hid | ⟨-, hid⟩)
          · exact h.remembers id (.inl hid)
          · cases hid
      · refine (hf.seen e he).imp_right ?_
        rintro ⟨p, hp, -⟩
        rw [Option.isNone_iff_eq_none.1 hnone] at hp
        cases hp
    · cases hstep
  | pass w =>
    simp only [RetentionSys.step] at hstep ⊢
    split at hstep
    · rename_i c k hp
      obtain ⟨r', ht', rfl⟩ := Option.map_eq_some_iff.1 hstep
      obtain ⟨htier, hnotified⟩ := h.pass_reads hp
      rw [Gone.take_hide h.sound.past h.sound.settled htier fun id hc => absurd hc (hnotified id)] at ht'
      obtain ⟨r, ht, rfl⟩ := Option.map_eq_some_iff.1 ht'
      obtain ⟨x', h'⟩ := h.passes hp ht
      exact ⟨{ t with store := r.2, pass := unfinished (k r.1), fired := t.fired ++ firing c (k r.1) }, hs, xs, x',
        by rw [ht]; rfl, ⟨rfl, rfl, rfl, rfl, rfl⟩, h', fun _ hf => hf.passes h hp ht⟩
    · cases hstep
  | sweep e => cases hl
  | prune i rows => cases hl
  | elapse ms =>
    cases hstep
    refine ⟨_, hs, xs, x, rfl, ⟨rfl, rfl, rfl, rfl, rfl⟩, ?_, fun _ hf => ⟨hf.nodup, hf.seen⟩⟩
    exact ⟨h.sound.elapse ms, h.batches.on _, h.held, h.holders.on _, h.holds, h.apart, h.pass, h.remembers⟩

/-- What `kept` says is said by `kept'`, if that says what the alerts say that were left out. -/
theorem Kept.trans {kept kept' : List Alert} {a : Alert} (h : Kept st kept a)
    (hsub : ∀ b ∈ kept, b.incidentId = a.incidentId → b ∈ kept' ∨ Kept st kept' b) : Kept st kept' a := by
  obtain ⟨ht, hr⟩ := h
  constructor
  · refine ht.imp_right fun ht tier htier => ?_
    obtain ⟨b, hb, hbst, hbinc, tier', htier', hle⟩ := ht tier htier
    rcases hsub b hb hbinc with hmem | ⟨⟨hfailed, -⟩ | hkept, -⟩
    · exact ⟨b, hmem, hbst, hbinc, tier', htier', hle⟩
    · exact absurd hfailed hbst.2.1
    · obtain ⟨d, hd, hdst, hdinc, tier'', htier'', hle'⟩ := hkept tier' htier'
      exact ⟨d, hd, hdst, hdinc.trans hbinc, tier'', htier'', hle.trans hle'⟩
  · refine hr.imp_right fun hr => hr.imp_right ?_
    rintro ⟨b, hb, hbst, hbinc, hbne, hdest⟩
    rcases hsub b hb hbinc with hmem | ⟨-, hrecovered | ⟨hsent, -⟩ | ⟨d, hd, hdst, hdinc, hdne, hdest'⟩⟩
    · exact ⟨b, hmem, hbst, hbinc, hbne, hdest⟩
    · exact absurd hrecovered hbne
    · exact absurd hbst.1 hsent
    · exact ⟨d, hd, hdst, hdinc.trans hbinc, hdne, hdest'.trans hdest⟩

/-- A batch of alerts that is spared. -/
theorem Inv.hide_alerts {rows : List Uuid} (h : Inv env g t hs xs x)
    (hrows : ∀ id ∈ rows, ∃ a ∈ t.store.db.alerts, a.id = id ∧ a.status ≠ .pending)
    (hspared : ∀ a ∈ (g.hideAlerts t.store).db.alerts, a.id ∈ rows → ∀ incidentId ∈ a.incidentId,
      ¬ t.store.Resolved incidentId ∨ t.pass.isSome →
        Kept t.store ((g.hideAlerts t.store).db.alerts.filter (·.id ∉ rows)) a) :
    Inv env { g with alerts := g.alerts ++ rows } t hs xs x := by
  have hkept : (g.hideAlerts t.store).db.alerts.filter (·.id ∉ rows) =
      t.store.db.alerts.filter (·.id ∉ g.alerts ++ rows) := by
    show List.filter _ (List.filter _ _) = _
    rw [List.filter_filter]
    refine List.filter_congr fun a _ => ?_
    simp [List.mem_append, and_comm]
  refine ⟨⟨h.sound.alerts, h.sound.incidents, ⟨fun id hid => ?_, h.sound.past.results⟩, fun a ha hid => ?_⟩, h.batches,
    h.held, h.holders, h.holds, h.apart, h.pass, fun id hid a ha hgone hinc => ?_⟩
  · rcases List.mem_append.1 hid with hid | hid
    · exact h.sound.past.alerts id hid
    · obtain ⟨a, ha, rfl, -⟩ := hrows id hid
      exact h.sound.alerts.2 a ha
  · rcases List.mem_append.1 hid with hid | hid
    · exact h.sound.settled a ha hid
    · obtain ⟨b, hb, heq, hstatus⟩ := hrows _ hid
      obtain rfl : b = a := List.inj_on_of_nodup_map h.sound.alerts.1 hb ha heq
      exact hstatus
  · rw [hkept] at hspared
    have hlive : ¬ t.store.Resolved id ∨ t.pass.isSome := hid.imp_right fun h => h.1
    by_cases hold : a.id ∈ g.alerts
    · refine (h.remembers id hid a ha hold hinc).trans fun b hb hbinc => ?_
      by_cases hrow : b.id ∈ rows
      · exact .inr (hspared b hb hrow id (hbinc.trans hinc) hlive)
      · obtain ⟨hmem, hnot⟩ := List.mem_filter.1 hb
        refine .inl (List.mem_filter.2 ⟨hmem, ?_⟩)
        simpa [hrow] using hnot
    · have hrow : a.id ∈ rows := (List.mem_append.1 hgone).resolve_left hold
      exact hspared a (Gone.mem_hideAlerts.2 ⟨ha, hold⟩) hrow id hinc hlive

/-- A batch of a sweep, in the one run alone. -/
theorem Hides.prune {i : Nat} {rows : Option (List Uuid)} (hh : Hides g s t) (h : Inv env g t hs xs x)
    (hspares : s.Spares env (.prune i rows)) (hstep : s.prune i rows = some s') :
    ∃ g', Hides g' s' t ∧ Inv env g' t hs xs x := by
  obtain ⟨store, calls, pass, sweeps, fired, recovered⟩ := s
  obtain ⟨rfl, rfl, rfl, rfl, rfl⟩ := hh
  simp only [RetentionSys.prune] at hstep
  split at hstep
  · cases hstep
    exact ⟨g, ⟨rfl, rfl, rfl, rfl, rfl⟩, h⟩
  · rename_i spec k rows hi
    obtain ⟨hbatch, hs'⟩ := Option.ite_none_right_eq_some.1 hstep
    cases hs'
    obtain ⟨halerts, hresults⟩ := hspares spec (by simp [RetentionSys.deleting, hi])
    simp only [ClassSpec.IsBatch] at hbatch
    have hsame : ∀ {g' : Gone}, g'.alerts = g.alerts → g'.results = g.results → Inv env g' t hs xs x := by
      rintro ⟨al, res, tr, jobs⟩ rfl rfl
      refine ⟨⟨h.sound.alerts, h.sound.incidents, ⟨h.sound.past.alerts, h.sound.past.results⟩, h.sound.settled⟩,
        h.batches, h.held, h.holders, h.holds, h.apart, h.pass, h.remembers⟩
    obtain ⟨name, days⟩ := spec
    cases name with
    | alerts =>
      simp only [RetentionClass.overdue] at hbatch
      refine ⟨{ g with alerts := g.alerts ++ rows }, ⟨?_, rfl, rfl, rfl, rfl⟩, h.hide_alerts (fun id hid => ?_)
        (halerts rfl)⟩
      · simp [RetentionClass.delete, Gone.hideAlerts, Gone.hide, List.filter_filter, List.mem_append, and_comm]
      · obtain ⟨a, ha, rfl⟩ := List.mem_map.1 (hbatch.2.1 hid)
        obtain ⟨ha, hp⟩ := List.mem_filter.1 ha
        simp only [Bool.and_eq_true, decide_eq_true_eq] at hp
        exact ⟨a, (Gone.mem_hideAlerts.1 ha).1, rfl, hp.2⟩
    | healthCheckResults =>
      refine ⟨{ g with results := g.results ++ rows, traces := g.traces.filter (·.checkId ∉ rows) },
        ⟨?_, rfl, rfl, rfl, rfl⟩, ?_⟩
      · simp [RetentionClass.delete, Gone.hideAlerts, Gone.hide, List.filter_filter, List.mem_append, and_comm]
      · refine ⟨⟨h.sound.alerts, h.sound.incidents, ⟨h.sound.past.alerts, fun r hr hid => ?_⟩, h.sound.settled⟩,
          h.batches, h.held, h.holders, h.holds, h.apart, h.pass, h.remembers⟩
        by_cases hold : r.id ∈ g.results
        · exact h.sound.past.results r hr hold
        · have hrow : r.id ∈ rows := (List.mem_append.1 hid).resolve_left hold
          refine hresults rfl r ?_ hrow
          simp [Gone.hideAlerts, Gone.hide, hr, hold]
    | healthCheckTraces =>
      exact ⟨{ g with traces := g.traces.filter (·.checkId ∉ rows) }, ⟨rfl, rfl, rfl, rfl, rfl⟩, hsame rfl rfl⟩
    | cronJobRuns =>
      exact ⟨{ g with jobRuns := g.jobRuns.filter (·.id ∉ rows) }, ⟨rfl, rfl, rfl, rfl, rfl⟩, hsame rfl rfl⟩
    | _ => exact ⟨g, ⟨rfl, rfl, rfl, rfl, rfl⟩, h⟩
  · cases hstep

/-! ### Whole runs -/

/-- No program of the alert runner is at work. -/
structure RetentionSys.Fresh (s : RetentionSys) : Prop where
  alerts : Keyed s.store
  incidents : (s.store.db.incidents.map (·.id)).Nodup ∧ ∀ id ∈ s.store.db.incidents.map (·.id), id < s.store.nextUuid
  calls : s.calls = []
  pass : s.pass = none
  fired : s.fired = []

theorem RetentionSys.Fresh.inv (h : s.Fresh) :
    ∃ g, Hides g s s ∧ Inv env g s [] [] ⟨[], none⟩ ∧ FiredOnce s := by
  refine ⟨⟨[], [], s.store.db.healthCheckTraces, s.store.db.cronJobRuns⟩, ⟨?_, rfl, rfl, rfl, rfl⟩, ⟨⟨h.alerts,
    h.incidents, ⟨by simp, by simp⟩, fun a _ hid => by simp at hid⟩, ?_, by simp, ?_, by simp, ?_, ?_, ?_⟩, ?_, ?_⟩
  · simp [Gone.hideAlerts, Gone.hide]
  · exact ⟨by simp [h.calls], fun i p x _ hx => by simp at hx⟩
  · exact ⟨by simp [h.calls], fun i p x _ hx => by simp at hx⟩
  · exact fun id i j a b ha => by simp at ha
  · exact fun p hp => by simp [h.pass] at hp
  · exact fun id _ a _ hid => by simp at hid
  · rw [h.fired]
    exact List.nodup_nil
  · exact fun e he => by simp [h.fired] at he

/-- A run with sweeps beside the one without them. -/
theorem Hides.run {tr : List RetentionLabel} (hh : Hides g s t) (h : Inv env g t hs xs x)
    (hspares : Along (RetentionSys.step env) (fun s l _ => s.Spares env l) s tr)
    (hr : Runs.run (RetentionSys.step env) s tr = some s') :
    ∃ g' t' hs' xs' x', Runs.run (RetentionSys.step env) t (tr.filter fun l => !l.sweeps) = some t' ∧ Hides g' s' t' ∧
      Inv env g' t' hs' xs' x' ∧
        (Along (RetentionSys.step env) (fun s l _ => ¬ s.Fails l) s tr → FiredOnce t → FiredOnce t') := by
  induction tr generalizing s t g hs xs x with
  | nil =>
    cases hr
    exact ⟨g, t, hs, xs, x, rfl, hh, h, fun _ hf => hf⟩
  | cons l tr ih =>
    obtain ⟨s₁, hstep, hr⟩ := run_cons_iff.1 hr
    obtain ⟨hsp, hspares⟩ := hspares s₁ hstep
    by_cases hl : l.sweeps = true
    · have hpruned : ∃ g', Hides g' s₁ t ∧ Inv env g' t hs xs x := by
        cases l with
        | sweep e =>
          cases hstep
          exact ⟨g, ⟨hh.store, hh.calls, hh.pass, hh.fired, hh.recovered⟩, h⟩
        | prune i rows => exact hh.prune h hsp hstep
        | _ => cases hl
      obtain ⟨g₁, hh₁, h₁⟩ := hpruned
      obtain ⟨g', t', hs', xs', x', hrun, hh', h', hfired⟩ := ih hh₁ h₁ hspares hr
      refine ⟨g', t', hs', xs', x', ?_, hh', h', fun hok hf => hfired (hok s₁ hstep).2 hf⟩
      rw [List.filter_cons_of_neg (by simp [hl])]
      exact hrun
    · obtain ⟨t₁, hs₁, xs₁, x₁, ht₁, hh₁, h₁, hfired₁⟩ := hh.step h (Bool.eq_false_iff.2 hl) hstep
      obtain ⟨g', t', hs', xs', x', hrun, hh', h', hfired⟩ := ih hh₁ h₁ hspares hr
      refine ⟨g', t', hs', xs', x', ?_, hh', h', fun hok hf => ?_⟩
      · rw [List.filter_cons_of_pos (by simp [hl])]
        exact run_cons_iff.2 ⟨t₁, ht₁, hrun⟩
      · obtain ⟨hok₁, hok⟩ := hok s₁ hstep
        exact hfired hok (hfired₁ hok₁ hf)

/-- Two runs that differ in their sweeps alone, all of which spare what is recomputed: the same tiers are fired, and the
same recovery alerts queued. No tier is fired twice where no alert is marked FAILED. -/
theorem sweeps_transparent {s₀ : RetentionSys} {tr tr' : List RetentionLabel} (h₀ : s₀.Fresh)
    (hr : Runs.run (RetentionSys.step env) s₀ tr = some s) (hr' : Runs.run (RetentionSys.step env) s₀ tr' = some s')
    (hsame : (tr.filter fun l => !l.sweeps) = tr'.filter fun l => !l.sweeps)
    (hspares : Along (RetentionSys.step env) (fun s l _ => s.Spares env l) s₀ tr)
    (hspares' : Along (RetentionSys.step env) (fun s l _ => s.Spares env l) s₀ tr') :
    s.fired = s'.fired ∧ s.recovered = s'.recovered ∧
      (Along (RetentionSys.step env) (fun s l _ => ¬ s.Fails l) s₀ tr → s.fired.Nodup) := by
  obtain ⟨g, hh, h, hf⟩ : ∃ g, Hides g s₀ s₀ ∧ Inv env g s₀ [] [] ⟨[], none⟩ ∧ FiredOnce s₀ := h₀.inv
  obtain ⟨g₁, t, hs₁, xs₁, x₁, hrun, hh₁, -, hfired⟩ := hh.run h hspares hr
  obtain ⟨g₂, t', hs₂, xs₂, x₂, hrun', hh₂, -, -⟩ := hh.run h hspares' hr'
  -- the run without sweeps is the same
  rw [hsame, hrun'] at hrun
  obtain rfl := Option.some.inj hrun
  refine ⟨hh₁.fired.trans hh₂.fired.symm, hh₁.recovered.trans hh₂.recovered.symm, fun hok => ?_⟩
  rw [hh₁.fired]
  exact (hfired hok hf).nodup

/-- A store beside which nothing runs. -/
def atRest (store : AlertStore) : RetentionSys := ⟨store, [], none, [], [], []⟩

/-- A sweep in which nothing is overdue but `rows` of the alerts. -/
def sweepOf (rows : List Uuid) : List RetentionLabel :=
  .sweep .default :: List.replicate 5 (.prune 0 (some [])) ++ [.prune 0 (some rows)]

/-- A check that recovers an incident, in five statements. -/
def recovery : List RetentionLabel :=
  .start (.check ⟨makeMonitoredApi, .up, none, none, 2⟩) :: List.replicate 5 (.advance 0 ticked [])

/-- The alert of `oneHeard`, and another one to the same recipient ninety days later. -/
def heardAgain : AlertStore :=
  { oneHeard with
    db := { oneHeard.db with alerts := oneHeard.db.alerts ++
      [⟨3, some 0, some 1, .repeatedFailure, .email, "oncall", .sent, none, some 0, some "accepted", 90 * 86400000⟩] }
    nextUuid := 4 }

/-- The incident is open for four months. -/
def longOpen : RetentionLabel := .elapse (121 * 86400000)

theorem fresh_heardAgain : (atRest heardAgain).Fresh where
  alerts := ⟨by decide, by decide⟩
  incidents := ⟨by decide, by decide⟩
  calls := rfl
  pass := rfl
  fired := rfl

theorem fresh_oneHeard : (atRest oneHeard).Fresh where
  alerts := ⟨by decide, by decide⟩
  incidents := ⟨by decide, by decide⟩
  calls := rfl
  pass := rfl
  fired := rfl

/-- A sweep takes the older alert, and the recovery still reaches its recipient. -/
theorem sweeps_transparent_heardAgain : ∃ s s',
    Runs.run (RetentionSys.step .default) (atRest heardAgain) (longOpen :: sweepOf [2] ++ recovery) = some s ∧
      Runs.run (RetentionSys.step .default) (atRest heardAgain) (longOpen :: recovery) = some s' ∧
      s.store.db.alerts.length < s'.store.db.alerts.length ∧ s.recovered = [(0, [(.webhook, "ops"), (.email, "oncall")])] ∧
      s.fired = s'.fired ∧ s.recovered = s'.recovered := by
  obtain ⟨s, hr, hs⟩ := Option.map_eq_some_iff.1 (show (Runs.run (RetentionSys.step .default) (atRest heardAgain)
    (longOpen :: sweepOf [2] ++ recovery)).map (fun s => (s.store.db.alerts.length, s.recovered)) =
      some (3, [(0, [(.webhook, "ops"), (.email, "oncall")])]) by decide +kernel)
  obtain ⟨s', hr', hs'⟩ := Option.map_eq_some_iff.1 (show (Runs.run (RetentionSys.step .default) (atRest heardAgain)
    (longOpen :: recovery)).map (·.store.db.alerts.length) = some 4 by decide +kernel)
  obtain ⟨hlen, hrec⟩ := Prod.mk.inj hs
  obtain ⟨hfired, hrecovered, -⟩ :=
    sweeps_transparent fresh_heardAgain hr hr' rfl (by decide +kernel) (by decide +kernel)
  exact ⟨s, s', hr, hr', by omega, hrec, hfired, hrecovered⟩

/-- A pass fires a tier and its alert is sent; the next pass comes when the alert is swept. -/
def firedAgain : List RetentionLabel :=
  .escalate 0 :: List.replicate 5 (.pass ticked) ++ .start .deliver :: List.replicate 7 (.advance 0 ticked []) ++
    longOpen :: sweepOf [1] ++ .escalate (121 * 86400000) :: List.replicate 3 (.pass ticked)

/-- The only alert of an open incident is swept: the recovery leaves its recipient out, and a tier is fired again. -/
theorem sweeps_seen :
    (¬ ∀ (env : Env) (s₀ s s' : RetentionSys) (tr tr' : List RetentionLabel), s₀.Fresh →
      Runs.run (RetentionSys.step env) s₀ tr = some s → Runs.run (RetentionSys.step env) s₀ tr' = some s' →
        (tr.filter fun l => !l.sweeps) = (tr'.filter fun l => !l.sweeps) → s.recovered = s'.recovered) ∧
    ¬ ∀ (env : Env) (s₀ s : RetentionSys) (tr : List RetentionLabel), s₀.Fresh →
      Runs.run (RetentionSys.step env) s₀ tr = some s →
        Along (RetentionSys.step env) (fun s l _ => ¬ s.Fails l) s₀ tr → s.fired.Nodup := by
  constructor
  · intro h
    obtain ⟨s, hr, hs⟩ := Option.map_eq_some_iff.1 (show (Runs.run (RetentionSys.step .default) (atRest oneHeard)
      (longOpen :: sweepOf [2] ++ recovery)).map (·.recovered) = some [(0, [(.webhook, "ops")])] by decide +kernel)
    obtain ⟨s', hr', hs'⟩ := Option.map_eq_some_iff.1 (show (Runs.run (RetentionSys.step .default) (atRest oneHeard)
      (longOpen :: recovery)).map (·.recovered) = some [(0, [(.webhook, "ops"), (.email, "oncall")])] by decide +kernel)
    have heq := h .default _ s s' _ _ fresh_oneHeard hr hr' rfl
    rw [hs, hs'] at heq
    exact absurd heq (by decide)
  · intro h
    obtain ⟨s, hr, hs⟩ := Option.map_eq_some_iff.1 (show (Runs.run (RetentionSys.step .default)
      (atRest (underPolicy [alwaysTier 0 "oncall"] false)) firedAgain).map (·.fired) = some [(0, 0), (0, 0)] by
        decide +kernel)
    have hnodup := h .default _ s _ ⟨⟨by decide, by decide⟩, ⟨by decide, by decide⟩, rfl, rfl, rfl⟩ hr (by decide +kernel)
    rw [hs] at hnodup
    exact absurd hnodup (by decide)

end CronMonitor.Observability
