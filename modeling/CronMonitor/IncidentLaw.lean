import CronMonitor.IncidentRuns
import CronMonitor.Lib.Episodes

/-!
# The life of incidents

An incident is an episode of its target's checks: it opens at a failing check when none is open, and is
resolved when the last `INCIDENT_RECOVERY_STREAK` checks are all `UP`. `Tracks` relates the tables to the
episode that the history of checks defines; recording a check keeps them related (`Tracks.process`). The
streak lives in another table and is not reset when an incident opens or is resolved; it is the length of
the run of `UP` checks in the episode all the same, because a failing check ends it.
-/

namespace CronMonitor

open Episodes

variable {env : Env} {target : MonitoredApi} {st st' : Store}

/-- The open episode of a history of statuses. -/
abbrev openEpisode (k : Nat) (history : List HealthStatus) : Option (List HealthStatus) :=
  episode HealthStatus.isFailing (· = .up) k history

theorem up_of_isFailing (s : HealthStatus) (h : s.isFailing) : decide (s = .up) = false := by
  cases s <;> first | rfl | cases h

/-- The identifiers of the incidents there are. -/
def Store.incidentIds (st : Store) : List Uuid := st.db.incidents.map (·.id)

/-- The tables hold the open episode: no active incident, or one with the failures and the streak of the
episode. -/
structure Tracks (target : MonitoredApi) (st : Store) (current : Option (List HealthStatus)) : Prop where
  wf : st.IncidentsWf
  closed : current = none → activeRows target st.db.incidents = []
  running : ∀ h, current = some h → ∃ a, activeRows target st.db.incidents = [a] ∧
    a.failureCount = h.countP HealthStatus.isFailing ∧ st.successes target.id = goodRun (· = .up) h

/-- What a check does to the incidents that are there: the rows keep their places and identifiers, and at
most one row is added. -/
theorem TableStep.ids {status : HealthStatus} {streak : Nat} {n n' : Uuid} {rows rows' : List Incident}
    (h : TableStep env target status streak n n' rows rows') :
    rows'.map (·.id) = rows.map (·.id) ∨
      ∃ id, (n ≤ id ∧ id < n') ∧ rows'.map (·.id) = rows.map (·.id) ++ [id] ∧ status.isFailing ∧ activeRows target rows = [] := by
  cases h with
  | idle => exact .inl rfl
  | opened hstatus hnone hid => exact .inr ⟨_, hid, by simp, hstatus, hnone⟩
  | failed _ _ hid => exact .inl (by simp [hid])
  | resolved _ _ _ hid => exact .inl (by simp [hid])

theorem activeRows_middle (target : MonitoredApi) (pre post : List Incident) (a : Incident) :
    activeRows target (pre ++ a :: post) = activeRows target pre ++ activeRows target [a] ++ activeRows target post := by
  rw [List.append_cons, activeRows, List.filter_append, List.filter_append]
  rfl

/-- Replacing the active incident. -/
theorem activeRows_replace {pre post : List Incident} {a : Incident} (a' : Incident)
    (hactive : activeRows target (pre ++ a :: post) = [a]) :
    activeRows target (pre ++ a' :: post) = activeRows target [a'] := by
  have ha : activeRows target [a] = [a] := by
    have hmem : a ∈ activeRows target (pre ++ a :: post) := hactive ▸ List.mem_singleton_self a
    obtain ⟨-, hapi, hact⟩ := mem_activeRows.1 hmem
    simp [activeRows, hapi, hact]
  have hlen := congrArg List.length hactive
  rw [activeRows_middle, ha] at hlen
  simp only [List.length_append, List.length_singleton] at hlen
  have hpre : activeRows target pre = [] := List.eq_nil_of_length_eq_zero (by omega)
  have hpost : activeRows target post = [] := List.eq_nil_of_length_eq_zero (by omega)
  rw [activeRows_middle, hpre, hpost, List.nil_append, List.append_nil]

/-- An incident is opened exactly when none is active and the check fails. -/
theorem TableStep.opens_iff {status : HealthStatus} {streak : Nat} {n n' : Uuid} {rows rows' : List Incident}
    (h : TableStep env target status streak n n' rows rows') (hlt : ∀ i ∈ rows, i.id < n) :
    (∃ i ∈ rows', i.id ∉ rows.map (·.id)) ↔ activeRows target rows = [] ∧ status.isFailing := by
  constructor
  · rintro ⟨i, hi, hnew⟩
    rcases h.ids with heq | ⟨id, -, -, hstatus, hnone⟩
    · exact absurd (heq ▸ List.mem_map_of_mem hi) hnew
    · exact ⟨hnone, hstatus⟩
  · rintro ⟨hnone, hstatus⟩
    cases h with
    | idle hidle => simp [hidle] at hstatus
    | @opened _ new _ _ hid =>
      refine ⟨new, List.mem_append_right _ (List.mem_singleton_self _), fun hold => ?_⟩
      obtain ⟨i, hi, heq⟩ := List.mem_map.1 hold
      exact absurd (hlt i hi) (Nat.not_lt.2 (heq ▸ hid.1))
    | failed _ hactive => simp [hnone] at hactive
    | resolved _ _ hactive => simp [hnone] at hactive

/-- What a check opens is an active incident of its target. -/
theorem TableStep.opens {status : HealthStatus} {streak : Nat} {n n' : Uuid} {rows rows' : List Incident}
    (h : TableStep env target status streak n n' rows rows') {i : Incident} (hi : i ∈ rows')
    (hnew : i.id ∉ rows.map (·.id)) : i ∈ activeRows target rows' := by
  rcases h.ids with heq | ⟨-, -, -, -, hnone⟩
  · exact absurd (heq ▸ List.mem_map_of_mem hi) hnew
  cases h with
  | idle => exact absurd (List.mem_map_of_mem hi) hnew
  | opened _ _ _ hapi hactive =>
    rcases List.mem_append.1 hi with hold | hi
    · exact absurd (List.mem_map_of_mem hold) hnew
    · obtain rfl := List.mem_singleton.1 hi
      exact mem_activeRows.2 ⟨List.mem_append_right _ (List.mem_singleton_self _), hapi, hactive⟩
  | failed _ hactive => simp [hnone] at hactive
  | resolved _ _ hactive => simp [hnone] at hactive

/-- The active incident is resolved exactly when the streak is complete. -/
theorem TableStep.resolves_iff {status : HealthStatus} {streak : Nat} {n n' : Uuid} {rows rows' : List Incident}
    {a : Incident} (h : TableStep env target status streak n n' rows rows') (hnodup : (rows.map (·.id)).Nodup)
    (ha : activeRows target rows = [a]) :
    (∃ r ∈ rows', r.id = a.id ∧ r.status = .resolved) ↔ status = .up ∧ env.incidentRecoveryStreak ≤ streak := by
  have hmem : a ∈ activeRows target rows := ha ▸ List.mem_singleton_self a
  obtain ⟨hmem, -, hactive⟩ := mem_activeRows.1 hmem
  have hopen : a.status ≠ .resolved := by simpa [Incident.isActive] using hactive
  cases h with
  | idle hidle hshort =>
    constructor
    · rintro ⟨r, hr, hid, hdone⟩
      obtain rfl : r = a := List.inj_on_of_nodup_map hnodup hr hmem hid
      exact absurd hdone hopen
    · rintro ⟨hup, hlong⟩
      exact absurd hlong (Nat.not_le.2 (hshort hup (by simp [ha])))
  | opened _ hnone =>
    rw [hnone] at ha
    cases ha
  | @failed pre post b b' hstatus hb hid _ hkeep =>
    obtain rfl : b = a := by rw [hb] at ha; cases ha; rfl
    have hnodup' : ((pre ++ b' :: post).map (·.id)).Nodup := by simpa [hid] using hnodup
    constructor
    · rintro ⟨r, hr, hrid, hdone⟩
      obtain rfl : r = b' := List.inj_on_of_nodup_map hnodup' hr (by simp) (hrid.trans hid.symm)
      exact absurd (hkeep ▸ hdone) hopen
    · rintro ⟨rfl, -⟩
      cases hstatus
  | @resolved pre post b b' hstatus hlong hb hid hdone =>
    obtain rfl : b = a := by rw [hb] at ha; cases ha; rfl
    exact ⟨fun _ => ⟨hstatus, hlong⟩, fun _ => ⟨b', by simp, hid, hdone⟩⟩

/-- The active incident after the check is new, or it is the one that was active. -/
theorem TableStep.active_from {status : HealthStatus} {streak : Nat} {n n' : Uuid} {rows rows' : List Incident}
    {a' : Incident} (h : TableStep env target status streak n n' rows rows') (ha' : a' ∈ activeRows target rows') :
    activeRows target rows = [] ∧ n ≤ a'.id ∨ ∃ a ∈ activeRows target rows, a.id = a'.id := by
  cases h with
  | idle => exact .inr ⟨a', ha', rfl⟩
  | @opened _ new _ hnone hid =>
    refine .inl ⟨hnone, ?_⟩
    rw [activeRows, List.filter_append] at ha'
    rw [activeRows] at hnone
    rw [hnone, List.nil_append] at ha'
    rw [List.mem_singleton.1 (List.mem_of_mem_filter ha')]
    exact hid.1
  | @failed pre post b b' _ hb hid =>
    rw [activeRows_replace b' hb] at ha'
    rw [List.mem_singleton.1 (List.mem_of_mem_filter ha'), hb]
    exact .inr ⟨b, List.mem_singleton_self b, hid.symm⟩
  | @resolved pre post b b' _ _ hb hid =>
    rw [activeRows_replace b' hb] at ha'
    rw [List.mem_singleton.1 (List.mem_of_mem_filter ha'), hb]
    exact .inr ⟨b, List.mem_singleton_self b, hid.symm⟩

theorem IncidentsWf.process (env : Env) (hwf : st.IncidentsWf) (hone : (activeRows target st.db.incidents).length ≤ 1) (c : Check) :
    (st.process env target c).IncidentsWf := by
  have hmono : st.nextUuid ≤ (st.process env target c).nextUuid := by
    obtain ⟨ctx, v, -, -, -, -, -, h₁, h₂, -, -⟩ := process_spec env target st c
    exact h₁.trans h₂
  have hlt : ∀ id ∈ st.incidentIds, id < st.nextUuid := by
    intro id hid
    obtain ⟨i, hi, rfl⟩ := List.mem_map.1 hid
    exact hwf.id_lt i hi
  have hids : (st.process env target c).incidentIds.Nodup ∧
      ∀ id ∈ (st.process env target c).incidentIds, id < (st.process env target c).nextUuid := by
    unfold Store.incidentIds
    rcases (process_tableStep env hwf hone c).ids with heq | ⟨id, ⟨hge, hid⟩, heq, -⟩ <;> rw [heq]
    · exact ⟨hwf.nodup, fun id hid => (hlt id hid).trans_le hmono⟩
    · refine ⟨?_, fun id' hid' => ?_⟩
      · rw [List.nodup_append]
        refine ⟨hwf.nodup, List.nodup_singleton _, fun x hx y hy hxy => ?_⟩
        rw [List.mem_singleton.1 hy] at hxy
        exact absurd (hlt x hx) (Nat.not_lt.2 (hxy ▸ hge))
      · rcases List.mem_append.1 hid' with hid' | hid'
        · exact (hlt id' hid').trans_le hmono
        · rw [List.mem_singleton.1 hid']
          exact hid
  exact ⟨hids.1, fun i hi => hids.2 i.id (List.mem_map_of_mem hi)⟩

theorem Tracks.length_le {current : Option (List HealthStatus)} (h : Tracks target st current) :
    (activeRows target st.db.incidents).length ≤ 1 := by
  cases hcur : current with
  | none => simp [h.closed hcur]
  | some hist =>
    obtain ⟨a, ha, -⟩ := h.running hist hcur
    simp [ha]

/-- An active incident is that of the open episode. -/
theorem Tracks.of_active {current : Option (List HealthStatus)} {a : Incident} (h : Tracks target st current)
    (ha : activeRows target st.db.incidents = [a]) :
    ∃ hist, current = some hist ∧ a.failureCount = hist.countP HealthStatus.isFailing := by
  cases hcur : current with
  | none =>
    rw [h.closed hcur] at ha
    cases ha
  | some hist =>
    obtain ⟨a', ha', hcount, -⟩ := h.running hist hcur
    rw [ha] at ha'
    cases ha'
    exact ⟨hist, rfl, hcount⟩

theorem process_successes (env : Env) (target : MonitoredApi) (st : Store) (c : Check) :
    (st.process env target c).successes target.id =
      if c.outcome.status = .up then st.successes target.id + 1 else 0 := by
  obtain ⟨ctx, v, -, -, hcount, hsucc, -⟩ := process_spec env target st c
  exact hsucc.trans hcount

/-- The good run of the episode with the check is the streak that the schedule table holds after it. -/
theorem Tracks.goodRun_eq (env : Env) {hist : List HealthStatus} (h : Tracks target st (some hist)) (c : Check) :
    goodRun (· = HealthStatus.up) (hist ++ [c.outcome.status]) = (st.process env target c).successes target.id := by
  obtain ⟨a, -, -, hsucc⟩ := h.running hist rfl
  rw [goodRun_append_singleton, process_successes, hsucc]
  simp

/-- Recording a check moves the tables and the episode together. -/
theorem Tracks.process (env : Env) {current : Option (List HealthStatus)} (h : Tracks target st current) (c : Check) :
    Tracks target (st.process env target c)
      (next HealthStatus.isFailing (· = .up) env.incidentRecoveryStreak current c.outcome.status) := by
  have hwf := IncidentsWf.process env h.wf h.length_le c
  have hstep := process_tableStep env h.wf h.length_le c
  have hstreak := process_successes env target st c
  have hk := env.recoveryStreak_pos
  have hrun : ∀ hist, current = some hist → goodRun (· = HealthStatus.up) (hist ++ [c.outcome.status]) =
      (st.process env target c).successes target.id := by
    rintro hist rfl
    exact h.goodRun_eq env c
  generalize c.outcome.status = s at *
  generalize hrows : st.db.incidents = rows at hstep
  generalize hrows' : (st.process env target c).db.incidents = rows' at hstep
  cases hstep with
  | idle hstatus hshort =>
    cases hcur : current with
    | none =>
      have hnext : next HealthStatus.isFailing (· = .up) env.incidentRecoveryStreak none s = none := by
        simp [next, hstatus]
      rw [hnext]
      refine ⟨hwf, fun _ => ?_, fun _ he => by cases he⟩
      rw [hrows', ← hrows]
      exact h.closed hcur
    | some hist =>
      obtain ⟨a, ha, hcount, -⟩ := h.running hist hcur
      have hlt : ¬ env.incidentRecoveryStreak ≤ goodRun (· = HealthStatus.up) (hist ++ [s]) := by
        rw [hrun hist hcur]
        by_cases hs : s = .up
        · refine Nat.not_le.2 (hshort hs ?_)
          rw [← hrows, ha]
          exact List.cons_ne_nil _ _
        · rw [hstreak, if_neg hs]
          omega
      simp only [next, if_neg hlt]
      refine ⟨hwf, fun he => (by cases he), fun h' he => ⟨a, ?_, ?_, ?_⟩⟩
      · rw [hrows', ← hrows]
        exact ha
      · cases he
        rw [List.countP_append, hcount]
        simp [hstatus]
      · cases he
        exact (hrun hist hcur).symm
  | @opened _ new hstatus hnone hid hapi hactive hcount =>
    have hcur : current = none := by
      rcases hcur : current with _ | hist
      · rfl
      · obtain ⟨a, ha, -⟩ := h.running hist hcur
        rw [hrows, hnone] at ha
        cases ha
    have hnext : next HealthStatus.isFailing (· = .up) env.incidentRecoveryStreak current s = some [s] := by
      simp [hcur, next, hstatus]
    rw [hnext]
    refine ⟨hwf, fun he => (by cases he), fun h' he => ⟨new, ?_, ?_, ?_⟩⟩
    · rw [hrows', activeRows, List.filter_append]
      rw [activeRows] at hnone
      simp [hnone, hapi, hactive]
    · cases he
      simp [hcount, hstatus]
    · cases he
      have hs : s ≠ .up := by rintro rfl; cases hstatus
      rw [hstreak, if_neg hs]
      simp [goodRun, hs]
  | @failed pre post a a' hstatus hactive hid hapi hopen hcount =>
    obtain ⟨hist, hcur, hfail⟩ := h.of_active (hrows ▸ hactive)
    have hs : s ≠ .up := by rintro rfl; cases hstatus
    have hlt : ¬ env.incidentRecoveryStreak ≤ goodRun (· = HealthStatus.up) (hist ++ [s]) := by
      rw [hrun hist hcur, hstreak, if_neg hs]
      omega
    simp only [hcur, next, if_neg hlt]
    refine ⟨hwf, fun he => (by cases he), fun h' he => ⟨a', ?_, ?_, ?_⟩⟩
    · have hmem : a ∈ activeRows target (pre ++ a :: post) := hactive ▸ List.mem_singleton_self a
      obtain ⟨-, ha_api, ha_active⟩ := mem_activeRows.1 hmem
      rw [hrows', activeRows_replace a' hactive]
      simp only [Incident.isActive] at ha_active
      simp [activeRows, hapi, ha_api, Incident.isActive, hopen]
      simpa using ha_active
    · cases he
      rw [List.countP_append, hcount, hfail]
      simp [hstatus]
    · cases he
      exact (hrun hist hcur).symm
  | @resolved pre post a a' hstatus hlong hactive hid hdone =>
    obtain ⟨hist, hcur, -⟩ := h.of_active (hrows ▸ hactive)
    have hge : env.incidentRecoveryStreak ≤ goodRun (· = HealthStatus.up) (hist ++ [s]) := by
      rw [hrun hist hcur]
      exact hlong
    simp only [hcur, next, if_pos hge]
    refine ⟨hwf, fun _ => ?_, fun h' he => by cases he⟩
    rw [hrows', activeRows_replace a' hactive]
    simp [activeRows, Incident.isActive, hdone]

/-! ### Whole histories -/

theorem runChecks_append (env : Env) (target : MonitoredApi) (st : Store) (cs : List Check) (c : Check) :
    runChecks env target st (cs ++ [c]) = (runChecks env target st cs).process env target c := by
  simp [runChecks]

/-- The statuses of the checks. -/
def statuses (cs : List Check) : List HealthStatus := cs.map (·.outcome.status)

theorem statuses_append (cs : List Check) (c : Check) : statuses (cs ++ [c]) = statuses cs ++ [c.outcome.status] := by
  simp [statuses]

section Histories

variable (hwf : st.IncidentsWf) (hnone : activeRows target st.db.incidents = [])
include hwf hnone

/-- After any checks the tables hold the open episode of the history. -/
theorem runChecks_tracks (env : Env) (cs : List Check) :
    Tracks target (runChecks env target st cs) (openEpisode env.incidentRecoveryStreak (statuses cs)) := by
  induction cs using List.reverseRecOn with
  | nil => exact ⟨hwf, fun _ => hnone, fun _ h => by cases h⟩
  | append_singleton cs c ih =>
    rw [runChecks_append, statuses_append, openEpisode, episode_append_singleton]
    exact ih.process env c

theorem runChecks_tableStep (env : Env) (cs : List Check) (c : Check) :
    TableStep env target c.outcome.status ((runChecks env target st (cs ++ [c])).successes target.id)
      (runChecks env target st cs).nextUuid (runChecks env target st (cs ++ [c])).nextUuid
      (runChecks env target st cs).db.incidents (runChecks env target st (cs ++ [c])).db.incidents := by
  have h := runChecks_tracks hwf hnone env cs
  rw [runChecks_append]
  exact process_tableStep env h.wf h.length_le c

theorem mem_incidentIds_append {cs : List Check} {c : Check} {id : Uuid}
    (hid : id ∈ (runChecks env target st cs).incidentIds) : id ∈ (runChecks env target st (cs ++ [c])).incidentIds := by
  rcases (runChecks_tableStep hwf hnone env cs c).ids with heq | ⟨id', -, heq, -⟩
  · exact (congrArg (id ∈ ·) heq).mpr hid
  · exact (congrArg (id ∈ ·) heq).mpr (List.mem_append_left _ hid)

/-- No incident is ever deleted. -/
theorem mem_incidentIds_take {cs : List Check} {m n : Nat} {id : Uuid} (hmn : m ≤ n)
    (hid : id ∈ (runChecks env target st (cs.take m)).incidentIds) :
    id ∈ (runChecks env target st (cs.take n)).incidentIds := by
  induction n, hmn using Nat.le_induction with
  | base => exact hid
  | succ n _ ih =>
    by_cases hn : n < cs.length
    · rw [List.take_succ_eq_append_getElem hn]
      exact mem_incidentIds_append hwf hnone ih
    · rw [List.take_of_length_le (by omega), ← List.take_of_length_le (l := cs) (i := n) (by omega)]
      exact ih

/-- When the active incident was opened: the identifier is there exactly from the end of the check that opened
the episode on. -/
theorem mem_incidentIds_iff (env : Env) (cs : List Check) : ∀ {hist : List HealthStatus} {a : Incident},
    openEpisode env.incidentRecoveryStreak (statuses cs) = some hist →
      activeRows target (runChecks env target st cs).db.incidents = [a] → ∀ m ≤ cs.length,
        (a.id ∈ (runChecks env target st (cs.take m)).incidentIds ↔ cs.length - hist.length < m) := by
  induction cs using List.reverseRecOn with
  | nil => intro hist a h; cases h
  | append_singleton cs c ih =>
    intro hist a hep ha m hm
    rw [List.length_append, List.length_singleton] at hm ⊢
    have htracks := runChecks_tracks hwf hnone env cs
    have hmem : a ∈ activeRows target (runChecks env target st (cs ++ [c])).db.incidents := ha ▸ List.mem_singleton_self a
    have hpresent : a.id ∈ (runChecks env target st (cs ++ [c])).incidentIds :=
      List.mem_map_of_mem (mem_activeRows.1 hmem).1
    rw [statuses_append, openEpisode, episode_append_singleton] at hep
    have htake : ∀ m ≤ cs.length, (cs ++ [c]).take m = cs.take m := fun m hm => List.take_append_of_le_length hm
    have hall : (cs ++ [c]).take (cs.length + 1) = cs ++ [c] := List.take_of_length_le (by simp)
    rcases (runChecks_tableStep hwf hnone env cs c).active_from hmem with ⟨hclosed, hfresh⟩ | ⟨b, hb, hid⟩
    · -- A new incident: no earlier store has its identifier.
      have hcur : openEpisode env.incidentRecoveryStreak (statuses cs) = none := by
        rcases hcur : openEpisode env.incidentRecoveryStreak (statuses cs) with _ | h'
        · rfl
        · obtain ⟨b, hb, -⟩ := htracks.running h' hcur
          rw [hclosed] at hb
          cases hb
      have hlen : hist.length = 1 := by
        rcases next_eq_some hep with ⟨-, -, rfl⟩ | ⟨h', hcur', -⟩
        · rfl
        · rw [openEpisode, hcur'] at hcur
          cases hcur
      rcases Nat.lt_or_ge cs.length m with hlt | hle
      · obtain rfl : m = cs.length + 1 := by omega
        rw [hall]
        exact ⟨fun _ => by omega, fun _ => hpresent⟩
      · rw [htake m hle]
        refine ⟨fun hin => ?_, fun h => by omega⟩
        have hin := mem_incidentIds_take hwf hnone hle hin
        rw [List.take_length] at hin
        obtain ⟨i, hi, heq⟩ := List.mem_map.1 hin
        exact absurd (htracks.wf.id_lt i hi) (Nat.not_lt.2 (heq ▸ hfresh))
    · -- The incident was active before the check.
      have hb' : activeRows target (runChecks env target st cs).db.incidents = [b] := by
        have hle := htracks.length_le
        rcases hact : activeRows target (runChecks env target st cs).db.incidents with _ | ⟨x, rest⟩ <;> rw [hact] at hb hle
        · cases hb
        · obtain rfl : rest = [] := List.eq_nil_of_length_eq_zero (by rw [List.length_cons] at hle; omega)
          rw [List.mem_singleton.1 hb]
      obtain ⟨h', hcur, -⟩ := htracks.of_active hb'
      have hlen : hist.length = h'.length + 1 := by
        rcases next_eq_some hep with ⟨hcur', -⟩ | ⟨h'', hcur', rfl⟩ <;> rw [openEpisode, hcur'] at hcur <;> cases hcur
        simp
      have hpos : h'.length ≤ cs.length := by
        obtain ⟨pre, hpre⟩ := (episode_isOpen env.recoveryStreak_pos up_of_isFailing hcur).suffix
        have := congrArg List.length hpre
        simp only [statuses, List.length_map, List.length_append] at this
        omega
      rcases Nat.lt_or_ge cs.length m with hlt | hle
      · obtain rfl : m = cs.length + 1 := by omega
        rw [hall]
        exact ⟨fun _ => by omega, fun _ => hpresent⟩
      · rw [htake m hle, ← hid, ih hcur hb' m hle]
        omega

end Histories

/-! ### The law -/

/-- The incident `id` is opened by the `i`-th check. -/
def OpenedAt (env : Env) (target : MonitoredApi) (st : Store) (cs : List Check) (i : Nat) (id : Uuid) : Prop :=
  id ∉ (runChecks env target st (cs.take i)).incidentIds ∧
    id ∈ (runChecks env target st (cs.take (i + 1))).incidentIds

/-- The life of the target's incidents under the checks `cs`; `after n` is the store after the first `n`. -/
structure LifecycleLaw (env : Env) (target : MonitoredApi) (cs : List Check) (after : Nat → Store)
    (openedAt : Nat → Uuid → Prop) : Prop where
  active_le_one : ∀ n, (activeRows target (after n).db.incidents).length ≤ 1
  opens_iff : ∀ n c, cs[n]? = some c →
    ((∃ i ∈ (after (n + 1)).db.incidents, i.id ∉ (after n).incidentIds) ↔
      activeRows target (after n).db.incidents = [] ∧ c.outcome.status.isFailing)
  opens : ∀ n c, cs[n]? = some c → ∀ i ∈ (after (n + 1)).db.incidents, i.id ∉ (after n).incidentIds →
    i ∈ activeRows target (after (n + 1)).db.incidents
  opened_at : ∀ n ≤ cs.length, ∀ a ∈ activeRows target (after n).db.incidents, ∃ i < n, openedAt i a.id
  resolves_iff : ∀ n c, cs[n]? = some c → ∀ a ∈ activeRows target (after n).db.incidents, ∀ i, openedAt i a.id →
    ((∃ r ∈ (after (n + 1)).db.incidents, r.id = a.id ∧ r.status = .resolved) ↔
      i + env.incidentRecoveryStreak ≤ n ∧
        ∀ c ∈ (cs.take (n + 1)).drop (n + 1 - env.incidentRecoveryStreak), c.outcome.status = .up)
  unknown : ∀ n c, cs[n]? = some c → c.outcome.status = .unknown →
    (after (n + 1)).db.incidents = (after n).db.incidents ∧ (after (n + 1)).successes target.id = 0
  failureCount : ∀ n ≤ cs.length, ∀ a ∈ activeRows target (after n).db.incidents, ∀ i, openedAt i a.id →
    a.failureCount = ((cs.take n).drop i).countP (·.outcome.status.isFailing)

section Law

variable (hwf : st.IncidentsWf) (hnone : activeRows target st.db.incidents = [])
include hwf hnone

/-- The position of the check that opened an active incident. -/
theorem openedAt_iff (env : Env) {cs : List Check} {n : Nat} (hn : n ≤ cs.length) {a : Incident}
    (ha : a ∈ activeRows target (runChecks env target st (cs.take n)).db.incidents) :
    ∃ hist, openEpisode env.incidentRecoveryStreak (statuses (cs.take n)) = some hist ∧
      activeRows target (runChecks env target st (cs.take n)).db.incidents = [a] ∧
      hist = statuses ((cs.take n).drop (n - hist.length)) ∧ 0 < hist.length ∧ hist.length ≤ n ∧
      ∀ i, OpenedAt env target st cs i a.id ↔ i = n - hist.length := by
  have htracks := runChecks_tracks hwf hnone env (cs.take n)
  have hone : activeRows target (runChecks env target st (cs.take n)).db.incidents = [a] := by
    obtain ⟨b, hb⟩ := List.length_eq_one_iff.1 (Nat.le_antisymm htracks.length_le (List.length_pos_of_mem ha))
    rw [hb] at ha ⊢
    rw [List.mem_singleton.1 ha]
  obtain ⟨hist, hep, -⟩ := htracks.of_active hone
  obtain ⟨⟨pre, hpre⟩, ⟨b, t, hhead, -⟩, -⟩ := episode_isOpen env.recoveryStreak_pos up_of_isFailing hep
  have hlen : (cs.take n).length = n := by simp [hn]
  have hpos : 0 < hist.length := by simp [hhead]
  have hsum : pre.length + hist.length = n := by
    have := congrArg List.length hpre
    rwa [statuses, List.length_map, hlen, List.length_append, eq_comm] at this
  refine ⟨hist, hep, hone, ?_, hpos, by omega, fun i => ?_⟩
  · rw [statuses, List.map_drop, ← statuses, hpre, List.drop_append_of_le_length (by omega),
      List.drop_eq_nil_of_le (by omega), List.nil_append]
  · have hborn : ∀ m, a.id ∈ (runChecks env target st (cs.take m)).incidentIds ↔ n - hist.length < m := by
      intro m
      rcases Nat.le_total m n with hle | hge
      · have := mem_incidentIds_iff hwf hnone env (cs.take n) hep hone m (by omega)
        rwa [List.take_take, Nat.min_eq_left hle, hlen] at this
      · refine ⟨fun _ => by omega, fun _ => mem_incidentIds_take hwf hnone hge ?_⟩
        exact List.mem_map_of_mem (mem_activeRows.1 ha).1
    rw [OpenedAt, hborn, hborn]
    omega

/-- The life of the incidents of a target that has no active one at first, under every sequence of checks. -/
theorem incident_lifecycle (env : Env) (cs : List Check) :
    LifecycleLaw env target cs (fun n => runChecks env target st (cs.take n)) (OpenedAt env target st cs) := by
  have hsucc : ∀ n c, cs[n]? = some c → cs.take (n + 1) = cs.take n ++ [c] := fun n c hc => by
    rw [List.take_add_one, hc]
    rfl
  have hstep : ∀ n c, cs[n]? = some c → TableStep env target c.outcome.status
      ((runChecks env target st (cs.take (n + 1))).successes target.id)
      (runChecks env target st (cs.take n)).nextUuid (runChecks env target st (cs.take (n + 1))).nextUuid
      (runChecks env target st (cs.take n)).db.incidents (runChecks env target st (cs.take (n + 1))).db.incidents := by
    intro n c hc
    rw [hsucc n c hc]
    exact runChecks_tableStep hwf hnone env (cs.take n) c
  have htracks := fun n => runChecks_tracks hwf hnone env (cs.take n)
  refine ⟨fun n => (htracks n).length_le, fun n c hc => (hstep n c hc).opens_iff (htracks n).wf.id_lt,
    fun n c hc i hi hnew => (hstep n c hc).opens hi hnew, fun n hn a ha => ?_, fun n c hc a ha i hi => ?_, fun n c hc hs => ?_, fun n hn a ha i hi => ?_⟩
  · obtain ⟨hist, -, -, -, hpos, hle, hiff⟩ := openedAt_iff hwf hnone env hn ha
    exact ⟨n - hist.length, by omega, (hiff _).2 rfl⟩
  · have hn : n < cs.length := (List.getElem?_eq_some_iff.1 hc).1
    obtain ⟨hist, hep, hone, hhist, hpos, hle, hiff⟩ := openedAt_iff hwf hnone env (Nat.le_of_lt hn) ha
    obtain rfl := (hiff i).1 hi
    have hrun := (hep ▸ htracks n).goodRun_eq env c
    rw [← runChecks_append, ← hsucc n c hc] at hrun
    have hlong : c.outcome.status = .up ∧
        env.incidentRecoveryStreak ≤ (runChecks env target st (cs.take (n + 1))).successes target.id ↔
          env.incidentRecoveryStreak ≤ goodRun (· = HealthStatus.up) (hist ++ [c.outcome.status]) := by
      rw [← hrun]
      refine ⟨fun h => h.2, fun h => ⟨?_, h⟩⟩
      have hk := env.recoveryStreak_pos
      rw [goodRun_append_singleton] at h
      split at h
      · rename_i hup
        exact of_decide_eq_true hup
      · omega
    rw [(hstep n c hc).resolves_iff (htracks n).wf.nodup hone, hlong]
    have hdrop : (statuses (cs.take n)).drop (n - hist.length) = hist := by
      rw [statuses, ← List.map_drop]
      exact hhist.symm
    have hlen : (statuses (cs.take n)).length = n := by simp [statuses, Nat.le_of_lt hn]
    have hclose := close_iff (k := env.incidentRecoveryStreak) (a := c.outcome.status) up_of_isFailing
      (by rw [hdrop]; exact (episode_isOpen env.recoveryStreak_pos up_of_isFailing hep).head)
    rw [hdrop, hlen, ← statuses_append, ← hsucc n c hc] at hclose
    rw [hclose, statuses, ← List.map_drop]
    simp only [List.forall_mem_map, decide_eq_true_eq]
  · have hidle := hstep n c hc
    have hzero := process_successes env target (runChecks env target st (cs.take n)) c
    rw [hs, if_neg (by decide), ← runChecks_append, ← hsucc n c hc] at hzero
    rw [hs] at hidle
    refine ⟨?_, hzero⟩
    generalize (runChecks env target st (cs.take n)).db.incidents = rows at hidle ⊢
    generalize (runChecks env target st (cs.take (n + 1))).db.incidents = rows' at hidle ⊢
    cases hidle with
    | idle => rfl
    | opened hstatus | failed hstatus | resolved hstatus => cases hstatus
  · obtain ⟨hist, hep, hone, hhist, hpos, hle, hiff⟩ := openedAt_iff hwf hnone env hn ha
    obtain rfl := (hiff i).1 hi
    obtain ⟨hist', hep', hcount⟩ := (htracks n).of_active hone
    rw [hep] at hep'
    cases hep'
    have hfail := congrArg (List.countP HealthStatus.isFailing) hhist
    rw [hcount, hfail, statuses, List.countP_map]
    rfl

end Law

/-- A check with this status in the `minute`-th minute. -/
def checkAt (minute : Nat) (status : HealthStatus) : Check where
  slot := minute * 60000
  elapsed := 60000
  outcome :=
    { status, httpStatus := none, responseTimeMs := none, failureType := none, errorMessage := none, validation := none
      attempts := 1, trace := none, checkedAt := minute * 60000 }

theorem empty_incidentsWf : Store.IncidentsWf Store.empty :=
  ⟨List.nodup_nil, fun _ h => absurd h List.not_mem_nil⟩

/-- An outage of one check, after which the target recovers. -/
def recovery : List Check := [checkAt 1 .up, checkAt 2 .down, checkAt 3 .up, checkAt 4 .unknown, checkAt 5 .up, checkAt 6 .up]

theorem incident_lifecycle_recovery :
    (activeRows makeMonitoredApi (runChecks Env.default makeMonitoredApi Store.empty (recovery.take 5)).db.incidents).length = 1 ∧
      activeRows makeMonitoredApi (runChecks Env.default makeMonitoredApi Store.empty recovery).db.incidents = [] ∧
      LifecycleLaw Env.default makeMonitoredApi recovery
        (fun n => runChecks Env.default makeMonitoredApi Store.empty (recovery.take n))
        (OpenedAt Env.default makeMonitoredApi Store.empty recovery) :=
  ⟨rfl, rfl, incident_lifecycle empty_incidentsWf rfl Env.default recovery⟩

end CronMonitor
