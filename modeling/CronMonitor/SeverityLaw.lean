import CronMonitor.IncidentLaw

/-!
# The severity of incidents

A `DOWN` check is meant to leave the active incident at the target's full severity. The promotion looks at
the type of the incident, and the flapping test rewrites that type: an incident that was opened by a
`DEGRADED` check and became `FLAPPING` before its first `DOWN` check is not promoted
(`flapping_not_promoted`). The law holds exactly in the histories in which no `DOWN` check finds such an
incident (`incident_severity_iff`).
-/

namespace CronMonitor

open Episodes

variable {env : Env} {target : MonitoredApi} {st : Store} {cs : List Check}

/-- From its first `DOWN` check on, an incident has the severity of its target as long as it is active. -/
def SeverityLaw (env : Env) (target : MonitoredApi) (st : Store) (cs : List Check) : Prop :=
  ∀ n ≤ cs.length, ∀ a ∈ activeRows target (runChecks env target st (cs.take n)).db.incidents,
    ∀ i, OpenedAt env target st cs i a.id → (∃ c ∈ (cs.take n).drop i, c.outcome.status = .down) →
      a.severity = target.severityDefault

/-- A `DOWN` check that finds the active incident flapping finds it at full severity. -/
def FlapsAtFullSeverity (env : Env) (target : MonitoredApi) (st : Store) (cs : List Check) : Prop :=
  ∀ n c, cs[n]? = some c → c.outcome.status = .down →
    ∀ a ∈ activeRows target (runChecks env target st (cs.take n)).db.incidents,
      a.incidentType = .flapping → a.severity = target.severityDefault

/-- What an active incident with the history `hist` shows. -/
structure Graded (target : MonitoredApi) (hist : List HealthStatus) (a : Incident) : Prop where
  down : .down ∈ hist → a.severity = target.severityDefault
  outage : a.incidentType = .outage → a.severity = target.severityDefault

/-- A failing check grades the incident it is recorded on. -/
theorem Graded.failed {hist : List HealthStatus} {a a' : Incident} {s : HealthStatus} (h : Graded target hist a)
    (hflap : s = .down → a.incidentType = .flapping → a.severity = target.severityDefault)
    (hseverity : a'.severity =
      if s = .down ∧ a.incidentType = .degradation then target.severityDefault else a.severity)
    (htype : a'.incidentType = .flapping ∨ a'.incidentType =
      if s = .down ∧ a.incidentType = .degradation then .outage else a.incidentType) :
    Graded target (hist ++ [s]) a' := by
  by_cases hp : s = .down ∧ a.incidentType = .degradation
  · rw [if_pos hp] at hseverity
    exact ⟨fun _ => hseverity, fun _ => hseverity⟩
  · rw [if_neg hp] at hseverity htype
    refine ⟨fun hdown => ?_, fun hout => ?_⟩ <;> rw [hseverity]
    · rcases List.mem_append.1 hdown with hold | hnew
      · exact h.down hold
      · obtain rfl := List.mem_singleton.1 hnew
        cases hty : a.incidentType with
        | outage => exact h.outage hty
        | degradation => exact absurd ⟨rfl, hty⟩ hp
        | flapping => exact hflap rfl hty
    · rcases htype with htype | htype
      · rw [htype] at hout
        cases hout
      · exact h.outage (htype ▸ hout)

section Severity

variable (hwf : st.IncidentsWf) (hnone : activeRows target st.db.incidents = [])
include hwf hnone

/-- In a history that meets the condition, every active incident is graded by its episode. -/
theorem runChecks_graded (env : Env) (cs : List Check) (hcond : FlapsAtFullSeverity env target st cs) :
    ∀ n ≤ cs.length, ∀ a ∈ activeRows target (runChecks env target st (cs.take n)).db.incidents,
      ∀ hist, openEpisode env.incidentRecoveryStreak (statuses (cs.take n)) = some hist → Graded target hist a := by
  intro n
  induction n with
  | zero => intro _ a ha hist hep; cases hep
  | succ n ih =>
    intro hn a ha hist hep
    obtain ⟨c, hc⟩ : ∃ c, cs[n]? = some c := ⟨_, List.getElem?_eq_getElem (by omega)⟩
    have htake : cs.take (n + 1) = cs.take n ++ [c] := by
      rw [List.take_add_one, hc]
      rfl
    have hflap := hcond n c hc
    have hstep := runChecks_tableStep hwf hnone env (cs.take n) c
    have htracks := runChecks_tracks hwf hnone env (cs.take n)
    have ih := ih (by omega)
    rw [htake, statuses_append, openEpisode, episode_append_singleton] at hep
    rw [htake] at ha
    generalize (runChecks env target st (cs.take n ++ [c])).db.incidents = rows' at hstep ha
    rcases next_eq_some hep with ⟨hcur, hbad, rfl⟩ | ⟨h', hcur, rfl⟩
    · -- The check opened the incident.
      have hclosed := htracks.closed hcur
      generalize (runChecks env target st (cs.take n)).db.incidents = rows at hstep hclosed
      cases hstep with
      | idle hidle => simp [hidle] at hbad
      | @opened _ new _ _ _ _ _ _ hseverity htype =>
        have hnew : a = new := by
          rw [activeRows, List.filter_append] at ha
          rw [activeRows] at hclosed
          rw [hclosed, List.nil_append] at ha
          exact List.mem_singleton.1 (List.mem_of_mem_filter ha)
        subst hnew
        by_cases hs : c.outcome.status = .down
        · rw [if_pos hs] at hseverity
          exact ⟨fun _ => hseverity, fun _ => hseverity⟩
        · rw [if_neg hs] at htype
          refine ⟨fun hdown => absurd (List.mem_singleton.1 hdown).symm hs, fun hout => ?_⟩
          rcases htype with htype | htype <;> rw [htype] at hout <;> cases hout
      | failed _ hactive => simp [hclosed] at hactive
      | resolved _ _ hactive => simp [hclosed] at hactive
    · -- The incident was active before the check.
      obtain ⟨b, hb, -⟩ := htracks.running h' hcur
      have hgraded := ih b (hb ▸ List.mem_singleton_self b) h' hcur
      have hflap := fun hs => hflap hs b (hb ▸ List.mem_singleton_self b)
      generalize (runChecks env target st (cs.take n)).db.incidents = rows at hstep hb
      cases hstep with
      | idle hidle =>
        rw [hb] at ha
        obtain rfl := List.mem_singleton.1 ha
        refine ⟨fun hdown => hgraded.down ?_, hgraded.outage⟩
        rcases List.mem_append.1 hdown with hold | hnew
        · exact hold
        · rw [← List.mem_singleton.1 hnew] at hidle
          cases hidle
      | opened _ hclosed => simp [hclosed] at hb
      | @failed pre post x x' _ hactive _ _ _ _ hseverity htype =>
        obtain rfl : x = b := by rw [hactive] at hb; cases hb; rfl
        rw [activeRows_replace x' hactive] at ha
        obtain rfl := List.mem_singleton.1 (List.mem_of_mem_filter ha)
        exact hgraded.failed hflap hseverity htype
      | @resolved pre post x x' _ _ hactive _ hdone =>
        rw [activeRows_replace x' hactive] at ha
        simp [activeRows, Incident.isActive, hdone] at ha

/-- For every history of checks: the severity law holds exactly when no `DOWN` check finds the active incident
`FLAPPING` below the target's severity. -/
theorem incident_severity_iff (env : Env) (cs : List Check) :
    SeverityLaw env target st cs ↔ FlapsAtFullSeverity env target st cs := by
  constructor
  · intro hlaw n c hc hdown a ha hflap
    have hn : n < cs.length := (List.getElem?_eq_some_iff.1 hc).1
    have htake : cs.take (n + 1) = cs.take n ++ [c] := by
      rw [List.take_add_one, hc]
      rfl
    obtain ⟨hist, -, hone, -, hpos, hle, hiff⟩ := openedAt_iff hwf hnone env (Nat.le_of_lt hn) ha
    have hopened : OpenedAt env target st cs (n - hist.length) a.id := (hiff _).2 rfl
    have hlater := hlaw (n + 1) hn
    have hstep := runChecks_tableStep hwf hnone env (cs.take n) c
    rw [htake] at hlater
    have hmem : ∃ c' ∈ (cs.take n ++ [c]).drop (n - hist.length), c'.outcome.status = .down := by
      refine ⟨c, ?_, hdown⟩
      rw [List.drop_append_of_le_length (by simp; omega)]
      exact List.mem_append_right _ (List.mem_singleton_self _)
    generalize (runChecks env target st (cs.take n ++ [c])).db.incidents = rows' at hstep hlater
    generalize (runChecks env target st (cs.take n)).db.incidents = rows at hstep hone
    rw [hdown] at hstep
    cases hstep with
    | idle hidle => cases hidle
    | opened _ hclosed => simp [hclosed] at hone
    | @failed pre post x x' _ hactive hid hapi hopen _ hseverity =>
      obtain rfl : x = a := by rw [hactive] at hone; cases hone; rfl
      rw [hflap, if_neg (by simp)] at hseverity
      have hx : x' ∈ activeRows target (pre ++ x' :: post) := by
        have hmem : x ∈ activeRows target (pre ++ x :: post) := hactive ▸ List.mem_singleton_self x
        obtain ⟨-, hxapi, hxactive⟩ := mem_activeRows.1 hmem
        refine mem_activeRows.2 ⟨by simp, hapi.trans hxapi, ?_⟩
        simpa [Incident.isActive, hopen] using hxactive
      rw [← hseverity]
      exact hlater x' hx _ (hid ▸ hopened) hmem
    | resolved hup => cases hup
  · intro hcond n hn a ha i hi hdown
    obtain ⟨hist, hep, -, hhist, -, -, hiff⟩ := openedAt_iff hwf hnone env hn ha
    obtain rfl := (hiff i).1 hi
    refine (runChecks_graded hwf hnone env cs hcond n hn a ha hist hep).down ?_
    obtain ⟨c, hc, hs⟩ := hdown
    have hmem : c.outcome.status ∈ statuses ((cs.take n).drop (n - hist.length)) := List.mem_map_of_mem hc
    rw [← hhist, hs] at hmem
    exact hmem

end Severity

/-- A target whose outages are critical. -/
def criticalApi : MonitoredApi := { makeMonitoredApi with severityDefault := .critical }

/-- The target flaps between `UP` and `DEGRADED` and then goes down. -/
def flapThenDown : List Check :=
  [checkAt 1 .up, checkAt 2 .degraded, checkAt 3 .up, checkAt 4 .degraded, checkAt 5 .up, checkAt 6 .degraded,
    checkAt 7 .down]

theorem incident_severity_recovery :
    SeverityLaw Env.default criticalApi Store.empty recovery ↔
      FlapsAtFullSeverity Env.default criticalApi Store.empty recovery :=
  incident_severity_iff empty_incidentsWf rfl Env.default recovery

/-- The incident of a critical target stays at `HIGH` through a `DOWN` check. -/
theorem flapping_not_promoted : ¬ SeverityLaw Env.default criticalApi Store.empty flapThenDown := by
  intro hlaw
  have hrows : (activeRows criticalApi (runChecks Env.default criticalApi Store.empty
      (flapThenDown.take 7)).db.incidents).map (fun a => (a.id, a.incidentType, a.severity)) = [(2, .flapping, .high)] := by
    decide +kernel
  obtain ⟨a, ha, hrow⟩ := List.map_eq_singleton_iff.1 hrows
  simp only [Prod.mk.injEq] at hrow
  have hopened : OpenedAt Env.default criticalApi Store.empty flapThenDown 1 a.id := by
    rw [hrow.1]
    constructor <;> decide +kernel
  have hsev := hlaw 7 (by decide) a (by rw [ha]; exact List.mem_singleton_self a) 1 hopened
    ⟨checkAt 7 .down, by simp [flapThenDown], rfl⟩
  rw [hrow.2.2] at hsev
  cases hsev

end CronMonitor
