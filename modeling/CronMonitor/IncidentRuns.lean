import CronMonitor.IncidentRows

/-!
# Sequences of checks of one target

`runChecks` records a list of checks, each in its own transaction (`Store.process`). `process_spec` says what
one of them does to the incident table and to the streak of successes; `TableStep` says the same in terms of
the incident that is active, and is what the laws about incidents are proved from.
-/

namespace CronMonitor

open Eff Session

/-- A check of the target, `elapsed` milliseconds after the one before. -/
structure Check where
  slot : Time
  outcome : HealthCheckOutcome
  elapsed : Nat

/-- Records one check, with no statement failing. -/
def Store.process (env : Env) (target : MonitoredApi) (st : Store) (c : Check) : Store :=
  (Store.onPool { st with now := st.now + c.elapsed } none
    (withTransaction (recordCheck env target c.slot c.outcome))).2

/-- Records the checks in order. -/
def runChecks (env : Env) (target : MonitoredApi) (st : Store) (cs : List Check) : Store :=
  cs.foldl (Store.process env target) st

/-- The streak of successes that the schedule table holds for a target. -/
def Store.successes (st : Store) (targetId : Uuid) : Nat :=
  ((st.db.scheduleStates.find? (·.targetId = targetId)).map (·.consecutiveSuccesses)).getD 0

variable {env : Env} {target : MonitoredApi} {st st' v w : Store} {c : Check}

/-- Only an `UP` extends the streak; every other status ends it. -/
theorem recordRunOutcome_successes (targetId : Uuid) (slot : Time) (status : HealthStatus) (v : Store) :
    (Sql.recordRunOutcome targetId slot status v).1.1 = (if status = .up then v.successes targetId + 1 else 0) ∧
      (Sql.recordRunOutcome targetId slot status v).2.successes targetId =
        (Sql.recordRunOutcome targetId slot status v).1.1 := by
  rcases hfind : v.db.scheduleStates.find? (·.targetId = targetId) with _ | r
  · simp only [Sql.recordRunOutcome, Store.successes, hfind]
    refine ⟨by simp [Sql.firstScheduleState], ?_⟩
    rw [List.find?_append, hfind]
    simp [Sql.firstScheduleState]
  · have hid : r.targetId = targetId := by simpa using List.find?_some hfind
    have hmap : (v.db.scheduleStates.map fun r =>
        if r.targetId = targetId then Sql.nextScheduleState slot v.now status r else r).find? (·.targetId = targetId) =
          some (Sql.nextScheduleState slot v.now status r) := by
      have hcomp : ((fun r : TargetScheduleState => decide (r.targetId = targetId)) ∘ fun r =>
          if r.targetId = targetId then Sql.nextScheduleState slot v.now status r else r) =
            fun r => decide (r.targetId = targetId) := by
        funext r
        simp only [Function.comp]
        split <;> rfl
      rw [List.find?_map, hcomp, hfind, Option.map_some, if_pos hid]
    simp only [Sql.recordRunOutcome, Store.successes, hfind, hmap]
    exact ⟨by simp [Sql.nextScheduleState], by simp⟩

/-- The trace of a check touches neither incidents nor schedule. -/
theorem recordTrace_sameIncidents (runId : JobRunId) (checkId : Option Uuid) (outcome : HealthCheckOutcome) (v : Store) :
    TxReturns (· = v) (recordTrace target runId checkId outcome) fun _ w =>
      w.db.incidents = v.db.incidents ∧ w.db.scheduleStates = v.db.scheduleStates ∧ v.nextUuid ≤ w.nextUuid := by
  unfold recordTrace
  split
  · refine TxReturns.bind (newRequestId_returns v) fun requestId => TxReturns.client ?_
    rintro w rfl
    unfold Sql.insertTrace
    split <;> exact ⟨rfl, rfl, Nat.le_succ _⟩
  · refine TxReturns.pure ?_
    rintro _ rfl
    exact ⟨rfl, rfl, Nat.le_refl _⟩

/-- What recording one check does: the state machine runs on a view `v` that has the incidents of before and
the streak of after. -/
theorem process_spec (env : Env) (target : MonitoredApi) (st : Store) (c : Check) :
    ∃ ctx v, ctx.target = target ∧ ctx.status = c.outcome.status ∧
      ctx.consecutiveSuccesses = (if c.outcome.status = .up then st.successes target.id + 1 else 0) ∧
      (st.process env target c).successes target.id = ctx.consecutiveSuccesses ∧
      v.db.incidents = st.db.incidents ∧ st.nextUuid ≤ v.nextUuid ∧
      v.nextUuid ≤ (st.process env target c).nextUuid ∧
      (opens ctx v → v.nextUuid < (st.process env target c).nextUuid) ∧
      (st.process env target c).db.incidents = nextIncidents env ctx v := by
  set st₀ : Store := { st with now := st.now + c.elapsed }
  have hrec : TxReturns (· = st₀) (recordCheck env target c.slot c.outcome) fun _ w => ∃ ctx v, ctx.target = target ∧
      ctx.status = c.outcome.status ∧
      ctx.consecutiveSuccesses = (if c.outcome.status = .up then st.successes target.id + 1 else 0) ∧
      w.successes target.id = ctx.consecutiveSuccesses ∧ v.db.incidents = st.db.incidents ∧
      st.nextUuid ≤ v.nextUuid ∧ v.nextUuid ≤ w.nextUuid ∧ (opens ctx v → v.nextUuid < w.nextUuid) ∧
      w.db.incidents = nextIncidents env ctx v := by
    refine TxReturns.bind (TxReturns.send _ st₀) fun checkId => TxReturns.of_forall ?_
    rintro v₁ ⟨-, hv₁⟩
    have h₁ : v₁.db.incidents = st.db.incidents ∧ v₁.db.scheduleStates = st.db.scheduleStates ∧
        st.nextUuid ≤ v₁.nextUuid := by
      rw [hv₁]
      unfold Sql.insertHealthCheckResult
      split
      · exact ⟨rfl, rfl, Nat.le_refl _⟩
      · exact ⟨rfl, rfl, Nat.le_succ _⟩
    refine TxReturns.bind (recordTrace_sameIncidents _ _ _ v₁) fun _ => TxReturns.of_forall ?_
    rintro v₂ ⟨hinc₂, hsched₂, huuid₂⟩
    refine TxReturns.bind (TxReturns.send _ v₂) fun counters => TxReturns.of_forall ?_
    rintro v₃ ⟨rfl, hv₃⟩
    obtain ⟨hcounter, hstored⟩ := recordRunOutcome_successes target.id c.slot c.outcome.status v₂
    have hsucc : v₂.successes target.id = st.successes target.id := by
      simp only [Store.successes, hsched₂, h₁.2.1]
    rw [hsucc] at hcounter
    refine ((processCheckOutcome_incidents v₃).and ((processCheckOutcome_writes env _).returns v₃)).conseq
      (fun _ h => h) ?_
    rintro t w ⟨⟨hopens, hinc⟩, honly⟩
    rw [recordRunOutcome_db] at hv₃
    refine ⟨_, v₃, rfl, rfl, hcounter, ?_, ?_, ?_, honly.uuid, hopens, hinc⟩
    · rw [← hstored, Store.successes, Store.successes, honly.db, hv₃]
    · rw [hv₃]
      exact hinc₂.trans h₁.1
    · rw [hv₃]
      exact h₁.2.2.trans huuid₂
  obtain ⟨t, w, hx, hw⟩ := withTransaction_returns hrec
  have hprocess : st.process env target c = w := by
    show (exec (withTransaction (recordCheck env target c.slot c.outcome)) ⟨st₀, none, none⟩).2.store = w
    rw [hx]
  rw [hprocess]
  exact hw

/-! ### The active incident -/

/-- The incidents of the target that are not resolved. -/
def activeRows (target : MonitoredApi) (rows : List Incident) : List Incident :=
  rows.filter fun i => i.apiId = target.id && i.isActive

/-- Identifiers of incidents are distinct and were drawn from the stream. -/
structure Store.IncidentsWf (st : Store) : Prop where
  nodup : (st.db.incidents.map (·.id)).Nodup
  id_lt : ∀ i ∈ st.db.incidents, i.id < st.nextUuid

/-- How the incident table moves when a check with this status is recorded and `streak` is the streak of
successes it leaves; identifiers from `n` to `n'` are drawn for it. -/
inductive TableStep (env : Env) (target : MonitoredApi) (status : HealthStatus) (streak : Nat) (n n' : Uuid) :
    List Incident → List Incident → Prop
  | idle {rows : List Incident} (hstatus : status.isFailing = false)
      (hstreak : status = .up → activeRows target rows ≠ [] → streak < env.incidentRecoveryStreak) :
      TableStep env target status streak n n' rows rows
  | opened {rows : List Incident} {new : Incident} (hstatus : status.isFailing) (hnone : activeRows target rows = [])
      (hid : n ≤ new.id ∧ new.id < n') (hapi : new.apiId = target.id) (hactive : new.isActive) (hcount : new.failureCount = 1)
      (hseverity : new.severity = if status = .down then target.severityDefault else degrade target.severityDefault)
      (htype : new.incidentType = .flapping ∨ new.incidentType = if status = .down then .outage else .degradation) :
      TableStep env target status streak n n' rows (rows ++ [new])
  | failed {pre post : List Incident} {a a' : Incident} (hstatus : status.isFailing)
      (hactive : activeRows target (pre ++ a :: post) = [a]) (hid : a'.id = a.id) (hapi : a'.apiId = a.apiId)
      (hopen : a'.status = a.status) (hcount : a'.failureCount = a.failureCount + 1)
      (hseverity : a'.severity =
        if status = .down ∧ a.incidentType = .degradation then target.severityDefault else a.severity)
      (htype : a'.incidentType = .flapping ∨ a'.incidentType =
        if status = .down ∧ a.incidentType = .degradation then .outage else a.incidentType) :
      TableStep env target status streak n n' (pre ++ a :: post) (pre ++ a' :: post)
  | resolved {pre post : List Incident} {a a' : Incident} (hstatus : status = .up)
      (hstreak : env.incidentRecoveryStreak ≤ streak) (hactive : activeRows target (pre ++ a :: post) = [a])
      (hid : a'.id = a.id) (hdone : a'.status = .resolved) :
      TableStep env target status streak n n' (pre ++ a :: post) (pre ++ a' :: post)

theorem findActive_eq (target : MonitoredApi) (v : Store) :
    (Sql.findActiveIncident target.id v).1 = (activeRows target v.db.incidents).head? :=
  List.head?_filter.symm

theorem updateRows_split {pre post : List Incident} {a : Incident} {f : Incident → Incident}
    (hnodup : ((pre ++ a :: post).map (·.id)).Nodup) :
    updateRows a.id f (pre ++ a :: post) = pre ++ f a :: post := by
  have hother : ∀ i ∈ pre ++ post, i.id ≠ a.id := by
    rw [List.map_append, List.map_cons, List.nodup_middle, List.nodup_cons] at hnodup
    intro i hi heq
    refine hnodup.1 (heq ▸ ?_)
    rw [← List.map_append]
    exact List.mem_map_of_mem hi
  have hid : ∀ l : List Incident, (∀ i ∈ l, i ∈ pre ++ post) → (l.map fun i => if i.id = a.id then f i else i) = l := by
    intro l hl
    refine (List.map_congr_left fun i hi => ?_).trans (List.map_id' l)
    rw [if_neg (hother i (hl i hi))]
  rw [updateRows, List.map_append, List.map_cons, if_pos rfl, hid pre fun i hi => List.mem_append_left _ hi,
    hid post fun i hi => List.mem_append_right _ hi]

theorem resolve_split {pre post : List Incident} {a : Incident} {f : Incident → Incident}
    (hnodup : ((pre ++ a :: post).map (·.id)).Nodup) (hactive : a.isActive) :
    ((pre ++ a :: post).map fun i => if i.id = a.id && i.isActive then f i else i) = pre ++ f a :: post := by
  have hrows : (fun i : Incident => if i.id = a.id && i.isActive then f i else i) =
      fun i => if i.id = a.id then (if i.isActive then f i else i) else i := by
    funext i
    by_cases hi : i.id = a.id <;> simp [hi]
  have hsplit := updateRows_split (f := fun i => if i.isActive then f i else i) hnodup
  rw [if_pos hactive] at hsplit
  rw [hrows]
  exact hsplit

theorem mem_activeRows {rows : List Incident} {i : Incident} :
    i ∈ activeRows target rows ↔ i ∈ rows ∧ i.apiId = target.id ∧ i.isActive := by
  simp [activeRows]

theorem flapRow_cases (env : Env) (ctx : CheckContext) (known : Incident) (v : Store) (i : Incident) :
    flapRow env ctx known v i = i ∨ flapRow env ctx known v i = { i with incidentType := .flapping } := by
  unfold flapRow
  split
  · exact .inr rfl
  · exact .inl rfl

/-- The incident that the check opens, after the flapping test. -/
theorem opened_step (env : Env) (streak : Nat) {n' : Uuid} {ctx : CheckContext} (hctx : ctx.target = target) (hwf : st.IncidentsWf)
    (hrows : v.db.incidents = st.db.incidents) (huuid : st.nextUuid ≤ v.nextUuid) (hlt : v.nextUuid < n')
    (hstatus : ctx.status.isFailing) (hnone : activeRows target st.db.incidents = []) :
    TableStep env target ctx.status streak st.nextUuid n' st.db.incidents
      (updateRows v.nextUuid (flapRow env ctx (Sql.newIncident (openInput ctx) v) v)
        (v.db.incidents ++ [Sql.newIncident (openInput ctx) v])) := by
  have hold : ∀ i ∈ st.db.incidents, i.id ≠ v.nextUuid := fun i hi =>
    Nat.ne_of_lt ((hwf.id_lt i hi).trans_le huuid)
  have htable : updateRows v.nextUuid (flapRow env ctx (Sql.newIncident (openInput ctx) v) v)
      (v.db.incidents ++ [Sql.newIncident (openInput ctx) v]) =
        st.db.incidents ++ [flapRow env ctx (Sql.newIncident (openInput ctx) v) v (Sql.newIncident (openInput ctx) v)] := by
    rw [hrows, updateRows, List.map_append, List.map_singleton]
    congr 1
    · refine (List.map_congr_left fun i hi => ?_).trans (List.map_id' _)
      rw [if_neg (hold i hi)]
    · rw [if_pos]
      rfl
  subst hctx
  rw [htable]
  refine .opened hstatus hnone ?_ ?_ ?_ ?_ ?_ ?_ <;> unfold flapRow <;> split
  case refine_6.isTrue => exact .inl rfl
  case refine_6.isFalse => exact .inr rfl
  all_goals first | exact ⟨huuid, hlt⟩ | rfl

/-- The incident that takes the failure of the check. -/
theorem failed_step (env : Env) (v : Store) (streak : Nat) (n n' : Uuid) {ctx : CheckContext} {pre post : List Incident}
    {a : Incident} (hctx : ctx.target = target) (hnodup : ((pre ++ a :: post).map (·.id)).Nodup) (hstatus : ctx.status.isFailing)
    (hactive : activeRows target (pre ++ a :: post) = [a]) :
    TableStep env target ctx.status streak n n' (pre ++ a :: post)
      (updateRows a.id (fun i => flapRow env ctx (promoted ctx a) v (failedRow ctx a i)) (pre ++ a :: post)) := by
  subst hctx
  rw [updateRows_split hnodup]
  by_cases hp : promotes ctx a
  · have hp' : ctx.status = .down ∧ a.incidentType = .degradation := hp
    rcases flapRow_cases env ctx (promoted ctx a) v (failedRow ctx a a) with hrow | hrow <;> rw [hrow] <;>
      refine .failed hstatus hactive ?_ ?_ ?_ ?_ ?_ ?_ <;> simp [failedRow, hp, hp']
  · have hp' : ¬ (ctx.status = .down ∧ a.incidentType = .degradation) := hp
    rcases flapRow_cases env ctx (promoted ctx a) v (failedRow ctx a a) with hrow | hrow <;> rw [hrow] <;>
      refine .failed hstatus hactive ?_ ?_ ?_ ?_ ?_ ?_ <;> simp [failedRow, hp, hp']

/-- Recording a check moves the incident table by one of the listed steps. -/
theorem process_tableStep (env : Env) (hwf : st.IncidentsWf) (hone : (activeRows target st.db.incidents).length ≤ 1) (c : Check) :
    TableStep env target c.outcome.status ((st.process env target c).successes target.id) st.nextUuid
      (st.process env target c).nextUuid st.db.incidents (st.process env target c).db.incidents := by
  obtain ⟨ctx, v, hctx, hstatus, -, hstreak, hrows, huuid, -, hopens, htable⟩ := process_spec env target st c
  have hfind : (Sql.findActiveIncident ctx.target.id v).1 = (activeRows target st.db.incidents).head? := by
    rw [hctx, findActive_eq, hrows]
  rw [htable, hstreak, ← hstatus]
  unfold nextIncidents foundIncidents
  rw [hfind]
  rcases hact : activeRows target st.db.incidents with _ | ⟨a, rest⟩
  · rcases hs : ctx.status
    case up | unknown =>
      rw [← hrows]
      exact .idle rfl fun _ hne => absurd (hrows ▸ hact) hne
    all_goals
      have hlt := hopens ⟨by simp [hs], by rw [hfind, hact]; rfl⟩
      have hopen := opened_step env ctx.consecutiveSuccesses hctx hwf hrows huuid hlt (by rw [hs]; rfl) hact
      rw [hs] at hopen
      exact hopen
  · obtain rfl : rest = [] := by
      rw [hact, List.length_cons] at hone
      exact List.eq_nil_of_length_eq_zero (by omega)
    have hmem : a ∈ activeRows target st.db.incidents := hact ▸ List.mem_singleton_self a
    obtain ⟨hmem, -, hactive⟩ := mem_activeRows.1 hmem
    obtain ⟨pre, post, hsplit⟩ := List.append_of_mem hmem
    have hnodup := hwf.nodup
    rw [hsplit] at hact hnodup
    rw [hrows, hsplit]
    rcases hs : ctx.status
    case unknown => exact .idle rfl fun h => by cases h
    case up =>
      simp only [List.head?_cons]
      split
      · rename_i hk
        rw [resolve_split hnodup hactive]
        exact .resolved rfl hk hact rfl rfl
      · rename_i hk
        exact .idle rfl fun _ _ => Nat.lt_of_not_le hk
    all_goals
      have hfail := failed_step env v ctx.consecutiveSuccesses st.nextUuid (st.process env target c).nextUuid hctx hnodup (by rw [hs]; rfl) hact
      rw [hs] at hfail
      exact hfail

end CronMonitor
