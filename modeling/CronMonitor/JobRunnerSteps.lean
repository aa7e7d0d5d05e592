import CronMonitor.ResultTx

/-!
# The steps of `runScheduledCheck`

`Call.Advances` lists what one step of a call can do to the store and where the call stands afterwards.
`Call.advances` is the only place where `Call.advance` is unfolded; every invariant of the system is
derived from it.
-/

namespace CronMonitor

open Eff Session

/-! ### Statements outside a transaction -/

theorem onPool_query {α : Type} (st : Store) (failAt : Option (Nat × String)) (stmt : Stmt α) :
    (∃ e, failAt = some (0, e) ∧ st.onPool failAt (query .pool stmt) = (.error e, st)) ∨
      (∀ e, failAt ≠ some (0, e)) ∧ st.onPool failAt (query .pool stmt) = (.ok (stmt st).1, (stmt st).2) := by
  rcases failAt with _ | ⟨_ | n, e⟩
  · exact .inr ⟨by simp, rfl⟩
  · exact .inl ⟨e, rfl, rfl⟩
  · exact .inr ⟨by simp, rfl⟩

/-- `b` is `a` with more timeline entries. -/
def MoreEvents (a b : Store) : Prop :=
  ∃ events, b = { a with db := { a.db with incidentEvents := a.db.incidentEvents ++ events } }

theorem MoreEvents.refl (a : Store) : MoreEvents a a := ⟨[], by simp⟩

theorem MoreEvents.trans {a b c : Store} (h : MoreEvents a b) (h' : MoreEvents b c) : MoreEvents a c := by
  obtain ⟨es, rfl⟩ := h
  obtain ⟨es', rfl⟩ := h'
  exact ⟨es ++ es', by simp⟩

/-- The root-cause analysis only adds timeline entries, whatever fails in it. -/
theorem refreshRcaFor_moves (rca : Uuid → Except String (List IncidentEventInput)) (t : IncidentTransition) :
    Moves (fun s s' : Session => MoreEvents s.store s'.store) (refreshRcaFor rca t) := by
  have hrefl : ∀ s : Session, MoreEvents s.store s.store := fun s => MoreEvents.refl _
  have htrans : ∀ a b c : Session, MoreEvents a.store b.store → MoreEvents b.store c.store →
      MoreEvents a.store c.store := fun a b c h h' => h.trans h'
  have hquery {α : Type} (stmt : Stmt α) (h : ∀ st, MoreEvents st (stmt st).2) :
      Moves (fun s s' : Session => MoreEvents s.store s'.store) (query .pool stmt) := by
    intro s
    rcases guarded_cases (effect .pool stmt) s with ⟨e, hx⟩ | hx <;> rw [query, hx]
    · exact MoreEvents.refl _
    · exact h _
  unfold refreshRcaFor
  split
  · exact Moves.pure hrefl _
  refine Moves.tryCatch htrans ?_ fun _ => Moves.pure hrefl _
  split
  · exact Moves.throw hrefl _
  refine Moves.forM hrefl htrans (fun e => Moves.bind htrans (hquery _ MoreEvents.refl) fun known => ?_) _
  exact Moves.ite (hquery _ fun st => ⟨[_], rfl⟩) (Moves.pure hrefl _)

theorem refreshRcaFor_exec (rca : Uuid → Except String (List IncidentEventInput)) (t : IncidentTransition)
    (s : Session) : (exec (refreshRcaFor rca t) s).1 = .ok () := by
  unfold refreshRcaFor
  split
  · rfl
  · rw [exec_tryCatch]
    split <;> rfl

theorem MoreEvents.sameRuns {a b : Store} (h : MoreEvents a b) : SameRuns 0 a b := by
  obtain ⟨es, rfl⟩ := h
  exact ⟨rfl, rfl, Nat.le_refl _, Nat.le_refl _, Nat.le_refl _, rfl⟩

theorem acquireLock_sameRuns (key : LockKey) (holder : String) (ttlMs : Nat) (st : Store) :
    SameRuns 0 st (Sql.acquireLock key holder ttlMs st).2 := by
  simp only [Sql.acquireLock]
  split
  · exact ⟨rfl, rfl, Nat.le_refl _, Nat.le_refl _, Nat.le_refl _, rfl⟩
  · split <;> exact ⟨rfl, rfl, Nat.le_refl _, Nat.le_refl _, Nat.le_refl _, rfl⟩

/-! ### One step of a call -/

/-- What one step of `c` can do to the store `st`, and where it leaves the call. -/
inductive Call.Advances (env : Env) (ev : Event) (st : Store) (c : Call) : Store → Pc → Prop
  /-- The run is already complete. -/
  | known (hpc : c.pc = .entry) : Advances env ev st c st (.returned (.ok (.skipped .alreadyDone)))
  | unknown (hpc : c.pc = .entry) : Advances env ev st c st .locking
  | lock {st' : Store} (hpc : c.pc = .locking) (hst : SameRuns 0 st st') : Advances env ev st c st' .claiming
  | contended (hpc : c.pc = .locking) : Advances env ev st c st .skipping
  | skip (hpc : c.pc = .skipping) (hev : ∀ e, ev.failAt ≠ some (0, e)) :
      Advances env ev st c (Sql.recordSkippedRun c.input .skippedLockContended st).2
        (.returned (.ok (.skipped .lockContended)))
  /-- The claim is won: no row had the key. -/
  | claim (hpc : c.pc = .claiming) (hnone : ∀ r ∈ st.db.cronJobRuns, r.key ≠ c.input.key) :
      Advances env ev st c (Sql.claimJobRun c.input st).2 (.claimed st.nextUuid)
  | lost (hpc : c.pc = .claiming) (hrow : ∃ r ∈ st.db.cronJobRuns, r.key = c.input.key) :
      Advances env ev st c st (.releasing (.ok (.skipped .alreadyDone)))
  | start {id : Uuid} (hpc : c.pc = .claimed id) : Advances env ev st c st (.executing id)
  | settle {id : Uuid} {o : HealthCheckOutcome} (hpc : c.pc = .executing id) :
      Advances env ev st c st (.recording id o)
  | reject {id : Uuid} {e : String} (hpc : c.pc = .executing id) : Advances env ev st c st (.deadLettering id e)
  | commit {id : Uuid} {o : HealthCheckOutcome} {t : IncidentTransition} {st' : Store} (hpc : c.pc = .recording id o)
      (hst : Recorded id c.input.jobRunId st st') : Advances env ev st c st' (.refreshing o t)
  | rollback {id : Uuid} {o : HealthCheckOutcome} {e : String} {st' : Store} (hpc : c.pc = .recording id o)
      (hst : SameRuns 1 st st') : Advances env ev st c st' (.deadLettering id e)
  | refresh {o : HealthCheckOutcome} {t : IncidentTransition} {st' : Store} (hpc : c.pc = .refreshing o t)
      (hst : SameRuns 0 st st') : Advances env ev st c st' (.releasing (.ok (.executed o)))
  | deadLetter {id : Uuid} {e : String} (hpc : c.pc = .deadLettering id e) :
      Advances env ev st c (Sql.completeJobRun id .deadLettered st).2 (.alerting e)
  | alert {e : String} {st' : Store} (hpc : c.pc = .alerting e) (hst : SameRuns 0 st st') :
      Advances env ev st c st' (.releasing (.ok (.deadLettered e)))
  | release {r : Except String RunResult} {st' : Store} (hpc : c.pc = .releasing r) (hst : SameRuns 0 st st') :
      Advances env ev st c st' (.returned r)
  /-- The statement throws before the lock is held. -/
  | throwEarly {e : String} (hpc : c.pc = .entry ∨ c.pc = .locking ∨ c.pc = .skipping) (hev : ev.failAt = some (0, e)) :
      Advances env ev st c st (.returned (.error e))
  /-- The statement throws while the lock is held. -/
  | throwLate {e : String}
      (hpc : c.pc = .claiming ∨ (∃ id m, c.pc = .deadLettering id m) ∨ ∃ m, c.pc = .alerting m)
      (hev : ev.failAt = some (0, e)) : Advances env ev st c st (.releasing (.error e))

section Advance

variable {env : Env} {rca : Uuid → Except String (List IncidentEventInput)} {ev : Event} {st : Store} {c : Call}

theorem Call.advances_recording {id : Uuid} {o : HealthCheckOutcome} (hpc : c.pc = .recording id o) :
    c.Advances env ev st (c.advance env rca ev st).1 (c.advance env rca ev st).2 := by
  have hmoves := recordAndComplete_moves env c.target c.slot id o
  have hplain := recordAndComplete_plain env c.target c.slot id o
  unfold Call.advance
  rw [hpc]
  simp only [Store.onPool]
  rcases hx : exec (withTransaction (recordAndComplete env c.target c.slot id o)) ⟨st, none, ev.failAt⟩ with ⟨e | t, s'⟩
  · obtain ⟨-, -, st', hst', heq⟩ := withTransaction_error Recorded.refl hmoves hplain rfl hx
    refine .rollback hpc ?_
    rw [heq]
    exact ⟨rfl, rfl, hst'.uuid, hst'.seq_ge, hst'.seq_le, hst'.now⟩
  · obtain ⟨v, hv, -, heq⟩ := withTransaction_ok Recorded.refl hmoves hplain hx
    refine .commit hpc ?_
    obtain ⟨-, -, hrec⟩ := hmoves ⟨st, some st.db, none⟩ rfl
    rw [hv] at hrec
    rw [heq]
    exact hrec

/-- Every step of a call that is still running is one of those listed. -/
theorem Call.advances (hlive : c.isLive) :
    c.Advances env ev st (c.advance env rca ev st).1 (c.advance env rca ev st).2 := by
  cases hpc : c.pc with
  | entry =>
    simp only [Call.advance, hpc, jobRunExists]
    rcases onPool_query st ev.failAt (Sql.jobRunExists c.input.jobRunId) with ⟨e, hev, hx⟩ | ⟨hok, hx⟩ <;> rw [hx]
    · exact .throwEarly (.inl hpc) hev
    · cases h : (Sql.jobRunExists c.input.jobRunId st).1 with
      | true => exact .known hpc
      | false => exact .unknown hpc
  | locking =>
    simp only [Call.advance, hpc, acquireLock]
    rcases onPool_query st ev.failAt (Sql.acquireLock (lockKey c.target.id c.slot) c.workerId (c.ttlMs env))
      with ⟨e, hev, hx⟩ | ⟨hok, hx⟩ <;> rw [hx]
    · exact .throwEarly (.inr (.inl hpc)) hev
    · cases h : (Sql.acquireLock (lockKey c.target.id c.slot) c.workerId (c.ttlMs env) st).1 with
      | true => exact .lock hpc (acquireLock_sameRuns _ _ _ _)
      | false =>
        have hst : (Sql.acquireLock (lockKey c.target.id c.slot) c.workerId (c.ttlMs env) st).2 = st := by
          unfold Sql.acquireLock at h ⊢
          grind
        simp only [hst]
        exact .contended hpc
  | skipping =>
    simp only [Call.advance, hpc, recordSkippedRun]
    rcases onPool_query st ev.failAt (Sql.recordSkippedRun c.input .skippedLockContended) with ⟨e, hev, hx⟩ | ⟨hok, hx⟩ <;>
      rw [hx]
    · exact .throwEarly (.inr (.inr hpc)) hev
    · exact .skip hpc hok
  | claiming =>
    simp only [Call.advance, hpc, claimJobRun]
    rcases onPool_query st ev.failAt (Sql.claimJobRun c.input) with ⟨e, hev, hx⟩ | ⟨hok, hx⟩ <;> rw [hx]
    · exact .throwLate (.inl hpc) hev
    · by_cases hrow : st.db.cronJobRuns.any (·.key = c.input.key)
      · simp only [Sql.claimJobRun, hrow, if_true]
        exact .lost hpc (by simpa using hrow)
      · have hid : (Sql.claimJobRun c.input st).1 = some st.nextUuid := by simp [Sql.claimJobRun, hrow]
        simp only [hid]
        exact .claim hpc (by simpa using hrow)
  | claimed id =>
    simp only [Call.advance, hpc]
    exact .start hpc
  | executing id =>
    simp only [Call.advance, hpc]
    cases ev.execution with
    | ok o => exact .settle hpc
    | error e => exact .reject hpc
  | recording id o => exact Call.advances_recording hpc
  | refreshing o t =>
    simp only [Call.advance, hpc, Store.onPool]
    exact .refresh hpc (refreshRcaFor_moves rca t ⟨st, none, ev.failAt⟩).sameRuns
  | deadLettering id e =>
    simp only [Call.advance, hpc, completeJobRun]
    rcases onPool_query st ev.failAt (Sql.completeJobRun id .deadLettered) with ⟨e, hev, hx⟩ | ⟨hok, hx⟩ <;> rw [hx]
    · exact .throwLate (.inr (.inl ⟨id, _, hpc⟩)) hev
    · exact .deadLetter hpc
  | alerting e =>
    simp only [Call.advance, hpc, recordAlert]
    rcases onPool_query st ev.failAt (Sql.recordAlert (deadLetterAlert c.target e)) with ⟨e, hev, hx⟩ | ⟨hok, hx⟩ <;> rw [hx]
    · exact .throwLate (.inr (.inr ⟨_, hpc⟩)) hev
    · exact .alert hpc ⟨rfl, rfl, Nat.le_succ _, Nat.le_refl _, Nat.le_refl _, rfl⟩
  | releasing r =>
    simp only [Call.advance, hpc, releaseLock]
    rcases onPool_query st ev.failAt (Sql.releaseLock (lockKey c.target.id c.slot) c.workerId)
      with ⟨e, -, hx⟩ | ⟨-, hx⟩ <;> rw [hx]
    · exact .release hpc (SameRuns.refl _)
    · exact .release hpc ⟨rfl, rfl, Nat.le_refl _, Nat.le_refl _, Nat.le_refl _, rfl⟩
  | returned r => simp [Call.isLive, hpc] at hlive
  | crashed => simp [Call.isLive, hpc] at hlive

end Advance

/-! ### One step of the system -/

/-- What one step of the system can do. -/
inductive Sys.Steps (env : Env) (s : Sys) : Label → Sys → Prop
  | invoke (target : MonitoredApi) (slot : Time) (workerId : String) :
      Steps env s (.invoke target slot workerId) { s with calls := s.calls ++ [⟨target, slot, workerId, .entry⟩] }
  | advance {i : Nat} {ev : Event} {c : Call} {st' : Store} {pc' : Pc} (hi : s.calls[i]? = some c)
      (h : c.Advances env ev s.store st' pc') :
      Steps env s (.advance i ev) {
        store := st', calls := s.calls.set i { c with pc := pc' }
        started := s.started ++ Sys.noteStart c pc', locked := s.locked ++ Sys.noteLock c pc' }
  | crash {i : Nat} {c : Call} (hi : s.calls[i]? = some c) :
      Steps env s (.crash i) { s with calls := s.calls.set i { c with pc := .crashed } }
  | elapse (ms : Nat) : Steps env s (.elapse ms) { s with store := { s.store with now := s.store.now + ms } }

theorem Sys.steps {env : Env} {rca : Uuid → Except String (List IncidentEventInput)} {s s' : Sys} {a : Label}
    (h : Sys.step env rca s a = some s') : s.Steps env a s' := by
  cases a with
  | invoke target slot workerId =>
    cases h
    exact .invoke target slot workerId
  | advance i ev =>
    simp only [Sys.step] at h
    split at h
    · cases h
    · rename_i c hi
      split at h
      · rename_i hlive
        cases h
        exact .advance hi (Call.advances hlive)
      · cases h
  | crash i =>
    simp only [Sys.step] at h
    split at h
    · cases h
    · rename_i c hi
      split at h
      · cases h
        exact .crash hi
      · cases h
  | elapse ms =>
    cases h
    exact .elapse ms

/-! ### The keys of the run table -/

/-- The key of the first attempt at a slot. -/
def slotKey (k : Uuid × Time) : Uuid × Time × Nat := (k.1, k.2, 1)

/-- The keys in use in `cron_job_runs`. -/
def Store.runKeys (st : Store) : List (Uuid × Time × Nat) := st.db.cronJobRuns.map (·.key)

theorem Call.input_key (c : Call) : c.input.key = slotKey c.key := rfl

theorem slotKey_inj {k k' : Uuid × Time} : slotKey k = slotKey k' ↔ k = k' := by
  simp [slotKey, Prod.ext_iff]

theorem runKeys_complete (id : Uuid) (status : CronRunStatus) (st : Store) :
    (Sql.completeJobRun id status st).2.runKeys = st.runKeys := by
  simp only [Store.runKeys, Sql.completeJobRun, List.map_map]
  refine List.map_congr_left fun r _ => ?_
  simp only [Function.comp]
  split <;> rfl

theorem runKeys_skip (i : JobRunInput) (status : CronRunStatus) (st : Store) :
    (Sql.recordSkippedRun i status st).2.runKeys =
      if i.key ∈ st.runKeys then st.runKeys else st.runKeys ++ [i.key] := by
  have hany : st.db.cronJobRuns.any (·.key = i.key) ↔ i.key ∈ st.runKeys := by simp [Store.runKeys]
  by_cases h : i.key ∈ st.runKeys
  · rw [if_pos h, Sql.recordSkippedRun, if_pos (hany.2 h)]
    simp only [Store.runKeys, List.map_map]
    refine List.map_congr_left fun r _ => ?_
    simp only [Function.comp]
    split <;> rfl
  · rw [if_neg h, Sql.recordSkippedRun, if_neg (mt hany.1 h)]
    simp [Store.runKeys, CronJobRun.key, JobRunInput.key]

theorem runKeys_claim (i : JobRunInput) (st : Store) (h : ∀ r ∈ st.db.cronJobRuns, r.key ≠ i.key) :
    (Sql.claimJobRun i st).2.runKeys = st.runKeys ++ [i.key] := by
  have hany : ¬ st.db.cronJobRuns.any (·.key = i.key) := by simpa using h
  rw [Sql.claimJobRun, if_neg hany]
  simp [Store.runKeys, CronJobRun.key, JobRunInput.key]

theorem Recorded.runKeys {claimId : Uuid} {runId : JobRunId} {a b : Store} (h : Recorded claimId runId a b) :
    b.runKeys = a.runKeys := by
  rcases h.runs with h | h
  · rw [Store.runKeys, h, Store.runKeys]
  · rw [← runKeys_complete claimId .success a, Store.runKeys, h, Store.runKeys]

theorem SameRuns.runKeys {n : Nat} {a b : Store} (h : SameRuns n a b) : b.runKeys = a.runKeys := by
  rw [Store.runKeys, h.runs, Store.runKeys]

end CronMonitor
