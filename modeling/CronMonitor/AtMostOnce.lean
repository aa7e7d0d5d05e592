import CronMonitor.Lib.Calls
import CronMonitor.JobRunnerSteps

/-!
# A slot is executed at most once

The lock gives no exclusion: it can expire under its holder. What does is the run table: a claim is won
only when no row has the key of the slot, and no row is ever deleted. So the starts of `execute` for a
slot, together with the calls that have won a claim and are about to start, are never more than the rows
of that slot.
-/

namespace CronMonitor

open Runs

/-- The call has won the claim of `k` and has not started `execute` yet. -/
def Call.isClaimedFor (k : Uuid × Time) (c : Call) : Bool :=
  match c.pc with
  | .claimed _ => c.key = k
  | _ => false

namespace Sys

/-- The starts of `execute` for `k` that have happened or are bound to happen next. -/
def claims (s : Sys) (k : Uuid × Time) : Nat := s.started.count k + s.calls.countP (·.isClaimedFor k)

/-- A claim leaves a row behind, and there is at most one claim for a row. -/
def ClaimsHaveRows (s : Sys) : Prop := ∀ k, s.claims k ≤ if slotKey k ∈ s.store.runKeys then 1 else 0

/-- `UNIQUE (job_run_id)`. -/
def ResultsUnique (s : Sys) : Prop := (s.store.db.healthCheckResults.map (·.jobRunId)).Nodup

end Sys

section Steps

variable {env : Env} {ev : Event} {st st' : Store} {c : Call} {pc' : Pc}

theorem runKeys_notMem (hnone : ∀ r ∈ st.db.cronJobRuns, r.key ≠ c.input.key) : slotKey c.key ∉ st.runKeys := by
  rw [Store.runKeys, List.mem_map]
  rintro ⟨r, hr, hkey⟩
  exact hnone r hr hkey

/-- Which steps add a row to the run table. -/
theorem Call.Advances.runKeys (h : c.Advances env ev st st' pc') :
    st'.runKeys = st.runKeys ∨ slotKey c.key ∉ st.runKeys ∧ st'.runKeys = st.runKeys ++ [slotKey c.key] := by
  cases h with
  | skip hpc _ =>
    rw [runKeys_skip, c.input_key]
    split
    · exact .inl rfl
    · exact .inr ⟨‹_›, rfl⟩
  | claim hpc hnone =>
    exact .inr ⟨runKeys_notMem hnone, runKeys_claim _ _ hnone⟩
  | commit hpc hst => exact .inl hst.runKeys
  | deadLetter hpc => exact .inl (runKeys_complete _ _ _)
  | lock hpc hst | rollback hpc hst | refresh hpc hst | alert hpc hst | release hpc hst => exact .inl hst.runKeys
  | _ => exact .inl rfl

theorem Call.Advances.mem_runKeys (h : c.Advances env ev st st' pc') {k : Uuid × Time × Nat} (hk : k ∈ st.runKeys) :
    k ∈ st'.runKeys := by
  rcases h.runKeys with heq | ⟨-, heq⟩ <;> rw [heq]
  · exact hk
  · exact List.mem_append_left _ hk

/-- Only a won claim adds to the claims of its slot, and then the slot had no row before. -/
theorem Call.Advances.claims (h : c.Advances env ev st st' pc') (k : Uuid × Time) :
    (Sys.noteStart c pc').count k + (if Call.isClaimedFor k { c with pc := pc' } then 1 else 0) =
        (if c.isClaimedFor k then 1 else 0) ∨
      c.isClaimedFor k = false ∧ (∃ id, pc' = .claimed id) ∧ slotKey k ∉ st.runKeys ∧ slotKey k ∈ st'.runKeys ∧
        (Sys.noteStart c pc').count k + (if Call.isClaimedFor k { c with pc := pc' } then 1 else 0) = 1 := by
  cases h with
  | claim hpc hnone =>
    by_cases hk : c.key = k
    · subst hk
      refine .inr ⟨by simp [Call.isClaimedFor, hpc], ⟨_, rfl⟩, runKeys_notMem hnone, ?_, ?_⟩
      · rw [runKeys_claim _ _ hnone]
        exact List.mem_append_right _ (List.mem_singleton_self _)
      · simp [Sys.noteStart, hpc, Call.isClaimedFor, Call.key]
    · refine .inl ?_
      have hk' : ¬ (c.target.id, c.slot) = k := hk
      simp [Sys.noteStart, hpc, Call.isClaimedFor, Call.key, hk']
  | start hpc =>
    refine .inl ?_
    by_cases hk : c.key = k <;> simp [Sys.noteStart, hpc, Call.isClaimedFor, hk]
  | throwEarly hpc _ =>
    rcases hpc with hpc | hpc | hpc <;> exact .inl (by simp [Sys.noteStart, hpc, Call.isClaimedFor])
  | throwLate hpc _ =>
    rcases hpc with hpc | ⟨id, m, hpc⟩ | ⟨m, hpc⟩ <;> exact .inl (by simp [Sys.noteStart, hpc, Call.isClaimedFor])
  | _ => exact .inl (by simp [Sys.noteStart, Call.isClaimedFor, *])

/-- A step adds at most one result, the first of its run. -/
theorem Call.Advances.results (h : c.Advances env ev st st' pc')
    (hnd : (st.db.healthCheckResults.map (·.jobRunId)).Nodup) :
    (st'.db.healthCheckResults.map (·.jobRunId)).Nodup := by
  cases h with
  | commit hpc hst =>
    rcases hst.results with heq | ⟨hnone, r, hr, heq⟩ <;> rw [heq]
    · exact hnd
    · rw [List.map_append, List.nodup_append]
      refine ⟨hnd, List.nodup_singleton _, ?_⟩
      intro a ha b hb hab
      obtain ⟨r', hr', rfl⟩ := List.mem_map.1 ha
      rw [List.map_singleton, List.mem_singleton, hr] at hb
      exact hnone r' hr' (hab.trans hb)
  | lock hpc hst | rollback hpc hst | refresh hpc hst | alert hpc hst | release hpc hst =>
    rw [hst.results]
    exact hnd
  | skip hpc _ =>
    unfold Sql.recordSkippedRun
    split <;> exact hnd
  | claim hpc hnone =>
    unfold Sql.claimJobRun
    split <;> exact hnd
  | _ => exact hnd

end Steps

namespace Sys

variable {env : Env} {rca : Uuid → Except String (List IncidentEventInput)} {s s' : Sys} {a : Label}

/-- A step of a call changes the claims of a slot only by winning one. -/
theorem claims_advance {i : Nat} {ev : Event} {c : Call} {st' : Store} {pc' : Pc} {l : List (Uuid × Time)}
    (hi : s.calls[i]? = some c) (hadv : c.Advances env ev s.store st' pc') (k : Uuid × Time) :
    let claims' := claims ⟨st', s.calls.set i { c with pc := pc' }, s.started ++ noteStart c pc', l⟩ k
    claims' = s.claims k ∨
      (∃ id, pc' = .claimed id) ∧ slotKey k ∉ s.store.runKeys ∧ slotKey k ∈ st'.runKeys ∧
        claims' = s.claims k + 1 := by
  have hset := List.countP_set_add (b := { c with pc := pc' }) (·.isClaimedFor k) hi
  simp only [claims, List.count_append]
  rcases hadv.claims k with heq | ⟨hbefore, hclaimed, hnew, hrow, heq⟩
  · exact .inl (by omega)
  · rw [hbefore, if_neg Bool.false_ne_true] at hset
    exact .inr ⟨hclaimed, hnew, hrow, by omega⟩

theorem claims_crash {i : Nat} {c : Call} (hi : s.calls[i]? = some c) (k : Uuid × Time) :
    claims { s with calls := s.calls.set i { c with pc := .crashed } } k ≤ s.claims k := by
  have hset := List.countP_set_add (b := { c with pc := .crashed }) (·.isClaimedFor k) hi
  have hcrashed : Call.isClaimedFor k { c with pc := .crashed } = false := rfl
  rw [hcrashed, if_neg Bool.false_ne_true] at hset
  simp only [claims]
  omega

theorem ClaimsHaveRows.step (h : s.ClaimsHaveRows) (hs : s.Steps env a s') : s'.ClaimsHaveRows := by
  intro k
  have hle := h k
  cases hs with
  | invoke target slot workerId => simpa [claims, Call.isClaimedFor, List.countP_append] using hle
  | elapse ms => exact hle
  | crash hi => exact (claims_crash hi k).trans hle
  | advance hi hadv =>
    rcases claims_advance hi hadv k with heq | ⟨-, hnew, hrow, heq⟩ <;> rw [heq]
    · refine hle.trans ?_
      split
      · rw [if_pos (hadv.mem_runKeys ‹_›)]
      · exact Nat.zero_le _
    · rw [if_neg hnew] at hle
      rw [if_pos hrow]
      omega

theorem ClaimsHaveRows.init (st : Store) : (init st).ClaimsHaveRows := fun k => by simp [claims, Sys.init]

theorem ResultsUnique.step (h : s.ResultsUnique) (hs : s.Steps env a s') : s'.ResultsUnique := by
  cases hs with
  | advance hi hadv => exact hadv.results h
  | invoke | crash | elapse => exact h

/-- For every number of workers and calls and every interleaving of their steps, with locks stolen and
workers crashing anywhere, `execute` starts at most once for a slot, and the slot has at most one result. -/
theorem execute_at_most_once (st : Store) (hresults : (st.db.healthCheckResults.map (·.jobRunId)).Nodup)
    (tr : List Label) (hr : run (step env rca) (init st) tr = some s) (target : Uuid) (slot : Time) :
    s.started.count (target, slot) ≤ 1 ∧
      (s.store.db.healthCheckResults.map (·.jobRunId)).count (jobRunId target slot) ≤ 1 := by
  constructor
  · have hle := inv_run (ClaimsHaveRows.init st) (fun _ _ _ h hs => h.step (steps hs)) hr (target, slot)
    simp only [claims] at hle
    split at hle <;> omega
  · have hinit : (init st).ResultsUnique := hresults
    have hunique := inv_run hinit (fun _ _ _ h hs => ResultsUnique.step h (steps hs)) hr
    exact List.nodup_iff_count_le_one.1 hunique _

/-- The first worker is slow: its lock expires and the second one takes it over. -/
def stolenLock : List Label :=
  [.invoke makeMonitoredApi 60000 "w1", .invoke makeMonitoredApi 60000 "w2"] ++ undisturbed 0 2 (.error "") ++
    [.elapse 20000] ++ undisturbed 1 4 (.error "") ++ undisturbed 0 2 (.error "")

theorem execute_at_most_once_stolenLock :
    ∃ s, run (step Env.default fun _ => .ok []) (init Store.empty) stolenLock = some s ∧
      (s.locked, s.started) = ([(1, 60000), (1, 60000)], [(1, 60000)]) ∧
      s.started.count (1, 60000) ≤ 1 ∧
      (s.store.db.healthCheckResults.map (·.jobRunId)).count (jobRunId 1 60000) ≤ 1 := by
  obtain ⟨s, hr, hs⟩ := Option.map_eq_some_iff.1 (show (run (step Env.default fun _ => .ok [])
    (init Store.empty) stolenLock).map (fun s => (s.locked, s.started)) = some _ from rfl)
  exact ⟨s, hr, hs, execute_at_most_once Store.empty List.nodup_nil _ hr 1 60000⟩

end Sys

end CronMonitor
