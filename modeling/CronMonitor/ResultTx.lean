import CronMonitor.JobRunner
import CronMonitor.StateMachineFrame

/-!
# The result transaction

What `recordAndComplete` may do to the tables that decide about runs, whichever of its statements fails
(`recordAndComplete_moves`), and that it fails only where a statement does (`recordAndComplete_plain`).
-/

namespace CronMonitor

open Eff Session

/-- `b` agrees with `a` on the run and result tables; at most `n` incident numbers were drawn. -/
structure SameRuns (n : Nat) (a b : Store) : Prop where
  runs : b.db.cronJobRuns = a.db.cronJobRuns
  results : b.db.healthCheckResults = a.db.healthCheckResults
  uuid : a.nextUuid ≤ b.nextUuid
  seq_ge : a.incidentNumberSeq ≤ b.incidentNumberSeq
  seq_le : b.incidentNumberSeq ≤ a.incidentNumberSeq + n
  now : b.now = a.now

/-- The result transaction of `claimId` between `a` and `b`: the run row completed or not yet, at most one
new result, which is the first of its run. -/
structure Recorded (claimId : Uuid) (runId : JobRunId) (a b : Store) : Prop where
  runs : b.db.cronJobRuns = a.db.cronJobRuns ∨
    b.db.cronJobRuns = (Sql.completeJobRun claimId .success a).2.db.cronJobRuns
  results : b.db.healthCheckResults = a.db.healthCheckResults ∨
    (∀ r ∈ a.db.healthCheckResults, r.jobRunId ≠ runId) ∧
      ∃ r, r.jobRunId = runId ∧ b.db.healthCheckResults = a.db.healthCheckResults ++ [r]
  uuid : a.nextUuid ≤ b.nextUuid
  seq_ge : a.incidentNumberSeq ≤ b.incidentNumberSeq
  seq_le : b.incidentNumberSeq ≤ a.incidentNumberSeq + 1
  now : b.now = a.now

namespace SameRuns

variable {n k : Nat} {a b c : Store}

theorem refl (a : Store) : SameRuns n a a :=
  ⟨rfl, rfl, Nat.le_refl _, Nat.le_refl _, Nat.le_add_right _ _, rfl⟩

theorem trans (h : SameRuns n a b) (h' : SameRuns k b c) : SameRuns (n + k) a c := by
  refine ⟨h'.runs.trans h.runs, h'.results.trans h.results, h.uuid.trans h'.uuid,
    h.seq_ge.trans h'.seq_ge, ?_, h'.now.trans h.now⟩
  have := h.seq_le
  have := h'.seq_le
  omega

theorem mono (h : SameRuns n a b) (hnk : n ≤ k) : SameRuns k a b :=
  ⟨h.runs, h.results, h.uuid, h.seq_ge, h.seq_le.trans (Nat.add_le_add_left hnk _), h.now⟩

end SameRuns

theorem OnlyIncidents.sameRuns {n : Nat} {a b : Store} (h : OnlyIncidents n a b) : SameRuns n a b := by
  refine ⟨?_, ?_, h.uuid, h.seq_ge, h.seq_le, h.now⟩ <;> rw [h.db]

theorem Recorded.refl {claimId : Uuid} {runId : JobRunId} (a : Store) : Recorded claimId runId a a :=
  ⟨.inl rfl, .inl rfl, Nat.le_refl _, Nat.le_refl _, Nat.le_succ _, rfl⟩

theorem Recorded.of_sameRuns {claimId : Uuid} {runId : JobRunId} {a b c : Store} (h : Recorded claimId runId a b)
    (hseq : b.incidentNumberSeq = a.incidentNumberSeq) (h' : SameRuns 1 b c) : Recorded claimId runId a c := by
  refine ⟨?_, ?_, h.uuid.trans h'.uuid, h.seq_ge.trans h'.seq_ge, ?_, h'.now.trans h.now⟩
  · rw [h'.runs]
    exact h.runs
  · rw [h'.results]
    exact h.results
  · rw [← hseq]
    exact h'.seq_le

theorem newRequestId_moves : Moves (InTx (SameRuns 0)) newRequestId := by
  intro s h
  exact ⟨h, rfl, rfl, rfl, Nat.le_succ _, Nat.le_refl _, Nat.le_refl _, rfl⟩

theorem newRequestId_plain : Plain newRequestId := by
  refine ⟨fun s a s' h => ?_, fun s e s' h => ?_⟩ <;> cases h
  rfl

variable (env : Env) (target : MonitoredApi) (slot : Time) (claimId : Uuid) (outcome : HealthCheckOutcome)

theorem recordTrace_moves (runId : JobRunId) (checkId : Option Uuid) :
    Moves (InTx (SameRuns 0)) (recordTrace target runId checkId outcome) := by
  unfold recordTrace
  split
  · refine InTx.comp newRequestId_moves (fun _ => moves_client SameRuns.refl fun st => ?_) (fun _ _ h => h)
      fun _ _ _ h h' => h.trans (k := 0) h'
    unfold Sql.insertTrace
    split <;> exact ⟨rfl, rfl, Nat.le_refl _, Nat.le_refl _, Nat.le_refl _, rfl⟩
  · exact Moves.pure (InTx.refl SameRuns.refl) _

theorem recordTrace_plain (runId : JobRunId) (checkId : Option Uuid) :
    Plain (recordTrace target runId checkId outcome) := by
  unfold recordTrace
  split
  · exact Plain.bind newRequestId_plain fun _ => Plain.query _ _
  · exact Plain.pure _

theorem recordRunOutcome_moves (status : HealthStatus) :
    Moves (InTx (SameRuns 0)) (recordRunOutcome target.id slot status .client) := by
  refine moves_client SameRuns.refl fun st => ?_
  unfold Sql.recordRunOutcome
  split <;> exact ⟨rfl, rfl, Nat.le_refl _, Nat.le_refl _, Nat.le_refl _, rfl⟩

theorem insertHealthCheckResult_moves (runId : JobRunId) :
    Moves (InTx fun a b => Recorded claimId runId a b ∧ b.db.cronJobRuns = a.db.cronJobRuns ∧
        b.incidentNumberSeq = a.incidentNumberSeq)
      (insertHealthCheckResult target.id runId outcome .client) := by
  refine moves_client (fun st => ⟨Recorded.refl st, rfl, rfl⟩) fun st => ?_
  unfold Sql.insertHealthCheckResult
  split
  · exact ⟨Recorded.refl st, rfl, rfl⟩
  · rename_i h
    refine ⟨⟨.inl rfl, .inr ⟨?_, _, ?_, rfl⟩, Nat.le_succ _, Nat.le_refl _, Nat.le_succ _, rfl⟩, rfl, rfl⟩
    · simpa using h
    · rfl

section Machine

variable {machine : CheckContext → SqlM IncidentTransition}

/-- What follows the result row, up to the state machine. -/
theorem recordBy_rest_moves (hmachine : ∀ ctx, Moves (InTx (OnlyIncidents 1)) (machine ctx)) (checkId : Option Uuid) :
    Moves (InTx (SameRuns 1)) (do
      recordTrace target (jobRunId target.id slot) checkId outcome
      let counters ← recordRunOutcome target.id slot outcome.status .client
      machine ⟨target, outcome.status, outcome.failureType, checkId, counters.1⟩) := by
  refine InTx.comp (B := SameRuns 1) (recordTrace_moves target outcome _ _) (fun _ => ?_)
    (fun _ _ h => h.mono (Nat.zero_le _)) fun a b c h h' => (h.trans h').mono (by omega)
  refine InTx.comp (recordRunOutcome_moves target slot _) (fun _ => hmachine _)
    (fun _ _ h => h.mono (Nat.zero_le _)) fun a b c h h' => (h.trans h'.sameRuns).mono (by omega)

/-- Before its last statement the transaction has not touched the run row. -/
theorem recordBy_moves (hmachine : ∀ ctx, Moves (InTx (OnlyIncidents 1)) (machine ctx)) :
    Moves (InTx fun a b => Recorded claimId (jobRunId target.id slot) a b ∧ b.db.cronJobRuns = a.db.cronJobRuns)
      (recordBy machine target slot outcome) := by
  refine InTx.comp (insertHealthCheckResult_moves target claimId outcome _)
    (recordBy_rest_moves target slot outcome hmachine) ?_ ?_
  · rintro a b ⟨h, hruns, -⟩
    exact ⟨h, hruns⟩
  · rintro a b c ⟨h, hruns, hseq⟩ h'
    exact ⟨h.of_sameRuns hseq h', h'.runs.trans hruns⟩

theorem completing_moves {recorded : SqlM IncidentTransition}
    (h : Moves (InTx fun a b => Recorded claimId (jobRunId target.id slot) a b ∧ b.db.cronJobRuns = a.db.cronJobRuns)
      recorded) : Moves (InTx (Recorded claimId (jobRunId target.id slot))) (completing claimId recorded) := by
  have hcomplete (t : IncidentTransition) :
      Moves (InTx fun a b => b = (Sql.completeJobRun claimId .success a).2 ∨ b = a)
        (completeJobRun claimId .success .client >>= fun _ => pure t) := by
    refine InTx.comp (B := fun a b => b = a) (moves_client (fun _ => .inr rfl) fun _ => .inl rfl)
      (fun _ => Moves.pure (InTx.refl fun _ => rfl) _) (fun _ _ h => h) ?_
    rintro a b c h rfl
    exact h
  refine InTx.comp h hcomplete (fun _ _ h => h.1) ?_
  rintro a b c ⟨h, hruns⟩ (rfl | rfl)
  · refine ⟨.inr ?_, h.results, h.uuid, h.seq_ge, h.seq_le, h.now⟩
    simp only [Sql.completeJobRun, hruns, h.now]
  · exact h

theorem recordBy_plain (hmachine : ∀ ctx, Plain (machine ctx)) : Plain (recordBy machine target slot outcome) := by
  refine Plain.bind (Plain.query _ _) fun checkId => Plain.bind (recordTrace_plain target outcome _ _) fun _ => ?_
  exact Plain.bind (Plain.query _ _) fun _ => hmachine _

theorem completing_plain {recorded : SqlM IncidentTransition} (h : Plain recorded) : Plain (completing claimId recorded) :=
  Plain.bind h fun t => Plain.bind (Plain.query _ _) fun _ => Plain.pure t

end Machine

theorem recordAndComplete_moves : Moves (InTx (Recorded claimId (jobRunId target.id slot)))
    (recordAndComplete env target slot claimId outcome) :=
  completing_moves target slot claimId
    (recordBy_moves target slot claimId outcome fun ctx => (processCheckOutcome_writes env ctx).moves)

theorem recordAndComplete_plain : Plain (recordAndComplete env target slot claimId outcome) :=
  completing_plain claimId (recordBy_plain target slot outcome fun ctx => (processCheckOutcome_writes env ctx).plain)

theorem recordFound_moves (active : Option Incident) : Moves (InTx (Recorded claimId (jobRunId target.id slot)))
    (recordFound env active target slot claimId outcome) :=
  completing_moves target slot claimId
    (recordBy_moves target slot claimId outcome fun ctx => (processFound_writes env ctx active).moves)

theorem recordFound_plain (active : Option Incident) : Plain (recordFound env active target slot claimId outcome) :=
  completing_plain claimId (recordBy_plain target slot outcome fun ctx => (processFound_writes env ctx active).plain)

/-! ### When no statement fails -/

theorem newRequestId_returns (v : Store) :
    TxReturns (· = v) newRequestId fun _ v' => v' = { v with nextUuid := v.nextUuid + 1 } := by
  rintro d s ⟨hs, rfl⟩
  exact ⟨_, _, rfl, ⟨hs.tx, hs.failAt, hs.db⟩, rfl⟩

/-- The schedule counters are all that `recordRunOutcome` writes. -/
theorem recordRunOutcome_db (status : HealthStatus) (v : Store) :
    (Sql.recordRunOutcome target.id slot status v).2 =
      { v with db := { v.db with
        scheduleStates := (Sql.recordRunOutcome target.id slot status v).2.db.scheduleStates } } := by
  unfold Sql.recordRunOutcome
  split <;> rfl

end CronMonitor
