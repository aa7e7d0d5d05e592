import CronMonitor.Alerts.Service

/-!
# Retention beside the alert runner

`retention.service.ts`: a sweep deletes the old rows of each class in batches, a statement a batch. Which rows a batch
takes, when more are past the window than it may delete, is up to the database.

`RetentionSys` runs sweeps beside the deliveries, the checks and the manual resolutions of the alert runner, each taking
its statements one at a time, and beside at most one escalation pass. `fired` and `recovered` are observations: the
tiers that a pass has decided to fire, and whom each recovery has queued an alert for.
-/

namespace CronMonitor.Observability
open Alerts

/-! ### The sweep -/

/-- The tables that are pruned. -/
inductive RetentionClass
  | healthCheckResults | healthCheckTraces | healthCheckRuns | cronJobRuns | schedulerHeartbeats | alerts
  | healthDigests | loadTestRuns | loadTestCorrectnessRuns
deriving DecidableEq, Repr

/-- The windows of `env()`, in days. -/
structure RetentionEnv where
  retentionHealthCheckDays : ℕ+
  traceRetentionDays : ℕ+
  healthCheckRunRetentionDays : ℕ+
  retentionCronRunDays : ℕ+
  retentionHeartbeatDays : ℕ+
  retentionAlertDays : ℕ+
  retentionDigestDays : ℕ+
  retentionLoadtestDays : ℕ+

def RetentionEnv.default : RetentionEnv := ⟨90, 30, 90, 45, 7, 120, 180, 400⟩

structure ClassSpec where
  name : RetentionClass
  days : ℕ+

def specs (e : RetentionEnv) : List ClassSpec :=
  [⟨.healthCheckResults, e.retentionHealthCheckDays⟩, ⟨.healthCheckTraces, e.traceRetentionDays⟩,
    ⟨.healthCheckRuns, e.healthCheckRunRetentionDays⟩, ⟨.cronJobRuns, e.retentionCronRunDays⟩,
    ⟨.schedulerHeartbeats, e.retentionHeartbeatDays⟩, ⟨.alerts, e.retentionAlertDays⟩,
    ⟨.healthDigests, e.retentionDigestDays⟩, ⟨.loadTestRuns, e.retentionLoadtestDays⟩,
    ⟨.loadTestCorrectnessRuns, e.retentionLoadtestDays⟩]

def batch : Nat := 5000

def maxBatches : Nat := 200

/-- A program over the `DELETE`s of single batches: each answers the number of rows it deleted, or fails. -/
abbrev RetentionProg (α : Type) := Prog ClassSpec (fun _ => Option Nat) α

/-- The batches of `pruneClass` that are left. -/
def pruneBatches (spec : ClassSpec) : Nat → Nat → RetentionProg (Option Nat)
  | 0, deleted => return some deleted
  | left + 1, deleted => do
    let rowCount ← (Prog.cmd spec : RetentionProg (Option Nat))
    match rowCount with
    | none => return none
    | some n => if n < batch then return some (deleted + n) else pruneBatches spec left (deleted + n)

def pruneClass (spec : ClassSpec) : RetentionProg (Option Nat) := pruneBatches spec maxBatches 0

structure PrunedClass where
  name : RetentionClass
  days : ℕ+
  deleted : Nat

structure RetentionRunResult where
  pruned : List PrunedClass
  totalDeleted : Nat

/-- A class whose statement fails is reported with no rows, and the next one is pruned. -/
def runRetention (e : RetentionEnv) : RetentionProg RetentionRunResult := do
  let pruned ← (specs e).foldlM (fun pruned spec => do
    let deleted ← pruneClass spec
    return pruned ++ [⟨spec.name, spec.days, deleted.getD 0⟩]) []
  return ⟨pruned, (pruned.map (·.deleted)).sum⟩

/-! ### The tables -/

/-- The rows that `where` selects, for the tables that the store has; an alert must not be PENDING. -/
def RetentionClass.overdue (cutoff : Time) (db : Db) : RetentionClass → Option (List Uuid)
  | healthCheckResults => some ((db.healthCheckResults.filter (·.checkedAt < cutoff)).map (·.id))
  | healthCheckTraces => some ((db.healthCheckTraces.filter (·.checkedAt < cutoff)).map (·.checkId))
  | cronJobRuns => some ((db.cronJobRuns.filter (·.scheduledSlot < cutoff)).map (·.id))
  | alerts => some ((db.alerts.filter fun a => a.createdAt < cutoff && a.status ≠ .pending).map (·.id))
  | _ => none

/-- The tables without the rows; a trace goes with its result. That an incident forgets the result that detected it is
left out: nothing here reads that column. -/
def RetentionClass.delete (rows : List Uuid) (db : Db) : RetentionClass → Db
  | healthCheckResults =>
    { db with
      healthCheckResults := db.healthCheckResults.filter (·.id ∉ rows)
      healthCheckTraces := db.healthCheckTraces.filter (·.checkId ∉ rows) }
  | healthCheckTraces => { db with healthCheckTraces := db.healthCheckTraces.filter (·.checkId ∉ rows) }
  | cronJobRuns => { db with cronJobRuns := db.cronJobRuns.filter (·.id ∉ rows) }
  | alerts => { db with alerts := db.alerts.filter (·.id ∉ rows) }
  | _ => db

/-- `rows` are a batch of the rows that are overdue: as many as there are, up to the limit. -/
def ClassSpec.IsBatch (spec : ClassSpec) (st : Store) (rows : List Uuid) : Prop :=
  match spec.name.overdue (st.now - (spec.days : Nat) * 86400000) st.db with
  | some ids => rows.Nodup ∧ rows ⊆ ids ∧ rows.length = min batch ids.length
  | none => rows.length ≤ batch

instance (spec : ClassSpec) (st : Store) (rows : List Uuid) : Decidable (spec.IsBatch st rows) := by
  unfold ClassSpec.IsBatch
  split <;> infer_instance

/-! ### Beside each other -/

inductive RetentionRequest
  | deliver
  | check (ctx : CheckContext)
  | resolve (id : Uuid) (resolution : String) (actor : AuditActor)

def RetentionRequest.program (env : Env) : RetentionRequest → AlertProg Unit
  | deliver => do
    let _ ← runDeliveryCycle
    return ()
  | check ctx => processCheck env ctx
  | resolve id resolution actor => do
    let _ ← resolveIncidentManually id resolution actor
    return ()

structure RetentionSys where
  store : AlertStore
  calls : List (AlertProg Unit)
  /-- The escalation pass in progress. -/
  pass : Option (AlertProg EscalationResult)
  sweeps : List (RetentionProg RetentionRunResult)
  fired : List (Uuid × Nat)
  recovered : List (Uuid × List (AlertChannel × String))

inductive RetentionLabel
  | start (r : RetentionRequest)
  /-- The next statement of a program; `order` is the order in which the database answers a `SELECT DISTINCT`. -/
  | advance (i : Nat) (w : World) (order : List (AlertChannel × String))
  | escalate (now : Time)
  | pass (w : World)
  | sweep (e : RetentionEnv)
  /-- The next statement of a sweep deletes `rows`, or fails. -/
  | prune (i : Nat) (rows : Option (List Uuid))
  | elapse (ms : Nat)

/-- The labels of sweeps. -/
def RetentionLabel.sweeps : RetentionLabel → Bool
  | sweep _ | prune _ _ => true
  | _ => false

/-- By channel, then recipient. -/
def Precedes (a b : AlertChannel × String) : Prop :=
  a.1.rank < b.1.rank ∨ (a.1.rank = b.1.rank ∧ a.2 ≤ b.2)

instance : DecidableRel Precedes := fun _ _ => inferInstanceAs (Decidable (_ ∨ _))

/-- The rows of a `SELECT DISTINCT`: in the order `order`, if these are the rows, and sorted otherwise. -/
def distinct (order rows : List (AlertChannel × String)) : List (AlertChannel × String) :=
  if order.Perm rows then order else rows.insertionSort Precedes

/-- A statement of the alert runner, if it need not wait. -/
def take (env : Env) (w : World) (order : List (AlertChannel × String)) (c : AlertCmd) (st : AlertStore) :
    Option (c.Ans × AlertStore) :=
  match c with
  | .notifiedTargetsForIncident id =>
    let notified := distinct order (Sql.notifiedTargetsForIncident id st.toStore).1
    some (notified, { st.elapse w.elapsed with asked := id :: st.asked })
  | c => if c.enabled st then some (c.exec env w (st.elapse w.elapsed)) else none

/-- The tier that a pass is about to queue the alerts of. -/
def upcoming {α : Type} : AlertProg α → Option (Uuid × Nat)
  | .call (.createAlert i tier) _ => tier.bind fun tier => i.incidentId.map fun id => (id, tier)
  | _ => none

/-- The tier that a pass goes on to fire when it has read how far the incident is. -/
def firing {α : Type} (c : AlertCmd) (next : AlertProg α) : List (Uuid × Nat) :=
  match c with
  | .highestTierFired _ => (upcoming next).toList
  | _ => []

/-- Whom a recovery queues alerts for. -/
def recovering : AlertCmd → List (Uuid × List (AlertChannel × String))
  | .commitRecovery incidentId _ dests => [(incidentId, dests)]
  | _ => []

/-- A program that has not ended. -/
def unfinished {α : Type} : AlertProg α → Option (AlertProg α)
  | .ret _ => none
  | p => some p

namespace RetentionSys

/-- The statement of a sweep that is next. -/
def deleting (s : RetentionSys) (i : Nat) : Option ClassSpec :=
  match s.sweeps[i]? with
  | some (.call spec _) => some spec
  | _ => none

def prune (s : RetentionSys) (i : Nat) (rows : Option (List Uuid)) : Option RetentionSys :=
  match s.sweeps[i]?, rows with
  | some (.call _ k), none => some { s with sweeps := s.sweeps.set i (k none) }
  | some (.call spec k), some rows =>
    if spec.IsBatch s.store.toStore rows then
      some { s with
        store := { s.store with db := spec.name.delete rows s.store.db }
        sweeps := s.sweeps.set i (k (some rows.length)) }
    else none
  | _, _ => none

def step (env : Env) (s : RetentionSys) : RetentionLabel → Option RetentionSys
  | .start r => some { s with calls := s.calls ++ [r.program env] }
  | .advance i w order =>
    match s.calls[i]? with
    | some (.call c k) => (take env w order c s.store).map fun r =>
        { s with store := r.2, calls := s.calls.set i (k r.1), recovered := s.recovered ++ recovering c }
    | _ => none
  | .escalate now => if s.pass.isNone then some { s with pass := some (runEscalationCycle now) } else none
  | .pass w =>
    match s.pass with
    | some (.call c k) => (take env w [] c s.store).map fun r =>
        { s with store := r.2, pass := unfinished (k r.1), fired := s.fired ++ firing c (k r.1) }
    | _ => none
  | .sweep e => some { s with sweeps := s.sweeps ++ [runRetention e] }
  | .prune i rows => s.prune i rows
  | .elapse ms => some { s with store := s.store.elapse ms }

/-- A delivery marks an alert FAILED. -/
def Fails (s : RetentionSys) : RetentionLabel → Prop
  | .advance i _ _ =>
    match s.calls[i]? with
    | some (.call (.markAlert _ status _) _) => status = .failed
    | _ => False
  | _ => False

instance (s : RetentionSys) (l : RetentionLabel) : Decidable (s.Fails l) := by
  unfold Fails
  split
  · split <;> infer_instance
  · infer_instance

end RetentionSys

end CronMonitor.Observability
