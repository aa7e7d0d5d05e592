import CronMonitor.IncidentEvents
import CronMonitor.JobRunnerSteps

/-!
# Checks whose result transaction is open

`Sys` takes the result transaction of a check as one step. Here it is three: `BEGIN`, which fixes `now()` in it; what
comes before and with `findActiveIncident`, a plain read; and the rest, up to `COMMIT` or to the statement that fails.
Between them everything else goes on: the other checks, the operators and the escalation cycle, which write the same
rows, each with one statement that takes effect at its `now()`.

The rest is one step because nobody sees any of it before `COMMIT`, and because it does not matter when it is sent: the
result is its own, the schedule row of the target is locked since `recordRunOutcome`, which is sent before
`findActiveIncident`, and the row of the incident since the first `UPDATE` of it. `run_undivided` says that a
transaction that nothing comes between is the step of `Sys`.
-/

namespace CronMonitor

open Eff Runs Session

/-- An open result transaction: its call, the target of the call, the time at which it began, and what its
`findActiveIncident` has returned, once that was sent. -/
structure ResultTx where
  call : Nat
  apiId : Uuid
  began : Time
  found : Option (Option Incident)
deriving DecidableEq, Repr

/-- The transaction has sent `findActiveIncident`. -/
def ResultTx.read (st : Store) (t : ResultTx) : ResultTx :=
  { t with found := some (Sql.findActiveIncident t.apiId st).1 }

/-- The job runner with the result transactions that are open. -/
structure ResultSys extends Sys where
  txs : List ResultTx

/-- The claim and the outcome that the call is about to record. -/
def Call.result (c : Call) : Option (Uuid × HealthCheckOutcome) :=
  match c.pc with
  | .recording id outcome => some (id, outcome)
  | _ => none

/-- What `runScheduledCheck` does next when its transaction has ended so. -/
def Call.settled (c : Call) (claimId : Uuid) (outcome : HealthCheckOutcome) :
    Except String IncidentTransition → Call
  | .ok transition => { c with pc := .refreshing outcome transition }
  | .error e => { c with pc := .deadLettering claimId e }

def Label.crashes : Label → Nat → Bool
  | .crash i, j => i = j
  | .invoke .., _ | .advance .., _ | .elapse .., _ => false

/-- The label would take a result transaction in one step. -/
def Sys.records (s : Sys) : Label → Bool
  | .advance i _ => s.calls[i]?.any (·.result.isSome)
  | .invoke .. | .crash .. | .elapse .. => false

/-- The steps of the job runner, of its result transactions, and of those who write the same rows. -/
inductive IncidentAct
  /-- A step of the job runner; `rca` is what `buildRootCauseAnalysis` comes to in it. -/
  | runner (rca : Uuid → Except String RootCauseAnalysis) (a : Label)
  /-- The `i`-th call sends `BEGIN`. -/
  | begin (i : Nat)
  /-- Its transaction has come to `findActiveIncident`. -/
  | find (i : Nat)
  /-- It comes to `COMMIT`, or to the statement that fails. -/
  | finish (i : Nat) (failAt : Option (Nat × String))
  /-- It fails before it has come to `findActiveIncident`, or in it. -/
  | abort (i : Nat) (message : String)
  /-- `acknowledgeIncident`. -/
  | acknowledge (id : Uuid)
  /-- `resolveIncidentManually`. -/
  | resolve (id : Uuid) (resolution : String)
  /-- The escalation cycle has fired a tier. -/
  | escalate (id : Uuid) (level : Nat)

namespace ResultSys

/-- The call `i` and its open transaction. -/
def tx? (s : ResultSys) (i : Nat) : Option (Call × ResultTx) :=
  match s.calls[i]?, s.txs.find? (·.call = i) with
  | some c, some t => some (c, t)
  | _, _ => none

/-- The transaction of the call `i` is over. -/
def ended (s : ResultSys) (i : Nat) (c : Call) (st : Store) : ResultSys :=
  { s with store := st, calls := s.calls.set i c, txs := s.txs.filter (·.call ≠ i) }

def step (env : Env) (s : ResultSys) : IncidentAct → Option ResultSys
  | .runner rca a =>
    if s.toSys.records a then none
    else (Sys.step env (fun id => (rca id).map (rcaEvents id)) s.toSys a).map fun t =>
      -- The server rolls back what a dead worker has begun.
      { toSys := t, txs := s.txs.filter fun tx => !a.crashes tx.call }
  | .begin i =>
    match s.calls[i]? with
    | none => none
    | some c =>
      if c.result.isSome ∧ ∀ t ∈ s.txs, t.call ≠ i then
        some { s with txs := s.txs ++ [⟨i, c.target.id, s.store.now, none⟩] }
      else none
  | .find i =>
    match s.tx? i with
    | none => none
    | some (_, tx) =>
      -- `recordRunOutcome` waits for a transaction that has the schedule row of the target.
      if ∀ t ∈ s.txs, t.apiId = tx.apiId → t.found = none then
        some { s with txs := s.txs.map fun t => if t.call = i then t.read s.store else t }
      else none
  | .finish i failAt =>
    match s.tx? i with
    | none => none
    | some (c, tx) =>
      match c.result, tx.found with
      | some (id, outcome), some active =>
        let r := { s.store with now := tx.began }.onPool failAt
          (withTransaction (recordFound env active c.target c.slot id outcome))
        some (s.ended i (c.settled id outcome r.1) { r.2 with now := s.store.now })
      | _, _ => none
  | .abort i message =>
    match s.tx? i with
    | none => none
    | some (c, tx) =>
      match c.result, tx.found with
      | some (id, outcome), none => some (s.ended i (c.settled id outcome (.error message)) s.store)
      | _, _ => none
  | .acknowledge id => some { s with store := (Sql.acknowledgeIncident id s.store).2 }
  | .resolve id resolution => some { s with store := (Sql.resolveIncident id (some resolution) s.store).2 }
  | .escalate id level => some { s with store := (Sql.escalateIncident id level s.store).2 }

def init (st : Store) : ResultSys := ⟨Sys.init st, []⟩

end ResultSys

/-! ### A transaction that nothing comes between -/

section Undivided

variable {α β : Type} {P : Store → Prop} {Q : α → Store → Prop} {m : SqlM α} {f g : α → SqlM β} {s : Session} {d : Db}
  {st : Store}

/-- After the same statements, two computations that do the same do the same. -/
theorem exec_bind_congr (hm : TxReturns P m Q)
    (h : ∀ a s, s.Ready d → Q a s.clientView → exec (f a) s = exec (g a) s) (hs : s.Ready d) (hP : P s.clientView) :
    exec (m >>= f) s = exec (m >>= g) s := by
  obtain ⟨a, s', hx, hs', hQ⟩ := hm d s ⟨hs, hP⟩
  rw [exec_bind_ok hx, exec_bind_ok hx]
  exact h a s' hs' hQ

theorem withTransaction_congr {fn fn' : SqlM α} (h : exec fn ⟨st, some st.db, none⟩ = exec fn' ⟨st, some st.db, none⟩) :
    exec (withTransaction fn) ⟨st, none, none⟩ = exec (withTransaction fn') ⟨st, none, none⟩ := by
  have hbegin : exec beginTx ⟨st, none, none⟩ = (.ok (), ⟨st, some st.db, none⟩) := rfl
  have hconnect : exec connect ⟨st, none, none⟩ = (.ok (), ⟨st, none, none⟩) := rfl
  have hbody : exec (txBody fn) ⟨st, none, none⟩ = exec (txBody fn') ⟨st, none, none⟩ := by
    rw [txBody, txBody, exec_bind_ok hbegin, exec_bind_ok hbegin, exec_bind, exec_bind, h]
  rw [withTransaction_eq, withTransaction_eq, exec_bind_ok hconnect, exec_bind_ok hconnect, exec_tryCatch, exec_tryCatch,
    hbody]

/-- The state machine goes on with what its first statement returns. -/
theorem exec_processCheckOutcome (env : Env) (ctx : CheckContext) (hs : s.Ready d) :
    exec (processCheckOutcome env ctx .client) s =
      exec (processFound env ctx (Sql.findActiveIncident ctx.target.id s.clientView).1 .client) s := by
  have hread : exec (findActiveIncident ctx.target.id .client) s =
      (.ok (Sql.findActiveIncident ctx.target.id s.clientView).1, s) := by
    obtain ⟨store, tx, failAt⟩ := s
    obtain ⟨d', rfl⟩ := Option.isSome_iff_exists.1 hs.tx
    rw [findActiveIncident, query, exec_guarded hs.failAt]
    rfl
  rw [processCheckOutcome, exec_bind_ok hread]

/-- What is read at the start of the transaction is what is read in it. -/
theorem recordFound_eq (env : Env) (target : MonitoredApi) (slot : Time) (claimId : Uuid) (outcome : HealthCheckOutcome)
    (st : Store) :
    exec (withTransaction (recordFound env (Sql.findActiveIncident target.id st).1 target slot claimId outcome))
        ⟨st, none, none⟩ =
      exec (withTransaction (recordAndComplete env target slot claimId outcome)) ⟨st, none, none⟩ := by
  refine withTransaction_congr ?_
  have hready : Ready st.db ⟨st, some st.db, none⟩ := ⟨rfl, rfl, rfl⟩
  have hrecorded : exec (recordBy (processFound env · (Sql.findActiveIncident target.id st).1 .client) target slot outcome)
      ⟨st, some st.db, none⟩ = exec (recordCheck env target slot outcome) ⟨st, some st.db, none⟩ := by
    have hinsert : TxReturns (· = st) (insertHealthCheckResult target.id (jobRunId target.id slot) outcome .client)
        fun _ => Unmoved st := by
      refine TxReturns.client ?_
      rintro _ rfl
      exact insertHealthCheckResult_unmoved _ _ _ _
    refine exec_bind_congr hinsert (fun checkId s hs hv => ?_) hready rfl
    refine exec_bind_congr (recordTrace_unmoved _ _ _ _) (fun _ s hs hv => ?_) hs hv
    have hcounters : TxReturns (Unmoved st) (recordRunOutcome target.id slot outcome.status .client) fun _ => Unmoved st :=
      TxReturns.client fun v hv => hv.trans (recordRunOutcome_unmoved _ _ _ v)
    refine exec_bind_congr hcounters (fun counters s hs hv => ?_) hs hv
    rw [exec_processCheckOutcome env _ hs]
    have hsame : (Sql.findActiveIncident target.id s.clientView).1 = (Sql.findActiveIncident target.id st).1 := by
      simp only [Sql.findActiveIncident, hv.incidents]
    rw [hsame]
  rw [recordFound, recordAndComplete, completing, completing, exec_bind, exec_bind, hrecorded]

end Undivided

/-- A result transaction that nothing comes between is the step of the job runner. -/
theorem run_undivided {env : Env} {s : ResultSys} {i : Nat} {c : Call} (hc : s.calls[i]? = some c)
    (hresult : c.result.isSome) (hfree : ∀ t ∈ s.txs, t.call ≠ i ∧ (t.apiId = c.target.id → t.found = none))
    (rca : Uuid → Except String (List IncidentEventInput)) (execution : Except String HealthCheckOutcome) :
    run (ResultSys.step env) s [.begin i, .find i, .finish i none] =
      (Sys.step env rca s.toSys (.advance i ⟨none, execution⟩)).map fun t => { toSys := t, txs := s.txs } := by
  obtain ⟨id, outcome, hpc⟩ : ∃ id outcome, c.pc = .recording id outcome := by
    unfold Call.result at hresult
    split at hresult
    · exact ⟨_, _, ‹_›⟩
    · cases hresult
  have hres : c.result = some (id, outcome) := by
    simp [Call.result, hpc]
  have hlive : c.isLive := by
    simp [Call.isLive, hpc]
  set tx : ResultTx := ⟨i, c.target.id, s.store.now, none⟩
  set read : ResultTx := tx.read s.store
  have hlast (t : ResultTx) (ht : t.call = i) : ResultSys.tx? { s with txs := s.txs ++ [t] } i = some (c, t) := by
    have hothers : s.txs.find? (·.call = i) = none := List.find?_eq_none.2 fun t ht => by simp [(hfree t ht).1]
    simp [ResultSys.tx?, hc, List.find?_append, hothers, ht]
  have hbegin : ResultSys.step env s (.begin i) = some { s with txs := s.txs ++ [tx] } := by
    simp only [ResultSys.step, hc]
    exact if_pos ⟨hresult, fun t ht => (hfree t ht).1⟩
  have hfind : ResultSys.step env { s with txs := s.txs ++ [tx] } (.find i) = some { s with txs := s.txs ++ [read] } := by
    simp only [ResultSys.step, hlast tx rfl]
    rw [if_pos]
    · have hsame : (s.txs.map fun t => if t.call = i then t.read s.store else t) = s.txs := by
        refine (List.map_congr_left fun t ht => ?_).trans (List.map_id _)
        rw [if_neg (hfree t ht).1]
        rfl
      simp only [List.map_append, hsame, List.map_singleton]
      rw [if_pos rfl]
    · intro t ht hapi
      rcases List.mem_append.1 ht with ht | ht
      · exact (hfree t ht).2 hapi
      · rw [List.mem_singleton.1 ht]
  have hfinish : ResultSys.step env { s with txs := s.txs ++ [read] } (.finish i none) =
      (Sys.step env rca s.toSys (.advance i ⟨none, execution⟩)).map fun t => { toSys := t, txs := s.txs } := by
    obtain ⟨transition, st', hx, ctx, v, hchecked⟩ := withTransaction_returns
      (recordFound_tables env (Sql.findActiveIncident c.target.id s.store).1 c.target c.slot id outcome s.store)
    have hx' := (recordFound_eq env c.target c.slot id outcome s.store).symm.trans hx
    have htxs : (s.txs ++ [read]).filter (·.call ≠ i) = s.txs := by
      rw [List.filter_append, List.filter_eq_self.2 fun t ht => by simp [(hfree t ht).1]]
      simp [read, tx, ResultTx.read]
    have hclock : { st' with now := s.store.now } = st' := by rw [← hchecked.now]
    have hfound : read.found = some (Sql.findActiveIncident c.target.id s.store).1 := rfl
    have hbegan : read.began = s.store.now := rfl
    simp only [ResultSys.step, hlast read rfl, hres, hfound, hbegan, Sys.step, hc, hlive, Call.advance, hpc, if_true,
      Store.onPool]
    rw [hx', hx]
    simp only [ResultSys.ended, Call.settled, Sys.noteStart, Sys.noteLock, hclock, hpc, Option.map_some, List.append_nil]
    rw [htxs]
  rw [run, hbegin, Option.bind_some, run, hfind, Option.bind_some, run, hfinish]
  cases Sys.step env rca s.toSys (.advance i ⟨none, execution⟩) <;> rfl

end CronMonitor
