import CronMonitor.StateMachine
import CronMonitor.Tx

/-!
# What the state machine leaves alone

Whatever branch it takes and whichever statement fails, `processCheckOutcome` on a client changes only the
tables `incidents`, `incident_events` and `alerts` of the open transaction, and draws at most one number from
the incident sequence (`processCheckOutcome_writes`). It throws only where a statement fails
(`Writes.plain`).
-/

namespace CronMonitor

open Eff Session

/-- `b` differs from `a` only in the incident tables and in what was drawn: at most `n` incident numbers. -/
structure OnlyIncidents (n : Nat) (a b : Store) : Prop where
  db : b.db = { a.db with incidents := b.db.incidents, incidentEvents := b.db.incidentEvents, alerts := b.db.alerts }
  uuid : a.nextUuid ≤ b.nextUuid
  seq_ge : a.incidentNumberSeq ≤ b.incidentNumberSeq
  seq_le : b.incidentNumberSeq ≤ a.incidentNumberSeq + n
  now : b.now = a.now

namespace OnlyIncidents

variable {n k : Nat} {a b c : Store}

theorem refl (a : Store) : OnlyIncidents n a a := ⟨rfl, Nat.le_refl _, Nat.le_refl _, Nat.le_add_right _ _, rfl⟩

theorem trans (h : OnlyIncidents n a b) (h' : OnlyIncidents k b c) : OnlyIncidents (n + k) a c := by
  refine ⟨?_, h.uuid.trans h'.uuid, h.seq_ge.trans h'.seq_ge, ?_, h'.now.trans h.now⟩
  · rw [h'.db, h.db]
  · have := h.seq_le
    have := h'.seq_le
    omega

theorem mono (h : OnlyIncidents n a b) (hnk : n ≤ k) : OnlyIncidents k a b :=
  ⟨h.db, h.uuid, h.seq_ge, h.seq_le.trans (Nat.add_le_add_left hnk _), h.now⟩

end OnlyIncidents

/-- Computations made of statements on the client that move its view by `OnlyIncidents`, at most `n` incident
numbers in all, and of reads on the pool. -/
inductive Writes : Nat → {α : Type} → SqlM α → Prop
  | pure {n : Nat} {α : Type} (a : α) : Writes n (Pure.pure a : SqlM α)
  | client {n : Nat} {α : Type} {stmt : Stmt α} (h : ∀ st, OnlyIncidents n st (stmt st).2) :
    Writes n (query .client stmt)
  | pool {n : Nat} {α : Type} {stmt : Stmt α} (h : ∀ st, (stmt st).2 = st) : Writes n (query .pool stmt)
  /-- The first part draws no number. -/
  | seq {n : Nat} {α β : Type} {m : SqlM α} {f : α → SqlM β} (hm : Writes 0 m) (hf : ∀ a, Writes n (f a)) :
    Writes n (m >>= f)
  /-- The second part draws no number. -/
  | bind {n : Nat} {α β : Type} {m : SqlM α} {f : α → SqlM β} (hm : Writes n m) (hf : ∀ a, Writes 0 (f a)) :
    Writes n (m >>= f)

namespace Writes

variable {α β : Type} {n k : Nat} {m : SqlM α}

theorem mono (hm : Writes n m) (hnk : n ≤ k) : Writes k m := by
  induction hm with
  | pure a => exact .pure a
  | client h => exact .client fun st => (h st).mono hnk
  | pool h => exact .pool h
  | seq hm _ _ ihf => exact .seq hm fun a => ihf a hnk
  | bind _ hf ihm _ => exact .bind (ihm hnk) hf

theorem forM {g : β → SqlM PUnit} (hg : ∀ b, Writes 0 (g b)) : ∀ l : List β, Writes 0 (l.forM g)
  | [] => .pure _
  | b :: l => .seq (hg b) fun _ => forM hg l

/-- The frame rule. -/
theorem moves (hm : Writes n m) : Moves (InTx (OnlyIncidents n)) m := by
  induction hm with
  | pure a => exact Moves.pure (InTx.refl OnlyIncidents.refl) a
  | client h => exact moves_client OnlyIncidents.refl h
  | pool h => exact moves_pool OnlyIncidents.refl h
  | seq _ _ ihm ihf =>
    refine InTx.comp ihm ihf (fun a b h => h.mono (Nat.zero_le _)) fun a b c h h' => ?_
    exact (h.trans h').mono (by omega)
  | bind _ _ ihm ihf => exact InTx.comp ihm ihf (fun a b h => h) fun a b c h h' => h.trans h'

theorem plain (hm : Writes n m) : Plain m := by
  induction hm with
  | pure a => exact Plain.pure a
  | client _ | pool _ => exact Plain.query _ _
  | seq _ _ ihm ihf | bind _ _ ihm ihf => exact Plain.bind ihm ihf

/-- When no statement fails, the computation returns. -/
theorem returns (hm : Writes n m) (v : Store) : TxReturns (· = v) m fun _ v' => OnlyIncidents n v v' := by
  induction hm generalizing v with
  | pure a => exact TxReturns.pure fun st h => h ▸ OnlyIncidents.refl _
  | client h => exact TxReturns.client fun st hst => hst ▸ h st
  | pool h => exact TxReturns.pool h fun a st hst => hst ▸ OnlyIncidents.refl _
  | seq _ _ ihm ihf =>
    refine TxReturns.bind (ihm v) fun a => TxReturns.of_forall fun v' hv' => ?_
    exact (ihf a v').conseq (fun _ h => h) fun _ _ h => (hv'.trans h).mono (by omega)
  | bind _ _ ihm ihf =>
    refine TxReturns.bind (ihm v) fun a => TxReturns.of_forall fun v' hv' => ?_
    exact (ihf a v').conseq (fun _ h => h) fun _ _ h => hv'.trans h

end Writes

/-! ### Statement by statement -/

theorem recordAlert_writes (i : AlertInput) : Writes 0 (recordAlert i .client) :=
  Writes.client fun _ => ⟨rfl, Nat.le_succ _, Nat.le_refl _, Nat.le_refl _, rfl⟩

theorem createAlert_writes (i : CreateAlertInput) : Writes 0 (createAlert i .client) :=
  Writes.client fun _ => ⟨rfl, Nat.le_succ _, Nat.le_refl _, Nat.le_refl _, rfl⟩

theorem recordIncidentEvent_writes (i : IncidentEventInput) : Writes 0 (recordIncidentEvent i .client) :=
  Writes.client fun _ => ⟨rfl, Nat.le_refl _, Nat.le_refl _, Nat.le_refl _, rfl⟩

/-- Every `UPDATE incidents … WHERE id = $1` of the state machine. -/
theorem updateIncident_writes (id : Uuid) (f : Incident → Incident) :
    Writes 0 (query .client (Sql.updateIncident id f)) :=
  Writes.client fun _ => ⟨rfl, Nat.le_refl _, Nat.le_refl _, Nat.le_refl _, rfl⟩

theorem resolveIncident_writes (id : Uuid) (r : Option String) : Writes 0 (resolveIncident id r .client) :=
  Writes.client fun _ => ⟨rfl, Nat.le_refl _, Nat.le_refl _, Nat.le_refl _, rfl⟩

theorem openIncident_writes (i : OpenIncidentInput) : Writes 1 (openIncident i .client) :=
  Writes.client fun _ => ⟨rfl, Nat.le_succ _, Nat.le_succ _, Nat.le_refl _, rfl⟩

theorem findActiveIncident_writes (id : Uuid) : Writes 0 (findActiveIncident id .client) :=
  Writes.client fun st => OnlyIncidents.refl st

theorem countStatusTransitions_writes (id : Uuid) (w : Nat) : Writes 0 (countStatusTransitions id w .client) :=
  Writes.client fun st => OnlyIncidents.refl st

theorem incidentAlertContacts_writes : Writes 0 incidentAlertContacts := Writes.pool fun _ => rfl

theorem notifiedTargetsForIncident_writes (id : Uuid) : Writes 0 (notifiedTargetsForIncident id) :=
  Writes.pool fun _ => rfl

/-! ### The branches -/

variable (env : Env)

theorem recordDefaultAlerts_writes (ty : AlertType) (apiId incidentId : Uuid) (msg : String) :
    Writes 0 (recordDefaultAlerts env ty apiId incidentId msg .client) := by
  unfold recordDefaultAlerts
  refine Writes.seq (Writes.forM (fun _ => recordAlert_writes _) _) fun _ => ?_
  refine Writes.seq incidentAlertContacts_writes fun contacts => ?_
  exact Writes.forM (fun _ => recordAlert_writes _) _

theorem queueRecoveryAlerts_writes (incidentId apiId : Uuid) :
    Writes 0 (queueRecoveryAlerts env incidentId apiId .client) := by
  unfold queueRecoveryAlerts
  refine Writes.seq (notifiedTargetsForIncident_writes _) fun notified => ?_
  refine Writes.seq incidentAlertContacts_writes fun contacts => ?_
  exact Writes.forM (fun _ => Writes.seq (createAlert_writes _) fun _ => Writes.pure _) _

theorem checkFlapping_writes (target : MonitoredApi) (active : Option Incident) :
    Writes 0 (checkFlapping env target active .client) := by
  unfold checkFlapping
  refine Writes.seq (countStatusTransitions_writes _ _) fun transitions => ?_
  split
  · exact Writes.pure _
  cases active with
  | none => exact Writes.pure _
  | some a =>
    simp only
    split
    · refine Writes.seq (updateIncident_writes _ _) fun _ => ?_
      refine Writes.seq (recordIncidentEvent_writes _) fun _ => ?_
      exact Writes.seq (recordDefaultAlerts_writes env _ _ _ _) fun _ => Writes.pure _
    · exact Writes.pure _

theorem openForCheck_writes (ctx : CheckContext) : Writes 1 (openForCheck env ctx .client) := by
  unfold openForCheck
  refine Writes.bind (openIncident_writes _) fun incident => ?_
  refine Writes.seq (recordDefaultAlerts_writes env _ _ _ _) fun _ => ?_
  refine Writes.seq (checkFlapping_writes env _ _) fun flapped => ?_
  cases flapped with
  | none => exact Writes.pure _
  | some f =>
    simp only
    split <;> exact Writes.pure _

theorem noteFailureChange_writes (ctx : CheckContext) (active : Incident) :
    Writes 0 (noteFailureChange ctx active .client) := by
  unfold noteFailureChange
  split
  · exact Writes.pure _
  · split
    · exact Writes.pure _
    · exact recordIncidentEvent_writes _

theorem promoteIfDegraded_writes (ctx : CheckContext) (active : Incident) :
    Writes 0 (promoteIfDegraded ctx active .client) := by
  unfold promoteIfDegraded
  split
  · refine Writes.seq (updateIncident_writes _ _) fun _ => ?_
    refine Writes.seq (updateIncident_writes _ _) fun _ => ?_
    exact Writes.seq (recordIncidentEvent_writes _) fun _ => Writes.pure _
  · exact Writes.pure _

theorem recordFailure_writes (ctx : CheckContext) (active : Incident) :
    Writes 0 (recordFailure env ctx active .client) := by
  unfold recordFailure
  refine Writes.seq (noteFailureChange_writes ctx active) fun _ => ?_
  refine Writes.seq (updateIncident_writes _ _) fun _ => ?_
  refine Writes.seq (promoteIfDegraded_writes ctx active) fun active' => ?_
  refine Writes.seq (checkFlapping_writes env _ _) fun flapped => ?_
  cases flapped with
  | none => exact Writes.pure _
  | some f =>
    simp only
    split <;> exact Writes.pure _

theorem recoverIfStreak_writes (ctx : CheckContext) (active : Incident) :
    Writes 0 (recoverIfStreak env ctx active .client) := by
  unfold recoverIfStreak
  split
  · refine Writes.seq (resolveIncident_writes _ _) fun resolved => ?_
    cases resolved with
    | none => exact Writes.pure _
    | some r => exact Writes.seq (queueRecoveryAlerts_writes env _ _) fun _ => Writes.pure _
  · exact Writes.pure _

/-- On every path the state machine writes the incident tables only, and opens at most one incident. -/
theorem processFound_writes (ctx : CheckContext) (active : Option Incident) :
    Writes 1 (processFound env ctx active .client) := by
  unfold processFound
  rcases ctx.status <;> cases active
  all_goals
    first
    | exact Writes.pure _
    | exact openForCheck_writes env ctx
    | exact (recordFailure_writes env ctx _).mono (Nat.zero_le _)
    | exact (recoverIfStreak_writes env ctx _).mono (Nat.zero_le _)

theorem processCheckOutcome_writes (ctx : CheckContext) : Writes 1 (processCheckOutcome env ctx .client) :=
  Writes.seq (findActiveIncident_writes _) fun active => processFound_writes env ctx active

end CronMonitor
