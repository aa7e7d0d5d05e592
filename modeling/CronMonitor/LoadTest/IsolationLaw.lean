import CronMonitor.Alerts.CheckAlerts
import CronMonitor.Alerts.SentOnce
import CronMonitor.LoadTest.Isolation
import CronMonitor.LoadTest.LifeCycle

/-!
# When a load run stays isolated

The window of a run is looked up by those it should keep out when they come to it, which may be before it was opened for
a check that is recorded later, and after it was deleted for an SLA query or an alert that is still pending. Where every
check recorded during a run lies in a window, every window deleted leaves such checks in another one, and every delivery
that comes to an alert of such a check finds a window open, the run is isolated in every state (`isolated_throughout`).
-/

namespace CronMonitor.LoadTest
open Alerts Runs Prog

/-- The window that the next statement of an execution deletes. -/
def ExecutionPc.deletes : ExecutionPc → Option Uuid
  | .closing w => some w
  | _ => none

/-! ### The protocol of a delivery -/

/-- An alert that is delivered without looking for a window. -/
def exempt (a : Alert) : Bool := a.apiId.isNone || a.alertType = .apiRecovered

inductive DeliveryStage
  | listed
  /-- No window was found. -/
  | unshielded
  /-- The body is composed: the alert goes to its channel. -/
  | leaving
deriving DecidableEq

/-- The alerts a cycle has still to deliver, and how far it is with the first of them. -/
structure Shield where
  todo : List Alert
  stage : DeliveryStage
deriving DecidableEq

def Shield.next : Protocol AlertCmd AlertCmd.Ans Shield
  | x, .listPendingAlerts _ => if x = ⟨[], .listed⟩ then some fun listed => ⟨listed, .listed⟩ else none
  | x, .activeWindowForTarget _ =>
    if x = ⟨[], .listed⟩ then some fun _ => x
    else some fun window => { x with stage := if window.isNone then .unshielded else .listed }
  | x, .composeBody a _ _ =>
    if x = ⟨[], .listed⟩ then some fun _ => x
    else if x.todo.head? = some a ∧ (x.stage = .unshielded ∨ exempt a) then
      some fun _ => { x with stage := .leaving }
    else none
  | x, .send id _ _ =>
    if x.todo.head?.map (·.id) = some id ∧ x.stage = .leaving then some fun _ => x else none
  | x, .markAlert id status _ =>
    if status = .sent → x.todo.head?.map (·.id) = some id ∧ x.stage = .leaving then
      some fun _ => ⟨x.todo.tail, .listed⟩
    else none
  | x, _ => if x.stage = .unshielded then none else some fun _ => x

/-- A command of a delivery, or of its look for a window. -/
def shields : AlertCmd → Bool
  | .listPendingAlerts _ | .activeWindowForTarget _ | .composeBody _ _ _ | .send _ _ _ | .markAlert _ _ _ => true
  | _ => false

theorem Shield.next_of_not_shields {x : Shield} {c : AlertCmd} (h : shields c = false) :
    Shield.next x c = if x.stage = .unshielded then none else some fun _ => x := by
  cases c <;> first | rfl | cases h

theorem Shield.quiet {α : Type} {p : AlertProg α} {todo : List Alert} (h : p.Issues fun c => shields c = false) :
    Follows Shield.next ⟨todo, .listed⟩ p fun _ y => y = ⟨todo, .listed⟩ :=
  Follows.of_issues h fun c hc => by rw [next_of_not_shields hc]; rfl

/-- A program that delivers nothing has nothing to shield. -/
theorem Shield.idle {α : Type} {p : AlertProg α} (h : p.Issues AlertCmd.NoDelivery) :
    Follows Shield.next ⟨[], .listed⟩ p fun _ y => y = ⟨[], .listed⟩ :=
  Follows.of_issues h fun c hc => by cases c <;> first | rfl | cases hc

section First

variable {a : Alert} {rest : List Alert} {stage : DeliveryStage}

theorem Shield.next_read (apiId : Uuid) : Shield.next ⟨a :: rest, stage⟩ (.activeWindowForTarget apiId) =
    some fun window => ⟨a :: rest, if window.isNone then .unshielded else .listed⟩ := by
  simp [Shield.next]

theorem Shield.next_compose (h : stage = .unshielded ∨ exempt a) (incident : Option Incident)
    (target : Option AlertTarget) : Shield.next ⟨a :: rest, stage⟩ (.composeBody a incident target) =
      some fun _ => ⟨a :: rest, .leaving⟩ := by
  simp [Shield.next, h]

theorem Shield.next_send (channel : AlertChannel) (n : Notification) :
    Shield.next ⟨a :: rest, .leaving⟩ (.send a.id channel n) = some fun _ => ⟨a :: rest, .leaving⟩ := by
  simp [Shield.next]

theorem Shield.next_mark {status : AlertStatus} (h : status = .sent → stage = .leaving) (detail : Option String) :
    Shield.next ⟨a :: rest, stage⟩ (.markAlert a.id status detail) = some fun _ => ⟨rest, .listed⟩ := by
  simpa [Shield.next] using h

end First

theorem deliver_shielded (result : Alerts.DeliveryResult) (a : Alert) (rest : List Alert) :
    Follows Shield.next ⟨a :: rest, .listed⟩ (deliver result a) fun _ y => y = ⟨rest, .listed⟩ := by
  unfold deliver
  refine .bind ((Shield.quiet (readBy_issues fun _ => .cmd (P := fun c => shields c = false) rfl)).mono ?_)
  rintro incident _ rfl
  refine .bind ((Shield.quiet (readBy_issues fun _ => .cmd (P := fun c => shields c = false) rfl)).mono ?_)
  rintro target _ rfl
  -- no window was found, or none was looked for
  have hsend : ∀ (stage : DeliveryStage), stage = .unshielded ∨ exempt a → Follows Shield.next ⟨a :: rest, stage⟩ (do
      let body ← composeBody a incident target
      let outcome ← send a.id a.channel (notificationFor a incident target body)
      if outcome.ok then
        Alerts.markAlert a.id .sent outcome.detail
        return { result with delivered := result.delivered + 1 }
      else
        Alerts.markAlert a.id .failed outcome.detail
        return { result with failed := result.failed + 1 }) fun _ y => y = ⟨rest, .listed⟩ := by
    intro stage hstage
    refine .bind (.cmd (Shield.next_compose hstage _ _) fun body => ?_)
    refine .bind (.cmd (Shield.next_send _ _) fun outcome => ?_)
    split <;> exact .bind (.cmd (Shield.next_mark (fun _ => rfl) _) fun _ => rfl)
  by_cases hexempt : a.alertType ≠ .apiRecovered
  · rw [if_pos hexempt]
    cases hapi : a.apiId with
    | none => exact hsend _ (.inr (by simp [exempt, hapi]))
    | some apiId =>
      refine .bind (.cmd (Shield.next_read apiId) fun window => ?_)
      cases window with
      | none => exact hsend _ (.inl rfl)
      | some window =>
        have hmark : AlertStatus.suppressed = .sent → DeliveryStage.listed = .leaving := fun h => by cases h
        exact .bind (.cmd (Shield.next_mark hmark _) fun _ => rfl)
  · rw [if_neg hexempt]
    exact hsend _ (.inr (by simp [exempt, not_not.1 hexempt]))

theorem runDeliveryCycle_shielded : Follows Shield.next ⟨[], .listed⟩ runDeliveryCycle fun _ _ => True := by
  unfold runDeliveryCycle
  refine .bind (.cmd (f := fun listed : List Alert => ⟨listed, .listed⟩) rfl fun listed => ?_)
  refine (Follows.foldlM (I := fun l y => y = ⟨l, .listed⟩) ?_ listed _ _ rfl).mono fun _ _ _ => trivial
  rintro result a l _ rfl
  exact deliver_shielded result a l

theorem request_shielded (env : Env) (r : AlertRequest) :
    Follows Shield.next ⟨[], .listed⟩ (r.program env) fun _ _ => True := by
  cases r with
  | cycle now =>
    refine .bind ((Shield.idle (runEscalationCycle_issues (fun _ h => h.1) now)).mono ?_)
    rintro _ _ rfl
    exact .bind (runDeliveryCycle_shielded.mono fun _ _ _ => trivial)
  | check ctx => exact (Shield.idle (processCheck_issues env ctx)).mono fun _ _ _ => trivial
  | resolve id resolution actor =>
    refine .bind ((Shield.idle (resolveIncidentManually_issues (fun _ h => h.1) id resolution actor)).mono ?_)
    exact fun _ _ _ => trivial

namespace IsolationSys

variable {env : Env} {s s' : IsolationSys}

/-! ### The condition -/

/-- A window that covers the instant `at_` for a target. -/
def Covered (s : IsolationSys) (apiId : Uuid) (at_ : Time) : Prop :=
  ∃ row ∈ s.windows, (row.window.targetId = some apiId ∨ row.window.targetId = none) ∧
    row.window.startsAt ≤ at_ ∧ at_ < row.window.endsAt

/-- Once the windows `ids` are deleted, every check recorded during a run still lies in one. -/
def KeepsCover (s : IsolationSys) (ids : List Uuid) : Prop :=
  ∀ c ∈ s.store.db.healthCheckResults, c.id ∈ s.duringRun →
    (s.deleteMaintenanceWindows ids).Covered c.apiId c.checkedAt

/-- The alert whose body a delivery goes on to compose. -/
def composing : AlertProg Unit → Option Alert
  | .call (.composeBody a _ _) _ => some a
  | _ => none

/-- A delivery that looks for a window of a target, with the alert it goes on to if there is none. -/
def lookingFor : AlertProg Unit → Option (Uuid × Alert)
  | .call (.activeWindowForTarget apiId) k => (composing (k none)).map fun a => (apiId, a)
  | _ => none

/-- A check recorded during a run lies in a window; the windows a step deletes are not the last ones of such checks; and
a delivery that looks for a window before an alert of such a check finds one. -/
def Shielded (s : IsolationSys) : IsolationLabel → Prop
  | .check target _ _ outcome => s.isRunning target.id → s.Covered target.id outcome.checkedAt
  | .execute i e => ∀ x ∈ s.executions[i]?, ∀ w ∈ x.pc.deletes, e.fails = false → s.KeepsCover [w]
  | .deleteAbandoned => ∀ ids ∈ s.abandoned.head?, s.KeepsCover ids
  | .advance i w => ∀ p ∈ s.calls[i]?, ∀ q ∈ lookingFor p, q.2.id ∈ s.raised →
      ((s.alerts.store.elapse w.elapsed).activeWindowForTarget q.1).isSome
  | _ => True

instance (apiId : Uuid) (at_ : Time) : Decidable (s.Covered apiId at_) :=
  inferInstanceAs (Decidable (∃ row ∈ s.windows, _))

instance (ids : List Uuid) : Decidable (s.KeepsCover ids) :=
  inferInstanceAs (Decidable (∀ c ∈ s.store.db.healthCheckResults, _ → _))

instance (l : IsolationLabel) : Decidable (s.Shielded l) :=
  match l with
  | .check _ _ _ _ => inferInstanceAs (Decidable (_ → _))
  | .execute i _ => inferInstanceAs (Decidable (∀ x ∈ s.executions[i]?, ∀ w ∈ x.pc.deletes, _ → _))
  | .deleteAbandoned => inferInstanceAs (Decidable (∀ ids ∈ s.abandoned.head?, _))
  | .advance i _ => inferInstanceAs (Decidable (∀ p ∈ s.calls[i]?, ∀ q ∈ lookingFor p, _ → _))
  | .cycle _ | .resolve _ _ _ | .queue _ _ _ _ _ | .claim _ _ | .requestAbort _ _ | .recoverStale _ | .elapse _ =>
    isTrue trivial

/-! ### The invariant -/

/-- A program in a state of its protocol, the identifiers below `next` being drawn. -/
structure Careful (raised : List Uuid) (next : Uuid) (p : AlertProg Unit) (x : Shield) : Prop where
  todo : ∀ a ∈ x.todo, a.id < next ∧ (exempt a → a.id ∉ raised)
  unshielded : x.stage = .unshielded → ∀ a, composing p = some a → a.id ∉ raised
  leaving : x.stage = .leaving → ∀ a ∈ x.todo.head?, a.id ∉ raised

structure Inv (s : IsolationSys) (hs : List Shield) : Prop where
  tracked : s.alerts.Tracked Shield.next hs
  careful : ∀ (i : Nat) p x, s.calls[i]? = some p → hs[i]? = some x → Careful s.raised s.store.nextUuid p x
  keyed : Keyed s.store
  drawn : ∀ id, id ∈ s.raised ∨ id ∈ s.store.sent ∨ id ∈ s.duringRun → id < s.store.nextUuid
  rows : ∀ a ∈ s.store.db.alerts, a.id ∈ s.raised → a.status ≠ .sent ∧ ¬ exempt a
  sent : ∀ id ∈ s.raised, id ∉ s.store.sent
  cover : ∀ c ∈ s.store.db.healthCheckResults, c.id ∈ s.duringRun → s.Covered c.apiId c.checkedAt

variable {hs : List Shield}

/-! ### From the invariant to isolation -/

theorem Covered.any {apiId : Uuid} {at_ : Time} (h : s.Covered apiId at_) (status : HealthStatus)
    (p : HealthCheckResult → Bool) : (s.slaSource p).windows.any (·.covers ⟨apiId, at_, status⟩) := by
  obtain ⟨row, hrow, htarget, hstart, hend⟩ := h
  refine List.any_eq_true.2 ⟨⟨row.window.targetId, row.window.startsAt, row.window.endsAt⟩,
    List.mem_map.2 ⟨row, hrow, rfl⟩, ?_⟩
  simp only [Sla.MaintenanceWindow.covers, Bool.and_eq_true, Bool.or_eq_true, decide_eq_true_eq]
  exact ⟨⟨htarget, hstart⟩, hend⟩

/-- Rows that lie in a window do not count. -/
theorem figures_filter {rows : List (HealthStatus × Bool)} (start stop : Time) (pct : ℚ) :
    (Sla.figuresOf rows start stop pct).uptimePercent =
        (Sla.figuresOf (rows.filter fun r => !r.2) start stop pct).uptimePercent ∧
      (Sla.figuresOf rows start stop pct).slaMet =
        (Sla.figuresOf (rows.filter fun r => !r.2) start stop pct).slaMet := by
  have htotal : (rows.filter fun r => !r.2).countP (fun r => !r.2) = rows.countP fun r => !r.2 := by
    rw [List.countP_filter]
    simp
  have hup : (rows.filter fun r => !r.2).countP (fun r => !r.2 && (r.1 = .up || r.1 = .degraded)) =
      rows.countP fun r => !r.2 && (r.1 = .up || r.1 = .degraded) := by
    rw [List.countP_filter]
    refine List.countP_congr fun r _ => ?_
    cases r.2 <;> simp
  simp only [Sla.figuresOf, htotal, hup, and_self]

theorem Inv.slaIgnoresRuns (h : Inv s hs) : s.SlaIgnoresRuns := by
  intro apiId start stop pct
  -- the rows that count are the same
  have hrows : ((s.slaSource fun _ => true).slaRows apiId start stop).filter (fun r => !r.2) =
      ((s.slaSource (·.id ∉ s.duringRun)).slaRows apiId start stop).filter fun r => !r.2 := by
    have hany := fun (c : HealthCheckResult) (hc : c ∈ s.store.db.healthCheckResults) (hd : c.id ∈ s.duringRun) =>
      (h.cover c hc hd).any c.status fun _ => true
    simp only [Sla.Source.slaRows, slaSource, List.filter_true] at hany ⊢
    generalize s.store.db.healthCheckResults = results at hany
    induction results with
    | nil => rfl
    | cons c cs ih =>
      have ih := ih fun d hd => hany d (List.mem_cons_of_mem c hd)
      by_cases hd : c.id ∈ s.duringRun
      · have hcov := hany c List.mem_cons_self hd
        simp only [List.filter_cons, hd, not_true_eq_false, decide_false, Bool.false_eq_true, if_false, List.map_cons]
        rw [← ih]
        split
        · simp only [List.map_cons, List.filter_cons, hcov, Bool.not_true, Bool.false_eq_true, if_false]
        · rfl
      · simp only [List.filter_cons, hd, not_false_eq_true, decide_true, if_true, List.map_cons]
        split
        · simp only [List.map_cons, List.filter_cons]
          split
          · rw [ih]
          · exact ih
        · exact ih
  obtain ⟨hup, hmet⟩ := @figures_filter ((s.slaSource fun _ => true).slaRows apiId start stop) start stop pct
  obtain ⟨hup', hmet'⟩ :=
    @figures_filter ((s.slaSource (·.id ∉ s.duringRun)).slaRows apiId start stop) start stop pct
  exact ⟨hup.trans (hrows ▸ hup'.symm), hmet.trans (hrows ▸ hmet'.symm)⟩

theorem Inv.isolated (h : Inv s hs) : s.Isolated where
  sla := h.slaIgnoresRuns
  alerts id hid := by
    refine ⟨h.sent id hid, ?_⟩
    rintro a ha rfl
    exact (h.rows a ha hid).1

/-! ### The steps of a run -/

theorem Careful.fresh (raised : List Uuid) (n : Uuid) (p : AlertProg Unit) : Careful raised n p ⟨[], .listed⟩ where
  todo _ ha := absurd ha List.not_mem_nil
  unshielded h := nomatch h
  leaving h := nomatch h

theorem Careful.mono {raised : List Uuid} {m n : Uuid} {p : AlertProg Unit} {x : Shield} (h : Careful raised m p x)
    (hmn : m ≤ n) : Careful raised n p x :=
  ⟨fun a ha => ⟨(h.todo a ha).1.trans_le hmn, (h.todo a ha).2⟩, h.unshielded, h.leaving⟩

/-- A step beside the monitor, which may draw identifiers and move windows. -/
theorem Inv.beside (h : Inv s hs) (hcalls : s'.calls = s.calls) (hdb : s'.store.db = s.store.db)
    (hsent : s'.store.sent = s.store.sent) (hnext : s.store.nextUuid ≤ s'.store.nextUuid)
    (hraised : s'.raised = s.raised) (hduring : s'.duringRun = s.duringRun)
    (hcover : ∀ c ∈ s.store.db.healthCheckResults, c.id ∈ s.duringRun → s'.Covered c.apiId c.checkedAt) : Inv s' hs where
  tracked := by
    refine ⟨(congrArg List.length hcalls).trans h.tracked.length, fun i p x hp => h.tracked.follows i p x ?_⟩
    have hp' : s'.calls[i]? = some p := hp
    rwa [hcalls] at hp'
  careful i p x hp hx := hraised ▸ (h.careful i p x (hcalls ▸ hp) hx).mono hnext
  keyed := ⟨hdb ▸ h.keyed.1, fun a ha => (h.keyed.2 a (hdb ▸ ha)).trans_le hnext⟩
  drawn id hid := (h.drawn id (hraised ▸ hsent ▸ hduring ▸ hid)).trans_le hnext
  rows a ha hid := h.rows a (hdb ▸ ha) (hraised ▸ hid)
  sent id hid := hsent ▸ h.sent id (hraised ▸ hid)
  cover c hc hid := hcover c (hdb ▸ hc) (hduring ▸ hid)

theorem Covered.create {apiId : Uuid} {at_ : Time} (h : s.Covered apiId at_) (w : Alerts.MaintenanceWindow) :
    (s.createMaintenanceWindow w).Covered apiId at_ := by
  obtain ⟨row, hrow, hcovers⟩ := h
  exact ⟨row, List.mem_append_left _ hrow, hcovers⟩

theorem Inv.catchRun (h : Inv s hs) (id : Uuid) (e : ExecutionEvent) : Inv (s.catchRun id e) hs := by
  unfold IsolationSys.catchRun
  split
  · exact h
  · exact h.beside rfl rfl rfl le_rfl rfl rfl h.cover

theorem Inv.execute (h : Inv s hs) {x : Execution} {e : ExecutionEvent}
    (hkeeps : ∀ w, x.pc = .closing w → e.fails = false → s.KeepsCover [w]) : Inv (s.executeNext x e).1 hs := by
  unfold executeNext
  split
  · split
    · exact h.catchRun _ e
    · split
      · exact h.beside rfl rfl rfl le_rfl rfl rfl h.cover
      · exact h.beside rfl rfl rfl (Nat.le_succ _) rfl rfl fun c hc hid => (h.cover c hc hid).create _
  · split
    · exact h.catchRun _ e
    · exact h.beside rfl rfl rfl le_rfl rfl rfl h.cover
  · split
    · exact h.catchRun _ e
    · split <;> exact h.beside rfl rfl rfl le_rfl rfl rfl h.cover
  · rename_i w hpc
    split
    · exact h
    · rename_i hfails
      exact h.beside rfl rfl rfl le_rfl rfl rfl (hkeeps w hpc (by simpa using hfails))
  · exact h

/-! ### The steps of the alert runner -/

theorem Inv.start (h : Inv s hs) {r : AlertRequest} {a : AlertSys} (hstep : alertStep env s.alerts (.start r) = some a) :
    ∃ hs', Inv (s.setAlerts a) hs' := by
  obtain rfl := Option.some.inj hstep
  have htracked := h.tracked.start (p := (alertSemantics env).program r) (request_shielded env r)
  refine ⟨hs ++ [(⟨[], .listed⟩ : Shield)], ⟨htracked.length, htracked.follows⟩, ?_, h.keyed, h.drawn, h.rows, h.sent,
    h.cover⟩
  intro i p x hp hx
  rcases List.getElem?_concat_cases hx with hx | ⟨hi', rfl⟩
  · rcases List.getElem?_concat_cases hp with hp | ⟨hi, rfl⟩
    · exact h.careful i p x hp hx
    · have hlt := (List.getElem?_eq_some_iff.1 hx).1
      have hlen : s.calls.length = hs.length := h.tracked.length
      have hi' : i = s.calls.length := hi
      omega
  · exact .fresh _ _ _

/-- The command a program composes a body with is about the first alert of its batch. -/
theorem head_of_composing {x : Shield} {p : AlertProg Unit} {a : Alert} (hp : Follows Shield.next x p fun _ _ => True)
    (hx : x.stage = .unshielded) (ha : composing p = some a) : x.todo.head? = some a := by
  unfold composing at ha
  split at ha
  · obtain rfl := Option.some.inj ha
    obtain ⟨f, hf, -⟩ := hp
    simp only [Shield.next] at hf
    split at hf
    · rename_i heq
      rw [heq] at hx
      cases hx
    · exact (Option.ite_none_right_eq_some.1 hf).1.1
  · cases ha

/-- No command of the alert runner writes results. -/
theorem exec_results (w : Alerts.World) (c : AlertCmd) (st : AlertStore) :
    (c.exec env w st).2.db.healthCheckResults = st.db.healthCheckResults := by
  have htx : ∀ {α : Type} {n : Nat} {m : SqlM α}, Writes n m →
      (st.transaction m).db.healthCheckResults = st.db.healthCheckResults := by
    intro α n m hm
    obtain ⟨a, st', hx, honly⟩ := withTransaction_returns (hm.returns st.toStore)
    show ((withTransaction m).exec ⟨st.toStore, none, none⟩).2.store.db.healthCheckResults = _
    rw [hx]
    simp only
    rw [honly.db]
  cases c with
  | openForCheck ctx => exact htx (openForCheck_writes env ctx)
  | recordFailure ctx active => exact htx (recordFailure_writes env ctx active)
  | resolveInTransaction id =>
    simp only [AlertCmd.exec]
    split <;> rfl
  | commitRecovery incidentId apiId dests =>
    obtain ⟨new, hst, -, -⟩ := commitRecovery_eq incidentId apiId dests st
    simp only [AlertCmd.exec, hst]
    rfl
  | _ => rfl

/-- What a command leaves, and what its program may do next. -/
structure Passes (s : IsolationSys) (c : AlertCmd) (next : AlertProg Unit) (x' : Shield) (st : AlertStore) : Prop where
  careful : Careful s.raised st.nextUuid next x'
  keyed : Keyed st
  uuid : s.store.nextUuid ≤ st.nextUuid
  drawn : ∀ id ∈ st.sent, id < st.nextUuid
  rows : ∀ a ∈ st.db.alerts, a.id ∈ s.raised → a.status ≠ .sent ∧ ¬ exempt a
  sent : ∀ id ∈ s.raised, id ∉ st.sent
  results : st.db.healthCheckResults = s.store.db.healthCheckResults

/-- A command under which alerts are only added, and none is handed over. -/
theorem Inv.passes_adds (h : Inv s hs) {c : AlertCmd} {next : AlertProg Unit} {x' : Shield} {w : Alerts.World}
    (hmark : ∀ id status detail, c ≠ .markAlert id status detail) (hsend : ∀ id channel n, c ≠ .send id channel n)
    (hcareful : Careful s.raised s.store.nextUuid next x') :
    Passes s c next x' (c.exec env w (s.alerts.store.elapse w.elapsed)).2 := by
  have hkeyed : Keyed (s.alerts.store.elapse w.elapsed) := h.keyed
  have hadds := @exec_adds env w _ hmark (s.alerts.store.elapse w.elapsed)
  have hsent : (c.exec env w (s.alerts.store.elapse w.elapsed)).2.sent = s.store.sent := by
    cases c with
    | send id channel n => exact absurd rfl (hsend id channel n)
    | markAlert id status detail => exact absurd rfl (hmark id status detail)
    | listPendingAlerts limit => rfl
    | _ => exact (exec_held_sent env w rfl _).2
  refine ⟨hcareful.mono hadds.1, hkeyed.adds hadds, hadds.1, fun id hid => ?_, fun a ha hid => ?_, fun id hid => ?_,
    exec_results w c _⟩
  · exact (h.drawn id (.inr (.inl (hsent ▸ hid)))).trans_le hadds.1
  · obtain ⟨-, new, hal, hdrawn, -⟩ := hadds
    rw [hal] at ha
    rcases List.mem_append.1 ha with ha | ha
    · exact h.rows a ha hid
    · exact absurd (h.drawn a.id (.inl hid)) (not_lt.2 (hdrawn.2 a.id (List.mem_map_of_mem ha)).1)
  · rw [hsent]
    exact h.sent id hid

/-- The alert at the head of the batch of a cycle that is about to hand it over was not raised during a run. -/
theorem Careful.head {raised : List Uuid} {n : Uuid} {p : AlertProg Unit} {x : Shield} {id : Uuid}
    (h : Careful raised n p x) (hstage : x.stage = .leaving) (hid : x.todo.head?.map (·.id) = some id) :
    id ∉ raised ∧ id < n := by
  obtain ⟨a, ha, rfl⟩ := Option.map_eq_some_iff.1 hid
  exact ⟨h.leaving hstage a ha, (h.todo a (List.mem_of_mem_head? ha)).1⟩

section Command

variable {p : AlertProg Unit} {x x' : Shield} {w : Alerts.World}

theorem Inv.passes_list (h : Inv s hs) (limit : Nat) (next : AlertProg Unit) :
    Passes s (.listPendingAlerts limit) next
      ⟨(s.alerts.store.elapse w.elapsed).listPendingAlerts limit, .listed⟩
      (AlertCmd.exec env w (.listPendingAlerts limit) (s.alerts.store.elapse w.elapsed)).2 := by
  refine h.passes_adds (fun _ _ _ h => nomatch h) (fun _ _ _ h => nomatch h) ⟨fun a ha => ?_, nofun, nofun⟩
  have hmem : a ∈ s.store.db.alerts := by
    have hperm := List.perm_insertionSort (fun a b : Alert => a.createdAt ≤ b.createdAt)
      (s.store.db.alerts.filter (·.status = .pending))
    exact (List.mem_filter.1 (hperm.subset (List.mem_of_mem_take ha))).1
  exact ⟨h.keyed.2 a hmem, fun hex hid => (h.rows a hmem hid).2 hex⟩

/-- Where the program goes on to an alert of a check during a run, it found a window. -/
theorem Inv.passes_read (h : Inv s hs) (apiId : Uuid) {k : Option Alerts.MaintenanceWindow → AlertProg Unit}
    (hx : Careful s.raised s.store.nextUuid p x)
    (hopen : ∀ a, composing (k none) = some a → a.id ∈ s.raised →
      ((s.alerts.store.elapse w.elapsed).activeWindowForTarget apiId).isSome) :
    Passes s (.activeWindowForTarget apiId) (k ((s.alerts.store.elapse w.elapsed).activeWindowForTarget apiId))
      { x with stage :=
        if ((s.alerts.store.elapse w.elapsed).activeWindowForTarget apiId).isNone then .unshielded else .listed }
      (AlertCmd.exec env w (.activeWindowForTarget apiId) (s.alerts.store.elapse w.elapsed)).2 := by
  refine h.passes_adds (fun _ _ _ h => nomatch h) (fun _ _ _ h => nomatch h) ?_
  cases hwin : (s.alerts.store.elapse w.elapsed).activeWindowForTarget apiId with
  | some window => exact ⟨hx.todo, nofun, nofun⟩
  | none =>
    refine ⟨hx.todo, fun _ a ha hid => ?_, nofun⟩
    have hfound := hopen a ha hid
    rw [hwin] at hfound
    cases hfound

theorem Inv.passes_compose (h : Inv s hs) {a : Alert} {incident : Option Incident} {target : Option AlertTarget}
    {k : String → AlertProg Unit} {next : AlertProg Unit}
    (hx : Careful s.raised s.store.nextUuid (.call (.composeBody a incident target) k) x)
    (hhead : x.todo.head? = some a) (hstage : x.stage = .unshielded ∨ exempt a) :
    Passes s (.composeBody a incident target) next { x with stage := .leaving }
      (AlertCmd.exec env w (.composeBody a incident target) (s.alerts.store.elapse w.elapsed)).2 := by
  refine h.passes_adds (fun _ _ _ h => nomatch h) (fun _ _ _ h => nomatch h) ⟨hx.todo, nofun, fun _ b hb => ?_⟩
  obtain rfl : a = b := Option.some.inj (hhead.symm.trans hb)
  rcases hstage with hstage | hexempt
  · exact hx.unshielded hstage a rfl
  · exact (hx.todo a (List.mem_of_mem_head? hhead)).2 hexempt

theorem Inv.passes_send (h : Inv s hs) {id : Uuid} {next : AlertProg Unit} (channel : AlertChannel)
    (n : Notification) (hx : Careful s.raised s.store.nextUuid p x) (hstage : x.stage = .leaving)
    (hid : x.todo.head?.map (·.id) = some id) :
    Passes s (.send id channel n) next x
      (AlertCmd.exec env w (.send id channel n) (s.alerts.store.elapse w.elapsed)).2 := by
  obtain ⟨hnot, hlt⟩ := hx.head hstage hid
  refine ⟨⟨hx.todo, fun hu => ?_, hx.leaving⟩, h.keyed, le_rfl, fun id' hid' => ?_, h.rows, fun id' hid' hmem => ?_, rfl⟩
  · rw [hstage] at hu
    cases hu
  · rcases List.mem_append.1 hid' with hid' | hid'
    · exact h.drawn id' (.inr (.inl hid'))
    · rwa [List.mem_singleton.1 hid']
  · rcases List.mem_append.1 hmem with hmem | hmem
    · exact h.sent id' hid' hmem
    · exact hnot (List.mem_singleton.1 hmem ▸ hid')

theorem Inv.passes_mark (h : Inv s hs) {id : Uuid} {status : AlertStatus} {next : AlertProg Unit}
    (detail : Option String) (hx : Careful s.raised s.store.nextUuid p x)
    (hsent : status = .sent → x.todo.head?.map (·.id) = some id ∧ x.stage = .leaving) :
    Passes s (.markAlert id status detail) next ⟨x.todo.tail, .listed⟩
      (AlertCmd.exec env w (.markAlert id status detail) (s.alerts.store.elapse w.elapsed)).2 := by
  have hkeyed : Keyed (s.alerts.store.elapse w.elapsed) := h.keyed
  refine ⟨⟨fun a ha => hx.todo a (List.mem_of_mem_tail ha), nofun, nofun⟩, hkeyed.markAlert id status detail, le_rfl,
    fun id' hid' => h.drawn id' (.inr (.inl hid')), fun a ha hid' => ?_, h.sent, rfl⟩
  obtain ⟨b, hb, rfl⟩ := List.mem_map.1 ha
  rw [markAlert_id] at hid'
  obtain ⟨hstatus, hexempt⟩ := h.rows b hb hid'
  split
  · rename_i hbid
    refine ⟨?_, hexempt⟩
    rintro rfl
    obtain ⟨hhead, hstage⟩ := hsent rfl
    exact (hx.head hstage hhead).1 (hbid ▸ hid')
  · exact ⟨hstatus, hexempt⟩

end Command

theorem Inv.passes (h : Inv s hs) {i : Nat} {w : Alerts.World} {c : AlertCmd} {k : c.Ans → AlertProg Unit} {x : Shield}
    {f : c.Ans → Shield} (hcall : s.calls[i]? = some (.call c k)) (hx : hs[i]? = some x) (hf : Shield.next x c = some f)
    (hl : s.Shielded (.advance i w)) :
    Passes s c (k (c.exec env w (s.alerts.store.elapse w.elapsed)).1)
      (f (c.exec env w (s.alerts.store.elapse w.elapsed)).1)
      (c.exec env w (s.alerts.store.elapse w.elapsed)).2 := by
  have hp := h.careful i _ x hcall hx
  by_cases hquiet : shields c = false
  · -- the batch stays as it is
    rw [Shield.next_of_not_shields hquiet] at hf
    obtain ⟨hstage, hf⟩ := Option.ite_none_left_eq_some.1 hf
    obtain rfl := Option.some.inj hf
    refine h.passes_adds ?_ ?_ ⟨hp.todo, fun hu => absurd hu hstage, hp.leaving⟩
    · rintro _ _ _ rfl
      cases hquiet
    · rintro _ _ _ rfl
      cases hquiet
  cases c with
  | listPendingAlerts limit =>
    obtain ⟨-, hf⟩ := Option.ite_none_right_eq_some.1 hf
    obtain rfl := Option.some.inj hf
    exact h.passes_list limit _
  | activeWindowForTarget apiId =>
    simp only [Shield.next] at hf
    split at hf
    · rename_i hnone
      obtain rfl := Option.some.inj hf
      subst hnone
      exact h.passes_adds (fun _ _ _ h => nomatch h) (fun _ _ _ h => nomatch h) (.fresh _ _ _)
    · obtain rfl := Option.some.inj hf
      refine h.passes_read apiId hp fun a ha => hl _ hcall (apiId, a) ?_
      simp [lookingFor, ha]
  | composeBody a incident target =>
    simp only [Shield.next] at hf
    split at hf
    · rename_i hnone
      obtain rfl := Option.some.inj hf
      subst hnone
      exact h.passes_adds (fun _ _ _ h => nomatch h) (fun _ _ _ h => nomatch h) (.fresh _ _ _)
    · obtain ⟨⟨hhead, hstage⟩, hf⟩ := Option.ite_none_right_eq_some.1 hf
      obtain rfl := Option.some.inj hf
      exact h.passes_compose hp hhead hstage
  | send id channel n =>
    obtain ⟨⟨hid, hstage⟩, hf⟩ := Option.ite_none_right_eq_some.1 hf
    obtain rfl := Option.some.inj hf
    exact h.passes_send channel n hp hstage hid
  | markAlert id status detail =>
    obtain ⟨hsent, hf⟩ := Option.ite_none_right_eq_some.1 hf
    obtain rfl := Option.some.inj hf
    exact h.passes_mark detail hp hsent
  | _ => exact absurd rfl hquiet

theorem Inv.advance (h : Inv s hs) {i : Nat} {w : Alerts.World} {a : AlertSys}
    (hstep : alertStep env s.alerts (.advance i w) = some a) (hl : s.Shielded (.advance i w)) :
    ∃ hs', Inv (s.setAlerts a) hs' := by
  simp only [alertStep, Concurrent.step] at hstep
  split at hstep
  · rename_i c k hcall
    obtain ⟨-, ha⟩ := Option.ite_none_right_eq_some.1 hstep
    obtain rfl := Option.some.inj ha
    have hcall' : s.calls[i]? = some (.call c k) := hcall
    have hlen : s.calls.length = hs.length := h.tracked.length
    have hlt : i < hs.length := hlen ▸ (List.getElem?_eq_some_iff.1 hcall').1
    have hx : hs[i]? = some hs[i] := List.getElem?_eq_getElem hlt
    obtain ⟨f, hf, hk⟩ := h.tracked.follows i _ _ hcall hx
    have hpass := @Inv.passes env _ _ h _ w _ _ _ _ hcall' hx hf hl
    have htracked := h.tracked.set i (c.exec env w (s.alerts.store.elapse w.elapsed)).2
      (hk (c.exec env w (s.alerts.store.elapse w.elapsed)).1)
    refine ⟨_, ⟨htracked.length, htracked.follows⟩, fun j p x hp hx => ?_, hpass.keyed, fun id hid => ?_, hpass.rows,
      hpass.sent, fun r hr hid => h.cover r (hpass.results ▸ hr) hid⟩
    · rcases List.getElem?_set_cases hp with ⟨rfl, rfl⟩ | ⟨hne, hp⟩ <;>
        rcases List.getElem?_set_cases hx with ⟨hij, rfl⟩ | ⟨hij, hx⟩
      · exact hpass.careful
      · exact absurd rfl hij
      · exact absurd hij hne
      · exact (h.careful j p x hp hx).mono hpass.uuid
    · rcases hid with hid | hid | hid
      · exact (h.drawn id (.inl hid)).trans_le hpass.uuid
      · exact hpass.drawn id hid
      · exact (h.drawn id (.inr (.inr hid))).trans_le hpass.uuid
  · cases hstep

/-! ### Checks -/

theorem mem_newIds {α : Type} {id : α → Uuid} {before after : List α} {i : Uuid} :
    i ∈ newIds id before after ↔ (∃ a ∈ after, id a = i) ∧ ∀ b ∈ before, id b ≠ i := by
  simp [newIds]

section Check

variable (env) (target : MonitoredApi) (slot : Time) (claimId : Uuid) (outcome : HealthCheckOutcome)

/-- A result of the transaction: one that was there, or the one of this check, whose identifier is fresh. -/
theorem results_check (st : AlertStore) {c : HealthCheckResult}
    (hc : c ∈ (st.transaction (recordAndComplete env target slot claimId outcome)).db.healthCheckResults) :
    c ∈ st.db.healthCheckResults ∨ (c.apiId = target.id ∧ c.checkedAt = outcome.checkedAt ∧ st.nextUuid ≤ c.id ∧
      c.id < (st.transaction (recordAndComplete env target slot claimId outcome)).nextUuid) := by
  obtain ⟨-, huuid, hresults⟩ := check_queues env target slot claimId outcome st.toStore
  have hc' := hresults ▸ hc
  unfold Sql.insertHealthCheckResult at hc' huuid
  split at hc'
  · exact .inl hc'
  · rename_i hnew
    rcases List.mem_append.1 hc' with hc' | hc'
    · exact .inl hc'
    · simp only [hnew, Bool.false_eq_true, if_false] at huuid
      obtain rfl := List.mem_singleton.1 hc'
      exact .inr ⟨rfl, rfl, le_rfl, huuid⟩

theorem Inv.check (h : Inv s hs) (hl : s.Shielded (.check target slot claimId outcome)) :
    Inv (s.recordCheck env target slot claimId outcome) hs := by
  obtain ⟨⟨hnext, new, hal, hdrawn, hnew⟩, -, -⟩ := check_queues env target slot claimId outcome s.store.toStore
  have hresults := fun c => results_check env target slot claimId outcome s.store (c := c)
  set store := s.store.transaction (recordAndComplete env target slot claimId outcome) with hstore
  replace hnext : s.store.nextUuid ≤ store.nextUuid := hnext
  replace hal : store.db.alerts = s.store.db.alerts ++ new := hal
  have hadds : Adds s.store store := ⟨hnext, new, hal, hdrawn, fun n hn => (hnew n hn).1⟩
  have hkeyed := h.keyed.adds hadds
  by_cases hrunning : s.isRunning target.id
  · obtain ⟨raised, hraised⟩ : ∃ raised, raised =
        newIds (·.id) s.store.db.alerts (store.db.alerts.filter (·.alertType ≠ .apiRecovered)) := ⟨_, rfl⟩
    have hs' : s.recordCheck env target slot claimId outcome = { s with
        store := store
        duringRun := s.duringRun ++ newIds (·.id) s.store.db.healthCheckResults store.db.healthCheckResults
        raised := s.raised ++ raised } := by
      simp only [recordCheck, hrunning, if_true, hraised, hstore]
    -- what was raised now is new, pending, and about the target
    have hfresh : ∀ id ∈ raised, s.store.nextUuid ≤ id ∧ id < store.nextUuid ∧
        ∀ a ∈ store.db.alerts, a.id = id → a.status = .pending ∧ ¬ exempt a := by
      intro id hid
      rw [hraised] at hid
      obtain ⟨⟨b, hb, rfl⟩, hold⟩ := mem_newIds.1 hid
      obtain ⟨hb, htype⟩ := List.mem_filter.1 hb
      have hbnew : b ∈ new := by
        rcases List.mem_append.1 (hal ▸ hb) with hb' | hb'
        · exact absurd rfl (hold b hb')
        · exact hb'
      obtain ⟨hlo, hhi⟩ := hdrawn.2 b.id (List.mem_map_of_mem hbnew)
      refine ⟨hlo, hhi, fun a ha hab => ?_⟩
      obtain rfl := List.inj_on_of_nodup_map hkeyed.1 ha hb hab
      obtain ⟨hpending, hapi⟩ := hnew a hbnew
      simp only [decide_eq_true_eq] at htype
      exact ⟨hpending, by simp [exempt, hapi, htype]⟩
    have hnotfresh : ∀ id < s.store.nextUuid, id ∉ raised := fun id hid hmem => absurd (hfresh id hmem).1 (not_le.2 hid)
    rw [hs']
    refine ⟨⟨h.tracked.length, h.tracked.follows⟩, fun i p x hp hx => ?_, hkeyed, fun id hid => ?_, fun a ha hid => ?_,
      fun id hid => ?_, fun c hc hid => ?_⟩
    · have hold := h.careful i p x hp hx
      refine ⟨fun a ha => ⟨(hold.todo a ha).1.trans_le hnext, fun hex hmem => ?_⟩, fun hstage a ha hmem => ?_,
        fun hstage a ha hmem => ?_⟩
      · rcases List.mem_append.1 hmem with hmem | hmem
        · exact (hold.todo a ha).2 hex hmem
        · exact hnotfresh a.id (hold.todo a ha).1 hmem
      · rcases List.mem_append.1 hmem with hmem | hmem
        · exact hold.unshielded hstage a ha hmem
        · have hhead := head_of_composing (h.tracked.follows i p x hp hx) hstage ha
          exact hnotfresh a.id (hold.todo a (List.mem_of_mem_head? hhead)).1 hmem
      · rcases List.mem_append.1 hmem with hmem | hmem
        · exact hold.leaving hstage a ha hmem
        · exact hnotfresh a.id (hold.todo a (List.mem_of_mem_head? ha)).1 hmem
    · rcases hid with hid | hid | hid
      · rcases List.mem_append.1 hid with hid | hid
        · exact (h.drawn id (.inl hid)).trans_le hnext
        · exact (hfresh id hid).2.1
      · exact (h.drawn id (.inr (.inl hid))).trans_le hnext
      · rcases List.mem_append.1 hid with hid | hid
        · exact (h.drawn id (.inr (.inr hid))).trans_le hnext
        · obtain ⟨⟨c, hc, rfl⟩, hold⟩ := mem_newIds.1 hid
          rcases hresults c hc with hc | ⟨-, -, -, hlt⟩
          · exact absurd rfl (hold c hc)
          · exact hlt
    · rcases List.mem_append.1 hid with hid | hid
      · rcases List.mem_append.1 (hal ▸ ha) with ha | ha
        · exact h.rows a ha hid
        · have hlo := (hdrawn.2 a.id (List.mem_map_of_mem ha)).1
          exact absurd (h.drawn a.id (.inl hid)) (not_lt.2 hlo)
      · obtain ⟨hpending, hexempt⟩ := (hfresh a.id hid).2.2 a ha rfl
        exact ⟨by rw [hpending]; decide, hexempt⟩
    · rcases List.mem_append.1 hid with hid | hid
      · exact h.sent id hid
      · exact fun hmem => absurd (h.drawn id (.inr (.inl hmem))) (not_lt.2 (hfresh id hid).1)
    · rcases hresults c hc with hc' | ⟨hapi, hat, -, -⟩
      · rcases List.mem_append.1 hid with hid | hid
        · exact h.cover c hc' hid
        · exact absurd rfl ((mem_newIds.1 hid).2 c hc')
      · rw [hapi, hat]
        exact hl hrunning
  · have hs' : s.recordCheck env target slot claimId outcome = { s with store := store } := by
      simp only [recordCheck, hrunning]
      rfl
    rw [hs']
    refine ⟨⟨h.tracked.length, h.tracked.follows⟩, fun i p x hp hx => (h.careful i p x hp hx).mono hnext, hkeyed,
      fun id hid => (h.drawn id hid).trans_le hnext, fun a ha hid => ?_, h.sent, fun c hc hid => ?_⟩
    · rcases List.mem_append.1 (hal ▸ ha) with ha | ha
      · exact h.rows a ha hid
      · have hlo := (hdrawn.2 a.id (List.mem_map_of_mem ha)).1
        exact absurd (h.drawn a.id (.inl hid)) (not_lt.2 hlo)
    · rcases hresults c hc with hc | ⟨-, -, hlo, -⟩
      · exact h.cover c hc hid
      · exact absurd (h.drawn c.id (.inr (.inr hid))) (not_lt.2 hlo)

end Check

/-! ### Runs -/

theorem Inv.step (h : Inv s hs) {l : IsolationLabel} (hstep : s.step env l = some s') (hl : s.Shielded l) :
    ∃ hs', Inv s' hs' := by
  cases l with
  | cycle t =>
    simp only [IsolationSys.step, Option.map_eq_some_iff] at hstep
    obtain ⟨a, ha, rfl⟩ := hstep
    exact h.start ha
  | resolve id resolution actor =>
    simp only [IsolationSys.step, Option.map_eq_some_iff] at hstep
    obtain ⟨a, ha, rfl⟩ := hstep
    exact h.start ha
  | advance i w =>
    simp only [IsolationSys.step, Option.map_eq_some_iff] at hstep
    obtain ⟨a, ha, rfl⟩ := hstep
    exact h.advance ha hl
  | check target slot claimId outcome =>
    obtain rfl := Option.some.inj hstep
    exact ⟨hs, h.check env target slot claimId outcome hl⟩
  | queue planId apiId snapshot effectiveClass requestedBy =>
    obtain rfl := Option.some.inj hstep
    exact ⟨hs, h.beside rfl rfl rfl (Nat.le_succ _) rfl rfl h.cover⟩
  | claim workerId locked =>
    obtain rfl := Option.some.inj hstep
    refine ⟨hs, ?_⟩
    unfold claimRun
    simp only
    split <;> exact h.beside rfl rfl rfl le_rfl rfl rfl h.cover
  | execute i e =>
    simp only [IsolationSys.step, Option.map_eq_some_iff] at hstep
    obtain ⟨x, hx, rfl⟩ := hstep
    have hnext := h.execute (x := x) (e := e) fun w hpc hfails => hl x hx w (by simp [hpc, ExecutionPc.deletes]) hfails
    exact ⟨hs, hnext.beside rfl rfl rfl le_rfl rfl rfl hnext.cover⟩
  | requestAbort id reason =>
    obtain rfl := Option.some.inj hstep
    exact ⟨hs, h.beside rfl rfl rfl le_rfl rfl rfl h.cover⟩
  | recoverStale staleSeconds =>
    obtain rfl := Option.some.inj hstep
    exact ⟨hs, h.beside rfl rfl rfl le_rfl rfl rfl h.cover⟩
  | deleteAbandoned =>
    simp only [IsolationSys.step] at hstep
    split at hstep
    · cases hstep
    · rename_i ids rest hids
      obtain rfl := Option.some.inj hstep
      refine ⟨hs, h.beside rfl rfl rfl le_rfl rfl rfl ?_⟩
      exact hl ids (by simp [hids])
  | elapse ms =>
    obtain rfl := Option.some.inj hstep
    exact ⟨hs, h.beside rfl rfl rfl le_rfl rfl rfl h.cover⟩

/-- A monitor that has not started anything. -/
structure Fresh (s : IsolationSys) : Prop where
  keyed : Keyed s.store
  calls : s.calls = []
  sent : s.store.sent = []
  duringRun : s.duringRun = []
  raised : s.raised = []

theorem Fresh.inv (h : Fresh s) : Inv s [] where
  tracked := ⟨by simp [alerts, h.calls], fun i p x _ hx => by simp at hx⟩
  careful i p x _ hx := by simp at hx
  keyed := h.keyed
  drawn id hid := by simp [h.raised, h.sent, h.duringRun] at hid
  rows a _ hid := by simp [h.raised] at hid
  sent id hid := by simp [h.raised] at hid
  cover c _ hid := by simp [h.duringRun] at hid

/-- In every run whose steps are shielded, every load run is isolated at any time. -/
theorem isolated_throughout {s₀ : IsolationSys} {tr : List IsolationLabel} (h₀ : s₀.Fresh)
    (hshielded : Along (step env) (fun s l _ => s.Shielded l) s₀ tr) :
    Throughout (step env) Isolated s₀ tr := by
  refine ⟨h₀.inv.isolated, ?_⟩
  refine hshielded.under_inv (I := fun s => ∃ hs, Inv s hs) ⟨[], h₀.inv⟩ ?_
  rintro s l s' ⟨hs, h⟩ hstep hl
  obtain ⟨hs', h'⟩ := h.step hstep hl
  exact ⟨⟨hs', h'⟩, h'.isolated⟩

/-! ### One failing check during a run -/

def idleMonitor : IsolationSys where
  store :=
    { db := Db.empty, nextUuid := 0, incidentNumberSeq := 1, now := 0, targets := [], policies := [], windows := []
      auditLogs := [], locked := [], held := [], sent := [], told := [], asked := [] }
  calls := []
  windows := []
  runs := ⟨[], [], []⟩
  executions := []
  abandoned := []
  duringRun := []
  raised := []

/-- A run of ten seconds starts on the target, and a check of it fails. -/
def failsDuringRun : List IsolationLabel :=
  [.elapse 55000, .queue 7 makeMonitoredApi.id RunStore.smokeSnapshot none none, .claim "w1" [],
    .execute 0 ⟨false, false, "k6 v1", none⟩, .execute 0 ⟨false, false, "k6 v1", none⟩, .elapse 6000,
    .check makeMonitoredApi 60000 5 downOutcome]

/-- k6 ends by itself, and the worker closes the run. -/
def runEnds : List IsolationLabel :=
  [.execute 0 ⟨false, false, "k6 v1", some ⟨.completed, "completed", none, none⟩⟩, .execute 0 ⟨false, false, "k6 v1", none⟩]

/-- The alert runner comes to the one alert there is. -/
def delivers (advances : Nat) : List IsolationLabel :=
  .cycle 61000 :: List.replicate advances (.advance 0 ⟨0, ⟨true, "200"⟩, "down"⟩)

theorem fresh_idleMonitor : idleMonitor.Fresh where
  keyed := ⟨List.nodup_nil, List.forall_mem_nil _⟩
  calls := rfl
  sent := rfl
  duringRun := rfl
  raised := rfl

/-- The runner comes to the alert while the run lasts, and suppresses it. -/
theorem isolated_throughout_duringRun :
    Throughout (step .default) Isolated idleMonitor (failsDuringRun ++ delivers 6) ∧
      (run (step .default) idleMonitor (failsDuringRun ++ delivers 6)).map (·.store.db.alerts.map (·.status)) =
        some [.suppressed] :=
  ⟨isolated_throughout fresh_idleMonitor (by decide +kernel), by decide +kernel⟩

/-- The uptime counts the check as soon as the run has ended, and its alert is sent when the runner comes to it then. -/
theorem not_isolated_after_run :
    (¬ ∀ (env : Env) (s₀ : IsolationSys) (tr : List IsolationLabel) (s : IsolationSys), s₀.Fresh →
      run (step env) s₀ tr = some s → s.SlaIgnoresRuns) ∧
    ¬ ∀ (env : Env) (s₀ : IsolationSys) (tr : List IsolationLabel) (s : IsolationSys), s₀.Fresh →
      run (step env) s₀ tr = some s → s.NoneSent := by
  refine ⟨fun h => ?_, fun h => ?_⟩
  · obtain ⟨s, hr, hs⟩ := Option.map_eq_some_iff.1
      (show (run (step .default) idleMonitor (failsDuringRun ++ runEnds)).map (fun s =>
        ((Sla.computeSla (s.slaSource fun _ => true) makeMonitoredApi.id 0 61000 0).figures.uptimePercent.isNone,
          (Sla.computeSla (s.slaSource (·.id ∉ s.duringRun)) makeMonitoredApi.id 0 61000 0).figures.uptimePercent.isNone))
        = some (false, true) by decide +kernel)
    have hup := (h .default idleMonitor _ s fresh_idleMonitor hr makeMonitoredApi.id 0 61000 0).1
    rw [hup] at hs
    simp only [Prod.mk.injEq] at hs
    exact absurd (hs.1.symm.trans hs.2) (by decide)
  · obtain ⟨s, hr, hs⟩ := Option.map_eq_some_iff.1
      (show (run (step .default) idleMonitor (failsDuringRun ++ runEnds ++ delivers 8)).map
        (fun s => (s.raised, s.store.sent)) = some ([4], [4]) by decide +kernel)
    simp only [Prod.mk.injEq] at hs
    exact (h .default idleMonitor _ s fresh_idleMonitor hr 4 (by simp [hs.1])).1 (by simp [hs.2])

end IsolationSys

end CronMonitor.LoadTest
