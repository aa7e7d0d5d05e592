import CronMonitor.IncidentLaw
import CronMonitor.OpenChecks
import CronMonitor.Timeline

/-!
# What a step does to the timelines

`Rewrites` is what one step of the system can do to incidents and their timelines, within a `Scope`: the time of what it
writes, the rows it may change and the targets it may open an incident for. `ResultSys.Trans` lists the steps with what
they do; only the commit of a result transaction writes entries of the state machine, and it does so on the incident that
the transaction has read.
-/

namespace CronMonitor

open Eff Runs Session Stories

/-! ### What a step does to one incident -/

/-- The end of the incident, as far as it is known at `now`. -/
def Incident.lastsUntil (i : Incident) (now : Time) : Time := i.resolvedAt.getD now

/-- The row is the same, as far as the law goes. -/
structure Stays (i i' : Incident) : Prop where
  id : i'.id = i.id
  apiId : i'.apiId = i.apiId
  startedAt : i'.startedAt = i.startedAt
  face : i'.face = i.face
  isActive : i'.isActive = i.isActive
  resolvedAt : i'.resolvedAt = i.resolvedAt

theorem Stays.refl (i : Incident) : Stays i i := ⟨rfl, rfl, rfl, rfl, rfl, rfl⟩

/-- How a step can go on at `t` with the row `i`, when it adds the entries `es` to its timeline. -/
structure GoesOn (t : Time) (es : List IncidentEvent) (i i' : Incident) : Prop where
  id : i'.id = i.id
  apiId : i'.apiId = i.apiId
  startedAt : i'.startedAt = i.startedAt
  story : Story Turns i.face es i'.face
  times : ∀ e ∈ es, e.occurredAt = t
  course : (i'.isActive = i.isActive ∧ i'.resolvedAt = i.resolvedAt) ∨
    (i.isActive ∧ i'.isActive = false ∧ i'.resolvedAt = some t ∧ es = [])

theorem Stays.goesOn {i i' : Incident} (h : Stays i i') (t : Time) : GoesOn t [] i i' := by
  refine ⟨h.id, h.apiId, h.startedAt, ?_, by simp, .inl ⟨h.isActive, h.resolvedAt⟩⟩
  rw [h.face]
  exact .nil _

section GoesOn

variable {t : Time} {es : List IncidentEvent} {i i' : Incident}

/-- What is over stays over. -/
theorem GoesOn.inactive (h : GoesOn t es i i') (hi : i.isActive = false) :
    i'.isActive = false ∧ i'.resolvedAt = i.resolvedAt := by
  rcases h.course with ⟨hsame, hat⟩ | ⟨hactive, -⟩
  · exact ⟨hsame.trans hi, hat⟩
  · rw [hi] at hactive
    cases hactive

theorem GoesOn.face (h : GoesOn t [] i i') : i'.face = i.face := by
  have hstory := h.story
  generalize i.face = a, i'.face = b at hstory
  cases hstory
  rfl

theorem GoesOn.live (h : GoesOn t es i i') (hi : i.isActive → i.resolvedAt = none) (hi' : i'.isActive) :
    i'.resolvedAt = none := by
  rcases h.course with ⟨hsame, hat⟩ | ⟨-, hdone, -⟩
  · rw [hat]
    exact hi (hsame ▸ hi')
  · rw [hdone] at hi'
    cases hi'

end GoesOn

/-- `resolveIncident`, row by row. -/
theorem resolved_goesOn (t : Time) (id : Uuid) (resolution : Option String) (i : Incident) :
    GoesOn t [] i (if i.id = id && i.isActive then Sql.resolvedRow t resolution i else i) := by
  split
  · rename_i hi
    have hactive : i.isActive := by simp_all
    exact ⟨rfl, rfl, rfl, .nil _, by simp, .inr ⟨hactive, rfl, rfl, rfl⟩⟩
  · exact (Stays.refl i).goesOn t

/-- The entries lead to `b` from what a failing check of the target opens an incident with; a call was made for it. -/
def Opening (calls : List Call) (apiId : Uuid) (es : List IncidentEvent) (b : Face) : Prop :=
  ∃ c ∈ calls, c.target.id = apiId ∧ ∃ status f, HealthStatus.isFailing status ∧
    Story Turns (openingFace c.target status f) es b

/-- How a step can open the incident `i` at `t`. -/
structure Opens (calls : List Call) (t : Time) (es : List IncidentEvent) (i : Incident) : Prop where
  opening : Opening calls i.apiId es i.face
  startedAt : i.startedAt = t
  times : ∀ e ∈ es, e.occurredAt = t
  active : i.isActive ∧ i.resolvedAt = none

/-! ### One step -/

/-- The time of what a step writes, the rows it may change, and the targets it may open an incident for. -/
structure Scope where
  time : Time
  rows : Uuid → Prop
  targets : Uuid → Prop

/-- What a step can do to incidents and timelines: `f` goes on with the rows there are, `es` is written. -/
structure Rewrites (calls : List Call) (p : Scope) (st st' : Store) (f : Incident → Incident) (new : List Incident)
    (es : List IncidentEvent) : Prop where
  incidents : st'.db.incidents = st.db.incidents.map f ++ new
  events : st'.db.incidentEvents = st.db.incidentEvents ++ es
  old : ∀ i ∈ st.db.incidents,
    (about i.id es = [] ∧ Stays i (f i)) ∨ (p.rows i.id ∧ GoesOn p.time (about i.id es) i (f i))
  new : new = [] ∨ ∃ i, new = [i] ∧ st.nextUuid ≤ i.id ∧ i.id < st'.nextUuid ∧ p.targets i.apiId ∧
    Opens calls p.time (about i.id es) i ∧ ∀ j ∈ st.db.incidents, j.apiId = i.apiId → j.isActive = false
  known : ∀ e ∈ es, e.kind.turns → e.incidentId ∈ st'.incidentIds
  uuid : st.nextUuid ≤ st'.nextUuid
  now : st.now ≤ st'.now

def Retells (calls : List Call) (p : Scope) (st st' : Store) : Prop := ∃ f new es, Rewrites calls p st st' f new es

/-- A step on the tables as they are at another time. -/
theorem Retells.clock {calls : List Call} {p : Scope} {st st' : Store} {t : Time}
    (h : Retells calls p { st with now := t } st') : Retells calls p st { st' with now := st.now } := by
  obtain ⟨f, new, es, h⟩ := h
  exact ⟨f, new, es, h.incidents, h.events, h.old, h.new, h.known, h.uuid, le_rfl⟩

/-- The scope of a step that changes nothing that the law is about. -/
def Scope.nothing (t : Time) : Scope := ⟨t, fun _ => False, fun _ => False⟩

/-- The scope of the manual resolution of one incident. -/
def Scope.row (t : Time) (id : Uuid) : Scope := ⟨t, (· = id), fun _ => False⟩

/-- The scope of the commit of a transaction that began at `t` and has found `active`. -/
def Scope.commit (t : Time) (active : Option Incident) (apiId : Uuid) : Scope :=
  ⟨t, fun id => ∃ a, active = some a ∧ a.id = id, (· = apiId)⟩

/-- Nothing that the timeline is about moves. -/
structure Quiet (st st' : Store) : Prop where
  incidents : st'.db.incidents = st.db.incidents
  events : ∃ es, st'.db.incidentEvents = st.db.incidentEvents ++ es ∧ ∀ e ∈ es, e.kind.turns = false
  uuid : st.nextUuid ≤ st'.nextUuid
  now : st.now ≤ st'.now

theorem Quiet.of_eq {st st' : Store} (hincidents : st'.db.incidents = st.db.incidents)
    (hevents : st'.db.incidentEvents = st.db.incidentEvents) (huuid : st.nextUuid ≤ st'.nextUuid)
    (hnow : st'.now = st.now) : Quiet st st' :=
  ⟨hincidents, ⟨[], by simp [hevents], by simp⟩, huuid, hnow ▸ le_rfl⟩

theorem Quiet.refl (st : Store) : Quiet st st := .of_eq rfl rfl le_rfl rfl

theorem Quiet.trans {a b c : Store} (h : Quiet a b) (h' : Quiet b c) : Quiet a c := by
  obtain ⟨es, hes, hquiet⟩ := h.events
  obtain ⟨fs, hfs, hquiet'⟩ := h'.events
  refine ⟨h'.incidents.trans h.incidents, ⟨es ++ fs, ?_, ?_⟩, h.uuid.trans h'.uuid, h.now.trans h'.now⟩
  · rw [hfs, hes, List.append_assoc]
  · intro e he
    rcases List.mem_append.1 he with he | he
    · exact hquiet e he
    · exact hquiet' e he

theorem Quiet.retells {st st' : Store} (h : Quiet st st') (calls : List Call) (p : Scope) : Retells calls p st st' := by
  obtain ⟨es, hes, hquiet⟩ := h.events
  refine ⟨id, [], es, by simp [h.incidents], hes, fun i _ => .inl ⟨?_, .refl i⟩, .inl rfl, fun e he hturns => ?_, h.uuid,
    h.now⟩
  · exact about_other fun e he hturns => by simp [hquiet e he] at hturns
  · simp [hquiet e he] at hturns

/-- A statement on the rows of the incidents that leaves their faces. -/
theorem rewrites_rows {st : Store} (calls : List Call) {p : Scope} {f : Incident → Incident}
    (hf : ∀ i ∈ st.db.incidents, Stays i (f i) ∨ (p.rows i.id ∧ GoesOn p.time [] i (f i))) :
    Rewrites calls p st { st with db := { st.db with incidents := st.db.incidents.map f } } f [] [] := by
  refine ⟨(List.append_nil _).symm, (List.append_nil _).symm, fun i hi => ?_, .inl rfl, by simp, le_rfl, le_rfl⟩
  exact (hf i hi).imp_left fun h => ⟨rfl, h⟩

/-- What a failing check leaves of the row it writes. -/
theorem failed_kept (env : Env) (ctx : CheckContext) (a : Incident) (v : Store) (i : Incident) :
    let i' := flapRow env ctx (promoted ctx a) v (failedRow ctx a i)
    i'.id = i.id ∧ i'.apiId = i.apiId ∧ i'.startedAt = i.startedAt ∧ i'.isActive = i.isActive ∧
      i'.resolvedAt = i.resolvedAt := by
  unfold flapRow failedRow
  split <;> split <;> exact ⟨rfl, rfl, rfl, rfl, rfl⟩

section Check

variable {env : Env} {c : Call} {active : Option Incident} {outcome : HealthCheckOutcome} {st st' v : Store}
  {ctx : CheckContext} {calls : List Call} {p : Scope}

/-- The check opens an incident. -/
theorem Checked.retells_opened (h : Checked env none c.target outcome st st' ctx v) (hc : c ∈ calls)
    (hp : p.time = st.now ∧ p.targets c.target.id) (hlt : ∀ i ∈ st.db.incidents, i.id < st.nextUuid)
    (hstatus : ctx.status.isFailing) (hnone : ∀ i ∈ st.db.incidents, i.apiId = c.target.id → i.isActive = false)
    (hrows : st'.db.incidents = updateRows v.nextUuid (flapRow env ctx (Sql.newIncident (openInput ctx) v) v)
      (st.db.incidents ++ [Sql.newIncident (openInput ctx) v]))
    (hevents : st'.db.incidentEvents = st.db.incidentEvents ++ flappingEvents env ctx (Sql.newIncident (openInput ctx) v) v) :
    Retells calls p st st' := by
  have hnow : v.now = p.time := h.before.2.2.trans hp.1.symm
  have hdrawn : v.nextUuid < st'.nextUuid := by
    refine h.drawn.2.2 ⟨?_, rfl⟩
    revert hstatus
    cases ctx.status <;> simp [HealthStatus.isFailing]
  set new := Sql.newIncident (openInput ctx) v with hnew
  have hkept : (flapRow env ctx new v new).id = v.nextUuid ∧ (flapRow env ctx new v new).apiId = ctx.target.id ∧
      (flapRow env ctx new v new).startedAt = v.now ∧ (flapRow env ctx new v new).isActive ∧
      (flapRow env ctx new v new).resolvedAt = none := by
    unfold flapRow
    split <;> exact ⟨rfl, rfl, rfl, rfl, rfl⟩
  have hapi : (flapRow env ctx new v new).apiId = c.target.id := by rw [hkept.2.1, h.target]
  have htable : st'.db.incidents =
      (st.db.incidents.map fun i => if i.id = v.nextUuid then flapRow env ctx new v i else i) ++
        [flapRow env ctx new v new] := by
    rw [hrows, updateRows, List.map_append, List.map_singleton, if_pos (show new.id = v.nextUuid from rfl)]
  have habout : ∀ e ∈ flappingEvents env ctx new v, e.kind.turns ∧ e.incidentId = v.nextUuid := fun e he =>
    ⟨(flappingEvents_about e he).1, (flappingEvents_about e he).2.1⟩
  refine ⟨fun i => if i.id = v.nextUuid then flapRow env ctx new v i else i, [flapRow env ctx new v new], _, htable,
    hevents, fun i hi => .inl ?_, .inr ⟨_, rfl, ?_, ?_, ?_, ?_, ?_⟩, fun e he _ => ?_, h.uuid, h.now ▸ le_rfl⟩
  · have hother : i.id ≠ v.nextUuid := Nat.ne_of_lt ((hlt i hi).trans_le h.drawn.1)
    rw [if_neg hother]
    exact ⟨about_other fun e he _ heq => hother (heq.symm.trans (habout e he).2), .refl i⟩
  · rw [hkept.1]
    exact h.drawn.1
  · rw [hkept.1]
    exact hdrawn
  · rw [hapi]
    exact hp.2
  · rw [hkept.1, about_self habout]
    refine ⟨⟨c, hc, hapi.symm, ctx.status, ctx.failureType, hstatus, ?_⟩, hkept.2.2.1.trans hnow, fun e he => ?_,
      hkept.2.2.2⟩
    · rw [← h.target]
      exact flappingEvents_story new new rfl
    · rw [(flappingEvents_about e he).2.2, hnow]
  · rw [hapi]
    exact hnone
  · rw [(habout e he).2, ← hkept.1, Store.incidentIds, htable]
    exact List.mem_map_of_mem (List.mem_append_right _ (List.mem_singleton_self _))

/-- The check fails on the incident `a`, whose row is `j` by now. -/
theorem Checked.retells_failed (h : Checked env active c.target outcome st st' ctx v) (hnodup : st.incidentIds.Nodup)
    {a j : Incident} (hp : p.time = st.now ∧ p.rows a.id) (hj : j ∈ st.db.incidents) (hid : j.id = a.id)
    (hface : j.face = a.face)
    (hrows : st'.db.incidents =
      updateRows a.id (fun i => flapRow env ctx (promoted ctx a) v (failedRow ctx a i)) st.db.incidents)
    (hevents : st'.db.incidentEvents = st.db.incidentEvents ++ (failureEvents ctx a v.now ++
      promotionEvents ctx a v.now ++ flappingEvents env ctx (promoted ctx a) v)) : Retells calls p st st' := by
  refine ⟨fun i => if i.id = a.id then flapRow env ctx (promoted ctx a) v (failedRow ctx a i) else i, [], _, ?_,
    hevents, fun i hi => ?_, .inl rfl, fun e he _ => ?_, h.uuid, h.now ▸ le_rfl⟩
  · rw [hrows, List.append_nil, updateRows]
  · by_cases hia : i.id = a.id
    · obtain rfl : i = j := List.inj_on_of_nodup_map hnodup hi hj (hia.trans hid.symm)
      obtain ⟨hkid, hkapi, hkstarted, hkactive, hkresolved⟩ := failed_kept env ctx a v i
      rw [if_pos hia, hia, about_self fun e he => ⟨(failed_about a e he).1, (failed_about a e he).2.1⟩]
      refine .inr ⟨hp.2, hkid, hkapi, hkstarted, failed_story a i hface, fun e he => ?_, .inl ⟨hkactive, hkresolved⟩⟩
      rw [(failed_about a e he).2.2, h.before.2.2, hp.1]
    · rw [if_neg hia]
      exact .inl ⟨about_other fun e he _ heq => hia (heq.symm.trans (failed_about a e he).2.1), .refl i⟩
  · have hids : st'.incidentIds = st.incidentIds := by
      rw [Store.incidentIds, hrows, updateRows, List.map_map, Store.incidentIds]
      refine List.map_congr_left fun i _ => ?_
      simp only [Function.comp]
      split
      · exact (failed_kept env ctx a v i).1
      · rfl
    rw [(failed_about a e he).2.1, hids, ← hid]
    exact List.mem_map_of_mem hj

/-- The check resolves the incident with the identifier `id`, if that is still to do. -/
theorem Checked.retells_resolved (h : Checked env active c.target outcome st st' ctx v) {id : Uuid}
    (hp : p.time = st.now ∧ p.rows id)
    (hrows : st'.db.incidents =
      st.db.incidents.map fun i => if i.id = id && i.isActive then Sql.resolvedRow v.now none i else i)
    (hevents : st'.db.incidentEvents = st.db.incidentEvents) : Retells calls p st st' := by
  refine ⟨_, [], [], hrows.trans (List.append_nil _).symm, by simp [hevents], fun i hi => ?_, .inl rfl, by simp,
    h.uuid, h.now ▸ le_rfl⟩
  by_cases hid : i.id = id
  · rw [h.before.2.2, ← hp.1]
    exact .inr ⟨hid ▸ hp.2, resolved_goesOn _ _ _ i⟩
  · simp only [hid, decide_false, Bool.false_and, Bool.false_eq_true, if_false]
    exact .inl ⟨rfl, .refl i⟩

/-- One check on the incident that it has found: the row still shows what it showed then, or there still is none. -/
theorem Checked.retells (h : Checked env active c.target outcome st st' ctx v) (hc : c ∈ calls)
    (hnodup : st.incidentIds.Nodup) (hlt : ∀ i ∈ st.db.incidents, i.id < st.nextUuid)
    (hfound : ∀ a, active = some a → ∃ j ∈ st.db.incidents, j.id = a.id ∧ j.face = a.face)
    (hnone : active = none → ∀ i ∈ st.db.incidents, i.apiId = c.target.id → i.isActive = false) :
    Retells calls (.commit st.now active c.target.id) st st' := by
  obtain ⟨hrows, hevents, -⟩ := h.before
  have hinc := h.incidents
  have hev := h.events
  unfold foundIncidents at hinc
  unfold foundEvents at hev
  rw [hevents] at hev
  rw [hrows] at hinc
  have hidle (hi : st'.db.incidents = st.db.incidents) (he : st'.db.incidentEvents = st.db.incidentEvents ++ []) :
      Retells calls (.commit st.now active c.target.id) st st' :=
    Quiet.retells ⟨hi, ⟨[], he, by simp⟩, h.uuid, h.now ▸ le_rfl⟩ calls _
  rcases hstatus : ctx.status <;> rcases active with _ | a <;> rw [hstatus] at hinc hev
  case up.none | unknown.none | unknown.some => exact hidle hinc hev
  case up.some =>
    rw [List.append_nil] at hev
    by_cases hstreak : env.incidentRecoveryStreak ≤ ctx.consecutiveSuccesses
    · exact h.retells_resolved ⟨rfl, a, rfl, rfl⟩ (hinc.trans (if_pos hstreak)) hev
    · exact hidle (hinc.trans (if_neg hstreak)) (by rw [hev, List.append_nil])
  case down.none | degraded.none =>
    exact h.retells_opened hc ⟨rfl, rfl⟩ hlt (by rw [hstatus]; rfl) (hnone rfl) hinc hev
  case down.some | degraded.some =>
    obtain ⟨j, hj, hid, hface⟩ := hfound a rfl
    exact h.retells_failed hnodup ⟨rfl, a, rfl, rfl⟩ hj hid hface hinc hev

end Check

/-! ### The steps of a call -/

section Advance

variable {env : Env} {rca : Uuid → Except String RootCauseAnalysis} {ev : Event} {st : Store} {c : Call}

/-- The entries that an analysis calls for are not those of the state machine. -/
theorem rcaEvents_turns {id : Uuid} {r : RootCauseAnalysis} {e : IncidentEventInput} (he : e ∈ rcaEvents id r) :
    e.kind.turns = false := by
  simp only [rcaEvents, List.mem_append, List.mem_map, List.mem_singleton] at he
  rcases he with ((rfl | he) | he) | ⟨l, -, rfl⟩
  · rfl
  · split at he
    · rw [List.mem_singleton.1 he]
      rfl
    · cases he
  · split at he
    · rw [List.mem_singleton.1 he]
      rfl
    · cases he
  · rfl

theorem query_quiet {α : Type} {stmt : Stmt α} (h : ∀ st, Quiet st (stmt st).2) :
    Moves (fun s s' : Session => Quiet s.store s'.store) (query .pool stmt) := by
  intro s
  rcases guarded_cases (effect .pool stmt) s with ⟨e, hx⟩ | hx <;> rw [query, hx]
  · exact .refl _
  · exact h _

theorem recordIncidentEvent_quiet {i : IncidentEventInput} (h : i.kind.turns = false) (st : Store) :
    Quiet st (Sql.recordIncidentEvent i st).2 :=
  ⟨rfl, ⟨[i.at_ st.now], rfl, fun e he => by rw [List.mem_singleton.1 he]; exact h⟩, le_rfl, le_rfl⟩

theorem refreshRcaFor_quiet (rca : Uuid → Except String RootCauseAnalysis) (t : IncidentTransition) :
    Moves (fun s s' : Session => Quiet s.store s'.store) (refreshRcaFor (fun id => (rca id).map (rcaEvents id)) t) := by
  have hrefl : ∀ s : Session, Quiet s.store s.store := fun s => .refl _
  have htrans : ∀ a b c : Session, Quiet a.store b.store → Quiet b.store c.store → Quiet a.store c.store :=
    fun a b c h h' => h.trans h'
  unfold refreshRcaFor
  split
  · exact Moves.pure hrefl _
  · rename_i id _
    have hadvisory : ∀ entries, (rca id).map (rcaEvents id) = .ok entries → ∀ e ∈ entries, e.kind.turns = false := by
      intro entries hentries e he
      cases hr : rca id <;> rw [hr] at hentries <;> cases hentries
      exact rcaEvents_turns he
    refine Moves.tryCatch htrans ?_ fun _ => Moves.pure hrefl _
    split
    · exact Moves.throw hrefl _
    · rename_i entries hentries
      refine Moves.forM_mem hrefl htrans fun e he => Moves.bind htrans (query_quiet .refl) fun known => ?_
      exact Moves.ite (query_quiet (recordIncidentEvent_quiet (hadvisory entries hentries e he))) (Moves.pure hrefl _)

/-- One statement on the pool. -/
theorem onPool_quiet {α : Type} {stmt : Stmt α} (h : ∀ st, Quiet st (stmt st).2) (st : Store)
    (failAt : Option (Nat × String)) : Quiet st (st.onPool failAt (query .pool stmt)).2 :=
  query_quiet h ⟨st, none, failAt⟩

/-- The result transaction commits what one check does on the incident it has found, or nothing. -/
theorem recordFound_commits (env : Env) (active : Option Incident) (target : MonitoredApi) (slot : Time) (claimId : Uuid)
    (outcome : HealthCheckOutcome) (st : Store) (failAt : Option (Nat × String)) :
    Quiet st (st.onPool failAt (withTransaction (recordFound env active target slot claimId outcome))).2 ∨
      ∃ ctx v, Checked env active target outcome st
        (st.onPool failAt (withTransaction (recordFound env active target slot claimId outcome))).2 ctx v := by
  have hmoves := recordFound_moves env target slot claimId outcome active
  have hplain := recordFound_plain env target slot claimId outcome active
  simp only [Store.onPool]
  rcases hx : exec (withTransaction (recordFound env active target slot claimId outcome)) ⟨st, none, failAt⟩
    with ⟨e | t, s'⟩
  · obtain ⟨-, -, st', hst', heq⟩ := withTransaction_error Recorded.refl hmoves hplain rfl hx
    rw [heq]
    exact .inl (.of_eq rfl rfl hst'.uuid hst'.now)
  · obtain ⟨v, hv, -, heq⟩ := withTransaction_ok Recorded.refl hmoves hplain hx
    rw [heq]
    have htables := recordFound_tables env active target slot claimId outcome st
    exact .inr (htables.exec (d := st.db) ⟨rfl, rfl, rfl⟩ rfl hv).2

/-- The store after a step, whatever comes back. -/
theorem Call.advance_store (env : Env) (rca : Uuid → Except String (List IncidentEventInput)) (ev : Event) (st : Store)
    (c : Call) : (c.advance env rca ev st).1 = match c.pc with
      | .entry => (st.onPool ev.failAt (jobRunExists c.input.jobRunId)).2
      | .locking => (st.onPool ev.failAt (acquireLock (lockKey c.target.id c.slot) c.workerId (c.ttlMs env))).2
      | .skipping => (st.onPool ev.failAt (recordSkippedRun c.input .skippedLockContended)).2
      | .claiming => (st.onPool ev.failAt (claimJobRun c.input .pool)).2
      | .recording id outcome =>
        (st.onPool ev.failAt (withTransaction (recordAndComplete env c.target c.slot id outcome))).2
      | .refreshing _ transition => (st.onPool ev.failAt (refreshRcaFor rca transition)).2
      | .deadLettering id _ => (st.onPool ev.failAt (completeJobRun id .deadLettered .pool)).2
      | .alerting message => (st.onPool ev.failAt (recordAlert (deadLetterAlert c.target message) .pool)).2
      | .releasing _ => (st.onPool ev.failAt (releaseLock (lockKey c.target.id c.slot) c.workerId)).2
      | .claimed _ | .executing _ | .returned _ | .crashed => st := by
  unfold Call.advance
  cases c.pc <;> simp only <;> split <;> simp [*]

/-- The step of a call that is not its result transaction is quiet. -/
theorem Call.advance_quiet (env : Env) (rca : Uuid → Except String RootCauseAnalysis) (ev : Event) (st : Store) (c : Call)
    (hc : c.result = none) : Quiet st (c.advance env (fun id => (rca id).map (rcaEvents id)) ev st).1 := by
  rw [Call.advance_store]
  cases hpc : c.pc with
  | entry => exact onPool_quiet .refl st ev.failAt
  | locking =>
    refine onPool_quiet (fun st => ?_) st ev.failAt
    simp only [Sql.acquireLock]
    split
    · exact .of_eq rfl rfl le_rfl rfl
    · split <;> exact .of_eq rfl rfl le_rfl rfl
  | skipping =>
    refine onPool_quiet (fun st => ?_) st ev.failAt
    unfold Sql.recordSkippedRun
    split
    · exact .of_eq rfl rfl le_rfl rfl
    · exact .of_eq rfl rfl (Nat.le_succ _) rfl
  | claiming =>
    refine onPool_quiet (fun st => ?_) st ev.failAt
    unfold Sql.claimJobRun
    split
    · exact .refl st
    · exact .of_eq rfl rfl (Nat.le_succ _) rfl
  | claimed => exact .refl st
  | executing => exact .refl st
  | recording id outcome => simp [Call.result, hpc] at hc
  | refreshing outcome transition => exact refreshRcaFor_quiet rca transition ⟨st, none, ev.failAt⟩
  | deadLettering => exact onPool_quiet (fun st => .of_eq rfl rfl le_rfl rfl) st ev.failAt
  | alerting => exact onPool_quiet (fun st => .of_eq rfl rfl (Nat.le_succ _) rfl) st ev.failAt
  | releasing => exact onPool_quiet (fun st => .of_eq rfl rfl le_rfl rfl) st ev.failAt
  | returned => exact .refl st
  | crashed => exact .refl st

end Advance

/-! ### What the tables keep -/

/-- No call is forgotten, nor what it is for. -/
def KeepsTargets (calls calls' : List Call) : Prop :=
  ∀ (i : Nat) (c : Call), calls[i]? = some c → ∃ c' : Call, calls'[i]? = some c' ∧ c'.target = c.target

theorem KeepsTargets.refl (calls : List Call) : KeepsTargets calls calls := fun _ c hc => ⟨c, hc, rfl⟩

theorem KeepsTargets.append (calls : List Call) (c : Call) : KeepsTargets calls (calls ++ [c]) := by
  intro i d hi
  have hlt : i < calls.length := (List.getElem?_eq_some_iff.1 hi).1
  exact ⟨d, (List.getElem?_append_left hlt).trans hi, rfl⟩

theorem KeepsTargets.set {calls : List Call} {i : Nat} {c c' : Call} (hi : calls[i]? = some c)
    (h : c'.target = c.target) : KeepsTargets calls (calls.set i c') := by
  intro j d hj
  by_cases hij : i = j
  · subst hij
    obtain rfl := Option.some.inj (hi.symm.trans hj)
    exact ⟨c', List.getElem?_set_self (List.getElem?_eq_some_iff.1 hi).1, h⟩
  · exact ⟨d, (List.getElem?_set_ne hij).trans hj, rfl⟩

theorem KeepsTargets.opening {calls calls' : List Call} (h : KeepsTargets calls calls') {apiId : Uuid}
    {es : List IncidentEvent} {b : Face} (ho : Opening calls apiId es b) : Opening calls' apiId es b := by
  obtain ⟨c, hc, ho⟩ := ho
  obtain ⟨i, hi⟩ := List.mem_iff_getElem?.1 hc
  obtain ⟨c', hc', heq⟩ := h i c hi
  exact ⟨c', List.mem_of_getElem? hc', heq ▸ ho⟩

/-- Incidents and timelines of a reachable state: a timeline tells how the row came to what it shows, and a target has one
active incident at most, so that the unique index of the table never refuses one. -/
structure Recounts (calls : List Call) (st : Store) : Prop where
  nodup : st.incidentIds.Nodup
  drawn : ∀ i ∈ st.db.incidents, i.id < st.nextUuid
  known : ∀ e ∈ st.db.incidentEvents, e.kind.turns → e.incidentId ∈ st.incidentIds
  opening : ∀ i ∈ st.db.incidents, Opening calls i.apiId (st.timeline i.id) i.face
  alone : ∀ i ∈ st.db.incidents, ∀ j ∈ st.db.incidents, i.isActive → j.isActive → i.apiId = j.apiId → i = j
  live : ∀ i ∈ st.db.incidents, i.isActive → i.resolvedAt = none

/-- Rows are their identifiers. -/
theorem Recounts.inj {calls : List Call} {st : Store} (h : Recounts calls st) {i j : Incident} (hi : i ∈ st.db.incidents)
    (hj : j ∈ st.db.incidents) (hid : i.id = j.id) : i = j :=
  List.inj_on_of_nodup_map h.nodup hi hj hid

/-- What is not drawn yet has no timeline. -/
theorem Recounts.fresh {calls : List Call} {st : Store} (h : Recounts calls st) {id : Uuid} (hid : st.nextUuid ≤ id) :
    st.timeline id = [] := by
  refine about_other fun e he hturns heq => ?_
  obtain ⟨i, hi, hie⟩ := List.mem_map.1 (h.known e he hturns)
  have hlt := h.drawn i hi
  rw [hie, heq] at hlt
  exact absurd hlt (Nat.not_lt.2 hid)

section Rewrites

variable {calls calls' : List Call} {p : Scope} {st st' : Store} {f : Incident → Incident} {new : List Incident}
  {es : List IncidentEvent}

theorem Rewrites.timeline (h : Rewrites calls p st st' f new es) (id : Uuid) :
    st'.timeline id = st.timeline id ++ about id es := by
  rw [Store.timeline, h.events, about_append, Store.timeline]

theorem Rewrites.goesOn (h : Rewrites calls p st st' f new es) {i : Incident} (hi : i ∈ st.db.incidents) :
    GoesOn p.time (about i.id es) i (f i) := by
  rcases h.old i hi with ⟨hnone, hstays⟩ | ⟨-, hon⟩
  · rw [hnone]
    exact hstays.goesOn p.time
  · exact hon

theorem Rewrites.mem (h : Rewrites calls p st st' f new es) {i' : Incident} (hi' : i' ∈ st'.db.incidents) :
    (∃ i ∈ st.db.incidents, f i = i') ∨ i' ∈ new := by
  rw [h.incidents] at hi'
  exact (List.mem_append.1 hi').imp_left List.mem_map.1

theorem Rewrites.mem_old (h : Rewrites calls p st st' f new es) {i : Incident} (hi : i ∈ st.db.incidents) :
    f i ∈ st'.db.incidents := by
  rw [h.incidents]
  exact List.mem_append_left _ (List.mem_map_of_mem hi)

theorem Rewrites.ids (h : Rewrites calls p st st' f new es) : st'.incidentIds = st.incidentIds ++ new.map (·.id) := by
  rw [Store.incidentIds, h.incidents, List.map_append, List.map_map, Store.incidentIds]
  congr 1
  exact List.map_congr_left fun i hi => (h.goesOn hi).id

/-- What a step opens, it opens with an identifier of its own. -/
theorem Rewrites.opened (h : Rewrites calls p st st' f new es) {i : Incident} (hi : i ∈ new) :
    st.nextUuid ≤ i.id ∧ i.id < st'.nextUuid ∧ p.targets i.apiId ∧ Opens calls p.time (about i.id es) i ∧
      ∀ j ∈ st.db.incidents, j.apiId = i.apiId → j.isActive = false := by
  rcases h.new with rfl | ⟨i', rfl, hnew⟩
  · cases hi
  · rw [List.mem_singleton.1 hi]
    exact hnew

theorem Rewrites.one_new (h : Rewrites calls p st st' f new es) {i j : Incident} (hi : i ∈ new) (hj : j ∈ new) : i = j := by
  rcases h.new with rfl | ⟨i', rfl, -⟩
  · cases hi
  · rw [List.mem_singleton.1 hi, List.mem_singleton.1 hj]

theorem Recounts.step (hs : Recounts calls st) (h : Rewrites calls p st st' f new es) (hkeeps : KeepsTargets calls calls') :
    Recounts calls' st' := by
  have hactive : ∀ i ∈ st.db.incidents, (f i).isActive → i.isActive := by
    intro i hi hf
    cases hia : i.isActive with
    | true => rfl
    | false =>
      rw [((h.goesOn hi).inactive hia).1] at hf
      cases hf
  have hsole : ∀ i ∈ new, ∀ j ∈ st.db.incidents, (f j).isActive → (f j).apiId ≠ i.apiId := by
    intro i hi j hj hf hapi
    rw [(h.goesOn hj).apiId] at hapi
    have hover := (h.opened hi).2.2.2.2 j hj hapi
    rw [hactive j hj hf] at hover
    cases hover
  refine ⟨?_, fun i' hi' => ?_, fun e he hturns => ?_, fun i' hi' => ?_, fun i' hi' j' hj' hai haj hapi => ?_,
    fun i' hi' hai => ?_⟩
  · rw [h.ids, List.nodup_append]
    refine ⟨hs.nodup, ?_, fun id hid id' hid' heq => ?_⟩
    · rcases h.new with rfl | ⟨i, rfl, -⟩
      · exact List.nodup_nil
      · exact List.nodup_singleton _
    · obtain ⟨i, hi, rfl⟩ := List.mem_map.1 hid
      obtain ⟨i', hi', rfl⟩ := List.mem_map.1 hid'
      have hlt := (hs.drawn i hi).trans_le (h.opened hi').1
      exact absurd heq (Nat.ne_of_lt hlt)
  · rcases h.mem hi' with ⟨i, hi, rfl⟩ | hi'
    · rw [(h.goesOn hi).id]
      exact (hs.drawn i hi).trans_le h.uuid
    · exact (h.opened hi').2.1
  · rw [h.events] at he
    rcases List.mem_append.1 he with he | he
    · rw [h.ids]
      exact List.mem_append_left _ (hs.known e he hturns)
    · exact h.known e he hturns
  · rcases h.mem hi' with ⟨i, hi, rfl⟩ | hi'
    · have hon := h.goesOn hi
      obtain ⟨c, hc, hapi, status, g, hfail, hstory⟩ := hkeeps.opening (hs.opening i hi)
      rw [hon.id, h.timeline]
      exact ⟨c, hc, hapi.trans hon.apiId.symm, status, g, hfail, hstory.append hon.story⟩
    · obtain ⟨hge, -, -, hopens, -⟩ := h.opened hi'
      rw [h.timeline, hs.fresh hge, List.nil_append]
      exact hkeeps.opening hopens.opening
  · rcases h.mem hi' with ⟨i, hi, rfl⟩ | hi' <;> rcases h.mem hj' with ⟨j, hj, rfl⟩ | hj'
    · rw [(h.goesOn hi).apiId, (h.goesOn hj).apiId] at hapi
      rw [hs.alone i hi j hj (hactive i hi hai) (hactive j hj haj) hapi]
    · exact absurd hapi (hsole j' hj' i hi hai)
    · exact absurd hapi.symm (hsole i' hi' j hj haj)
    · exact h.one_new hi' hj'
  · rcases h.mem hi' with ⟨i, hi, rfl⟩ | hi'
    · exact (h.goesOn hi).live (hs.live i hi) hai
    · exact (h.opened hi').2.2.2.1.active.2

end Rewrites

/-! ### The open transactions -/

/-- What holds of an open transaction: the row of the incident it has found still shows what it showed then, and when it
has found none there still is none. -/
structure ResultTx.Ok (tx : ResultTx) (calls : List Call) (st : Store) : Prop where
  call : ∃ c, calls[tx.call]? = some c ∧ c.target.id = tx.apiId
  began : tx.began ≤ st.now
  found : ∀ a, tx.found = some (some a) → ∃ i ∈ st.db.incidents, i.id = a.id ∧ i.apiId = tx.apiId ∧ i.face = a.face ∧
    ∀ r, i.resolvedAt = some r → tx.began ≤ r
  free : tx.found = some none → ∀ i ∈ st.db.incidents, i.apiId = tx.apiId → i.isActive = false

/-- A step that keeps away from what the transaction has read, or only resolves it. -/
theorem ResultTx.Ok.step {tx : ResultTx} {calls calls' : List Call} {p : Scope} {st st' : Store} {f : Incident → Incident}
    {new : List Incident} {es : List IncidentEvent} (h : tx.Ok calls st) (hw : Rewrites calls p st st' f new es)
    (hkeeps : KeepsTargets calls calls')
    (hrows : ∀ a, tx.found = some (some a) → p.rows a.id → es = [] ∧ tx.began ≤ p.time)
    (htargets : tx.found = some none → ¬ p.targets tx.apiId) : tx.Ok calls' st' := by
  refine ⟨?_, h.began.trans hw.now, fun a ha => ?_, fun hnone i' hi' hapi => ?_⟩
  · obtain ⟨c, hc, hapi⟩ := h.call
    obtain ⟨c', hc', heq⟩ := hkeeps _ c hc
    exact ⟨c', hc', heq ▸ hapi⟩
  · obtain ⟨i, hi, hid, hapi, hface, hlate⟩ := h.found a ha
    rcases hw.old i hi with ⟨-, hstays⟩ | ⟨hrow, hon⟩
    · refine ⟨f i, hw.mem_old hi, hstays.id.trans hid, hstays.apiId.trans hapi, hstays.face.trans hface, ?_⟩
      rw [hstays.resolvedAt]
      exact hlate
    · obtain ⟨rfl, htime⟩ := hrows a ha (hid ▸ hrow)
      refine ⟨f i, hw.mem_old hi, hon.id.trans hid, hon.apiId.trans hapi, GoesOn.face hon |>.trans hface, fun r hr => ?_⟩
      rcases hon.course with ⟨-, hsame⟩ | ⟨-, -, hdone, -⟩
      · exact hlate r (hsame ▸ hr)
      · obtain rfl := Option.some.inj (hdone.symm.trans hr)
        exact htime
  · rcases hw.mem hi' with ⟨i, hi, rfl⟩ | hi'
    · have hon := hw.goesOn hi
      exact (hon.inactive (h.free hnone i hi (hon.apiId ▸ hapi))).1
    · have htarget := (hw.opened hi').2.2.1
      rw [hapi] at htarget
      exact absurd htarget (htargets hnone)

/-- What holds in every reachable state. Of the transactions of one target only one has come past the lock of the schedule
row. -/
structure ResultSys.Told (s : ResultSys) : Prop where
  recounts : Recounts s.calls s.store
  txs : ∀ tx ∈ s.txs, tx.Ok s.calls s.store
  calls : (s.txs.map (·.call)).Nodup
  locks : ∀ t ∈ s.txs, ∀ t' ∈ s.txs, t.apiId = t'.apiId → t.found ≠ none → t'.found ≠ none → t = t'

namespace ResultSys

/-- The steps of the system, with what they do to incidents and transactions. -/
inductive Trans (s : ResultSys) : IncidentAct → ResultSys → Prop
  /-- What the law is about stays, and transactions may have ended. -/
  | quiet {a : IncidentAct} {s' : ResultSys} (h : Retells s.calls (.nothing s.store.now) s.store s'.store)
      (hkeeps : KeepsTargets s.calls s'.calls) (htxs : s'.txs.Sublist s.txs) : Trans s a s'
  | begin {i : Nat} {c : Call} (hc : s.calls[i]? = some c) (hnew : ∀ t ∈ s.txs, t.call ≠ i) :
      Trans s (.begin i) { s with txs := s.txs ++ [⟨i, c.target.id, s.store.now, none⟩] }
  | find {i : Nat} {tx : ResultTx} (htx : tx ∈ s.txs) (hi : tx.call = i)
      (hfree : ∀ t ∈ s.txs, t.apiId = tx.apiId → t.found = none) : Trans s (.find i)
        { s with txs := s.txs.map fun t => if t.call = i then t.read s.store else t }
  | commit {i : Nat} {failAt : Option (Nat × String)} {tx : ResultTx} {active : Option Incident} {s' : ResultSys}
      (htx : tx ∈ s.txs) (hi : tx.call = i) (hfound : tx.found = some active)
      (h : Retells s.calls (.commit tx.began active tx.apiId) s.store s'.store) (hkeeps : KeepsTargets s.calls s'.calls)
      (htxs : s'.txs = s.txs.filter (·.call ≠ i)) : Trans s (.finish i failAt) s'
  | resolve {id : Uuid} {resolution : String} {s' : ResultSys} {f : Incident → Incident}
      (h : Rewrites s.calls (.row s.store.now id) s.store s'.store f [] []) (hcalls : s'.calls = s.calls)
      (htxs : s'.txs = s.txs) : Trans s (.resolve id resolution) s'

end ResultSys

theorem acknowledgedRow_active (i : Incident) : (Sql.acknowledgedRow i).isActive = i.isActive := by
  by_cases hopened : i.status = .opened
  · simp [Sql.acknowledgedRow, Incident.isActive, hopened]
  · simp [Sql.acknowledgedRow, Incident.isActive, hopened]

variable {env : Env} {s s' : ResultSys}

theorem ResultSys.tx?_eq {i : Nat} {c : Call} {tx : ResultTx} (h : s.tx? i = some (c, tx)) :
    s.calls[i]? = some c ∧ tx ∈ s.txs ∧ tx.call = i := by
  unfold ResultSys.tx? at h
  split at h
  · rename_i c' tx' hc htx
    cases h
    exact ⟨hc, List.mem_of_find?_eq_some htx, by simpa using List.find?_some htx⟩
  · cases h

/-- A step of the job runner that is not a result transaction. -/
theorem Sys.step_quiet {rca : Uuid → Except String RootCauseAnalysis} {s s' : Sys} {a : Label} (hrecords : s.records a = false)
    (h : Sys.step env (fun id => (rca id).map (rcaEvents id)) s a = some s') :
    Quiet s.store s'.store ∧ KeepsTargets s.calls s'.calls := by
  cases a with
  | invoke target slot workerId =>
    cases h
    exact ⟨.refl _, .append _ _⟩
  | advance i ev =>
    simp only [Sys.step] at h
    simp only [Sys.records] at hrecords
    split at h
    · cases h
    · rename_i c hi
      rw [hi] at hrecords
      have hresult : c.result = none := by simpa using hrecords
      split at h
      · cases h
        exact ⟨c.advance_quiet env rca ev s.store hresult, .set hi rfl⟩
      · cases h
  | crash i =>
    cases Sys.steps h with
    | crash hi => exact ⟨.refl _, .set hi rfl⟩
  | elapse ms =>
    cases h
    exact ⟨⟨rfl, ⟨[], (List.append_nil _).symm, by simp⟩, le_rfl, Int.le_add_of_nonneg_right (Int.natCast_nonneg ms)⟩, .refl _⟩

theorem Call.settled_target (c : Call) (claimId : Uuid) (outcome : HealthCheckOutcome)
    (r : Except String IncidentTransition) : (c.settled claimId outcome r).target = c.target := by
  cases r <;> rfl

theorem ResultSys.Told.trans (hs : s.Told) {a : IncidentAct} (h : ResultSys.step env s a = some s') : s.Trans a s' := by
  cases a with
  | runner rca a =>
    simp only [ResultSys.step] at h
    split at h
    · cases h
    · rename_i hrecords
      obtain ⟨t, ht, rfl⟩ := Option.map_eq_some_iff.1 h
      obtain ⟨hquiet, hkeeps⟩ := Sys.step_quiet (by simpa using hrecords) ht
      exact .quiet (hquiet.retells _ _) hkeeps List.filter_sublist
  | begin i =>
    simp only [ResultSys.step] at h
    split at h
    · cases h
    · rename_i c hc
      split at h
      · rename_i hok
        cases h
        exact .begin hc hok.2
      · cases h
  | find i =>
    simp only [ResultSys.step] at h
    split at h
    · cases h
    · rename_i c tx htx
      obtain ⟨-, hmem, hcall⟩ := ResultSys.tx?_eq htx
      split at h
      · rename_i hfree
        cases h
        exact .find hmem hcall hfree
      · cases h
  | finish i failAt =>
    simp only [ResultSys.step] at h
    split at h
    · cases h
    · rename_i c tx htx
      obtain ⟨hc, hmem, hcall⟩ := ResultSys.tx?_eq htx
      have hok := hs.txs tx hmem
      split at h
      · rename_i id outcome active hresult hfound
        cases h
        have hkeeps (r : Except String IncidentTransition) :
            KeepsTargets s.calls (s.calls.set i (c.settled id outcome r)) := .set hc (c.settled_target id outcome r)
        have hapi : c.target.id = tx.apiId := by
          obtain ⟨c', hc', hapi⟩ := hok.call
          rw [hcall] at hc'
          rw [Option.some.inj (hc.symm.trans hc')]
          exact hapi
        rcases recordFound_commits env active c.target c.slot id outcome { s.store with now := tx.began } failAt
          with hquiet | ⟨ctx, v, hchecked⟩
        · exact .quiet (Retells.clock (hquiet.retells _ _)) (hkeeps _) List.filter_sublist
        · refine .commit hmem hcall hfound ?_ (hkeeps _) rfl
          rw [← hapi]
          refine Retells.clock (hchecked.retells (List.mem_of_getElem? hc) hs.recounts.nodup hs.recounts.drawn ?_ ?_)
          · rintro a rfl
            obtain ⟨j, hj, hid, -, hface, -⟩ := hok.found a hfound
            exact ⟨j, hj, hid, hface⟩
          · rintro rfl
            rw [hapi]
            exact hok.free hfound
      · cases h
  | abort i message =>
    simp only [ResultSys.step] at h
    split at h
    · cases h
    · rename_i c tx htx
      obtain ⟨hc, -, -⟩ := ResultSys.tx?_eq htx
      split at h
      · cases h
        exact .quiet ((Quiet.refl _).retells _ _) (.set hc (c.settled_target _ _ _)) List.filter_sublist
      · cases h
  | acknowledge id =>
    cases h
    refine .quiet ⟨_, [], [], rewrites_rows s.calls fun i _ => .inl ?_⟩ (.refl _) (List.Sublist.refl _)
    split
    · exact ⟨rfl, rfl, rfl, rfl, acknowledgedRow_active i, rfl⟩
    · exact .refl i
  | resolve id resolution =>
    cases h
    refine .resolve (rewrites_rows s.calls fun i _ => ?_) rfl rfl
    by_cases hid : i.id = id
    · exact .inr ⟨hid, resolved_goesOn _ id (some resolution) i⟩
    · simp only [hid, decide_false, Bool.false_and, Bool.false_eq_true, if_false]
      exact .inl (.refl i)
  | escalate id level =>
    cases h
    refine .quiet ⟨_, [], [], rewrites_rows s.calls fun i _ => .inl ?_⟩ (.refl _) (List.Sublist.refl _)
    split
    · exact ⟨rfl, rfl, rfl, rfl, rfl, rfl⟩
    · exact .refl i

end CronMonitor
