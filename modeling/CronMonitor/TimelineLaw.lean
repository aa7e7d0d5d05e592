import CronMonitor.CheckAtomic
import CronMonitor.SeverityLaw
import CronMonitor.TimelineSteps

/-!
# The law of the timeline

`ResultSys.Told` holds of every reachable state of the checks, with the operators and the escalation cycle beside them:
the timelines tell the rows, and what an open transaction has read of an incident still is so. Two things need more.
Timelines are in order (`Timed`) while the result transactions of a target come one after another: an entry has the time
of its `BEGIN`. They are closed with the incident (`Spared`, `Closed`) while nobody resolves it by hand under a
transaction that has found it: the state machine writes by identifier.
-/

namespace CronMonitor

open Eff Runs Session Stories

variable {env : Env} {s s' : ResultSys}

/-! ### The invariant -/

theorem findActiveIncident_some {apiId : Uuid} {st : Store} {a : Incident}
    (h : (Sql.findActiveIncident apiId st).1 = some a) : a ∈ st.db.incidents ∧ a.apiId = apiId ∧ a.isActive := by
  refine ⟨List.mem_of_find?_eq_some h, ?_⟩
  simpa using List.find?_some h

theorem findActiveIncident_none {apiId : Uuid} {st : Store} (h : (Sql.findActiveIncident apiId st).1 = none) :
    ∀ i ∈ st.db.incidents, i.apiId = apiId → i.isActive = false := by
  intro i hi hapi
  have hno := List.find?_eq_none.1 h i hi
  simpa [hapi] using hno

namespace ResultSys

/-- Two open transactions have not found the same incident. -/
theorem Told.apart (hs : s.Told) {t t' : ResultTx} (ht : t ∈ s.txs) (ht' : t' ∈ s.txs) {a a' : Incident}
    (ha : t.found = some (some a)) (ha' : t'.found = some (some a')) (hid : a.id = a'.id) : t = t' := by
  obtain ⟨i, hi, hia, hapi, -⟩ := (hs.txs t ht).found a ha
  obtain ⟨j, hj, hja, hapi', -⟩ := (hs.txs t' ht').found a' ha'
  obtain rfl := hs.recounts.inj hi hj (hia.trans (hid.trans hja.symm))
  exact hs.locks t ht t' ht' (hapi.symm.trans hapi') (by simp [ha]) (by simp [ha'])

/-- The transaction of a call is the only one. -/
theorem Told.call_inj (hs : s.Told) {t t' : ResultTx} (ht : t ∈ s.txs) (ht' : t' ∈ s.txs) (hcall : t.call = t'.call) :
    t = t' :=
  List.inj_on_of_nodup_map hs.calls ht ht' hcall

/-- What was found in the tables as they are. -/
theorem Told.read (hs : s.Told) {t : ResultTx} (ht : t ∈ s.txs) :
    (t.read s.store).Ok s.calls s.store := by
  have hok := hs.txs t ht
  refine ⟨hok.call, hok.began, fun a ha => ?_, fun hnone => findActiveIncident_none (Option.some.inj hnone)⟩
  obtain ⟨hmem, hapi, hactive⟩ := findActiveIncident_some (Option.some.inj ha)
  refine ⟨a, hmem, rfl, hapi, rfl, fun r hr => ?_⟩
  rw [hs.recounts.live a hmem hactive] at hr
  cases hr

theorem Told.begin (hs : s.Told) {i : Nat} {c : Call} (hc : s.calls[i]? = some c) (hnew : ∀ t ∈ s.txs, t.call ≠ i) :
    Told { s with txs := s.txs ++ [⟨i, c.target.id, s.store.now, none⟩] } := by
  have hold : ∀ t ∈ s.txs ++ [⟨i, c.target.id, s.store.now, none⟩], t.found ≠ none → t ∈ s.txs := by
    intro t ht hfound
    refine (List.mem_append.1 ht).resolve_right fun ht => hfound ?_
    rw [List.mem_singleton.1 ht]
  refine ⟨hs.recounts, fun t ht => ?_, ?_, fun t ht t' ht' hapi hfound hfound' => ?_⟩
  · rcases List.mem_append.1 ht with ht | ht
    · exact hs.txs t ht
    · rw [List.mem_singleton.1 ht]
      exact ⟨⟨c, hc, rfl⟩, le_rfl, (fun a ha => by cases ha), (fun hnone => by cases hnone)⟩
  · rw [List.map_append, List.map_singleton, List.nodup_append]
    refine ⟨hs.calls, List.nodup_singleton _, fun j hj k hk => ?_⟩
    obtain ⟨t, ht, rfl⟩ := List.mem_map.1 hj
    rw [List.mem_singleton.1 hk]
    exact hnew t ht
  · exact hs.locks t (hold t ht hfound) t' (hold t' ht' hfound') hapi hfound hfound'

theorem Told.find (hs : s.Told) {i : Nat} {tx : ResultTx} (htx : tx ∈ s.txs) (hi : tx.call = i)
    (hfree : ∀ t ∈ s.txs, t.apiId = tx.apiId → t.found = none) :
    Told { s with txs := s.txs.map fun t => if t.call = i then t.read s.store else t } := by
  have hcalls : (s.txs.map fun t => if t.call = i then t.read s.store else t).map (·.call) = s.txs.map (·.call) := by
    rw [List.map_map]
    refine List.map_congr_left fun t _ => ?_
    simp only [Function.comp]
    split <;> rfl
  have hapiId (t : ResultTx) : (if t.call = i then t.read s.store else t).apiId = t.apiId := by
    split <;> rfl
  refine ⟨hs.recounts, fun t' ht' => ?_, ?_, fun t₁ ht₁ t₂ ht₂ hapi hfound₁ hfound₂ => ?_⟩
  · obtain ⟨t, ht, rfl⟩ := List.mem_map.1 ht'
    split
    · exact hs.read ht
    · exact hs.txs t ht
  · rw [hcalls]
    exact hs.calls
  · obtain ⟨t, ht, rfl⟩ := List.mem_map.1 ht₁
    obtain ⟨t', ht', rfl⟩ := List.mem_map.1 ht₂
    rw [hapiId, hapiId] at hapi
    by_cases hc : t.call = i <;> by_cases hc' : t'.call = i
    · rw [hs.call_inj ht ht' (hc.trans hc'.symm)]
    · rw [if_neg hc'] at hfound₂
      rw [hs.call_inj ht htx (hc.trans hi.symm)] at hapi
      exact absurd (hfree t' ht' hapi.symm) hfound₂
    · rw [if_neg hc] at hfound₁
      rw [hs.call_inj ht' htx (hc'.trans hi.symm)] at hapi
      exact absurd (hfree t ht hapi) hfound₁
    · rw [if_neg hc] at hfound₁
      rw [if_neg hc'] at hfound₂
      rw [if_neg hc, if_neg hc']
      exact hs.locks t ht t' ht' hapi hfound₁ hfound₂

/-- Transactions end. -/
theorem Told.less (hs : s.Told) {p : Scope} (hw : Retells s.calls p s.store s'.store) (hkeeps : KeepsTargets s.calls s'.calls)
    (htxs : s'.txs.Sublist s.txs)
    (hrows : ∀ t ∈ s'.txs, ∀ a, t.found = some (some a) → p.rows a.id →
      s'.store.db.incidentEvents = s.store.db.incidentEvents ∧ s.store.now ≤ p.time)
    (htargets : ∀ t ∈ s'.txs, t.found = some none → ¬ p.targets t.apiId) : s'.Told := by
  obtain ⟨f, new, es, hw⟩ := hw
  refine ⟨hs.recounts.step hw hkeeps, fun t ht => ?_, hs.calls.sublist (htxs.map _), fun t ht t' ht' =>
    hs.locks t (htxs.subset ht) t' (htxs.subset ht')⟩
  have hok := hs.txs t (htxs.subset ht)
  refine hok.step hw hkeeps (fun a ha hrow => ?_) (htargets t ht)
  obtain ⟨hevents, htime⟩ := hrows t ht a ha hrow
  exact ⟨List.self_eq_append_right.1 (hevents.symm.trans hw.events), hok.began.trans htime⟩

/-- The rows that a commit may change are not those that another open transaction has found. -/
theorem Told.elsewhere (hs : s.Told) {tx t : ResultTx} (htx : tx ∈ s.txs) (ht : t ∈ s.txs) (hne : t ≠ tx)
    {active : Option Incident} (hfound : tx.found = some active) {a : Incident} (ha : t.found = some (some a)) :
    ¬ (Scope.commit tx.began active tx.apiId).rows a.id := by
  rintro ⟨a', rfl, hid⟩
  exact hne (hs.apart ht htx ha hfound hid.symm)

theorem Told.step (hs : s.Told) {a : IncidentAct} (h : s.Trans a s') : s'.Told := by
  cases h with
  | quiet hw hkeeps htxs => exact hs.less hw hkeeps htxs (fun _ _ _ _ hrow => hrow.elim) fun _ _ _ htarget => htarget.elim
  | begin hc hnew => exact hs.begin hc hnew
  | find htx hi hfree => exact hs.find htx hi hfree
  | @commit i failAt tx active _ htx hi hfound hw hkeeps htxs =>
    have hother : ∀ t ∈ s'.txs, t ∈ s.txs ∧ t ≠ tx := by
      intro t ht
      rw [htxs] at ht
      obtain ⟨ht, hne⟩ := List.mem_filter.1 ht
      exact ⟨ht, fun heq => by simp [heq, hi] at hne⟩
    refine hs.less hw hkeeps (htxs ▸ List.filter_sublist) (fun t ht a ha hrow => ?_) fun t ht hnone htarget => ?_
    · exact absurd hrow (hs.elsewhere htx (hother t ht).1 (hother t ht).2 hfound ha)
    · exact (hother t ht).2 (hs.locks t (hother t ht).1 _ htx htarget (by simp [hnone]) (by simp [hfound]))
  | resolve hw hcalls htxs =>
    refine hs.less ⟨_, _, _, hw⟩ (hcalls ▸ .refl _) (htxs ▸ List.Sublist.refl _) (fun t ht a ha hrow => ?_)
      fun _ _ _ htarget => htarget.elim
    exact ⟨hw.events.trans (List.append_nil _), le_rfl⟩

theorem init_told {st : Store} (hincidents : st.db.incidents = []) (hevents : st.db.incidentEvents = []) :
    (init st).Told := by
  refine ⟨⟨?_, ?_, ?_, ?_, ?_, ?_⟩, ?_, ?_, ?_⟩ <;> simp [init, Sys.init, Store.incidentIds, hincidents, hevents]

end ResultSys

/-! ### How it goes on -/

/-- How the incidents of `a` stand in `b`: each goes on with its timeline, and what is over stays over. -/
def Continues (a b : Store) : Prop :=
  ∀ i ∈ a.db.incidents, ∃ i' ∈ b.db.incidents, i'.id = i.id ∧ ∃ es, b.timeline i.id = a.timeline i.id ++ es ∧
    Story Turns i.face es i'.face ∧ (i.isActive = false → i'.isActive = false ∧ i'.resolvedAt = i.resolvedAt)

theorem Continues.refl (st : Store) : Continues st st :=
  fun i hi => ⟨i, hi, rfl, [], (List.append_nil _).symm, .nil _, fun h => ⟨h, rfl⟩⟩

theorem Continues.trans {a b c : Store} (h : Continues a b) (h' : Continues b c) : Continues a c := by
  intro i hi
  obtain ⟨j, hj, hjid, es, hes, hstory, hdone⟩ := h i hi
  obtain ⟨k, hk, hkid, fs, hfs, hstory', hdone'⟩ := h' j hj
  rw [hjid] at hfs
  refine ⟨k, hk, hkid.trans hjid, es ++ fs, ?_, hstory.append hstory', fun hi => ?_⟩
  · rw [hfs, hes, List.append_assoc]
  · obtain ⟨hj, hjat⟩ := hdone hi
    obtain ⟨hk, hkat⟩ := hdone' hj
    exact ⟨hk, hkat.trans hjat⟩

theorem Rewrites.continues {calls : List Call} {p : Scope} {st st' : Store} {f : Incident → Incident}
    {new : List Incident} {es : List IncidentEvent} (h : Rewrites calls p st st' f new es) : Continues st st' := by
  intro i hi
  have hon := h.goesOn hi
  exact ⟨f i, h.mem_old hi, hon.id, about i.id es, h.timeline i.id, hon.story, hon.inactive⟩

theorem ResultSys.Trans.continues {a : IncidentAct} (h : s.Trans a s') : Continues s.store s'.store := by
  cases h with
  | quiet hw =>
    obtain ⟨f, new, es, hw⟩ := hw
    exact hw.continues
  | begin => exact .refl _
  | find => exact .refl _
  | commit _ _ _ hw =>
    obtain ⟨f, new, es, hw⟩ := hw
    exact hw.continues
  | resolve hw => exact hw.continues

/-! ### The order of a timeline -/

/-- The timeline of `i` is in order, between its start and its end. -/
structure Dated (st : Store) (i : Incident) : Prop where
  ordered : ((st.timeline i.id).map (·.occurredAt)).Pairwise (· ≤ ·)
  during : ∀ e ∈ st.timeline i.id, i.startedAt ≤ e.occurredAt ∧ e.occurredAt ≤ i.lastsUntil st.now
  past : i.startedAt ≤ i.lastsUntil st.now ∧ i.lastsUntil st.now ≤ st.now

/-- Nothing that a dated incident has had comes after `t`. -/
def Incident.Before (i : Incident) (st : Store) (t : Time) : Prop :=
  i.startedAt ≤ t ∧ ∀ e ∈ st.timeline i.id, e.occurredAt ≤ t

theorem Dated.before {st : Store} {i : Incident} (h : Dated st i) : i.Before st st.now :=
  ⟨h.past.1.trans h.past.2, fun e he => (h.during e he).2.trans h.past.2⟩

/-- Entries of one time are in order. -/
theorem pairwise_of_times {t : Time} {es : List IncidentEvent} (h : ∀ e ∈ es, e.occurredAt = t) :
    (es.map (·.occurredAt)).Pairwise (· ≤ ·) := by
  refine List.pairwise_map.2 (List.pairwise_of_forall_mem_list fun e he e' he' => ?_)
  rw [h e he, h e' he']

/-- A step that writes at `t`, after all that the incident has had. -/
theorem Dated.step {st st' : Store} {i i' : Incident} {t : Time} {es : List IncidentEvent} (h : Dated st i)
    (hon : GoesOn t es i i') (htimeline : st'.timeline i'.id = st.timeline i.id ++ es) (hnow : st.now ≤ st'.now)
    (ht : t ≤ st'.now) (hlate : i.Before st t) (hafter : es = [] ∨ ∀ r, i.resolvedAt = some r → t ≤ r) : Dated st' i' := by
  have hend : ∀ x : Time, x ≤ i.lastsUntil st.now → x ≤ t → x ≤ i'.lastsUntil st'.now := by
    intro x hx hxt
    rcases hon.course with ⟨-, hsame⟩ | ⟨-, -, hdone, -⟩
    · refine hx.trans ?_
      rw [Incident.lastsUntil, Incident.lastsUntil, hsame]
      cases i.resolvedAt with
      | none => exact hnow
      | some r => exact le_rfl
    · rw [Incident.lastsUntil, hdone]
      exact hxt
  have hwritten : ∀ e ∈ es, t ≤ i'.lastsUntil st'.now := by
    intro e he
    rcases hon.course with ⟨-, hsame⟩ | ⟨-, -, -, hnone⟩
    · rw [Incident.lastsUntil, hsame]
      cases hr : i.resolvedAt with
      | none => exact ht
      | some r => exact hafter.resolve_left (List.ne_nil_of_mem he) r hr
    · rw [hnone] at he
      cases he
  refine ⟨?_, fun e he => ?_, ?_, ?_⟩
  · rw [htimeline, List.map_append, List.pairwise_append]
    refine ⟨h.ordered, pairwise_of_times hon.times, fun x hx y hy => ?_⟩
    obtain ⟨e, he, rfl⟩ := List.mem_map.1 hx
    obtain ⟨e', he', rfl⟩ := List.mem_map.1 hy
    rw [hon.times e' he']
    exact hlate.2 e he
  · rw [hon.startedAt]
    rw [htimeline] at he
    rcases List.mem_append.1 he with he | he
    · exact ⟨(h.during e he).1, hend _ (h.during e he).2 (hlate.2 e he)⟩
    · rw [hon.times e he]
      exact ⟨hlate.1, hwritten e he⟩
  · rw [hon.startedAt]
    exact hend _ h.past.1 hlate.1
  · rcases hon.course with ⟨-, hsame⟩ | ⟨-, -, hdone, -⟩
    · have hpast := h.past.2
      rw [Incident.lastsUntil] at hpast ⊢
      rw [hsame]
      cases hr : i.resolvedAt with
      | none => exact le_rfl
      | some r =>
        rw [hr] at hpast
        exact le_trans hpast hnow
    · rw [Incident.lastsUntil, hdone]
      exact ht

/-- What was opened at `t`. -/
theorem Opens.dated {calls : List Call} {t : Time} {es : List IncidentEvent} {st : Store} {i : Incident}
    (h : Opens calls t es i) (htimeline : st.timeline i.id = es) (ht : t ≤ st.now) : Dated st i := by
  have hopen : i.lastsUntil st.now = st.now := by
    rw [Incident.lastsUntil, h.active.2]
    rfl
  refine ⟨?_, fun e he => ?_, ?_⟩
  · rw [htimeline]
    exact pairwise_of_times h.times
  · rw [htimeline] at he
    rw [h.times e he, h.startedAt, hopen]
    exact ⟨le_rfl, ht⟩
  · rw [h.startedAt, hopen]
    exact ⟨ht, le_rfl⟩

/-- No result transaction of the target begins while another one is open. -/
def OneByOne (apiId : Uuid) (s : ResultSys) (a : IncidentAct) (_ : ResultSys) : Prop :=
  match a with
  | .begin i => ∀ c ∈ s.calls[i]?, c.target.id = apiId → ∀ t ∈ s.txs, t.apiId ≠ apiId
  | _ => True

instance OneByOne.decidable (apiId : Uuid) (s : ResultSys) (a : IncidentAct) (s' : ResultSys) :
    Decidable (OneByOne apiId s a s') :=
  match a with
  | .begin i => inferInstanceAs (Decidable (∀ c ∈ s.calls[i]?, c.target.id = apiId → ∀ t ∈ s.txs, t.apiId ≠ apiId))
  | .runner .. | .find .. | .finish .. | .abort .. | .acknowledge .. | .resolve .. | .escalate .. => isTrue trivial

/-- The timelines of the target's incidents are dated, and an open transaction of it came after all that is in them. -/
structure ResultSys.Timed (apiId : Uuid) (s : ResultSys) : Prop where
  alone : ∀ t ∈ s.txs, ∀ t' ∈ s.txs, t.apiId = apiId → t'.apiId = apiId → t = t'
  since : ∀ t ∈ s.txs, t.apiId = apiId → ∀ i ∈ s.store.db.incidents, i.apiId = apiId → i.Before s.store t.began
  dated : ∀ i ∈ s.store.db.incidents, i.apiId = apiId → Dated s.store i

namespace ResultSys

variable {apiId : Uuid}

/-- A row that stays, with no entry, is as old as it was. -/
theorem Before.stays {calls : List Call} {p : Scope} {st st' : Store} {f : Incident → Incident} {new : List Incident}
    {es : List IncidentEvent} (hw : Rewrites calls p st st' f new es) {i : Incident} {t : Time} (h : i.Before st t)
    (hstarted : (f i).startedAt = i.startedAt) (hid : (f i).id = i.id) (hnone : about i.id es = []) :
    (f i).Before st' t := by
  rw [Incident.Before, hstarted, hid, hw.timeline, hnone, List.append_nil]
  exact h

/-- A step that writes nothing about incidents that there are. -/
theorem Timed.still {calls : List Call} {p : Scope} {f : Incident → Incident} {es : List IncidentEvent}
    (h : s.Timed apiId) (hw : Rewrites calls p s.store s'.store f [] es) (htime : p.time = s.store.now)
    (hnone : ∀ i ∈ s.store.db.incidents, about i.id es = []) (htxs : s'.txs.Sublist s.txs) : s'.Timed apiId := by
  refine ⟨fun t ht t' ht' => h.alone t (htxs.subset ht) t' (htxs.subset ht'), fun t ht htapi i' hi' hapi => ?_,
    fun i' hi' hapi => ?_⟩ <;> obtain ⟨i, hi, rfl⟩ := (hw.mem hi').resolve_right List.not_mem_nil <;>
    have hon := hw.goesOn hi <;> rw [hon.apiId] at hapi
  · exact Before.stays hw (h.since t (htxs.subset ht) htapi i hi hapi) hon.startedAt hon.id (hnone i hi)
  · have hdated := h.dated i hi hapi
    refine hdated.step hon (by rw [hon.id, hw.timeline]) hw.now ?_ ?_ (.inl (hnone i hi)) <;> rw [htime]
    · exact hw.now
    · exact hdated.before

theorem Timed.begin (h : s.Timed apiId) {i : Nat} {c : Call} (hc : s.calls[i]? = some c)
    (hcalm : OneByOne apiId s (.begin i) s') : Timed apiId { s with txs := s.txs ++ [⟨i, c.target.id, s.store.now, none⟩] } := by
  have hfirst : c.target.id = apiId → ∀ t ∈ s.txs, t.apiId ≠ apiId := hcalm c hc
  refine ⟨fun t ht t' ht' htapi htapi' => ?_, fun t ht htapi i hi hapi => ?_, h.dated⟩
  · rcases List.mem_append.1 ht with ht | ht <;> rcases List.mem_append.1 ht' with ht' | ht'
    · exact h.alone t ht t' ht' htapi htapi'
    · rw [List.mem_singleton.1 ht'] at htapi'
      exact absurd htapi (hfirst htapi' t ht)
    · rw [List.mem_singleton.1 ht] at htapi
      exact absurd htapi' (hfirst htapi t' ht')
    · rw [List.mem_singleton.1 ht, List.mem_singleton.1 ht']
  · rcases List.mem_append.1 ht with ht | ht
    · exact h.since t ht htapi i hi hapi
    · rw [List.mem_singleton.1 ht]
      exact (h.dated i hi hapi).before

theorem Timed.find (h : s.Timed apiId) (i : Nat) :
    Timed apiId { s with txs := s.txs.map fun t => if t.call = i then t.read s.store else t } := by
  have hsame (t : ResultTx) : (if t.call = i then t.read s.store else t).apiId = t.apiId ∧
      (if t.call = i then t.read s.store else t).began = t.began := by
    split <;> exact ⟨rfl, rfl⟩
  refine ⟨fun t₁ ht₁ t₂ ht₂ hapi₁ hapi₂ => ?_, fun t' ht' htapi i hi hapi => ?_, h.dated⟩
  · obtain ⟨t, ht, rfl⟩ := List.mem_map.1 ht₁
    obtain ⟨t', ht', rfl⟩ := List.mem_map.1 ht₂
    rw [(hsame t).1] at hapi₁
    rw [(hsame t').1] at hapi₂
    rw [h.alone t ht t' ht' hapi₁ hapi₂]
  · obtain ⟨t, ht, rfl⟩ := List.mem_map.1 ht'
    rw [(hsame t).1] at htapi
    rw [(hsame t).2]
    exact h.since t ht htapi i hi hapi

/-- A transaction that is alone with its target writes after all that is there. -/
theorem Timed.commit (hs : s.Told) (h : s.Timed apiId) {tx : ResultTx} (htx : tx ∈ s.txs) {active : Option Incident}
    (hfound : tx.found = some active) (hw : Retells s.calls (.commit tx.began active tx.apiId) s.store s'.store)
    (htxs : s'.txs = s.txs.filter (·.call ≠ tx.call)) : s'.Timed apiId := by
  obtain ⟨f, new, es, hw⟩ := hw
  have hok := hs.txs tx htx
  have hless : s'.txs.Sublist s.txs := htxs ▸ List.filter_sublist
  -- The row that the transaction may change is that of the incident it has found.
  have hrow : ∀ i ∈ s.store.db.incidents, (Scope.commit tx.began active tx.apiId).rows i.id →
      i.apiId = tx.apiId ∧ ∀ r, i.resolvedAt = some r → tx.began ≤ r := by
    rintro i hi ⟨a, rfl, hid⟩
    obtain ⟨j, hj, hja, hapi, -, hafter⟩ := hok.found a hfound
    obtain rfl := hs.recounts.inj hj hi (hja.trans hid)
    exact ⟨hapi, hafter⟩
  refine ⟨fun t ht t' ht' => h.alone t (hless.subset ht) t' (hless.subset ht'), fun t ht htapi i' hi' hapi => ?_,
    fun i' hi' hapi => ?_⟩
  · have helse : tx.apiId ≠ apiId := by
      intro heq
      have hsame := h.alone t (hless.subset ht) tx htx htapi heq
      rw [htxs, hsame] at ht
      simp at ht
    rcases hw.mem hi' with ⟨i, hi, rfl⟩ | hnew
    · have hon := hw.goesOn hi
      rw [hon.apiId] at hapi
      rcases hw.old i hi with ⟨hnone, -⟩ | ⟨htouched, -⟩
      · exact Before.stays hw (h.since t (hless.subset ht) htapi i hi hapi) hon.startedAt hon.id hnone
      · exact absurd ((hrow i hi htouched).1.symm.trans hapi) helse
    · exact absurd ((hw.opened hnew).2.2.1.symm.trans hapi) helse
  · rcases hw.mem hi' with ⟨i, hi, rfl⟩ | hnew
    · have hon := hw.goesOn hi
      rw [hon.apiId] at hapi
      have hdated := h.dated i hi hapi
      rcases hw.old i hi with ⟨hnone, hstays⟩ | ⟨htouched, -⟩
      · exact hdated.step (hstays.goesOn s.store.now) (by rw [hon.id, hw.timeline, hnone]) hw.now hw.now hdated.before
          (.inl rfl)
      · obtain ⟨htxapi, hafter⟩ := hrow i hi htouched
        exact hdated.step hon (by rw [hon.id, hw.timeline]) hw.now (hok.began.trans hw.now)
          (h.since tx htx (htxapi.symm.trans hapi) i hi hapi) (.inr hafter)
    · obtain ⟨hge, -, -, hopens, -⟩ := hw.opened hnew
      exact hopens.dated (by rw [hw.timeline, hs.recounts.fresh hge, List.nil_append]) (hok.began.trans hw.now)

theorem Timed.step (hs : s.Told) (h : s.Timed apiId) {a : IncidentAct} (hstep : s.Trans a s')
    (hcalm : OneByOne apiId s a s') : s'.Timed apiId := by
  cases hstep with
  | quiet hw hkeeps htxs =>
    obtain ⟨f, new, es, hw⟩ := hw
    obtain rfl : new = [] := List.eq_nil_iff_forall_not_mem.2 fun i hi => (hw.opened hi).2.2.1
    exact h.still hw rfl (fun i hi => ((hw.old i hi).resolve_right fun hrow => hrow.1).1) htxs
  | begin hc hnew => exact h.begin hc hcalm
  | find htx hi hfree => exact h.find _
  | commit htx hi hfound hw hkeeps htxs => exact h.commit hs htx hfound hw (hi ▸ htxs)
  | resolve hw hcalls htxs => exact h.still hw rfl (fun _ _ => rfl) (htxs ▸ List.Sublist.refl _)

end ResultSys

/-! ### After the end -/

/-- Nobody resolves the incident by hand while a result transaction that has found it is open. -/
def Spares (id : Uuid) (s : ResultSys) (a : IncidentAct) (_ : ResultSys) : Prop :=
  match a with
  | .resolve id' _ => id' = id → ∀ t ∈ s.txs, ∀ a ∈ t.found.join, a.id ≠ id
  | _ => True

instance Spares.decidable (id : Uuid) (s : ResultSys) (a : IncidentAct) (s' : ResultSys) : Decidable (Spares id s a s') :=
  match a with
  | .resolve id' _ => inferInstanceAs (Decidable (id' = id → ∀ t ∈ s.txs, ∀ a ∈ t.found.join, a.id ≠ id))
  | .runner .. | .begin .. | .find .. | .finish .. | .abort .. | .acknowledge .. | .escalate .. => isTrue trivial

/-- The incident is active while a transaction that has found it is open. -/
def ResultSys.Spared (id : Uuid) (s : ResultSys) : Prop :=
  ∀ t ∈ s.txs, ∀ a, t.found = some (some a) → a.id = id → ∃ i ∈ s.store.db.incidents, i.id = id ∧ i.isActive

namespace ResultSys

variable {id : Uuid}

/-- A step that leaves the row of the incident. -/
theorem Spared.less {calls : List Call} {p : Scope} {f : Incident → Incident} {new : List Incident}
    {es : List IncidentEvent} (h : s.Spared id) (hw : Rewrites calls p s.store s'.store f new es)
    (htxs : s'.txs.Sublist s.txs)
    (hrow : ∀ t ∈ s'.txs, ∀ a, t.found = some (some a) → a.id = id → ¬ p.rows id) : s'.Spared id := by
  intro t ht a ha hid
  obtain ⟨i, hi, hii, hactive⟩ := h t (htxs.subset ht) a ha hid
  rcases hw.old i hi with ⟨-, hstays⟩ | ⟨htouched, -⟩
  · exact ⟨f i, hw.mem_old hi, hstays.id.trans hii, hstays.isActive.trans hactive⟩
  · rw [hii] at htouched
    exact absurd htouched (hrow t ht a ha hid)

theorem Spared.step (hs : s.Told) (h : s.Spared id) {a : IncidentAct} (hstep : s.Trans a s') (hcalm : Spares id s a s') :
    s'.Spared id := by
  cases hstep with
  | quiet hw hkeeps htxs =>
    obtain ⟨f, new, es, hw⟩ := hw
    exact h.less hw htxs fun _ _ _ _ _ hrow => hrow
  | begin hc hnew =>
    intro t ht a ha hid
    rcases List.mem_append.1 ht with ht | ht
    · exact h t ht a ha hid
    · rw [List.mem_singleton.1 ht] at ha
      cases ha
  | find htx hi hfree =>
    intro t' ht' a ha hid
    obtain ⟨t, ht, rfl⟩ := List.mem_map.1 ht'
    split at ha
    · obtain ⟨hmem, -, hactive⟩ := findActiveIncident_some (Option.some.inj ha)
      exact ⟨a, hmem, hid, hactive⟩
    · exact h t ht a ha hid
  | @commit i failAt tx active _ htx hi hfound hw hkeeps htxs =>
    obtain ⟨f, new, es, hw⟩ := hw
    refine h.less hw (htxs ▸ List.filter_sublist) fun t ht a ha hid => hid ▸ ?_
    rw [htxs] at ht
    obtain ⟨ht, hne⟩ := List.mem_filter.1 ht
    exact hs.elsewhere htx ht (fun heq => by simp [heq, hi] at hne) hfound ha
  | resolve hw hcalls htxs =>
    refine h.less hw (htxs ▸ List.Sublist.refl _) fun t ht a ha hid hrow => ?_
    rw [htxs] at ht
    exact hcalm hrow.symm t ht a (by rw [ha]; rfl) hid

/-- The incident is over, and nothing more has been written about it than `es`. -/
structure Closed (id : Uuid) (es : List IncidentEvent) (s : ResultSys) : Prop where
  ended : ∃ i ∈ s.store.db.incidents, i.id = id ∧ i.isActive = false
  written : s.store.timeline id = es

/-- A step that leaves the timeline of the incident. -/
theorem Closed.still {calls : List Call} {p : Scope} {f : Incident → Incident} {new : List Incident}
    {es fs : List IncidentEvent} (h : s.Closed id fs) (hw : Rewrites calls p s.store s'.store f new es)
    (hnone : ∀ i ∈ s.store.db.incidents, i.id = id → i.isActive = false → about i.id es = []) : s'.Closed id fs := by
  obtain ⟨i, hi, rfl, hover⟩ := h.ended
  have hon := hw.goesOn hi
  refine ⟨⟨f i, hw.mem_old hi, hon.id, (hon.inactive hover).1⟩, ?_⟩
  rw [hw.timeline, hnone i hi rfl hover, List.append_nil, h.written]

theorem Closed.step (hs : s.Told) (hspared : s.Spared id) {fs : List IncidentEvent} (h : s.Closed id fs) {a : IncidentAct}
    (hstep : s.Trans a s') : s'.Closed id fs := by
  cases hstep with
  | quiet hw hkeeps htxs =>
    obtain ⟨f, new, es, hw⟩ := hw
    exact h.still hw fun i hi _ _ => ((hw.old i hi).resolve_right fun hrow => hrow.1).1
  | begin hc hnew => exact ⟨h.ended, h.written⟩
  | find htx hi hfree => exact ⟨h.ended, h.written⟩
  | commit htx hi hfound hw hkeeps htxs =>
    obtain ⟨f, new, es, hw⟩ := hw
    refine h.still hw fun i hi hid hover => ((hw.old i hi).resolve_right ?_).1
    rintro ⟨⟨a, rfl, ha⟩, -⟩
    -- The transaction has found the incident, which is active then.
    obtain ⟨j, hj, hjd, hactive⟩ := hspared _ htx a hfound (ha.trans hid)
    rw [hs.recounts.inj hj hi (hjd.trans hid.symm), hover] at hactive
    cases hactive
  | resolve hw hcalls htxs => exact h.still hw fun _ _ _ _ => rfl

end ResultSys

/-! ### Runs -/

/-- What a run keeps and how it goes on. -/
theorem run_told (hs : s.Told) {acts : List IncidentAct} (hrun : run (ResultSys.step env) s acts = some s') :
    s'.Told ∧ Continues s.store s'.store := by
  refine inv_run (I := fun t => t.Told ∧ Continues s.store t.store) ⟨hs, .refl _⟩ (fun t a t' ht hstep => ?_) hrun
  have htrans := ht.1.trans hstep
  exact ⟨ht.1.step htrans, ht.2.trans htrans.continues⟩

theorem run_timed {apiId : Uuid} (hs : s.Told) (h : s.Timed apiId) {acts : List IncidentAct}
    (hcalm : Along (ResultSys.step env) (OneByOne apiId) s acts) (hrun : run (ResultSys.step env) s acts = some s') :
    s'.Timed apiId := by
  refine (hcalm.inv (I := fun t => t.Told ∧ t.Timed apiId) ⟨hs, h⟩ (fun t a t' ht hstep hcalm => ?_) hrun).2
  have htrans := ht.1.trans hstep
  exact ⟨ht.1.step htrans, ht.2.step ht.1 htrans hcalm⟩

theorem run_spared {id : Uuid} (hs : s.Told) (h : s.Spared id) {acts : List IncidentAct}
    (hcalm : Along (ResultSys.step env) (Spares id) s acts) (hrun : run (ResultSys.step env) s acts = some s') :
    s'.Spared id := by
  refine (hcalm.inv (I := fun t => t.Told ∧ t.Spared id) ⟨hs, h⟩ (fun t a t' ht hstep hcalm => ?_) hrun).2
  have htrans := ht.1.trans hstep
  exact ⟨ht.1.step htrans, ht.2.step ht.1 htrans hcalm⟩

theorem run_closed {id : Uuid} {es : List IncidentEvent} (hs : s.Told) (hspared : s.Spared id) (h : s.Closed id es)
    {acts : List IncidentAct} (hcalm : Along (ResultSys.step env) (Spares id) s acts)
    (hrun : run (ResultSys.step env) s acts = some s') : s'.Closed id es := by
  refine (hcalm.inv (I := fun t => t.Told ∧ t.Spared id ∧ t.Closed id es) ⟨hs, hspared, h⟩
    (fun t a t' ht hstep hcalm => ?_) hrun).2.2
  have htrans := ht.1.trans hstep
  exact ⟨ht.1.step htrans, ht.2.1.step ht.1 htrans hcalm, ht.2.2.step ht.1 ht.2.1 htrans⟩

/-- In every run from a database without incidents, and however it goes on: the timeline of an incident leads from
what a failing check of its target opens it with to what its row shows, and to nothing else; it holds at most one
promotion, which only an incident opened as a degradation has, and at most one turn to flapping. Later the timeline is
longer by what changed in the row, and what is resolved stays so. While the result transactions of the target do not
overlap, the entries are in order between the start of the incident and its end; while nobody resolves it by hand under
a transaction that has read it, nothing is added to it once it is resolved. -/
theorem timeline_tells {st : Store} (hincidents : st.db.incidents = []) (hevents : st.db.incidentEvents = [])
    {acts later : List IncidentAct} (hrun : run (ResultSys.step env) (ResultSys.init st) acts = some s)
    (hlater : run (ResultSys.step env) s later = some s') {i : Incident} (hi : i ∈ s.store.db.incidents) :
    (∃ c ∈ s.calls, c.target.id = i.apiId ∧ ∃ status f, HealthStatus.isFailing status ∧
      (∀ b, Story Turns (openingFace c.target status f) (s.store.timeline i.id) b ↔ b = i.face) ∧
      (openingFace c.target status f).promotions +
        (s.store.timeline i.id).countP (·.kind = .severityEscalated) ≤ i.face.promotions ∧
      (s.store.timeline i.id).countP (·.kind = .flappingDetected) = i.face.flappings) ∧
    (∃ i' ∈ s'.store.db.incidents, i'.id = i.id ∧ ∃ es, s'.store.timeline i.id = s.store.timeline i.id ++ es ∧
      Story Turns i.face es i'.face ∧ (i.isActive = false → i'.isActive = false ∧ i'.resolvedAt = i.resolvedAt)) ∧
    (Along (ResultSys.step env) (OneByOne i.apiId) (ResultSys.init st) acts →
      ((s.store.timeline i.id).map (·.occurredAt)).Pairwise (· ≤ ·) ∧
      ∀ e ∈ s.store.timeline i.id, i.startedAt ≤ e.occurredAt ∧ e.occurredAt ≤ i.lastsUntil s.store.now) ∧
    (Along (ResultSys.step env) (Spares i.id) (ResultSys.init st) (acts ++ later) → i.isActive = false →
      s'.store.timeline i.id = s.store.timeline i.id) := by
  have hinit := ResultSys.init_told hincidents hevents
  have htold := (run_told hinit hrun).1
  refine ⟨?_, (run_told htold hlater).2 i hi, fun hcalm => ?_, fun hcalm hover => ?_⟩
  · obtain ⟨c, hc, hapi, status, f, hfail, hstory⟩ := htold.recounts.opening i hi
    refine ⟨c, hc, hapi, status, f, hfail, fun b => ⟨fun h => h.unique Turns.unique hstory, fun h => h ▸ hstory⟩, ?_, ?_⟩
    · refine Story.climbs (fun a e b h => ?_) hstory
      simpa using h.promotions
    · have hnone : (openingFace c.target status f).flappings = 0 := by
        unfold Face.flappings openingFace
        cases status <;> rfl
      have hcount := Story.counts (p := fun e => e.kind = .flappingDetected)
        (fun a e b h => by simpa using h.flappings) hstory
      rwa [hnone, Nat.zero_add] at hcount
  · have hstart : (ResultSys.init st).Timed i.apiId := by
      refine ⟨?_, ?_, ?_⟩ <;> simp [ResultSys.init, Sys.init, hincidents]
    have hdated := (run_timed hinit hstart hcalm hrun).dated i hi rfl
    exact ⟨hdated.ordered, hdated.during⟩
  · have hstart : (ResultSys.init st).Spared i.id := by simp [ResultSys.Spared, ResultSys.init]
    have hspared := run_spared hinit hstart hcalm.left hrun
    exact (run_closed htold hspared ⟨⟨i, hi, rfl, hover⟩, rfl⟩ (hcalm.append hrun) hlater).written

/-! ### A run -/

/-- A check that the target answers too late. -/
def slowOutcome : HealthCheckOutcome := { downOutcome with status := .degraded, failureType := some .timeout }

def slowDatabase : RootCauseAnalysis :=
  ⟨.database, "Query timeout", "Database dependency failure (query timeout).", 66, some ⟨120, 900, 750⟩⟩

def otherApi : MonitoredApi := { makeMonitoredApi with id := 99 }

/-- A step of the job runner, with that analysis. -/
def runnerAct (a : Label) : IncidentAct := .runner (fun _ => .ok slowDatabase) a

/-- The call `i` of a check that ends with `outcome` comes to its result transaction. -/
def toResult (i : Nat) (outcome : HealthCheckOutcome) : List IncidentAct :=
  (Sys.undisturbed i 5 (.ok outcome)).map runnerAct

/-- A check degrades the target. The next one finds it down while the incident is acknowledged and escalated, and the
check of another target commits. Only then the two calls look for a root cause; at last the incident is resolved by
hand. -/
def promotedActs : List IncidentAct :=
  [runnerAct (.invoke criticalApi 60000 "w1")] ++ toResult 0 slowOutcome ++ [.begin 0, .find 0, .finish 0 none] ++
  [.elapse 60000, .invoke criticalApi 120000 "w1", .invoke otherApi 120000 "w2"].map runnerAct ++
  toResult 1 downOutcome ++ toResult 2 downOutcome ++
  [.begin 1, runnerAct (.elapse 20), .begin 2, .find 1, .acknowledge 2, .find 2, .finish 2 none, .escalate 2 1,
    .finish 1 none] ++
  (Sys.undisturbed 0 2 (.ok slowOutcome) ++ Sys.undisturbed 1 2 (.ok downOutcome)).map runnerAct ++
  [runnerAct (.elapse 1000), .resolve 2 "restarted"]

/-- The target is down again. -/
def reopenedActs : List IncidentAct :=
  [runnerAct (.invoke criticalApi 180000 "w1")] ++ toResult 3 downOutcome ++ [.begin 3, .find 3, .finish 3 none]

theorem timeline_tells_promoted : ∃ s s' : ResultSys, ∃ i ∈ s.store.db.incidents,
    run (ResultSys.step Env.default) (ResultSys.init Store.empty) promotedActs = some s ∧
    run (ResultSys.step Env.default) s reopenedActs = some s' ∧ s'.store.db.incidents.length = 3 ∧
    i.face = ⟨.outage, .critical, some .connectionError⟩ ∧ i.isActive = false ∧
    (s.store.timeline i.id).map (·.kind) = [.failureChanged, .severityEscalated] ∧
    (∀ e ∈ s.store.timeline i.id, i.startedAt ≤ e.occurredAt ∧ e.occurredAt ≤ i.lastsUntil s.store.now) ∧
    s'.store.timeline i.id = s.store.timeline i.id ∧
    ∃ i' ∈ s'.store.db.incidents, i'.id = i.id ∧ i'.isActive = false ∧ i'.resolvedAt = i.resolvedAt := by
  have hfacts : ∃ s, run (ResultSys.step Env.default) (ResultSys.init Store.empty) promotedActs = some s ∧
      (∃ i ∈ s.store.db.incidents, i.id = 2 ∧ i.apiId = criticalApi.id ∧
        i.face = ⟨.outage, .critical, some .connectionError⟩ ∧ i.isActive = false ∧
        (s.store.timeline i.id).map (·.kind) = [.failureChanged, .severityEscalated]) ∧
      ∃ s', run (ResultSys.step Env.default) s reopenedActs = some s' ∧ s'.store.db.incidents.length = 3 := by
    decide +kernel
  have hcalm : Along (ResultSys.step Env.default) (OneByOne criticalApi.id) (ResultSys.init Store.empty) promotedActs := by
    decide +kernel
  have hspares : Along (ResultSys.step Env.default) (Spares 2) (ResultSys.init Store.empty)
      (promotedActs ++ reopenedActs) := by
    decide +kernel
  obtain ⟨s, hrun, ⟨i, hi, hid, hapi, hface, hover, hkinds⟩, s', hlater, hlen⟩ := hfacts
  obtain ⟨-, ⟨i', hi', hid', -, -, -, hstays⟩, hordered, hclosed⟩ := timeline_tells rfl rfl hrun hlater hi
  rw [hapi] at hordered
  rw [hid] at hclosed
  refine ⟨s, s', i, hi, hrun, hlater, hlen, hface, hover, hkinds, (hordered hcalm).2, ?_, i', hi', hid', hstays hover⟩
  rw [hid]
  exact hclosed hspares hover

/-- Between `findActiveIncident` of the second check and its commit the incident is resolved: two entries come after. -/
example : ∃ s, run (ResultSys.step Env.default) (ResultSys.init Store.empty)
    ([runnerAct (.invoke criticalApi 60000 "w1")] ++ toResult 0 slowOutcome ++ [.begin 0, .find 0, .finish 0 none] ++
      [runnerAct (.invoke criticalApi 120000 "w2")] ++ toResult 1 downOutcome ++
      [.begin 1, .find 1, .resolve 2 "restarted", .finish 1 none]) = some s ∧
    s.store.db.incidents.map (fun i => (i.id, i.isActive, (s.store.timeline i.id).length)) = [(2, false, 2)] := by
  decide +kernel

end CronMonitor
