import CronMonitor.SchedulerSteps

/-!
# What `tick` adds to the missed count

Between two idle states `tick` should have added one for every slot that lies strictly between two slots it
fired in a row. The bump comes before the tests that may defer the firing, though, and a deferred entry keeps
its `lastFiredSlot`: the next tick finds the same slots again and adds them again. `Counts` says that this
does not happen to `id` in a step. Then `Books` is kept, with the slots of the suspended tick as what is counted
already and not fired yet.
-/

namespace CronMonitor

open Slots

/-- `missed_run_count` of a target, which is zero before its first row. -/
def Store.missedRunCount (st : Store) (id : Uuid) : Nat :=
  ((st.db.scheduleStates.find? (·.targetId = id)).map (·.missedRunCount)).getD 0

theorem find?_map_targetId {f : TargetScheduleState → TargetScheduleState}
    (hf : ∀ r, (f r).targetId = r.targetId) (rows : List TargetScheduleState) (id : Uuid) :
    (rows.map f).find? (·.targetId = id) = (rows.find? (·.targetId = id)).map f := by
  rw [List.find?_map]
  simp only [Function.comp_def, hf]

theorem missedRunCount_bump (st : Store) (id id' : Uuid) (n : Nat) :
    (Sql.bumpMissedRunCount id' n st).2.missedRunCount id =
      st.missedRunCount id + if id' = id then n else 0 := by
  unfold Sql.bumpMissedRunCount
  split_ifs with hany hid hid
  · subst hid
    simp only [Store.missedRunCount]
    rw [find?_map_targetId (by intro r; split_ifs <;> rfl)]
    cases hfind : st.db.scheduleStates.find? (fun r => decide (r.targetId = id')) with
    | none =>
      obtain ⟨r, hr, hrid⟩ := List.any_eq_true.1 hany
      exact absurd hrid (List.find?_eq_none.1 hfind r hr)
    | some r =>
      have hkey : r.targetId = id' := by simpa using List.find?_some hfind
      simp [hkey]
  · simp only [Store.missedRunCount]
    rw [find?_map_targetId (by intro r; split_ifs <;> rfl)]
    cases hfind : st.db.scheduleStates.find? (fun r => decide (r.targetId = id)) with
    | none => rfl
    | some r =>
      have hkey : r.targetId = id := by simpa using List.find?_some hfind
      have hne : r.targetId ≠ id' := fun h => hid (h.symm.trans hkey)
      simp [hne]
  · subst hid
    have hnone : st.db.scheduleStates.find? (fun r => decide (r.targetId = id')) = none :=
      List.find?_eq_none.2 fun r hr hrid => hany (List.any_eq_true.2 ⟨r, hr, hrid⟩)
    simp [Store.missedRunCount, List.find?_append, hnone]
  · simp only [Store.missedRunCount, List.find?_append]
    cases hfind : st.db.scheduleStates.find? (fun r => decide (r.targetId = id)) with
    | none => simp [hid]
    | some r => simp

namespace Scheduler

variable {P : CronParser} {S : Set Time} {cron : String} {s s' : Scheduler} {e : Entry} {id : Uuid}
  {a now due : Time} {base n extra : Nat}

/-- The slots passed to `run` for `id` after the first `n` calls. -/
def firedSince (s : Scheduler) (n : Nat) (id : Uuid) : List Time :=
  ((s.calls.drop n).filter (·.target.id = id)).map (·.slot)

/-- The clock of the tick that the step runs. -/
def tickNow (s : Scheduler) : Label → Option Time
  | .tick => some s.clock
  | .resume _ => s.suspended.map (·.now)
  | _ => none

/-- A tick that finds skipped slots of `id` finds no more than the limit of `slotsBetween`, and once it has
counted them it goes on to fire: its alert is recorded, the target does not run and there is room. -/
structure Counts (P : CronParser) (S : Set Time) (id : Uuid) (s : Scheduler) (l : Label) : Prop where
  found : ∀ now, s.tickNow l = some now → ∀ e ∈ s.entries, e.id = id → ∀ last due, e.lastFiredSlot = some last →
    safePreviousSlot P e.target now = some due → (between S last due).ncard ≤ CronParser.slotsLimit
  fires : ∀ p, s.suspended = some p → p.target.id = id → p.await = .recordAlert → ∀ failure, l = .resume failure →
    failure = none ∧ id ∉ s.inFlight ∧ s.inFlight.card < s.maxConcurrent

/-- The reloads of a run keep the target, with its expression. -/
def Keeps (id : Uuid) (cron : String) : Label → Prop
  | .reload targets => ∃ t ∈ targets.rows, t.id = id ∧ t.frequencyCron = cron
  | _ => True

/-! ### The books -/

/-- The slots that are counted and not passed by a firing yet. -/
def pending (s : Scheduler) (id : Uuid) : Nat :=
  match s.suspended with
  | some p => if p.target.id = id ∧ p.await = .recordAlert then p.skipped else 0
  | none => 0

/-- From the slot `a` on, the count went from `base` to the slots that were jumped over and `extra` ones. -/
structure Books (S : Set Time) (cron : String) (id : Uuid) (a : Time) (base n extra : Nat) (s : Scheduler) : Prop where
  ok : Ok s
  calls : n ≤ s.calls.length
  entry : ∃ e ∈ s.entries, e.id = id ∧ e.target.frequencyCron = cron ∧
    e.lastFiredSlot = some (final a (s.firedSince n id))
  count : s.store.missedRunCount id = base + gaps S a (s.firedSince n id) + extra
  sorted : (a :: s.firedSince n id).Pairwise (· < ·)

/-- What a tick that is suspended at an entry of `id` holds. -/
def Holds (S : Set Time) (id : Uuid) (s : Scheduler) : Prop :=
  ∀ p, s.suspended = some p → p.target.id = id → ∀ e ∈ s.entries, e.id = id → e.stamp = p.stamp ∧
    ∀ l, e.lastFiredSlot = some l → l < p.due ∧ p.skipped = (between S l p.due).ncard

theorem Books.entry_eq (h : Books S cron id a base n extra s) (he : e ∈ s.entries) (hid : e.id = id) :
    e.target.frequencyCron = cron ∧ e.lastFiredSlot = some (final a (s.firedSince n id)) := by
  obtain ⟨d, hd, hdid, hcron, hlast⟩ := h.entry
  obtain rfl := h.ok.id_inj he hd (hid.trans hdid.symm)
  exact ⟨hcron, hlast⟩

theorem firedSince_fire (hcalls : n ≤ s.calls.length) (stamp : Nat) (target : MonitoredApi) (slot : Time) :
    ((s.setLastFired stamp slot).fire target slot).firedSince n id =
      s.firedSince n id ++ if target.id = id then [slot] else [] := by
  show (((s.calls ++ [Firing.mk target slot]).drop n).filter (·.target.id = id)).map (·.slot) = _
  rw [List.drop_append_of_le_length hcalls, List.filter_append, List.map_append]
  split_ifs with hid
  · simp [firedSince, hid]
  · simp [firedSince, hid]

section Fire

variable {stamp : Nat} {target : MonitoredApi}

theorem Books.fire_other (h : Books S cron id a base n extra s) (hidle : s.suspended = none) (hne : target.id ≠ id)
    (hstamp : ∀ e ∈ s.entries, e.id = id → e.stamp ≠ stamp)
    (hfree : target.id ∉ s.inFlight) (hroom : s.inFlight.card < s.maxConcurrent) :
    Books S cron id a base n extra ((s.setLastFired stamp due).fire target due) := by
  have hfired : ((s.setLastFired stamp due).fire target due).firedSince n id = s.firedSince n id := by
    rw [firedSince_fire h.calls, if_neg hne, List.append_nil]
  obtain ⟨e, he, hid, hcron, hlast⟩ := h.entry
  refine ⟨h.ok.fire hidle hfree hroom, ?_, ⟨e, ?_, hid, hcron, by rw [hfired]; exact hlast⟩, ?_, ?_⟩
  · show n ≤ (s.calls ++ [_]).length
    rw [List.length_append]
    exact h.calls.trans (Nat.le_add_right _ _)
  · exact mem_setLastFired he (hstamp e he hid)
  · rw [hfired]
    exact h.count
  · rw [hfired]
    exact h.sorted

/-- Firing `id` moves on what was counted ahead. -/
theorem Books.fire_self (h : Books S cron id a base n extra s) (hidle : s.suspended = none) (htarget : target.id = id)
    (hlast : ∀ e ∈ s.entries, e.id = id → e.stamp = stamp ∧
      ∀ l, e.lastFiredSlot = some l → l < due ∧ extra = (between S l due).ncard)
    (hfree : target.id ∉ s.inFlight) (hroom : s.inFlight.card < s.maxConcurrent) :
    Books S cron id a base n 0 ((s.setLastFired stamp due).fire target due) := by
  have hfired : ((s.setLastFired stamp due).fire target due).firedSince n id = s.firedSince n id ++ [due] := by
    rw [firedSince_fire h.calls, if_pos htarget]
  obtain ⟨e, he, hid, hcron, hl⟩ := h.entry
  obtain ⟨hst, hprior⟩ := hlast e he hid
  obtain ⟨hlt, hextra⟩ := hprior _ hl
  refine ⟨h.ok.fire hidle hfree hroom, ?_, ⟨{ e with lastFiredSlot := some due }, ?_, hid, hcron, ?_⟩, ?_, ?_⟩
  · show n ≤ (s.calls ++ [_]).length
    rw [List.length_append]
    exact h.calls.trans (Nat.le_add_right _ _)
  · exact mem_setLastFired_iff.2 (Or.inr ⟨e, he, hst, rfl⟩)
  · rw [hfired, final_append_singleton]
  · rw [hfired, gaps_append_singleton, ← hextra, ← add_assoc, add_zero]
    exact h.count
  · rw [hfired, ← List.cons_append, List.pairwise_append]
    refine ⟨h.sorted, List.pairwise_singleton _ _, fun x hx y hy => ?_⟩
    rw [List.mem_singleton.1 hy]
    exact (le_final_of_mem h.sorted hx).trans_lt hlt

end Fire

/-! ### One step -/

/-- The loop finds every slot that was skipped. -/
theorem found_length {last : Time} {found : List Time} (hnext : Enumerates (P.next cron) S)
    (hcap : (between S last due).ncard ≤ CronParser.slotsLimit)
    (hfound : P.slotsBetween cron last (due - 1) CronParser.slotsLimit = some found) :
    found.length = (between S last due).ncard := by
  obtain ⟨l, hl, hlen⟩ := length_upTo hnext CronParser.slotsLimit last due hcap
  obtain rfl : l = found := Option.some.inj (hl.symm.trans hfound)
  exact hlen

/-- The tick at `now` finds no more slots of `id` than it can count. -/
def Countable (P : CronParser) (S : Set Time) (id : Uuid) (now : Time) (s : Scheduler) : Prop :=
  ∀ e ∈ s.entries, e.id = id → ∀ last due, e.lastFiredSlot = some last →
    safePreviousSlot P e.target now = some due → (between S last due).ncard ≤ CronParser.slotsLimit

/-- A later last slot leaves fewer. -/
theorem Countable.fire (h : Countable P S id now s) {stamp : Nat} {target : MonitoredApi}
    (hlast : ∀ e ∈ s.entries, e.stamp = stamp → ∃ l, e.lastFiredSlot = some l ∧ l < due) :
    Countable P S id now ((s.setLastFired stamp due).fire target due) := by
  intro e he hid last due' hl hdue'
  rcases mem_setLastFired_iff.1 he with ⟨he, -⟩ | ⟨d, hd, hst, rfl⟩
  · exact h e he hid last due' hl hdue'
  · obtain ⟨l₀, hl₀, hlt⟩ := hlast d hd hst
    obtain rfl : due = last := Option.some.inj hl
    refine (Set.ncard_le_ncard ?_ finite_between).trans (h d hd hid l₀ due' hl₀ hdue')
    exact fun x hx => ⟨hx.1, hlt.trans hx.2.1, hx.2.2⟩

/-- The state of the loop: nothing is counted ahead. -/
structure Scanning (P : CronParser) (S : Set Time) (cron : String) (id : Uuid) (a : Time) (base n : Nat) (now : Time)
    (s : Scheduler) : Prop where
  books : Books S cron id a base n 0 s
  idle : s.suspended = none
  countable : Countable P S id now s

theorem Scanning.fire_ready (hnext : Enumerates (P.next cron) S) (h : Scanning P S cron id a base n now s)
    (he : e ∈ s.entries) (hready : Ready P now e due) (hfree : e.target.id ∉ s.inFlight)
    (hroom : s.inFlight.card < s.maxConcurrent) :
    Scanning P S cron id a base n now ((s.setLastFired e.stamp due).fire e.target due) := by
  by_cases hid : e.target.id = id
  · obtain ⟨hcron, hl⟩ := h.books.entry_eq he hid
    obtain ⟨hlt, hfound⟩ := hready.prior _ hl
    have hnone := found_length hnext (h.countable e he hid _ due hl hready.slot) (hcron ▸ hfound)
    refine ⟨h.books.fire_self h.idle hid (fun d hd hdid => ?_) hfree hroom, h.idle, h.countable.fire fun d hd hst => ?_⟩
    · obtain rfl := h.books.ok.id_inj hd he (hdid.trans hid.symm)
      refine ⟨rfl, fun l hl' => ?_⟩
      obtain rfl : final a (s.firedSince n id) = l := Option.some.inj (hl.symm.trans hl')
      exact ⟨hlt, hnone⟩
    · exact ⟨_, by rw [h.books.ok.stamp_inj hd he hst]; exact hl, hlt⟩
  · have hstamp : ∀ d ∈ s.entries, d.id = id → d.stamp ≠ e.stamp := by
      intro d hd hdid hst
      rw [h.books.ok.stamp_inj hd he hst] at hdid
      exact hid hdid
    refine ⟨h.books.fire_other h.idle hid hstamp hfree hroom, h.idle, ?_⟩
    intro d hd hdid last due' hl hdue'
    rcases mem_setLastFired_iff.1 hd with ⟨hd, -⟩ | ⟨d', hd', hst, rfl⟩
    · exact h.countable d hd hdid last due' hl hdue'
    · exact absurd hst (hstamp d' hd' hdid)

theorem Scanning.suspend (hnext : Enumerates (P.next cron) S) (h : Scanning P S cron id a base n now s)
    (hnow : now ≤ s.clock) (he : e ∈ s.entries) {last : Time} {skipped : List Time}
    (hlate : Late P now e due last skipped) :
    Books S cron id a base n 0 { s with suspended := some (frame now e due skipped.length .bumpMissedRunCount) } ∧
      Holds S id { s with suspended := some (frame now e due skipped.length .bumpMissedRunCount) } := by
  refine ⟨⟨h.books.ok.suspend hnow he hlate _ _, h.books.calls, h.books.entry, h.books.count, h.books.sorted⟩, ?_⟩
  intro p hp hid d hd hdid
  obtain rfl := Option.some.inj hp
  have heid : e.id = id := hid
  obtain rfl := h.books.ok.id_inj hd he (hdid.trans heid.symm)
  obtain ⟨hcron, -⟩ := h.books.entry_eq hd hdid
  refine ⟨rfl, fun l hl => ?_⟩
  obtain rfl : last = l := Option.some.inj (hlate.prior.symm.trans hl)
  exact ⟨hlate.lt, found_length hnext (h.countable d hd hdid last due hl hlate.slot) (hcron ▸ hlate.found)⟩

def Accounted (S : Set Time) (cron : String) (id : Uuid) (a : Time) (base n : Nat) (s : Scheduler) : Prop :=
  Books S cron id a base n (s.pending id) s ∧ Holds S id s

theorem pending_idle (h : s.suspended = none) : s.pending id = 0 := by
  simp [pending, h]

theorem Scanning.accounted (h : Scanning P S cron id a base n now s) : Accounted S cron id a base n s := by
  refine ⟨by rw [pending_idle h.idle]; exact h.books, fun p hp => ?_⟩
  rw [h.idle] at hp
  exact nomatch hp

theorem Scanning.late_accounted (hnext : Enumerates (P.next cron) S) (h : Scanning P S cron id a base n now s)
    (hnow : now ≤ s.clock) (he : e ∈ s.entries) {last : Time} {skipped : List Time}
    (hlate : Late P now e due last skipped) : Accounted S cron id a base n
      { s with suspended := some (frame now e due skipped.length .bumpMissedRunCount) } := by
  obtain ⟨hbooks, hholds⟩ := h.suspend hnext hnow he hlate
  have hnone : pending { s with suspended := some (frame now e due skipped.length .bumpMissedRunCount) } id = 0 := by
    simp [pending, frame]
  exact ⟨by rw [hnone]; exact hbooks, hholds⟩

/-- The end of the suspended iteration fires what it has counted, and the loop goes on. -/
theorem Accounted.fire_suspended (h : Accounted S cron id a base n s) {p : Suspended} (hp : s.suspended = some p)
    (hawait : p.await = .recordAlert) {st : Store} (hst : st.db.scheduleStates = s.store.db.scheduleStates)
    (hcountable : Countable P S id p.now s) (hfree : p.target.id ∉ s.inFlight)
    (hroom : s.inFlight.card < s.maxConcurrent) :
    Scanning P S cron id a base n p.now
      (({ s with store := st, suspended := none }.setLastFired p.stamp p.due).fire p.target p.due) := by
  obtain ⟨-, -, hentry⟩ := h.1.ok.frame p hp
  have hcount : st.missedRunCount id = s.store.missedRunCount id := by rw [Store.missedRunCount, hst]; rfl
  have hbooks : Books S cron id a base n (s.pending id) { s with store := st, suspended := none } :=
    ⟨(h.1.ok.withStore st).idle, h.1.calls, h.1.entry, hcount.trans h.1.count, h.1.sorted⟩
  have hcountable' : Countable P S id p.now { s with store := st, suspended := none } := hcountable
  refine ⟨?_, rfl, hcountable'.fire fun d hd hst => (hentry d hd hst).2⟩
  by_cases hid : p.target.id = id
  · have hpend : s.pending id = p.skipped := by simp [pending, hp, hid, hawait]
    refine hbooks.fire_self rfl hid (fun d hd hdid => ?_) hfree hroom
    rw [hpend]
    exact h.2 p hp hid d hd hdid
  · have hpend : s.pending id = 0 := by simp [pending, hp, hid]
    rw [hpend] at hbooks
    exact hbooks.fire_other rfl hid (fun d hd hdid hst => hid ((hentry d hd hst).1.symm.trans hdid)) hfree hroom

theorem Accounted.reload (h : Accounted S cron id a base n s) {targets : ActiveTargets}
    (hkeep : Keeps id cron (.reload targets)) : Accounted S cron id a base n (s.reload P targets.rows) := by
  obtain ⟨t, ht, htid, htcron⟩ := hkeep
  obtain ⟨e, he, hid, -, hlast⟩ := h.1.entry
  have hok := h.1.ok.reload (P := P) targets.nodup
  have hmem := mem_reload_of_mem (P := P) targets.nodup he ht (hid.trans htid.symm)
  have hfrom : ∀ d ∈ (s.reload P targets.rows).entries, d.id = id → ∃ d' ∈ s.entries, d'.id = id ∧
      d'.stamp = d.stamp ∧ d'.lastFiredSlot = d.lastFiredSlot := by
    intro d hd hdid
    rcases mem_reload targets.nodup hd with ⟨d', hd', u, -, hu, rfl⟩ | ⟨u, -, hnew, rfl, -, -⟩
    · exact ⟨d', hd', hu.trans hdid, rfl, rfl⟩
    · exact absurd (List.mem_map.2 ⟨e, he, hid.trans hdid.symm⟩) hnew
  obtain ⟨entries, stamp, heq⟩ := reload_frame (P := P) (s := s) targets.rows
  rw [heq] at hmem hfrom hok ⊢
  refine ⟨⟨hok, h.1.calls, ⟨_, hmem, htid, htcron, hlast⟩, h.1.count, h.1.sorted⟩, fun p hp hpid d hd hdid => ?_⟩
  obtain ⟨d', hd', hdid', hst, hl⟩ := hfrom d hd hdid
  rw [← hst, ← hl]
  exact h.2 p hp hpid d' hd' hdid'

theorem Accounted.step (hnext : Enumerates (P.next cron) S) (h : Accounted S cron id a base n s) {l : Label}
    (hkeep : Keeps id cron l) (hC : Counts P S id s l) (hs : s.step P l = some s') :
    Accounted S cron id a base n s' := by
  cases l with
  | tick =>
    obtain rfl : s.tick P = s' := Option.some.inj hs
    unfold Scheduler.tick
    split_ifs with hsome
    · exact h
    · have hidle : s.suspended = none := by simpa using hsome
      have hbooks := h.1
      rw [pending_idle hidle] at hbooks
      exact scan_rule (I := fun t => Scanning P S cron id a base n s.clock t ∧ s.clock ≤ t.clock)
        (fun t ht => ht.1.accounted)
        (fun t e due ht he hr hf hm => ⟨ht.1.fire_ready hnext he hr hf hm, ht.2⟩)
        (fun t e due last skipped ht he hl => ht.1.late_accounted hnext ht.2 he hl)
        s.entries s ⟨⟨hbooks, hidle, hC.found s.clock rfl⟩, le_rfl⟩ (fun _ he => he) h.1.ok.sorted
  | resume failure =>
    obtain ⟨p, hp, hcases⟩ := resume_cases hs
    have hcountable : Countable P S id p.now s := hC.found p.now (by simp [tickNow, hp])
    -- a tick that is not about to fire `id` has counted nothing ahead
    have hpend : ¬ (p.target.id = id ∧ p.await = .recordAlert) → s.pending id = 0 := by
      intro hnot
      simp [pending, hp, hnot]
    obtain ⟨hawait, -, rfl⟩ | ⟨hawait, -, st, hst, rfl⟩ | ⟨hfail, rfl⟩ := hcases
    · have hzero := hpend fun hand => by simp [hawait] at hand
      have hcount := h.1.count
      rw [hzero] at hcount
      refine ⟨⟨h.1.ok.step hs, h.1.calls, h.1.entry, ?_, h.1.sorted⟩, fun q hq hid => ?_⟩
      · show (Sql.bumpMissedRunCount p.target.id p.skipped s.store).2.missedRunCount id = _
        rw [missedRunCount_bump, hcount]
        simp [pending, firedSince]
      · obtain rfl := Option.some.inj hq
        exact h.2 p hp hid
    · have hcount : st.missedRunCount id = s.store.missedRunCount id := by rw [Store.missedRunCount, hst]; rfl
      have hok : Ok { s with store := st, suspended := none } := (h.1.ok.withStore st).idle
      have hnow := (h.1.ok.frame p hp).1
      refine scan_after_rule (I := fun t => Scanning P S cron id a base n p.now t ∧ p.now ≤ t.clock)
        (fun t ht => ht.1.accounted)
        (fun t e due ht he hr hf hm => ⟨ht.1.fire_ready hnext he hr hf hm, ht.2⟩)
        (fun t e due last skipped ht he hl => ht.1.late_accounted hnext ht.2 he hl) hok (fun hnot => ?_)
        (fun hfree hroom => ⟨h.fire_suspended hp hawait hst hcountable hfree hroom, hnow⟩)
      have hother : p.target.id ≠ id := by
        intro hid
        obtain ⟨-, hfree, hroom⟩ := hC.fires p hp hid hawait failure rfl
        exact hnot ⟨by rw [hid]; exact hfree, hroom⟩
      have hbooks := h.1
      rw [hpend fun hand => hother hand.1] at hbooks
      exact ⟨⟨⟨hok, hbooks.calls, hbooks.entry, hcount.trans hbooks.count, hbooks.sorted⟩, rfl, hcountable⟩, hnow⟩
    · have hzero := hpend fun hand => hfail (hC.fires p hp hand.1 hand.2 failure rfl).1
      have hbooks := h.1
      rw [hzero] at hbooks
      exact ⟨⟨h.1.ok.idle, hbooks.calls, hbooks.entry, hbooks.count, hbooks.sorted⟩, fun _ hq => nomatch hq⟩
  | reload targets =>
    obtain rfl := Option.some.inj hs
    exact h.reload hkeep
  | settle i =>
    have hok := h.1.ok.settle hs
    obtain ⟨f, -, rfl⟩ := Option.map_eq_some_iff.1 hs
    exact ⟨⟨hok, h.1.calls, h.1.entry, h.1.count, h.1.sorted⟩, h.2⟩
  | elapse ms =>
    have hok := h.1.ok.step hs
    obtain rfl := Option.some.inj hs
    exact ⟨⟨hok, h.1.calls, h.1.entry, h.1.count, h.1.sorted⟩, h.2⟩

/-- From a slot `a` that is the last fired one on, the count grows by the slots that lie strictly between slots
fired in a row, which are all those up to the last one that were not fired themselves. -/
theorem missed_slots_counted {maxConcurrent : Nat} {clock : Time} {store : Store} {pre tr : List Label}
    (hpre : Runs.run (step P) (init maxConcurrent clock store) pre = some s) (hidle : s.suspended = none)
    (he : e ∈ s.entries) (ha : e.lastFiredSlot = some a)
    (hnext : Enumerates (P.next e.target.frequencyCron) S)
    (hkeep : ∀ l ∈ tr, Keeps e.id e.target.frequencyCron l)
    (hC : Runs.Along (step P) (fun s l _ => Counts P S e.id s l) s tr)
    (hr : Runs.run (step P) s tr = some s') (hidle' : s'.suspended = none) :
    s'.store.missedRunCount e.id =
        s.store.missedRunCount e.id + gaps S a (s'.firedSince s.calls.length e.id) ∧
      gaps S a (s'.firedSince s.calls.length e.id) =
        {x ∈ between S a (final a (s'.firedSince s.calls.length e.id)) |
          x ∉ s'.firedSince s.calls.length e.id}.ncard := by
  have hnone : s.firedSince s.calls.length e.id = [] := by simp [firedSince]
  have hstart : Accounted S e.target.frequencyCron e.id a (s.store.missedRunCount e.id) s.calls.length s := by
    refine ⟨⟨(Ok.run hpre).1, le_rfl, ⟨e, he, rfl, rfl, by rw [hnone]; exact ha⟩, ?_, ?_⟩, fun p hp => ?_⟩
    · rw [hnone, pending_idle hidle]
      rfl
    · rw [hnone]
      exact List.pairwise_singleton _ _
    · rw [hidle] at hp
      exact nomatch hp
  have hend := (hC.and (Runs.Along.of_labels hkeep)).inv hstart
    (fun t l t' ht hs hCl => ht.step hnext hCl.2 hCl.1 hs) hr
  refine ⟨?_, gaps_eq_ncard hend.1.sorted⟩
  have hcount := hend.1.count
  rwa [pending_idle hidle', add_zero] at hcount

/-! ### Minutes -/

theorem minute_slots_enumerate :
    Enumerates (CronParser.minutesAndHours.next makeMonitoredApi.frequencyCron) {x | (60000 : Int) ∣ x} :=
  (CronParser.minutesAndHours_parses (Or.inl rfl)).next

theorem ncard_between_minutes : (between {x | (60000 : Int) ∣ x} 180000 420000).ncard = 3 := by
  refine Set.ncard_eq_three.2 ⟨240000, 300000, 360000, by decide, by decide, by decide, ?_⟩
  ext x
  simp only [between, Set.mem_ofPred_eq, Set.mem_insert_iff, Set.mem_singleton_iff]
  omega

/-- Until the tick at 07:05 fires, the entry is the one that was anchored to 03:00. -/
structure AnchoredAtThree (t : Scheduler) (tick : Option Suspended) : Prop where
  entries : t.entries = [⟨0, makeMonitoredApi, some 180000⟩]
  inFlight : t.inFlight = ∅
  clock : t.clock = 425000
  maxConcurrent : t.maxConcurrent = 1
  suspended : t.suspended = tick

theorem AnchoredAtThree.of_run {s₀ t : Scheduler} {tr : List Label} (tick : Option Suspended)
    (hr : Runs.run (step CronParser.minutesAndHours) s₀ tr = some t)
    (h : (Runs.run (step CronParser.minutesAndHours) s₀ tr).map
      (fun s => (s.entries, s.inFlight, s.clock, s.maxConcurrent, s.suspended)) =
      some ([⟨0, makeMonitoredApi, some 180000⟩], ∅, 425000, 1, tick)) : AnchoredAtThree t tick := by
  rw [hr] at h
  simp only [Option.map_some, Option.some.injEq, Prod.mk.injEq] at h
  obtain ⟨he, hf, hc, hm, hs⟩ := h
  exact ⟨he, hf, hc, hm, hs⟩

theorem AnchoredAtThree.counts {t : Scheduler} {tick : Option Suspended} (h : AnchoredAtThree t tick) {l : Label}
    (htick : ∀ p, tick = some p → p.now = 425000) (hl : ∀ failure, l = .resume failure → failure = none) :
    Counts CronParser.minutesAndHours {x | (60000 : Int) ∣ x} 1 t l where
  found := by
    intro now hnow e he _ last due hlast hdue
    obtain rfl : now = 425000 := by
      cases l with
      | tick => exact (Option.some.inj hnow).symm.trans h.clock
      | resume failure =>
        obtain ⟨p, hp, rfl⟩ := Option.map_eq_some_iff.1 hnow
        exact htick p (h.suspended.symm.trans hp)
      | reload | settle | elapse => exact nomatch hnow
    rw [h.entries, List.mem_singleton] at he
    subst he
    obtain rfl : (180000 : Int) = last := Option.some.inj hlast
    obtain rfl : (420000 : Int) = due := Option.some.inj ((show safePreviousSlot CronParser.minutesAndHours
      makeMonitoredApi 425000 = some 420000 by decide +kernel).symm.trans hdue)
    rw [ncard_between_minutes]
    decide
  fires := by
    intro p _ _ _ failure hfail
    refine ⟨hl failure hfail, ?_, ?_⟩
    · rw [h.inFlight]
      exact Finset.notMem_empty 1
    · rw [h.inFlight, h.maxConcurrent]
      decide

/-- Loaded at 03:30 and not ticked before 07:05, a check every minute misses three slots. -/
theorem missed_slots_counted_threeSkipped :
    ∃ s s', Runs.run (step CronParser.minutesAndHours) (init 1 210000 Store.empty)
        [.reload .everyMinute, .elapse 215000] = some s ∧
      Runs.run (step CronParser.minutesAndHours) s [.tick, .resume none, .resume none] = some s' ∧
      s'.firedSince s.calls.length 1 = [420000] ∧
      s'.store.missedRunCount 1 =
        s.store.missedRunCount 1 + gaps {x | (60000 : Int) ∣ x} 180000 (s'.firedSince s.calls.length 1) := by
  obtain ⟨s, hpre, hcalls⟩ := Option.map_eq_some_iff.1 (show
    (Runs.run (step CronParser.minutesAndHours) (init 1 210000 Store.empty)
      [.reload .everyMinute, .elapse 215000]).map (fun s => s.calls.length) = some 0 by decide +kernel)
  obtain ⟨s', hrun, hs'⟩ := Option.map_eq_some_iff.1 (show
    (Runs.run (step CronParser.minutesAndHours) (init 1 210000 Store.empty)
      ([.reload .everyMinute, .elapse 215000] ++ [.tick, .resume none, .resume none])).map
      (fun s => (s.firedSince 0 1, s.suspended)) = some ([420000], none) by decide +kernel)
  obtain ⟨hfired, hidle'⟩ : s'.firedSince 0 1 = [420000] ∧ s'.suspended = none := by simpa using hs'
  obtain ⟨s₀, hpre', hr⟩ := Runs.run_append_iff.1 hrun
  obtain rfl : s = s₀ := Option.some.inj (hpre.symm.trans hpre')
  have h₀ := AnchoredAtThree.of_run none hpre (by decide +kernel)
  have hmem : (⟨0, makeMonitoredApi, some 180000⟩ : Entry) ∈ s.entries := by
    rw [h₀.entries]
    exact List.mem_singleton_self _
  refine ⟨s, s', hpre, hr, by rw [hcalls]; exact hfired,
    (missed_slots_counted hpre h₀.suspended hmem rfl minute_slots_enumerate ?_ ?_ hr hidle').1⟩
  · intro l hl
    simp only [List.mem_cons, List.not_mem_nil, or_false] at hl
    rcases hl with rfl | rfl | rfl <;> trivial
  · intro s₁ hs₁
    have hr₁ := Runs.run_snoc hpre hs₁
    have h₁ := AnchoredAtThree.of_run (some (frame 425000 ⟨0, makeMonitoredApi, some 180000⟩ 420000 3
      .bumpMissedRunCount)) hr₁ (by decide +kernel)
    refine ⟨h₀.counts (fun p hp => nomatch hp) (fun _ h => nomatch h), fun s₂ hs₂ => ?_⟩
    have h₂ := AnchoredAtThree.of_run (some (frame 425000 ⟨0, makeMonitoredApi, some 180000⟩ 420000 3
      .recordAlert)) (Runs.run_snoc hr₁ hs₂) (by decide +kernel)
    refine ⟨h₁.counts (fun p hp => by rw [← Option.some.inj hp]; rfl) (fun _ h => (Label.resume.inj h).symm),
      fun s₃ hs₃ => ?_⟩
    exact ⟨h₂.counts (fun p hp => by rw [← Option.some.inj hp]; rfl) (fun _ h => (Label.resume.inj h).symm), trivial⟩

/-- The check of 04:00 is still running when the slot 06:00 comes up: both ticks before it ends count 05:00, and
the tick that fires 06:00 counts it a third time. -/
theorem skipped_slot_recounted : ¬ ∀ (P : CronParser) (S : Set Time) (maxConcurrent : Nat) (clock : Time) (store : Store)
    (pre tr : List Label) (s s' : Scheduler) (e : Entry) (a : Time),
    Runs.run (step P) (init maxConcurrent clock store) pre = some s → s.suspended = none →
    e ∈ s.entries → e.lastFiredSlot = some a → Enumerates (P.next e.target.frequencyCron) S →
    (∀ l ∈ tr, Keeps e.id e.target.frequencyCron l) →
    Runs.run (step P) s tr = some s' → s'.suspended = none →
    s'.store.missedRunCount e.id =
      s.store.missedRunCount e.id + gaps S a (s'.firedSince s.calls.length e.id) := by
  intro h
  obtain ⟨s, hpre, hs⟩ := Option.map_eq_some_iff.1 (show
    (Runs.run (step CronParser.minutesAndHours) (init 1 210000 Store.empty)
      [.reload .everyMinute, .elapse 35000, .tick]).map
      (fun s => (s.entries, s.calls.length, s.store.missedRunCount 1, s.suspended)) =
      some ([⟨0, makeMonitoredApi, some 240000⟩], 1, 0, none) by decide +kernel)
  obtain ⟨s', hrun, hs'⟩ := Option.map_eq_some_iff.1 (show
    (Runs.run (step CronParser.minutesAndHours) (init 1 210000 Store.empty)
      ([.reload .everyMinute, .elapse 35000, .tick] ++
        [.elapse 120000, .tick, .resume none, .resume none, .elapse 1000, .tick, .resume none, .resume none,
          .settle 0, .elapse 1000, .tick, .resume none, .resume none])).map
      (fun s => (s.firedSince 1 1, s.store.missedRunCount 1, s.suspended)) = some ([360000], 3, none)
      by decide +kernel)
  obtain ⟨hentries, hcalls, hbase, hidle⟩ : s.entries = [⟨0, makeMonitoredApi, some 240000⟩] ∧ s.calls.length = 1 ∧
    s.store.missedRunCount 1 = 0 ∧ s.suspended = none := by simpa using hs
  obtain ⟨hfired, hcount, hidle'⟩ : s'.firedSince 1 1 = [360000] ∧ s'.store.missedRunCount 1 = 3 ∧
    s'.suspended = none := by simpa using hs'
  obtain ⟨s₀, hpre', hr⟩ := Runs.run_append_iff.1 hrun
  obtain rfl : s = s₀ := Option.some.inj (hpre.symm.trans hpre')
  have hclaim : s'.store.missedRunCount 1 =
      s.store.missedRunCount 1 + gaps {x | (60000 : Int) ∣ x} 240000 (s'.firedSince s.calls.length 1) :=
    h CronParser.minutesAndHours _ 1 210000 Store.empty _ _ s s' ⟨0, makeMonitoredApi, some 240000⟩ 240000 hpre hidle
      (by rw [hentries]; exact List.mem_singleton_self _) rfl minute_slots_enumerate
      (fun l hl => by
        simp only [List.mem_cons, List.not_mem_nil, or_false] at hl
        rcases hl with rfl | rfl | rfl | rfl | rfl | rfl | rfl | rfl | rfl | rfl | rfl | rfl | rfl <;> trivial)
      hr hidle'
  have hgap : (between {x | (60000 : Int) ∣ x} 240000 360000).ncard = 1 := by
    refine Set.ncard_eq_one.2 ⟨300000, ?_⟩
    ext x
    simp only [between, Set.mem_ofPred_eq, Set.mem_singleton_iff]
    omega
  rw [hcalls, hfired, hcount, hbase, gaps, gaps, hgap] at hclaim
  exact absurd hclaim (by decide)

end Scheduler

end CronMonitor
