import CronMonitor.LoadTest.Schedules

/-!
# A slot fires once

Every slot of a schedule should be fired by at most one run, and no failure should keep the other schedules from being
fired by the next tick at the latest. A tick that is rolled back after it has queued a run leaves the slot due, so that
the next one fires it again, and an expression without a next slot rolls back every tick that comes to it. Without
these the row locks of the open ticks carry the law (`Inv`): a slot that was fired is behind its schedule, or the tick
that fired it still holds the row.
-/

namespace CronMonitor.LoadTest
open Runs

namespace ScheduleSys

variable {P : CronParser} {w w' : ScheduleSys}

/-- What every state of a run should satisfy. -/
structure FiredOnce (w : ScheduleSys) : Prop where
  once : w.fired.Nodup
  advanced : ∀ p ∈ w.fired,
    (∃ t ∈ w.ticks, p ∈ t.queued) ∨ ∀ s ∈ w.schedules, s.id = p.1 → p.2 < s.nextRunAt
  attended : ∀ t ∈ w.committed, t.recorded.map (·.id) = t.rows.map (·.id)
  notPrevented : w.passedOver.Nodup

/-- The expressions of the rows taken have a next slot, and no tick is rolled back that has queued a run. -/
def Harmless (P : CronParser) (w : ScheduleSys) (l : Label) (_ : ScheduleSys) : Prop :=
  match l with
  | .tick now => ∀ s ∈ w.lockDue now, (P.next s.cron now).isSome
  | .record k false | .commit k false => ∀ t ∈ w.ticks[k]?, t.queued = []
  | _ => True

/-! ### An open tick -/

/-- The rows of a tick are as they were when it locked them; it has come as far as `visited`. -/
structure TickOk (P : CronParser) (schedules : List LoadSchedule) (t : Tick) (visited : List LoadSchedule) : Prop where
  rows : t.rows = visited ++ t.rest
  held : ∀ s ∈ t.rows, s ∈ schedules
  due : ∀ s ∈ t.rows, s.nextRunAt ≤ t.now
  parses : ∀ s ∈ t.rows, (P.next s.cron t.now).isSome
  fires : visited.map (·.id) = (t.recorded ++ t.current.toList).map (·.id)
  later : ∀ f ∈ t.recorded ++ t.current.toList, t.now < f.nextRunAt
  queued : ∀ p ∈ t.queued, ∃ s ∈ visited, s.slot = p

theorem TickOk.mem_rows {schedules visited : List LoadSchedule} {t : Tick} {s : LoadSchedule}
    (h : TickOk P schedules t visited) (hs : s ∈ visited) : s ∈ t.rows := by
  rw [h.rows]
  exact List.mem_append_left _ hs

structure Inv (P : CronParser) (w : ScheduleSys) : Prop where
  keyed : (w.schedules.map (·.id)).Nodup
  locks : w.locked.Nodup
  ticks : ∀ t ∈ w.ticks, ∃ visited, TickOk P w.schedules t visited
  good : w.FiredOnce
  clean : w.failed = false → w.passedOver = []

theorem mem_lockDue {now : Time} {s : LoadSchedule} (h : s ∈ w.lockDue now) :
    s ∈ w.schedules ∧ s.nextRunAt ≤ now ∧ s.id ∉ w.locked := by
  have hmem := (List.perm_insertionSort (fun s s' : LoadSchedule => s.nextRunAt ≤ s'.nextRunAt) _).mem_iff.1
    (List.mem_of_mem_take h)
  obtain ⟨hs, hcond⟩ := List.mem_filter.1 hmem
  simp only [Bool.and_eq_true, decide_eq_true_eq] at hcond
  exact ⟨hs, hcond.1.2, hcond.2⟩

theorem nodup_lockDue (hk : (w.schedules.map (·.id)).Nodup) (now : Time) : ((w.lockDue now).map (·.id)).Nodup := by
  refine List.Nodup.sublist ((List.take_sublist _ _).map _) ?_
  refine ((List.perm_insertionSort _ _).map LoadSchedule.id).nodup_iff.2 ?_
  exact hk.sublist (List.filter_sublist.map _)

/-- Two ticks that hold the same row are one. -/
theorem eq_of_locked (h : w.locked.Nodup) {t t' : Tick} (ht : t ∈ w.ticks) (ht' : t' ∈ w.ticks) {id : Uuid}
    (hid : id ∈ t.rows.map (·.id)) (hid' : id ∈ t'.rows.map (·.id)) : t = t' := by
  by_contra hne
  have hsymm : Std.Symm (Function.onFun List.Disjoint fun t : Tick => t.rows.map (·.id)) := ⟨fun _ _ h => h.symm⟩
  exact (List.nodup_flatMap.1 h).2.forall ht ht' hne hid hid'

theorem nodup_rows (h : w.locked.Nodup) {t : Tick} (ht : t ∈ w.ticks) : (t.rows.map (·.id)).Nodup :=
  (List.nodup_flatMap.1 h).1 t ht

theorem locked_setTick {k : Nat} {t t' : Tick} (ht : w.ticks[k]? = some t) (hrows : t'.rows = t.rows) :
    (w.setTick k t').locked = w.locked := by
  have hmap : ((w.ticks.set k t').map fun t => t.rows.map (·.id)) = w.ticks.map fun t => t.rows.map (·.id) := by
    refine List.ext_getElem? fun i => ?_
    rw [List.map_set, List.getElem?_set, List.getElem?_map]
    by_cases hki : k = i
    · subst hki
      obtain ⟨hk, rfl⟩ := List.getElem?_eq_some_iff.1 ht
      simp [hk, hrows]
    · simp [hki]
  rw [locked, locked, List.flatMap, List.flatMap, setTick, hmap]

/-- A slot queued by an open tick is still queued by one after the tick has gone on. -/
theorem queued_setTick {k : Nat} {t t' : Tick} (ht : w.ticks[k]? = some t) (hsub : t.queued ⊆ t'.queued) {p : Slot}
    (hp : ∃ t₀ ∈ w.ticks, p ∈ t₀.queued) : ∃ t₀ ∈ (w.setTick k t').ticks, p ∈ t₀.queued := by
  obtain ⟨t₀, ht₀, hp⟩ := hp
  obtain ⟨i, hi⟩ := List.mem_iff_getElem?.1 ht₀
  have hk : k < w.ticks.length := (List.getElem?_eq_some_iff.1 ht).1
  by_cases hik : k = i
  · subst hik
    cases ht.symm.trans hi
    exact ⟨t', List.mem_iff_getElem?.2 ⟨k, by simp [setTick, hk]⟩, hsub hp⟩
  · exact ⟨t₀, List.mem_iff_getElem?.2 ⟨i, by simp [setTick, List.getElem?_set_ne hik, hi]⟩, hp⟩

theorem perm_eraseIdx {k : Nat} {t : Tick} (ht : w.ticks[k]? = some t) : (t :: w.ticks.eraseIdx k).Perm w.ticks := by
  obtain ⟨hk, rfl⟩ := List.getElem?_eq_some_iff.1 ht
  exact List.getElem_cons_eraseIdx_perm hk

/-! ### Recording -/

theorem map_id_recordFire (schedules : List LoadSchedule) (f : Fire) :
    (recordFire schedules f).map (·.id) = schedules.map (·.id) := by
  rw [recordFire, List.map_map]
  refine List.map_congr_left fun s _ => ?_
  simp only [Function.comp_apply]
  split_ifs <;> rfl

theorem map_id_fires (fs : List Fire) (schedules : List LoadSchedule) :
    (fs.foldl recordFire schedules).map (·.id) = schedules.map (·.id) := by
  induction fs generalizing schedules with
  | nil => rfl
  | cons f fs ih => rw [List.foldl_cons, ih, map_id_recordFire]

/-- A row that nothing was recorded for is as it was, any other has a next slot that was recorded. -/
theorem mem_fires {fs : List Fire} {schedules : List LoadSchedule} {s' : LoadSchedule}
    (h : s' ∈ fs.foldl recordFire schedules) : ∃ s ∈ schedules, s'.id = s.id ∧
      ((s' = s ∧ ∀ f ∈ fs, f.id ≠ s.id) ∨ ∃ f ∈ fs, f.id = s.id ∧ s'.nextRunAt = f.nextRunAt) := by
  induction fs generalizing schedules with
  | nil => exact ⟨s', h, rfl, .inl ⟨rfl, by simp⟩⟩
  | cons f fs ih =>
    obtain ⟨s₁, hs₁, hid, hcase⟩ := ih h
    obtain ⟨s, hs, rfl⟩ := List.mem_map.1 hs₁
    by_cases hf : s.id = f.id
    · rw [if_pos hf] at hid hcase
      refine ⟨s, hs, hid, .inr ?_⟩
      rcases hcase with ⟨rfl, -⟩ | ⟨f', hf', hid', hnext⟩
      · exact ⟨f, List.mem_cons_self, hf.symm, rfl⟩
      · exact ⟨f', List.mem_cons_of_mem _ hf', hid', hnext⟩
    · rw [if_neg hf] at hid hcase
      refine ⟨s, hs, hid, ?_⟩
      rcases hcase with ⟨rfl, hother⟩ | ⟨f', hf', hid', hnext⟩
      · exact .inl ⟨rfl, List.forall_mem_cons.2 ⟨fun h => hf h.symm, hother⟩⟩
      · exact .inr ⟨f', List.mem_cons_of_mem _ hf', hid', hnext⟩

theorem mem_fires_of_other {fs : List Fire} {schedules : List LoadSchedule} {s : LoadSchedule} (hs : s ∈ schedules)
    (hother : ∀ f ∈ fs, f.id ≠ s.id) : s ∈ fs.foldl recordFire schedules := by
  induction fs generalizing schedules with
  | nil => exact hs
  | cons f fs ih =>
    obtain ⟨hf, hother⟩ := List.forall_mem_cons.1 hother
    refine ih (List.mem_map.2 ⟨s, hs, if_neg fun h => hf h.symm⟩) hother

/-! ### Steps -/

theorem Inv.begin (h : Inv P w) {now : Time} (hparse : ∀ s ∈ w.lockDue now, (P.next s.cron now).isSome) :
    Inv P (w.begin now) where
  keyed := h.keyed
  locks := by
    have hlocked : (w.begin now).locked = w.locked ++ (w.lockDue now).map (·.id) := by
      simp [locked, ScheduleSys.begin]
    rw [hlocked, List.nodup_append]
    refine ⟨h.locks, nodup_lockDue h.keyed now, ?_⟩
    rintro id hid _ hid' rfl
    obtain ⟨s, hs, rfl⟩ := List.mem_map.1 hid'
    exact (mem_lockDue hs).2.2 hid
  ticks t ht := by
    rcases List.mem_append.1 ht with ht | ht
    · exact h.ticks t ht
    · obtain rfl := List.mem_singleton.1 ht
      exact ⟨[], rfl, fun s hs => (mem_lockDue hs).1, fun s hs => (mem_lockDue hs).2.1, hparse, rfl, by simp, by simp⟩
  good := by
    refine ⟨h.good.once, fun p hp => ?_, h.good.attended, h.good.notPrevented⟩
    rcases h.good.advanced p hp with ⟨t, ht, hq⟩ | hadv
    · exact .inl ⟨t, List.mem_append_left _ ht, hq⟩
    · exact .inr hadv
  clean := h.clean

/-- A tick goes on with the rows it holds. -/
theorem Inv.setTick (h : Inv P w) {k : Nat} {t t' : Tick} {visited : List LoadSchedule} (ht : w.ticks[k]? = some t)
    (hrows : t'.rows = t.rows) (hok : TickOk P w.schedules t' visited) (hqueued : t'.queued = t.queued) :
    Inv P (w.setTick k t') where
  keyed := h.keyed
  locks := by rw [locked_setTick ht hrows]; exact h.locks
  ticks t₀ ht₀ := by
    rcases List.mem_or_eq_of_mem_set ht₀ with ht₀ | rfl
    · exact h.ticks t₀ ht₀
    · exact ⟨visited, hok⟩
  good := by
    refine ⟨h.good.once, fun p hp => ?_, h.good.attended, h.good.notPrevented⟩
    rcases h.good.advanced p hp with hq | hadv
    · exact .inl (queued_setTick ht (by rw [hqueued]; exact fun _ hp => hp) hq)
    · exact .inr hadv
  clean := h.clean

/-- The row a tick comes to has not been fired for this slot. -/
theorem not_fired (h : Inv P w) {k : Nat} {t : Tick} {visited rest : List LoadSchedule} {s : LoadSchedule}
    (ht : w.ticks[k]? = some t) (hok : TickOk P w.schedules t visited) (hrest : t.rest = s :: rest) :
    s.slot ∉ w.fired := by
  intro hfired
  have hmem : t ∈ w.ticks := List.mem_of_getElem? ht
  have hs : s ∈ t.rows := by rw [hok.rows, hrest]; simp
  rcases h.good.advanced _ hfired with ⟨t', ht', hq⟩ | hadv
  · obtain ⟨visited', hok'⟩ := h.ticks t' ht'
    obtain ⟨s', hs', hslot⟩ := hok'.queued _ hq
    have hid : s'.id = s.id := congrArg Prod.fst hslot
    have hsame := eq_of_locked h.locks hmem ht' (List.mem_map_of_mem hs)
      (hid ▸ List.mem_map_of_mem (hok'.mem_rows hs'))
    subst hsame
    -- the row would be one of those visited and one of the rest
    have hnodup := nodup_rows h.locks hmem
    rw [hok'.rows, hrest, List.map_append, List.nodup_append] at hnodup
    exact hnodup.2.2 _ (List.mem_map_of_mem hs') _ (List.mem_map_of_mem List.mem_cons_self) hid
  · exact lt_irrefl _ (hadv s (hok.held s hs) rfl)

/-- The next row of a tick, its run queued or not. -/
theorem Inv.attempt (hP : ∀ e t n, P.next e t = some n → t < n) (h : Inv P w) {k : Nat} {t : Tick}
    {rest : List LoadSchedule} {s : LoadSchedule} (ht : w.ticks[k]? = some t) (hcurrent : t.current = none)
    (hrest : t.rest = s :: rest) (a : Attempt) : Inv P (w.attempt P k t s rest a) := by
  obtain ⟨visited, hok⟩ := h.ticks t (List.mem_of_getElem? ht)
  have hs : s ∈ t.rows := by rw [hok.rows, hrest]; simp
  obtain ⟨next, hnext⟩ := Option.isSome_iff_exists.1 (hok.parses s hs)
  -- the tick with the row visited
  have hgo (f : Fire) (hid : f.id = s.id) (hf : f.nextRunAt = next) (queued : List Slot)
      (hqueued : ∀ p ∈ queued, p = s.slot ∨ p ∈ t.queued) :
      TickOk P w.schedules { t with rest := rest, current := some f, queued := queued } (visited ++ [s]) := by
    refine ⟨by simpa [hrest] using hok.rows, hok.held, hok.due, hok.parses, ?_, ?_, ?_⟩
    · have hfires := hok.fires
      simp only [hcurrent, Option.toList_none, List.append_nil] at hfires
      simp [hfires, hid]
    · intro f' hf'
      rcases List.mem_append.1 hf' with hf' | hf'
      · exact hok.later f' (List.mem_append_left _ hf')
      · obtain rfl := List.mem_singleton.1 hf'
        rw [hf]
        exact hP _ _ _ hnext
    · intro p hp
      rcases hqueued p hp with rfl | hp
      · exact ⟨s, by simp, rfl⟩
      · obtain ⟨s', hs', hslot⟩ := hok.queued p hp
        exact ⟨s', List.mem_append_left _ hs', hslot⟩
  unfold ScheduleSys.attempt
  rw [hnext]
  dsimp only
  split
  · exact h.setTick ht rfl (hgo _ rfl rfl _ fun p hp => .inr hp) rfl
  · rename_i d cls _
    have hnew := not_fired h ht hok hrest
    obtain ⟨t', ht'⟩ : ∃ t' : Tick, t' =
        { t with
          rest := rest
          current := some ⟨s.id, next, t.now, if d.1 = .queued then some w.store.nextUuid else none, d.1, d.2⟩
          queued := t.queued ++ [s.slot] } := ⟨_, rfl⟩
    have hok' : TickOk P w.schedules t' (visited ++ [s]) := by
      subst ht'
      refine hgo _ rfl rfl _ fun p hp => ?_
      rcases List.mem_append.1 hp with hp | hp
      · exact .inr hp
      · exact .inl (List.mem_singleton.1 hp)
    have hrows : t'.rows = t.rows := by rw [ht']
    have hqueued : t'.queued = t.queued ++ [s.slot] := by rw [ht']
    rw [← ht']
    refine ⟨h.keyed, (locked_setTick ht hrows) ▸ h.locks, ?_, ⟨?_, ?_, h.good.attended, h.good.notPrevented⟩, h.clean⟩
    · intro t₀ ht₀
      rcases List.mem_or_eq_of_mem_set ht₀ with ht₀ | rfl
      · exact h.ticks t₀ ht₀
      · exact ⟨visited ++ [s], hok'⟩
    · refine List.nodup_append.2 ⟨h.good.once, List.nodup_singleton _, fun p hp q hq heq => hnew ?_⟩
      obtain rfl := List.mem_singleton.1 hq
      exact heq ▸ hp
    · intro p hp
      rcases List.mem_append.1 hp with hp | hp
      · rcases h.good.advanced p hp with hq | hadv
        · exact .inl (queued_setTick ht (by rw [hqueued]; exact List.subset_append_left _ _) hq)
        · exact .inr hadv
      · obtain rfl := List.mem_singleton.1 hp
        have hk := (List.getElem?_eq_some_iff.1 ht).1
        refine .inl ⟨t', List.mem_iff_getElem?.2 ⟨k, by simp [ScheduleSys.setTick, hk]⟩, ?_⟩
        rw [hqueued]
        exact List.mem_append_right _ List.mem_cons_self

/-- A tick that has queued nothing is rolled back, the only one of its kind. -/
theorem Inv.rollBack (h : Inv P w) {k : Nat} {t : Tick} (ht : w.ticks[k]? = some t) (hnone : t.queued = [])
    (hfailed : w.failed = false) (culprit : Option Uuid) : Inv P { w.rollBack k t culprit with failed := true } where
  keyed := h.keyed
  locks := by
    have hsub : ((w.ticks.eraseIdx k).flatMap fun t => t.rows.map (·.id)).Sublist w.locked :=
      (List.eraseIdx_sublist _ _).flatMap _
    exact h.locks.sublist hsub
  ticks t₀ ht₀ := h.ticks t₀ (List.mem_of_mem_eraseIdx ht₀)
  good := by
    refine ⟨h.good.once, fun p hp => ?_, h.good.attended, ?_⟩
    · rcases h.good.advanced p hp with ⟨t₀, ht₀, hq⟩ | hadv
      · rcases List.mem_cons.1 ((perm_eraseIdx ht).mem_iff.2 ht₀) with rfl | ht₀
        · rw [hnone] at hq
          cases hq
        · exact .inl ⟨t₀, ht₀, hq⟩
      · exact .inr hadv
    · have hnodup := nodup_rows h.locks (List.mem_of_getElem? ht)
      simp only [ScheduleSys.rollBack, h.clean hfailed, List.nil_append]
      have hids : (((t.rows.filter fun s => some s.id ≠ culprit).map LoadSchedule.slot).map Prod.fst).Nodup := by
        rw [List.map_map]
        exact hnodup.sublist (List.filter_sublist.map _)
      exact List.Nodup.of_map _ hids
  clean h := by cases h

/-- What a tick recorded shows; its rows are behind the slots it fired. -/
theorem Inv.commit (h : Inv P w) {k : Nat} {t : Tick} (ht : w.ticks[k]? = some t) (hcurrent : t.current = none)
    (hrest : t.rest = []) :
    Inv P { w with
      schedules := t.recorded.foldl recordFire w.schedules
      ticks := w.ticks.eraseIdx k
      committed := w.committed ++ [t] } := by
  have hmem : t ∈ w.ticks := List.mem_of_getElem? ht
  obtain ⟨visited, hok⟩ := h.ticks t hmem
  have hvisited : visited = t.rows := by rw [hok.rows, hrest, List.append_nil]
  have hfires : t.rows.map (·.id) = t.recorded.map (·.id) := by
    have hfires := hok.fires
    rwa [hvisited, hcurrent, Option.toList_none, List.append_nil] at hfires
  have hlater : ∀ f ∈ t.recorded, t.now < f.nextRunAt := fun f hf => hok.later f (List.mem_append_left _ hf)
  have hlocks : ((t :: w.ticks.eraseIdx k).flatMap fun t => t.rows.map (·.id)).Nodup :=
    ((perm_eraseIdx ht).flatMap_right _).nodup_iff.2 h.locks
  rw [List.flatMap_cons, List.nodup_append] at hlocks
  refine ⟨by rw [map_id_fires]; exact h.keyed, hlocks.2.1, fun t₀ ht₀ => ?_, ⟨h.good.once, fun p hp => ?_, ?_,
    h.good.notPrevented⟩, h.clean⟩
  · -- the rows of the others are not written to
    obtain ⟨visited₀, hok₀⟩ := h.ticks t₀ (List.mem_of_mem_eraseIdx ht₀)
    refine ⟨visited₀, { hok₀ with held := fun s hs => mem_fires_of_other (hok₀.held s hs) fun f hf hid => ?_ }⟩
    have hf' : f.id ∈ t.rows.map (·.id) := by rw [hfires]; exact List.mem_map_of_mem hf
    exact hlocks.2.2 _ hf' _ (List.mem_flatMap.2 ⟨t₀, ht₀, List.mem_map_of_mem hs⟩) hid
  · rcases h.good.advanced p hp with ⟨t₀, ht₀, hq⟩ | hadv
    · rcases List.mem_cons.1 ((perm_eraseIdx ht).mem_iff.2 ht₀) with rfl | ht₀
      · obtain ⟨s, hs, rfl⟩ := hok.queued p hq
        have hs := hok.mem_rows hs
        refine .inr fun s' hs' hid => ?_
        obtain ⟨s₀, hs₀, hid₀, ⟨rfl, hother⟩ | ⟨f, hf, -, hnext⟩⟩ := mem_fires hs'
        · have hmem' : s.id ∈ t₀.recorded.map (·.id) := by rw [← hfires]; exact List.mem_map_of_mem hs
          obtain ⟨f, hf, hfid⟩ := List.mem_map.1 hmem'
          exact absurd (hfid.trans hid.symm) (hother f hf)
        · rw [hnext]
          exact (hok.due s hs).trans_lt (hlater f hf)
      · exact .inl ⟨t₀, ht₀, hq⟩
    · refine .inr fun s' hs' hid => ?_
      obtain ⟨s₀, hs₀, hid₀, ⟨rfl, -⟩ | ⟨f, hf, hfid, hnext⟩⟩ := mem_fires hs'
      · exact hadv _ hs₀ hid
      · have hmem' : f.id ∈ t.rows.map (·.id) := by rw [hfires]; exact List.mem_map_of_mem hf
        obtain ⟨s, hs, hsid⟩ := List.mem_map.1 hmem'
        have hsame : s = s₀ := List.inj_on_of_nodup_map h.keyed (hok.held s hs) hs₀ (hsid.trans hfid)
        have hbefore := hadv s₀ hs₀ (hid₀ ▸ hid)
        rw [hnext]
        exact hbefore.trans ((hsame ▸ hok.due s hs).trans_lt (hlater f hf))
  · intro t₀ ht₀
    rcases List.mem_append.1 ht₀ with ht₀ | ht₀
    · exact h.good.attended t₀ ht₀
    · obtain rfl := List.mem_singleton.1 ht₀
      exact hfires.symm

/-- What a harmless step preserves. -/
theorem Inv.step (hP : ∀ e t n, P.next e t = some n → t < n) {l : Label} (h : Inv P w) (hs : step P w l = some w')
    (hC : Harmless P w l w') : Inv P w' := by
  cases l with
  | tick now =>
    cases hs
    exact h.begin hC
  | attempt k a =>
    simp only [ScheduleSys.step] at hs
    split at hs
    · cases hs
    · rename_i t ht
      split at hs
      · rename_i s rest hcurrent hrest
        cases hs
        exact h.attempt hP ht hcurrent hrest a
      · cases hs
  | record k ok =>
    simp only [ScheduleSys.step] at hs
    split at hs
    · cases hs
    · rename_i t ht
      split at hs
      · cases hs
      · rename_i f hf
        obtain ⟨visited, hok⟩ := h.ticks t (List.mem_of_getElem? ht)
        cases ok with
        | true =>
          cases hs
          refine @Inv.setTick _ _ h _ _ _ visited ht rfl ?_ rfl
          have hfires := hok.fires
          have hlater := hok.later
          rw [hf, Option.toList_some] at hfires hlater
          exact ⟨hok.rows, hok.held, hok.due, hok.parses, by simpa using hfires, by simpa using hlater, hok.queued⟩
        | false =>
          simp only [Bool.false_eq_true, if_false] at hs
          split_ifs at hs with hfailed
          cases hs
          exact h.rollBack ht (hC t ht) (by simpa using hfailed) _
  | commit k ok =>
    simp only [ScheduleSys.step] at hs
    split at hs
    · cases hs
    · rename_i t ht
      split at hs
      · rename_i hcurrent hrest
        cases ok with
        | true =>
          cases hs
          exact h.commit ht hcurrent hrest
        | false =>
          simp only [Bool.false_eq_true, if_false] at hs
          split_ifs at hs with hfailed
          cases hs
          exact h.rollBack ht (hC t ht) (by simpa using hfailed) _
      · cases hs
  | statement l =>
    obtain ⟨store, -, rfl⟩ := Option.map_eq_some_iff.1 hs
    exact ⟨h.keyed, h.locks, h.ticks, ⟨h.good.once, h.good.advanced, h.good.attended, h.good.notPrevented⟩, h.clean⟩

theorem Inv.init {store : RunStore} {schedules : List LoadSchedule} (hk : (schedules.map (·.id)).Nodup) :
    Inv P (init store schedules) where
  keyed := hk
  locks := List.nodup_nil
  ticks := by simp [ScheduleSys.init]
  good := ⟨List.nodup_nil, by simp [ScheduleSys.init], by simp [ScheduleSys.init], List.nodup_nil⟩
  clean _ := rfl

/-- Along every run in which no tick is rolled back after it has queued a run, every slot fires once and no schedule
waits for another. -/
theorem slots_fire_once (hP : ∀ e t n, P.next e t = some n → t < n) {store : RunStore} {schedules : List LoadSchedule}
    (hk : (schedules.map (·.id)).Nodup) {tr : List Label} (hr : run (step P) (init store schedules) tr = some w)
    (hC : Along (step P) (Harmless P) (init store schedules) tr) : w.FiredOnce :=
  (hC.inv (I := Inv P) (Inv.init hk) (fun _ _ _ h hs hc => Inv.step hP h hs hc) hr).good

/-! ### A slot fired twice -/

instance (P : CronParser) (w : ScheduleSys) (l : Label) (w' : ScheduleSys) : Decidable (Harmless P w l w') := by
  unfold Harmless
  split <;> infer_instance

def hourly (id apiId : Uuid) : LoadSchedule := ⟨id, apiId, .correctness, "0 * * * *", true, 3600000, none, none, none, none⟩

/-- The tick queues both runs, and the statement that records the second fails. -/
def halfRecorded : List Label :=
  [.tick 3600000, .attempt 0 (.queued (some .sandbox)), .record 0 true, .attempt 0 (.queued (some .sandbox)),
    .record 0 false]

/-- The next tick finds both slots due and queues two more runs. -/
theorem slot_fired_twice : ∃ w, run (step .minutesAndHours) (init .init [hourly 1 10, hourly 2 20])
    (halfRecorded ++ [.tick 3600100, .attempt 0 (.queued (some .sandbox))]) = some w ∧
      w.fired = [(1, 3600000), (2, 3600000), (1, 3600000)] ∧ w.store.suites.rows.length = 3 ∧ ¬ w.FiredOnce := by
  obtain ⟨w, hr, hw⟩ := Option.map_eq_some_iff.1 (show (run (step .minutesAndHours)
    (init .init [hourly 1 10, hourly 2 20]) (halfRecorded ++ [.tick 3600100, .attempt 0 (.queued (some .sandbox))])).map
      (fun w => (w.fired, w.store.suites.rows.length)) =
        some ([(1, 3600000), (2, 3600000), (1, 3600000)], 3) by decide +kernel)
  obtain ⟨hfired, hlength⟩ := Prod.mk.inj hw
  refine ⟨w, hr, hfired, hlength, fun h => ?_⟩
  have hnodup := h.once
  rw [hfired] at hnodup
  exact absurd hnodup (by decide)

theorem minutesAndHours_later (e : String) (t n : Time) (h : CronParser.minutesAndHours.next e t = some n) : t < n := by
  have hp {p : Nat} (hpos : 0 < p) : t < (t / p + 1) * p := Int.lt_ediv_add_one_mul_self t (by exact_mod_cast hpos)
  simp only [CronParser.minutesAndHours, CronParser.periodic, Option.map_eq_some_iff] at h
  obtain ⟨p, hperiod, rfl⟩ := h
  split_ifs at hperiod <;> cases hperiod <;> exact hp (by decide)

/-- Two workers tick beside each other. The first tick is rolled back before it has queued a run; a later one fires both
slots, though the audit entry of one run fails. -/
def committedTick : List Label :=
  [.tick 3600000, .tick 3600050, .commit 1 true, .attempt 0 (.lookupFails "timeout"), .record 0 false, .tick 3600100,
    .attempt 0 (.queued (some .sandbox)), .tick 3600150, .record 0 true, .commit 1 true,
    .attempt 0 (.auditFails (some .sandbox) "timeout"), .record 0 true, .commit 0 true, .tick 3600200]

theorem committedTick_fires_once : ∃ w,
    run (step .minutesAndHours) (init .init [hourly 1 10, hourly 2 20]) committedTick = some w ∧
      w.fired = [(1, 3600000), (2, 3600000)] ∧ w.FiredOnce := by
  obtain ⟨w, hr, hw⟩ := Option.map_eq_some_iff.1 (show (run (step .minutesAndHours)
    (init .init [hourly 1 10, hourly 2 20]) committedTick).map (·.fired) = some [(1, 3600000), (2, 3600000)] by
      decide +kernel)
  exact ⟨w, hr, hw, slots_fire_once minutesAndHours_later (by decide) hr (by decide +kernel)⟩

end ScheduleSys

end CronMonitor.LoadTest
