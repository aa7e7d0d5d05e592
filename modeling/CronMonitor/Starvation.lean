import CronMonitor.MissedRuns
import CronMonitor.MissedSlots

/-!
# One faulty target among others

Both loops of the scheduler await statements about one target after another and guard none of them, so a
statement that throws ends the loop for the targets after it too. `tickAlone` is a tick whose statements
return with nothing in between.
-/

namespace CronMonitor

open Eff

variable {P : CronParser} {φ : Fault} {now : Time}

theorem Fault.failureOf_of_ne {id : Uuid} (h : id ≠ φ.target) (a : TickAwait) : φ.failureOf id a = none :=
  if_neg h

/-! ### The detector -/

section Detector

variable {d d' : Detection} {target : RegisteredApi} {targets : List RegisteredApi} {missed : List MissedRun}

theorem find?_bump_of_ne (st : Store) {id id' : Uuid} (hne : id' ≠ id) (n : Nat) :
    (Sql.bumpMissedRunCount id n st).2.db.scheduleStates.find? (·.targetId = id') =
      st.db.scheduleStates.find? (·.targetId = id') := by
  unfold Sql.bumpMissedRunCount
  split_ifs with hany
  · simp only
    rw [find?_map_targetId (by intro r; split_ifs <;> rfl)]
    cases hfind : st.db.scheduleStates.find? (fun r => decide (r.targetId = id')) with
    | none => rfl
    | some r =>
      have hkey : r.targetId = id' := by simpa using List.find?_some hfind
      simp [hkey, hne]
  · simp only [List.find?_append]
    have hid : id ≠ id' := fun h => hne h.symm
    simp [hid]

/-- A write that succeeds touches what is stored about its own target alone. -/
theorem exec_writeMissedRun_ok (t : MonitoredApi) (interval : Int) (record : MissedRun)
    (ht : ∀ a, φ.failureOf t.id a = none) :
    ∃ d', exec (writeMissedRun φ t interval record) d = (.ok (), d') ∧
      ∀ id, id ≠ t.id → getScheduleState id d' = getScheduleState id d := by
  simp only [writeMissedRun, ht]
  refine ⟨_, rfl, fun id hid => ?_⟩
  show Option.map (fun r => (r, Function.update d.updatedAt t.id _ id))
    ((Sql.bumpMissedRunCount t.id 1 d.store).2.db.scheduleStates.find? (·.targetId = id)) = _
  rw [find?_bump_of_ne _ hid, Function.update_of_ne hid]
  rfl

theorem exec_writeMissedRun_error (t : MonitoredApi) (interval : Int) (record : MissedRun)
    (ht : φ.fails t.id = true) :
    ∃ e d', exec (writeMissedRun φ t interval record) d = (.error e, d') := by
  unfold writeMissedRun
  cases hbump : φ.failureOf t.id .bumpMissedRunCount with
  | some message => exact ⟨_, _, exec_bind_error rfl⟩
  | none =>
    cases halert : φ.failureOf t.id .recordAlert with
    | some message => exact ⟨_, _, (exec_bind_ok rfl).trans ((exec_bind_ok rfl).trans rfl)⟩
    | none => simp [Fault.fails, hbump, halert] at ht

theorem exec_get_bind {α : Type} (f : Detection → Eff DetectError Detection α) :
    exec ((get : Eff DetectError Detection Detection) >>= f) d = exec (f d) d := rfl

theorem exec_detectFrom_cons : exec (detectFrom P φ now missed (target :: targets)) d =
    match lookAt P now d target with
    | none => (.error .cron, d)
    | some (_, none) => exec (detectFrom P φ now missed targets) d
    | some (interval, some record) =>
      exec (writeMissedRun φ target.toMonitoredApi interval record >>= fun _ =>
        detectFrom P φ now (missed ++ [record]) targets) d := by
  rw [detectFrom, exec_get_bind]
  rcases lookAt P now d target with _ | ⟨interval, _ | record⟩ <;> rfl

theorem lookAt_congr (h : getScheduleState target.id d' = getScheduleState target.id d) :
    lookAt P now d' target = lookAt P now d target := by
  simp only [lookAt, h]

theorem lookAt_isSome (h : P.Sound target.frequencyCron) : (lookAt P now d target).isSome := by
  obtain ⟨interval, hi⟩ := Option.isSome_iff_exists.1 (h.intervalSeconds now)
  obtain ⟨expected, he⟩ := Option.isSome_iff_exists.1 (h now).2
  simp [lookAt, hi, CronParser.previousSlot, he]

theorem lookAt_broken (h : P.Broken target.frequencyCron) : lookAt P now d target = none := by
  simp [lookAt, CronParser.intervalSeconds, (h now).1]

theorem missedRun_targetId {interval : Int} {expected : Time} {state : Option (TargetScheduleState × Time)}
    {record : MissedRun} (h : missedRun now target interval expected state = some record) :
    record.targetId = target.id := by
  simp only [missedRun] at h
  split_ifs at h
  obtain rfl := Option.some.inj h
  rfl

theorem lookAt_targetId {interval : Int} {record : MissedRun}
    (h : lookAt P now d target = some (interval, some record)) : record.targetId = target.id := by
  simp only [lookAt, Option.bind_eq_bind, Option.bind_eq_some_iff, Option.pure_def, Option.some.injEq,
    Prod.mk.injEq] at h
  obtain ⟨_, -, _, -, -, hrecord⟩ := h
  exact missedRun_targetId hrecord

/-- A detector that returns had nothing to write about the faulty target. -/
theorem spared_of_returns (hφ : φ.Only P (targets.map (·.toMonitoredApi))) (hnodup : (targets.map (·.id)).Nodup)
    (h : exec (detectFrom P φ now missed targets) d = (.ok missed', d')) : DetectSpared P φ now d targets := by
  induction targets generalizing missed d with
  | nil => exact fun t ht => nomatch ht
  | cons u us ih =>
    obtain ⟨hnew, hnodup⟩ := List.nodup_cons.1 hnodup
    have hφ' : φ.Only P (us.map (·.toMonitoredApi)) :=
      ⟨fun t ht => hφ.others t (List.mem_cons_of_mem _ ht), fun t ht => hφ.own t (List.mem_cons_of_mem _ ht)⟩
    have hne : ∀ t ∈ us, t.id ≠ u.id := fun t ht hid => hnew (List.mem_map.2 ⟨t, ht, hid⟩)
    rw [exec_detectFrom_cons] at h
    rcases hlook : lookAt P now d u with _ | ⟨interval, _ | record⟩
    · simp [hlook] at h
    · simp only [hlook] at h
      intro t ht hid
      rcases List.mem_cons.1 ht with rfl | ht
      · exact ⟨interval, hlook⟩
      · exact ih hφ' hnodup h t ht hid
    · simp only [hlook] at h
      have hother : u.id ≠ φ.target := by
        intro hu
        rcases hφ.own u.toMonitoredApi List.mem_cons_self hu with hbroken | ⟨-, hfails⟩
        · simp [lookAt_broken hbroken] at hlook
        · obtain ⟨e, d₁, hwrite⟩ := exec_writeMissedRun_error (d := d) u.toMonitoredApi interval record hfails
          rw [exec_bind_error hwrite] at h
          cases h
      obtain ⟨d₁, hwrite, hframe⟩ := exec_writeMissedRun_ok (d := d) u.toMonitoredApi interval record
        (Fault.failureOf_of_ne hother)
      rw [exec_bind_ok hwrite] at h
      intro t ht hid
      rcases List.mem_cons.1 ht with rfl | ht
      · exact absurd hid hother
      · obtain ⟨i, hi⟩ := ih hφ' hnodup h t ht hid
        exact ⟨i, by rwa [lookAt_congr (hframe t.id (hne t ht))] at hi⟩

/-- With nothing to write about the faulty target, the two runs of the detector go through the same states. -/
theorem detectFrom_spared (hφ : φ.Only P (targets.map (·.toMonitoredApi))) (hnodup : (targets.map (·.id)).Nodup)
    (h : DetectSpared P φ now d targets) (missed missed' : List MissedRun) :
    ∃ found d', exec (detectFrom P φ now missed targets) d = (.ok (missed ++ found), d') ∧
      exec (detectFrom P φ now missed' (targets.filter (·.id ≠ φ.target))) d = (.ok (missed' ++ found), d') ∧
      ∀ r ∈ found, r.targetId ≠ φ.target := by
  induction targets generalizing missed missed' d with
  | nil => exact ⟨[], d, by simp [detectFrom], by simp [detectFrom], fun r hr => nomatch hr⟩
  | cons u us ih =>
    obtain ⟨hnew, hnodup⟩ := List.nodup_cons.1 hnodup
    have hφ' : φ.Only P (us.map (·.toMonitoredApi)) :=
      ⟨fun t ht => hφ.others t (List.mem_cons_of_mem _ ht), fun t ht => hφ.own t (List.mem_cons_of_mem _ ht)⟩
    have hspared : DetectSpared P φ now d us := fun t ht => h t (List.mem_cons_of_mem _ ht)
    by_cases hu : u.id = φ.target
    · obtain ⟨interval, hlook⟩ := h u List.mem_cons_self hu
      obtain ⟨found, d', hfull, hothers, hfound⟩ := ih hφ' hnodup hspared missed missed'
      refine ⟨found, d', ?_, ?_, hfound⟩
      · rw [exec_detectFrom_cons, hlook]
        exact hfull
      · rw [List.filter_cons_of_neg (by simp [hu])]
        exact hothers
    · rw [List.filter_cons_of_pos (by simp [hu])]
      have hsound := hφ.others u.toMonitoredApi List.mem_cons_self hu
      obtain ⟨⟨interval, run⟩, hlook⟩ := Option.isSome_iff_exists.1 (@lookAt_isSome P now d _ hsound)
      simp only [exec_detectFrom_cons, hlook]
      cases run with
      | none => exact ih hφ' hnodup hspared missed missed'
      | some record =>
        obtain ⟨d₁, hwrite, hframe⟩ := exec_writeMissedRun_ok (d := d) u.toMonitoredApi interval record
          (Fault.failureOf_of_ne hu)
        have hspared₁ : DetectSpared P φ now d₁ us := by
          intro t ht hid
          rw [lookAt_congr (hframe t.id fun hid => hnew (List.mem_map.2 ⟨t, ht, hid⟩))]
          exact hspared t ht hid
        obtain ⟨found, d', hfull, hothers, hfound⟩ := ih hφ' hnodup hspared₁ (missed ++ [record]) (missed' ++ [record])
        refine ⟨record :: found, d', ?_, ?_, ?_⟩
        · refine (exec_bind_ok hwrite).trans ?_
          rw [hfull, List.append_assoc]
          rfl
        · refine (exec_bind_ok hwrite).trans ?_
          rw [hothers, List.append_assoc]
          rfl
        · intro r hr
          rcases List.mem_cons.1 hr with rfl | hr
          · rwa [lookAt_targetId hlook]
          · exact hfound r hr

theorem detects_others_iff (hφ : φ.Only P (targets.map (·.toMonitoredApi))) (hnodup : (targets.map (·.id)).Nodup) :
    DetectsOthers P φ now d targets ↔ DetectSpared P φ now d targets := by
  constructor
  · rintro ⟨missed, -, d', -, hfull, -⟩
    exact spared_of_returns hφ hnodup hfull
  · intro h
    obtain ⟨found, d', hfull, hothers, hfound⟩ := detectFrom_spared hφ hnodup h [] []
    refine ⟨found, found, d', d', hfull, hothers, ?_, fun id _ => rfl⟩
    exact List.filter_eq_self.2 fun r hr => decide_eq_true (hfound r hr)

end Detector

namespace Scheduler

/-! ### The tick -/

/-- The slot that is due for an entry: the current one, unless it was fired. -/
def dueSlot (P : CronParser) (now : Time) (e : Entry) : Option Time :=
  (safePreviousSlot P e.target now).filter fun due => e.lastFiredSlot.all (· < due)

/-- Slots between the one fired last and the one that is due were skipped. -/
def isLate (P : CronParser) (now : Time) (e : Entry) : Bool :=
  match dueSlot P now e, e.lastFiredSlot with
  | some due, some last =>
    match P.slotsBetween e.target.frequencyCron last (due - 1) CronParser.slotsLimit with
    | some (_ :: _) => true
    | _ => false
  | _, _ => false

/-- The tick is thrown out of its loop at `e`. -/
def throwsAt (P : CronParser) (φ : Fault) (now : Time) (e : Entry) : Bool := isLate P now e && φ.fails e.id

/-- `e` is due and idle, and the tick gets as far as asking for a place for it. -/
def asks (P : CronParser) (φ : Fault) (s : Scheduler) (e : Entry) : Bool :=
  (dueSlot P s.clock e).isSome && decide (e.id ∉ s.inFlight) && !throwsAt P φ s.clock e

/-- The statements a suspended tick waits for return one after the other, and throw what `φ` says. -/
def finish (P : CronParser) (φ : Fault) : Nat → Scheduler → Scheduler
  | 0, s => s
  | n + 1, s =>
    match s.suspended with
    | none => s
    | some p => ((s.resume P (φ.failureOf p.target.id p.await)).map (finish P φ n)).getD s

/-- A tick from its start to its end: it awaits two statements an entry at most. -/
def tickAlone (P : CronParser) (φ : Fault) (s : Scheduler) : Scheduler :=
  finish P φ (2 * s.entries.length) (s.tick P)

/-- Every target but the faulty one that is due, is not in flight and finds a place when its turn comes is
fired. -/
def FiresOthers (P : CronParser) (φ : Fault) (s : Scheduler) : Prop :=
  ∀ front e back, s.entries = front ++ e :: back → e.id ≠ φ.target → ∀ due, dueSlot P s.clock e = some due →
    e.id ∉ s.inFlight → s.inFlight.card + (front.filter (asks P φ s)).length < s.maxConcurrent →
    ⟨e.target, due⟩ ∈ (tickAlone P φ s).calls.drop s.calls.length

/-- Where the tick is thrown out of its loop, every place is taken by then or no later entry is due and idle. -/
def TickSpared (P : CronParser) (φ : Fault) (s : Scheduler) : Prop :=
  ∀ front e back, s.entries = front ++ e :: back → throwsAt P φ s.clock e = true →
    s.maxConcurrent ≤ s.inFlight.card + (front.filter (asks P φ s)).length ∨
      ∀ d ∈ back, dueSlot P s.clock d = none ∨ d.id ∈ s.inFlight

variable {s t : Scheduler} {e : Entry} {rest : List Entry}

/-- What becomes of an entry whose statements return: it is fired or deferred when it is due. -/
def offer (P : CronParser) (now : Time) (s : Scheduler) (e : Entry) : Scheduler :=
  match dueSlot P now e with
  | none => s
  | some due => s.fireOrDefer e.stamp e.target due

/-- The entries that are left for the loop are the last ones of the map. -/
def Left (s : Scheduler) (rest : List Entry) : Prop :=
  (s.entries.map (·.stamp)).Pairwise (· < ·) ∧ rest <:+ s.entries

/-- An entry the tick gets past. -/
structure Calm (P : CronParser) (φ : Fault) (now : Time) (e : Entry) : Prop where
  cron : P.Sound e.target.frequencyCron ∨ P.Broken e.target.frequencyCron
  goes : throwsAt P φ now e = false

theorem finish_idle (h : s.suspended = none) : ∀ n, finish P φ n s = s
  | 0 => rfl
  | n + 1 => by simp [finish, h]

theorem slotsBetween_isSome {expression : String} (h : P.Sound expression) (last due : Time) (limit : Nat) :
    (P.slotsBetween expression last due limit).isSome := by
  unfold CronParser.slotsBetween
  induction limit generalizing last with
  | zero => rfl
  | succ limit ih =>
    obtain ⟨u, hu⟩ := Option.isSome_iff_exists.1 (h last).1
    rw [Slots.upTo, hu]
    simp only
    split_ifs
    · rfl
    · simpa using ih u

theorem Left.entriesAfter (h : Left s (e :: rest)) : s.entriesAfter e.stamp = rest := by
  obtain ⟨hsorted, front, hfront⟩ := h
  rw [← hfront, List.map_append, List.map_cons, List.pairwise_append, List.pairwise_cons] at hsorted
  obtain ⟨-, ⟨hlt, -⟩, hbefore⟩ := hsorted
  unfold Scheduler.entriesAfter
  rw [← hfront, List.filter_append, List.filter_cons_of_neg (by simp)]
  rw [List.filter_eq_nil_iff.2, List.filter_eq_self.2, List.nil_append]
  · exact fun d hd => decide_eq_true (hlt d.stamp (List.mem_map_of_mem hd))
  · intro d hd
    have hd' : d.stamp < e.stamp := hbefore d.stamp (List.mem_map_of_mem hd) e.stamp List.mem_cons_self
    simp only [decide_eq_true_eq]
    omega

theorem Left.fireOrDefer (h : Left s (e :: rest)) (target : MonitoredApi) (due : Time) :
    Left (s.fireOrDefer e.stamp target due) rest := by
  obtain ⟨hsorted, hrest⟩ := h
  unfold Scheduler.fireOrDefer
  split_ifs
  · exact ⟨hsorted, (List.suffix_cons e rest).trans hrest⟩
  · exact ⟨hsorted, (List.suffix_cons e rest).trans hrest⟩
  · refine ⟨(map_stamp_setLastFired e.stamp due).symm ▸ hsorted, ?_⟩
    obtain ⟨front, hfront⟩ := hrest
    show rest <:+ (s.setLastFired e.stamp due).entries
    unfold setLastFired
    rw [← hfront, List.map_append, List.map_cons, List.pairwise_append, List.pairwise_cons] at hsorted
    rw [← hfront, List.map_append, List.map_cons]
    have hsame : rest.map (fun d => if d.stamp = e.stamp then { d with lastFiredSlot := some due } else d) = rest := by
      refine (List.map_congr_left fun d hd => if_neg ?_).trans (List.map_id' rest)
      have hlt := hsorted.2.1.1 d.stamp (List.mem_map_of_mem hd)
      omega
    simp only [hsame]
    exact (List.suffix_cons _ rest).trans (List.suffix_append _ _)

theorem Left.offer (h : Left s (e :: rest)) (st : Store) : Left (offer P now { s with store := st } e) rest := by
  unfold Scheduler.offer
  cases dueSlot P now e with
  | none => exact ⟨h.1, (List.suffix_cons e rest).trans h.2⟩
  | some due => exact Left.fireOrDefer (s := { s with store := st }) h e.target due

/-- One turn of the loop at an entry it gets past, with the statements it waits for. -/
theorem finish_scan_calm (hidle : s.suspended = none) (hleft : Left s (e :: rest)) (he : Calm P φ now e) :
    ∃ used st, used ≤ 2 ∧ ∀ n, finish P φ (used + n) (scan P now (e :: rest) s) =
      finish P φ n (scan P now rest (offer P now { s with store := st } e)) := by
  have hgoes := he.goes
  unfold throwsAt isLate dueSlot at hgoes
  unfold offer dueSlot
  rw [scan]
  cases hslot : safePreviousSlot P e.target now with
  | none => exact ⟨0, s.store, by omega, fun n => by simp⟩
  | some due =>
    have hsound : P.Sound e.target.frequencyCron := by
      refine he.cron.resolve_right fun hbroken => ?_
      simp [safePreviousSlot, CronParser.previousSlot, (hbroken now).2] at hslot
    cases hlast : e.lastFiredSlot with
    | none => exact ⟨0, s.store, by omega, fun n => by simp [Option.filter]⟩
    | some last =>
      by_cases hle : due ≤ last
      · exact ⟨0, s.store, by omega, fun n => by simp [Option.filter, hle, not_lt.2 hle]⟩
      · obtain ⟨skipped, hskipped⟩ := Option.isSome_iff_exists.1
          (slotsBetween_isSome hsound last (due - 1) CronParser.slotsLimit)
        simp only [hslot, hlast, Option.filter, Option.all_some, not_le.1 hle, decide_true, ite_true, hskipped,
          if_neg hle] at hgoes ⊢
        cases skipped with
        | nil => exact ⟨0, s.store, by omega, fun n => by simp⟩
        | cons slot slots =>
          have hreturn : φ.failureOf e.target.id .bumpMissedRunCount = none ∧
              φ.failureOf e.target.id .recordAlert = none := by
            simpa [Fault.fails, Entry.id] using hgoes
          obtain ⟨hbump, halert⟩ := hreturn
          refine ⟨2, (Sql.recordAlert (skippedSlotsAlert e.target (slot :: slots).length)
            (Sql.bumpMissedRunCount e.target.id (slot :: slots).length s.store).2).2, le_rfl, fun n => ?_⟩
          rw [Nat.add_comm 2 n]
          simp only [finish, Scheduler.resume, hbump, halert, bumpMissedRunCount, recordAlert, onPool_query_none,
            Option.map_some, Option.getD_some]
          have hafter : ∀ suspended store, Scheduler.entriesAfter { s with suspended, store } e.stamp = rest :=
            fun _ _ => hleft.entriesAfter
          simp only [hafter, hidle]

/-! ### The calls of a tick -/

theorem calls_fireOrDefer (stamp : Nat) (target : MonitoredApi) (due : Time) :
    s.calls <+: (s.fireOrDefer stamp target due).calls := by
  unfold Scheduler.fireOrDefer
  split_ifs
  · exact List.prefix_rfl
  · exact List.prefix_rfl
  · exact List.prefix_append _ _

theorem calls_scan : ∀ (rest : List Entry) (s : Scheduler), s.calls <+: (scan P now rest s).calls
  | [], s => List.prefix_rfl
  | e :: rest, s => by
    rw [scan]
    split
    · exact calls_scan rest s
    · split
      · exact (calls_fireOrDefer _ _ _).trans (calls_scan rest _)
      · split_ifs
        · exact calls_scan rest s
        · split
          · exact List.prefix_rfl
          · exact (calls_fireOrDefer _ _ _).trans (calls_scan rest _)
          · exact List.prefix_rfl

theorem calls_resume {failure : Option String} (h : s.resume P failure = some t) : s.calls <+: t.calls := by
  unfold Scheduler.resume at h
  split at h
  · cases h
  · split at h
    · split at h
      · obtain rfl := Option.some.inj h
        exact List.prefix_rfl
      · obtain rfl := Option.some.inj h
        exact List.prefix_rfl
    · split at h
      · obtain rfl := Option.some.inj h
        refine List.IsPrefix.trans ?_ (calls_scan _ _)
        exact calls_fireOrDefer (s := { s with store := _, suspended := none }) _ _ _
      · obtain rfl := Option.some.inj h
        exact List.prefix_rfl

theorem calls_finish : ∀ (n : Nat) (s : Scheduler), s.calls <+: (finish P φ n s).calls
  | 0, s => List.prefix_rfl
  | n + 1, s => by
    rw [finish]
    split
    · exact List.prefix_rfl
    · rename_i p hp
      cases hres : s.resume P (φ.failureOf p.target.id p.await) with
      | none => exact List.prefix_rfl
      | some t => exact (calls_resume hres).trans (calls_finish n t)

/-- What one turn does to the places and the calls. -/
theorem offer_cases (s : Scheduler) (e : Entry) (st : Store) :
    (∃ due, dueSlot P now e = some due ∧ e.id ∉ s.inFlight ∧ s.inFlight.card < s.maxConcurrent ∧
      (offer P now { s with store := st } e).inFlight = insert e.id s.inFlight ∧
      (offer P now { s with store := st } e).calls = s.calls ++ [⟨e.target, due⟩]) ∨
    (((dueSlot P now e).isSome → e.id ∉ s.inFlight → s.maxConcurrent ≤ s.inFlight.card) ∧
      (offer P now { s with store := st } e).inFlight = s.inFlight ∧
      (offer P now { s with store := st } e).calls = s.calls) := by
  unfold offer
  cases hdue : dueSlot P now e with
  | none => exact Or.inr ⟨fun h => by simp at h, rfl, rfl⟩
  | some due =>
    simp only [Scheduler.fireOrDefer]
    by_cases hin : e.target.id ∈ s.inFlight
    · rw [if_pos hin]
      exact Or.inr ⟨fun _ h => absurd hin h, rfl, rfl⟩
    · by_cases hroom : s.maxConcurrent ≤ s.inFlight.card
      · rw [if_neg hin, if_pos hroom]
        exact Or.inr ⟨fun _ _ => hroom, rfl, rfl⟩
      · rw [if_neg hin, if_neg hroom]
        exact Or.inl ⟨due, rfl, hin, not_le.1 hroom, rfl, rfl⟩

theorem offer_frame (s : Scheduler) (e : Entry) (st : Store) :
    (offer P now { s with store := st } e).suspended = s.suspended ∧
      (offer P now { s with store := st } e).clock = s.clock ∧
      (offer P now { s with store := st } e).maxConcurrent = s.maxConcurrent := by
  unfold offer
  cases dueSlot P now e with
  | none => exact ⟨rfl, rfl, rfl⟩
  | some due =>
    simp only [Scheduler.fireOrDefer]
    split_ifs <;> exact ⟨rfl, rfl, rfl⟩

/-- What the turns at the entries `pre` do from `s` to `t`. -/
structure Passed (P : CronParser) (φ : Fault) (s : Scheduler) (pre : List Entry) (t : Scheduler) : Prop where
  idle : t.suspended = none
  clock : t.clock = s.clock
  limit : t.maxConcurrent = s.maxConcurrent
  others : ∀ id, id ∉ pre.map (·.id) → (id ∈ t.inFlight ↔ id ∈ s.inFlight)
  room : t.inFlight.card < s.maxConcurrent ↔ s.inFlight.card + (pre.filter (asks P φ s)).length < s.maxConcurrent
  calls : s.calls <+: t.calls
  own : ∀ f ∈ t.calls.drop s.calls.length, f.target.id ∈ pre.map (·.id)
  fired : ∀ front e back, pre = front ++ e :: back → ∀ due, dueSlot P s.clock e = some due → e.id ∉ s.inFlight →
    s.inFlight.card + (front.filter (asks P φ s)).length < s.maxConcurrent →
    ⟨e.target, due⟩ ∈ t.calls.drop s.calls.length

theorem asks_congr (hclock : t.clock = s.clock) (h : e.id ∈ t.inFlight ↔ e.id ∈ s.inFlight) :
    asks P φ t e = asks P φ s e := by
  simp only [asks, hclock, h]

theorem mem_drop_of_prefix {α : Type} {l l' : List α} {n : Nat} {a : α} (h : l <+: l') (ha : a ∈ l.drop n) :
    a ∈ l'.drop n :=
  (h.drop n).subset ha

theorem Passed.nil (h : s.suspended = none) : Passed P φ s [] s where
  idle := h
  clock := rfl
  limit := rfl
  others := fun _ _ => Iff.rfl
  room := by simp
  calls := List.prefix_rfl
  own := fun f hf => by simp at hf
  fired := fun front e back h => by simp at h

/-- One more turn before those at `pre`. -/
theorem Passed.cons {pre : List Entry} {u : Scheduler} {st : Store} (hgoes : throwsAt P φ s.clock e = false) (hnew : e.id ∉ pre.map (·.id))
    (h : Passed P φ (offer P s.clock { s with store := st } e) pre u) : Passed P φ s (e :: pre) u := by
  obtain ⟨-, hclock, hlimit⟩ := @offer_frame P s.clock s e st
  obtain ⟨t, ht⟩ : ∃ t, t = offer P s.clock { s with store := st } e := ⟨_, rfl⟩
  have hcases := @offer_cases P s.clock s e st
  rw [← ht] at h hclock hlimit hcases
  have hkept : ∀ id, id ≠ e.id → (id ∈ t.inFlight ↔ id ∈ s.inFlight) := by
    intro id hid
    rcases hcases with ⟨due, -, -, -, hin, -⟩ | ⟨-, hin, -⟩
    · rw [hin, Finset.mem_insert]
      exact or_iff_right hid
    · rw [hin]
  have hasks : ∀ l : List Entry, l ⊆ pre → l.filter (asks P φ t) = l.filter (asks P φ s) := by
    intro l hl
    refine List.filter_congr fun d hd => asks_congr hclock (hkept d.id fun hid => hnew ?_)
    exact List.mem_map.2 ⟨d, hl hd, hid⟩
  -- the place this turn takes
  have htaken : t.inFlight.card < s.maxConcurrent ∧ t.inFlight.card = s.inFlight.card + ([e].filter (asks P φ s)).length ∨
      s.maxConcurrent ≤ t.inFlight.card ∧
        s.maxConcurrent ≤ s.inFlight.card + ([e].filter (asks P φ s)).length := by
    rcases hcases with ⟨due, hdue, hfree, hroom, hin, -⟩ | ⟨hfull, hin, -⟩
    · have hask : asks P φ s e = true := by simp [asks, hdue, hfree, hgoes]
      have hcard : t.inFlight.card = s.inFlight.card + 1 := by rw [hin, Finset.card_insert_of_notMem hfree]
      have hone : ([e].filter (asks P φ s)).length = 1 := by simp [hask]
      omega
    · rw [hin]
      cases hask : asks P φ s e with
      | true =>
        simp only [asks, Bool.and_eq_true, decide_eq_true_eq] at hask
        have := hfull hask.1.1 hask.1.2
        right
        omega
      | false =>
        have hzero : ([e].filter (asks P φ s)).length = 0 := by simp [hask]
        omega
  have hcount : ∀ l : List Entry, ((e :: l).filter (asks P φ s)).length =
      ([e].filter (asks P φ s)).length + (l.filter (asks P φ s)).length := by
    intro l
    rw [← List.length_append, ← List.filter_append]
    rfl
  have hprefix : s.calls <+: t.calls := by
    rcases hcases with ⟨due, -, -, -, -, hcalls⟩ | ⟨-, -, hcalls⟩
    · rw [hcalls]
      exact List.prefix_append _ _
    · rw [hcalls]
  obtain ⟨made, hmade⟩ := hprefix
  obtain ⟨later, hlater⟩ := h.calls
  refine ⟨h.idle, h.clock.trans hclock, h.limit.trans hlimit, ?_, ?_, ?_, ?_, ?_⟩
  · intro id hid
    simp only [List.map_cons, List.mem_cons, not_or] at hid
    exact (h.others id hid.2).trans (hkept id hid.1)
  · have hroom := h.room
    rw [hlimit, hasks pre (fun _ h => h)] at hroom
    rw [hroom, hcount]
    omega
  · rw [← hlater, ← hmade]
    exact (List.prefix_append _ _).trans (List.prefix_append _ _)
  · intro f hf
    rw [← hlater, ← hmade, List.append_assoc, List.drop_left] at hf
    rcases List.mem_append.1 hf with hf | hf
    · rcases hcases with ⟨due, -, -, -, -, hcalls⟩ | ⟨-, -, hcalls⟩
      · rw [hcalls] at hmade
        obtain rfl := List.append_cancel_left hmade
        simp only [List.mem_singleton] at hf
        subst hf
        exact List.mem_cons_self
      · rw [hcalls] at hmade
        have hnil : made = [] := by simpa using hmade
        simp [hnil] at hf
    · refine List.mem_cons_of_mem _ (h.own f ?_)
      rwa [← hlater, List.drop_left]
  · intro front d back hsplit due hdue hfree hroom
    cases front with
    | nil =>
      obtain ⟨rfl, rfl⟩ := List.cons.inj hsplit
      rcases hcases with ⟨due', hdue', -, -, -, hcalls⟩ | ⟨hfull, -, -⟩
      · obtain rfl : due' = due := Option.some.inj (hdue'.symm.trans hdue)
        rw [← hlater, hcalls, List.append_assoc, List.drop_left]
        exact List.mem_append_left _ List.mem_cons_self
      · have := hfull (by simp [hdue]) hfree
        simp only [List.filter_nil, List.length_nil] at hroom
        omega
    | cons d' front =>
      obtain ⟨rfl, hpre⟩ := List.cons.inj hsplit
      have hd : d ∈ pre := hpre ▸ List.mem_append_right _ List.mem_cons_self
      have hne : d.id ≠ e.id := fun hid => hnew (List.mem_map.2 ⟨d, hd, hid⟩)
      rw [hcount] at hroom
      have hmem := h.fired front d back hpre due (hclock.symm ▸ hdue) (fun hin => hfree ((hkept d.id hne).1 hin)) (by
        rw [hlimit, hasks front fun x hx => hpre ▸ List.mem_append_left _ hx]
        omega)
      rw [← hlater, List.drop_left] at hmem
      rw [← hlater, ← hmade, List.append_assoc, List.drop_left]
      exact List.mem_append_right _ hmem

/-- The turns at entries the tick gets past. -/
theorem finish_scan_passed {pre post : List Entry} (hidle : s.suspended = none) (hleft : Left s (pre ++ post))
    (hnodup : (pre.map (·.id)).Nodup) (hcalm : ∀ e ∈ pre, Calm P φ s.clock e) :
    ∃ used t, used ≤ 2 * pre.length ∧ Left t post ∧ Passed P φ s pre t ∧
      ∀ n, finish P φ (used + n) (scan P s.clock (pre ++ post) s) = finish P φ n (scan P s.clock post t) := by
  induction pre generalizing s with
  | nil => exact ⟨0, s, by omega, hleft, Passed.nil hidle, fun n => by simp⟩
  | cons e pre ih =>
    obtain ⟨hnew, hnodup⟩ := List.nodup_cons.1 hnodup
    have he := hcalm e List.mem_cons_self
    obtain ⟨used, st, hused, hturn⟩ := finish_scan_calm hidle hleft he
    obtain ⟨hsus, hclock, -⟩ := @offer_frame P s.clock s e st
    obtain ⟨used', t, hused', hpost, hpassed, hrest⟩ := ih (hsus.trans hidle) (hleft.offer st) hnodup (by
      intro d hd
      rw [hclock]
      exact hcalm d (List.mem_cons_of_mem e hd))
    refine ⟨used + used', t, ?_, hpost, hpassed.cons he.goes hnew, fun n => ?_⟩
    · simp only [List.length_cons]
      omega
    · rw [hclock] at hrest
      rw [Nat.add_assoc]
      exact (hturn (used' + n)).trans (hrest n)

/-- A statement that throws ends the tick. -/
theorem finish_throw {p : Suspended} {message : String} (hp : s.suspended = some p)
    (h : φ.failureOf p.target.id p.await = some message) (n : Nat) :
    finish P φ (n + 1) s = { s with suspended := none } := by
  have hres : s.resume P (φ.failureOf p.target.id p.await) = some { s with suspended := none } := by
    rw [h]
    simp only [Scheduler.resume, hp]
    cases p.await <;> rfl
  simp only [finish, hp, hres, Option.map_some, Option.getD_some]
  exact finish_idle rfl n

theorem finish_bump {p : Suspended} (hp : s.suspended = some p) (ha : p.await = .bumpMissedRunCount)
    (h : φ.failureOf p.target.id .bumpMissedRunCount = none) (n : Nat) :
    finish P φ (n + 1) s = finish P φ n { s with
      store := (Sql.bumpMissedRunCount p.target.id p.skipped s.store).2
      suspended := some { p with await := .recordAlert } } := by
  simp only [finish, hp, ha, h, Scheduler.resume]
  rfl

/-- The turn at which the tick is thrown out of its loop. -/
theorem finish_scan_throws (he : throwsAt P φ now e = true) (n : Nat) :
    (finish P φ (n + 2) (scan P now (e :: rest) s)).calls = s.calls ∧
      (finish P φ (n + 2) (scan P now (e :: rest) s)).suspended = none := by
  obtain ⟨hlate, hfails⟩ := Bool.and_eq_true_iff.1 he
  unfold isLate dueSlot at hlate
  rw [scan]
  cases hslot : safePreviousSlot P e.target now with
  | none => simp [hslot] at hlate
  | some due =>
    cases hlast : e.lastFiredSlot with
    | none => simp [hslot, hlast] at hlate
    | some last =>
      by_cases hle : due ≤ last
      · simp [hslot, hlast, Option.filter, not_lt.2 hle] at hlate
      · simp only [hslot, hlast, Option.filter, Option.all_some, not_le.1 hle, decide_true, ite_true, if_neg hle]
          at hlate ⊢
        cases hfound : P.slotsBetween e.target.frequencyCron last (due - 1) CronParser.slotsLimit with
        | none => simp [hfound] at hlate
        | some skipped =>
          cases skipped with
          | nil => simp [hfound] at hlate
          | cons slot slots =>
            cases hbump : φ.failureOf e.target.id .bumpMissedRunCount with
            | some message =>
              rw [finish_throw rfl hbump]
              exact ⟨rfl, rfl⟩
            | none =>
              rw [finish_bump rfl rfl hbump]
              cases halert : φ.failureOf e.target.id .recordAlert with
              | some message =>
                rw [finish_throw rfl halert]
                exact ⟨rfl, rfl⟩
              | none => simp [Fault.fails, Entry.id, hbump, halert] at hfails

theorem eq_target_of_throwsAt (h : throwsAt P φ now e = true) : e.id = φ.target := by
  by_contra hne
  simp [throwsAt, Fault.fails, Fault.failureOf_of_ne hne] at h

section Only

variable (hφ : φ.Only P (s.entries.map (·.target)))
include hφ

theorem calm_of_not_throws (he : e ∈ s.entries) (hgoes : throwsAt P φ now e = false) : Calm P φ now e where
  cron := by
    by_cases hid : e.id = φ.target
    · rcases hφ.own e.target (List.mem_map_of_mem he) hid with hbroken | ⟨hsound, -⟩
      · exact Or.inr hbroken
      · exact Or.inl hsound
    · exact Or.inl (hφ.others e.target (List.mem_map_of_mem he) hid)
  goes := hgoes

/-- The first turns of a tick, up to entries it does not get past. -/
theorem tickAlone_passed (hok : Ok s) (hidle : s.suspended = none) {pre post : List Entry}
    (hsplit : s.entries = pre ++ post) (hgoes : ∀ e ∈ pre, throwsAt P φ s.clock e = false) :
    ∃ m t, 2 * post.length ≤ m ∧ Passed P φ s pre t ∧ tickAlone P φ s = finish P φ m (scan P s.clock post t) := by
  have hnodup : (pre.map (·.id)).Nodup := by
    have h : (s.entries.map (·.id)).Nodup := hok.nodup
    rw [hsplit, List.map_append] at h
    exact h.of_append_left
  have hleft : Left s (pre ++ post) := ⟨hok.sorted, hsplit ▸ List.suffix_rfl⟩
  obtain ⟨used, t, hused, -, hpassed, hrest⟩ := finish_scan_passed hidle hleft hnodup fun e he =>
    calm_of_not_throws hφ (hsplit ▸ List.mem_append_left post he) (hgoes e he)
  have hlen : s.entries.length = pre.length + post.length := by rw [hsplit, List.length_append]
  refine ⟨2 * s.entries.length - used, t, by omega, hpassed, ?_⟩
  rw [← hrest, ← hsplit, tickAlone, Scheduler.tick, if_neg (by simp [hidle])]
  congr 1
  omega

/-- `tickAlone` goes on until nothing is awaited. -/
theorem tickAlone_idle (hok : Ok s) (hidle : s.suspended = none) : (tickAlone P φ s).suspended = none := by
  by_cases hthrows : ∃ e ∈ s.entries, throwsAt P φ s.clock e = true
  · obtain ⟨e, he, hthrows⟩ := hthrows
    obtain ⟨front, back, hsplit⟩ := List.append_of_mem he
    obtain ⟨m, t, hm, -, hend⟩ := tickAlone_passed hφ hok hidle hsplit (by
      intro x hx
      by_contra hx'
      have hxe : x = e := hok.id_inj (hsplit ▸ List.mem_append_left _ hx) he
        ((eq_target_of_throwsAt (by simpa using hx')).trans (eq_target_of_throwsAt hthrows).symm)
      have hsorted := hok.sorted
      rw [hsplit, List.map_append, List.map_cons, List.pairwise_append] at hsorted
      have hlt := hsorted.2.2 x.stamp (List.mem_map_of_mem hx) e.stamp List.mem_cons_self
      rw [hxe] at hlt
      omega)
    obtain ⟨n, rfl⟩ : ∃ n, m = n + 2 := ⟨m - 2, by simp at hm; omega⟩
    rw [hend]
    exact (finish_scan_throws hthrows n).2
  · obtain ⟨m, t, -, hpassed, hend⟩ := @tickAlone_passed P φ s hφ hok hidle s.entries [] (by simp)
      fun e he => Bool.eq_false_iff.2 fun h => hthrows ⟨e, he, h⟩
    rw [hend, scan, finish_idle hpassed.idle]
    exact hpassed.idle

theorem fires_others_iff (hok : Ok s) (hidle : s.suspended = none) : FiresOthers P φ s ↔ TickSpared P φ s := by
  have hinj : ∀ d ∈ s.entries, ∀ e ∈ s.entries, d.id = e.id → d = e := fun d hd e he => hok.id_inj hd he
  constructor
  · intro hfires front e back hsplit hthrows
    by_contra hnot
    push Not at hnot
    obtain ⟨hroom, d, hd, hdue, hfree⟩ := hnot
    -- the first entry after the faulty one that is due and idle would have been next
    have hfirst : ∃ b₁ d b₂ due, back = b₁ ++ d :: b₂ ∧ dueSlot P s.clock d = some due ∧ d.id ∉ s.inFlight ∧
        b₁.filter (asks P φ s) = [] := by
      clear hsplit hroom
      induction back with
      | nil => exact absurd hd List.not_mem_nil
      | cons b back ih =>
        by_cases hb : (dueSlot P s.clock b).isSome ∧ b.id ∉ s.inFlight
        · obtain ⟨due, hbdue⟩ := Option.isSome_iff_exists.1 hb.1
          exact ⟨[], b, back, due, rfl, hbdue, hb.2, rfl⟩
        · have hd' : d ∈ back := by
            rcases List.mem_cons.1 hd with rfl | hd
            · exact absurd ⟨Option.isSome_iff_ne_none.2 hdue, hfree⟩ hb
            · exact hd
          obtain ⟨b₁, c, b₂, due, rfl, hc⟩ := ih hd'
          refine ⟨b :: b₁, c, b₂, due, rfl, hc.1, hc.2.1, ?_⟩
          rw [List.filter_cons_of_neg, hc.2.2]
          simp only [asks, Bool.and_eq_true, decide_eq_true_eq]
          exact fun h => hb h.1
    obtain ⟨b₁, c, b₂, due, rfl, hcdue, hcfree, hnone⟩ := hfirst
    have hmem : ∀ x ∈ front ++ e :: (b₁ ++ c :: b₂), x ∈ s.entries := fun x hx => hsplit ▸ hx
    have hnodup : (s.entries.map (·.id)).Nodup := hok.nodup
    rw [hsplit, List.map_append, List.map_cons, List.nodup_append, List.nodup_cons] at hnodup
    have hce : c.id ≠ e.id := by
      intro h
      refine hnodup.2.1.1 (h ▸ List.mem_map_of_mem ?_)
      exact List.mem_append_right _ List.mem_cons_self
    have hfired := hfires (front ++ e :: b₁) c b₂ (by simp [hsplit]) (eq_target_of_throwsAt hthrows ▸ hce) due hcdue
      hcfree (by
        have he : asks P φ s e = false := by simp [asks, hthrows]
        rw [List.filter_append, List.filter_cons_of_neg (by simp [he]), hnone, List.append_nil]
        exact hroom)
    obtain ⟨m, t, hm, hpassed, hend⟩ := tickAlone_passed hφ hok hidle hsplit (by
      intro x hx
      by_contra hx'
      have hxe := hinj x (hmem x (List.mem_append_left _ hx)) e (hmem e (by simp))
        ((eq_target_of_throwsAt (by simpa using hx')).trans (eq_target_of_throwsAt hthrows).symm)
      exact hnodup.2.2 x.id (List.mem_map_of_mem hx) e.id List.mem_cons_self (congrArg Entry.id hxe))
    obtain ⟨n, rfl⟩ : ∃ n, m = n + 2 := ⟨m - 2, by simp at hm; omega⟩
    rw [hend, (finish_scan_throws hthrows n).1] at hfired
    have hcfront := hpassed.own _ hfired
    exact hnodup.2.2 c.id hcfront c.id (List.mem_cons_of_mem _ (List.mem_map_of_mem (by simp))) rfl
  · intro hspared front e back hsplit hne due hdue hfree hroom
    by_cases hthrows : ∃ d ∈ front, throwsAt P φ s.clock d = true
    · obtain ⟨d, hd, hthrows⟩ := hthrows
      obtain ⟨f₁, f₂, rfl⟩ := List.append_of_mem hd
      rcases hspared f₁ d (f₂ ++ e :: back) (by simp [hsplit]) hthrows with hfull | hrest
      · rw [List.filter_append, List.length_append] at hroom
        omega
      · rcases hrest e (by simp) with h | h
        · simp [hdue] at h
        · exact absurd h hfree
    · obtain ⟨m, t, -, hpassed, hend⟩ := @tickAlone_passed P φ s hφ hok hidle (front ++ [e]) back
        (by simp [hsplit]) (by
          intro x hx
          rcases List.mem_append.1 hx with hx | hx
          · exact Bool.eq_false_iff.2 fun h => hthrows ⟨x, hx, h⟩
          · obtain rfl := List.mem_singleton.1 hx
            exact Bool.eq_false_iff.2 fun h => hne (eq_target_of_throwsAt h))
      have hfired := hpassed.fired front e [] rfl due hdue hfree hroom
      rw [hend]
      exact mem_drop_of_prefix ((calls_scan back t).trans (calls_finish m _)) hfired

end Only

/-- `tickAlone` takes steps of the scheduler. -/
theorem run_finish : ∀ (n : Nat) (s : Scheduler),
    ∃ failures : List (Option String), Runs.run (step P) s (failures.map .resume) = some (finish P φ n s)
  | 0, s => ⟨[], rfl⟩
  | n + 1, s => by
    rw [finish]
    split
    · exact ⟨[], rfl⟩
    · rename_i p hp
      cases hres : s.resume P (φ.failureOf p.target.id p.await) with
      | none => exact ⟨[], rfl⟩
      | some t =>
        obtain ⟨failures, hrun⟩ := run_finish n t
        exact ⟨_ :: failures, Runs.run_cons_iff.2 ⟨t, hres, hrun⟩⟩

theorem run_tickAlone (s : Scheduler) :
    ∃ failures : List (Option String),
      Runs.run (step P) s (.tick :: failures.map .resume) = some (tickAlone P φ s) := by
  obtain ⟨failures, hrun⟩ := run_finish (P := P) (φ := φ) (2 * s.entries.length) (s.tick P)
  exact ⟨failures, Runs.run_cons_iff.2 ⟨s.tick P, rfl, hrun⟩⟩

/-- Between two ticks of any run, and for any set of targets: a tick fires the targets it owes a firing, whatever
is wrong with one of them, exactly when it is not thrown out of its loop before a target that it owes one; and the
detector serves the others exactly when it has nothing to write about the faulty one and can read its expression. -/
theorem one_target_starves_iff {maxConcurrent : Nat} {clock : Time} {store : Store} {tr : List Label}
    {targets : List RegisteredApi} {d : Detection} (hr : Runs.run (step P) (init maxConcurrent clock store) tr = some s)
    (hidle : s.suspended = none) (htracked : φ.Only P (s.entries.map (·.target)))
    (hgiven : φ.Only P (targets.map (·.toMonitoredApi))) (hnodup : (targets.map (·.id)).Nodup) :
    (FiresOthers P φ s ↔ TickSpared P φ s) ∧ (DetectsOthers P φ now d targets ↔ DetectSpared P φ now d targets) :=
  ⟨fires_others_iff htracked (Ok.run hr).1 hidle, detects_others_iff hgiven hnodup⟩

/-! ### The target in front -/

/-- The target of the tests and a second one. -/
def twoTargets : ActiveTargets := ⟨[makeMonitoredApi, { makeMonitoredApi with id := 2 }], by decide⟩

/-- Every statement about the first target throws. -/
def firstFails : Fault := ⟨1, fun _ => some "violates foreign key constraint"⟩

/-- Both targets have a slot that no tick saw. -/
def bothLate : List Label := [.reload twoTargets, .elapse 95000]

theorem firstFails_only : firstFails.Only CronParser.minutesAndHours twoTargets.rows where
  others t ht _ := by
    have hcron : t.frequencyCron = "*/1 * * * *" := by
      simp only [twoTargets, List.mem_cons, List.not_mem_nil, or_false] at ht
      rcases ht with rfl | rfl <;> rfl
    rw [hcron]
    exact (CronParser.minutesAndHours_parses (Or.inl rfl)).sound
  own t ht hid := by
    right
    have hcron : t.frequencyCron = "*/1 * * * *" := by
      simp only [twoTargets, List.mem_cons, List.not_mem_nil, or_false] at ht
      rcases ht with rfl | rfl <;> rfl
    rw [hcron]
    exact ⟨(CronParser.minutesAndHours_parses (Or.inl rfl)).sound, by rw [hid]; decide⟩

/-- Registered at the epoch, and never run. -/
def twoRegistered : List RegisteredApi := twoTargets.rows.map fun t => { t with createdAt := 0 }

def noRuns : Detection := ⟨Store.empty, fun _ => 0⟩

theorem run_bothLate : ∃ s, Runs.run (step CronParser.minutesAndHours) (init 2 210000 Store.empty) bothLate = some s ∧
    s.suspended = none ∧ s.calls = [] ∧ s.inFlight = ∅ ∧ s.clock = 305000 ∧
    s.entries = [⟨0, makeMonitoredApi, some 180000⟩, ⟨1, { makeMonitoredApi with id := 2 }, some 180000⟩] ∧
    (tickAlone CronParser.minutesAndHours firstFails s).calls = [] := by
  obtain ⟨s, hr, hs⟩ := Option.map_eq_some_iff.1 (show
    (Runs.run (step CronParser.minutesAndHours) (init 2 210000 Store.empty) bothLate).map (fun s => decide
      (s.suspended = none ∧ s.calls = [] ∧ s.inFlight = ∅ ∧ s.clock = 305000 ∧
      s.entries = [⟨0, makeMonitoredApi, some 180000⟩, ⟨1, { makeMonitoredApi with id := 2 }, some 180000⟩] ∧
      (tickAlone CronParser.minutesAndHours firstFails s).calls = [])) = some true by decide +kernel)
  exact ⟨s, hr, of_decide_eq_true hs⟩

theorem one_target_starves_iff_bothLate :
    ∃ s, Runs.run (step CronParser.minutesAndHours) (init 2 210000 Store.empty) bothLate = some s ∧
      (FiresOthers CronParser.minutesAndHours firstFails s ↔ TickSpared CronParser.minutesAndHours firstFails s) ∧
      (DetectsOthers CronParser.minutesAndHours firstFails 305000 noRuns twoRegistered ↔
        DetectSpared CronParser.minutesAndHours firstFails 305000 noRuns twoRegistered) := by
  obtain ⟨s, hr, hidle, -, -, -, hentries, -⟩ := run_bothLate
  refine ⟨s, hr, one_target_starves_iff hr hidle ?_ firstFails_only (by decide)⟩
  rw [hentries]
  exact firstFails_only

/-- The count of the first target cannot be raised, and the second one, which is due with both places free, is not
fired. -/
theorem first_target_starves_second : ¬ ∀ (P : CronParser) (φ : Fault) (now : Time) (maxConcurrent : Nat)
    (clock : Time) (store : Store) (tr : List Label) (s : Scheduler) (targets : List RegisteredApi) (d : Detection),
    Runs.run (step P) (init maxConcurrent clock store) tr = some s → s.suspended = none →
    φ.Only P (s.entries.map (·.target)) → φ.Only P (targets.map (·.toMonitoredApi)) →
    (targets.map (·.id)).Nodup → FiresOthers P φ s ∧ DetectsOthers P φ now d targets := by
  intro h
  obtain ⟨s, hr, hidle, hcalls, hflight, hclock, hentries, hnone⟩ := run_bothLate
  obtain ⟨hfires, -⟩ := h _ firstFails 305000 _ _ _ _ s twoRegistered noRuns hr hidle (by
    rw [hentries]
    exact firstFails_only) firstFails_only (by decide)
  have hmem := hfires [⟨0, makeMonitoredApi, some 180000⟩] ⟨1, { makeMonitoredApi with id := 2 }, some 180000⟩ []
    hentries (by decide) 300000 (by rw [hclock]; decide) (by rw [hflight]; decide) (by
      have hmax : s.maxConcurrent = 2 := (Ok.run hr).2
      have hlen := List.length_filter_le (asks CronParser.minutesAndHours firstFails s)
        [⟨0, makeMonitoredApi, some 180000⟩]
      rw [hflight, hmax, Finset.card_empty]
      simp only [List.length_singleton] at hlen
      omega)
  rw [hnone] at hmem
  simp at hmem

end Scheduler

end CronMonitor
