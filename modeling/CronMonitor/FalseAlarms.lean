import CronMonitor.CronPattern
import CronMonitor.Starvation

/-!
# False alarms of the missed-run detector

The detector waits for twice the gap that follows `now`, but the run it waits for is due a gap that has passed. For a
schedule with a night in it the two are far apart. What it expects is the slot strictly before `now`: at the moment of a
slot this is the one before that slot.
-/

namespace CronMonitor
open Eff Slots

/-- The two slots up to `now`, and the two after it. -/
structure Around (S : Set Int) (now : Int) where
  previous : Int
  recent : Int
  next : Int
  after : Int
  recent_greatest : IsGreatest {x ∈ S | x ≤ now} recent
  previous_greatest : IsGreatest {x ∈ S | x < recent} previous
  next_least : IsLeast {x ∈ S | now < x} next
  after_least : IsLeast {x ∈ S | next < x} after

namespace Around
variable {S : Set Int} {now : Int}

/-- The slot that `previousSlot` gives at `now`. -/
def expected (w : Around S now) : Int := if w.recent < now then w.recent else w.previous

theorem gap (w : Around S now) : Consecutive S w.next w.after := ⟨w.next_least.1.1, w.after_least⟩

theorem gap_before (w : Around S now) : Consecutive S w.previous w.recent := by
  refine ⟨w.previous_greatest.1.1, ⟨w.recent_greatest.1.1, w.previous_greatest.1.2⟩, ?_⟩
  rintro z ⟨hz, hlt⟩
  by_contra hbefore
  exact absurd (w.previous_greatest.2 ⟨hz, not_le.1 hbefore⟩) (not_le.2 hlt)

theorem expected_greatest (w : Around S now) : IsGreatest {x ∈ S | x < now} w.expected := by
  have hle : w.recent ≤ now := w.recent_greatest.1.2
  unfold expected
  split_ifs with hlt
  · exact ⟨⟨w.recent_greatest.1.1, hlt⟩, fun z hz => w.recent_greatest.2 ⟨hz.1, hz.2.le⟩⟩
  · have hnow : w.recent = now := by omega
    simpa only [hnow] using w.previous_greatest

end Around

/-- No statement throws. -/
def Fault.never : Fault := ⟨0, fun _ => none⟩

/-- The detector reports a missed run of the target. -/
def Flags (P : CronParser) (now : Int) (d : Detection) (targets : List RegisteredApi) (target : RegisteredApi) : Prop :=
  ∃ missed d', exec (detectMissedRuns P .never now targets) d = (.ok missed, d') ∧ ∃ r ∈ missed, r.targetId = target.id

/-- The targets have rows of their own, and expressions that parse. -/
structure Watched (P : CronParser) (targets : List RegisteredApi) : Prop where
  nodup : (targets.map (·.id)).Nodup
  sound : ∀ t ∈ targets, P.Sound t.frequencyCron

/-- The last run that is recorded for a target. -/
def Detection.lastRun (d : Detection) (target : RegisteredApi) : Option Time :=
  (getScheduleState target.id d).bind (·.1.lastActualRunAt)

/-- The detector is right about the targets with this expression: none is flagged that ran in the previous slot or
later, less than a gap after the most recent one; and one is that has not run for twice the largest gap so far. -/
def AlarmsRight (P : CronParser) (e : String) {S : Set Int} {now : Int} (w : Around S now) : Prop :=
  ∀ (targets : List RegisteredApi) (d : Detection) (target : RegisteredApi) (last : Int), Watched P targets →
    target ∈ targets → target.frequencyCron = e → d.lastRun target = some last →
      (w.previous ≤ last → now - w.recent ≤ w.after - w.next → ¬ Flags P now d targets target) ∧
        ∀ M, IsGreatest (gapsUpTo S now) M → 2 * M < now - last → Flags P now d targets target

/-! ### What the loop finds -/

variable {P : CronParser} {e : String} {S : Set Int} {now : Int} {w : Around S now} {d : Detection}
  {targets : List RegisteredApi} {target : RegisteredApi}

theorem Watched.tail {t : RegisteredApi} (h : Watched P (t :: targets)) : Watched P targets :=
  ⟨(List.nodup_cons.1 h.nodup).2, fun t ht => h.sound t (List.mem_cons_of_mem _ ht)⟩

theorem detectFrom_found (h : Watched P targets) (missed : List MissedRun) :
    ∃ found d', exec (detectFrom P .never now missed targets) d = (.ok (missed ++ found), d') ∧
      ∀ id, (∃ r ∈ found, r.targetId = id) ↔
        ∃ t ∈ targets, t.id = id ∧ ∃ interval r, lookAt P now d t = some (interval, some r) := by
  induction targets generalizing missed d with
  | nil => exact ⟨[], d, by simp [detectFrom], by simp⟩
  | cons t ts ih =>
    obtain ⟨hnew, -⟩ := List.nodup_cons.1 h.nodup
    obtain ⟨⟨interval, run⟩, hlook⟩ := Option.isSome_iff_exists.1 (@lookAt_isSome P now d _ (h.sound t List.mem_cons_self))
    simp only [exec_detectFrom_cons, hlook]
    cases run with
    | none =>
      obtain ⟨found, d', hrun, hfound⟩ := ih h.tail missed
      refine ⟨found, d', hrun, fun id => (hfound id).trans ⟨?_, ?_⟩⟩
      · rintro ⟨u, hu, hid, hmissed⟩
        exact ⟨u, List.mem_cons_of_mem _ hu, hid, hmissed⟩
      · rintro ⟨u, hu, hid, i, r, hr⟩
        rcases List.mem_cons.1 hu with rfl | hu
        · simp [hlook] at hr
        · exact ⟨u, hu, hid, i, r, hr⟩
    | some record =>
      obtain ⟨d₁, hwrite, hframe⟩ :=
        exec_writeMissedRun_ok (φ := .never) (d := d) t.toMonitoredApi interval record fun _ => ite_self _
      obtain ⟨found, d', hrun, hfound⟩ := @ih d₁ h.tail (missed ++ [record])
      refine ⟨record :: found, d', ?_, fun id => ?_⟩
      · refine (exec_bind_ok hwrite).trans ?_
        rw [hrun, List.append_assoc]
        rfl
      · have hsame : ∀ u ∈ ts, lookAt P now d₁ u = lookAt P now d u := fun u hu =>
          lookAt_congr (hframe u.id fun hid => hnew (List.mem_map.2 ⟨u, hu, hid⟩))
        constructor
        · rintro ⟨r, hr, hid⟩
          rcases List.mem_cons.1 hr with rfl | hr
          · exact ⟨t, List.mem_cons_self, (lookAt_targetId hlook).symm.trans hid, interval, r, hlook⟩
          · obtain ⟨u, hu, hid, i, r', hr'⟩ := (hfound id).1 ⟨r, hr, hid⟩
            exact ⟨u, List.mem_cons_of_mem _ hu, hid, i, r', by rwa [← hsame u hu]⟩
        · rintro ⟨u, hu, hid, i, r, hr⟩
          rcases List.mem_cons.1 hu with rfl | hu
          · exact ⟨record, List.mem_cons_self, (lookAt_targetId hlook).trans hid⟩
          · obtain ⟨r', hr', hid'⟩ := (hfound id).2 ⟨u, hu, hid, i, r, by rwa [hsame u hu]⟩
            exact ⟨r', List.mem_cons_of_mem _ hr', hid'⟩

theorem flags_iff (h : Watched P targets) (ht : target ∈ targets) :
    Flags P now d targets target ↔ ∃ interval r, lookAt P now d target = some (interval, some r) := by
  obtain ⟨found, d', hrun, hfound⟩ := @detectFrom_found P now d _ h []
  constructor
  · rintro ⟨missed, d'', hrun', r, hr, hid⟩
    have heq := hrun.symm.trans hrun'
    obtain ⟨rfl, rfl⟩ : found = missed ∧ d' = d'' := by simpa using heq
    obtain ⟨u, hu, hid', hlook⟩ := (hfound target.id).1 ⟨r, hr, hid⟩
    obtain rfl : u = target := List.inj_on_of_nodup_map h.nodup hu ht hid'
    exact hlook
  · intro hlook
    exact ⟨found, d', hrun, (hfound target.id).2 ⟨target, ht, rfl, hlook⟩⟩

theorem lookAt_some_iff (h : P.Iterated e S) (w : Around S now) (hcron : target.frequencyCron = e) {last : Int}
    (hlast : d.lastRun target = some last) :
    (∃ interval r, lookAt P now d target = some (interval, some r)) ↔
      2 * (w.after - w.next) < now - last ∧ last < w.expected := by
  have hi := h.intervalSeconds w.next_least w.after_least
  have hdvd := h.gap_dvd w.gap
  obtain ⟨u, hu, hgreatest⟩ := h.prev now
  obtain rfl : u = w.expected := hgreatest.unique w.expected_greatest
  have hlast' : (getScheduleState target.id d).bind (·.1.lastActualRunAt) = some last := hlast
  have htolerance : (w.after - w.next) / 1000 * 1000 * TOLERANCE_MULTIPLE = 2 * (w.after - w.next) := by
    rw [Int.ediv_mul_cancel hdvd, TOLERANCE_MULTIPLE, mul_comm]
  simp only [lookAt, hcron, hi, CronParser.previousSlot, hu, Option.bind_eq_bind, Option.bind_some, Option.pure_def,
    Option.some.injEq, Prod.mk.injEq, missedRun, hlast', Option.getD_some, htolerance]
  constructor
  · rintro ⟨interval, r, -, hr⟩
    split_ifs at hr with hcond
    exact hcond
  · intro hcond
    rw [if_pos hcond]
    exact ⟨_, _, rfl, rfl⟩

/-! ### The law -/

/-- One target with this expression, whose last run was at `last`. -/
def ranAt (last : Time) : Detection where
  store := { Store.empty with db := { Db.empty with scheduleStates := [⟨1, none, some last, none, 0, 0, 0⟩] } }
  updatedAt _ := last

def watchedTarget (e : String) : RegisteredApi := { makeMonitoredApi with frequencyCron := e, createdAt := 0 }

theorem lastRun_ranAt (last : Time) : (ranAt last).lastRun (watchedTarget e) = some last := rfl

theorem watched_watchedTarget (h : P.Iterated e S) : Watched P [watchedTarget e] where
  nodup := List.nodup_singleton _
  sound t ht := by
    obtain rfl := List.mem_singleton.1 ht
    exact h.sound

/-- The detector is right exactly if `now` is a slot or the gap that ends with the most recent one is not much longer than
the gap after `now`, and that one has been seen before. -/
theorem alarmsRight_iff (h : P.Iterated e S) (w : Around S now) :
    AlarmsRight P e w ↔
      (w.recent < now → now - w.recent ≤ w.after - w.next → now - w.previous ≤ 2 * (w.after - w.next)) ∧
        ∀ M, IsGreatest (gapsUpTo S now) M → w.after - w.next ≤ M ∧ now - w.recent ≤ 2 * M := by
  have hflags : ∀ {targets : List RegisteredApi} {d : Detection} {target : RegisteredApi} {last : Int},
      Watched P targets → target ∈ targets → target.frequencyCron = e → d.lastRun target = some last →
        (Flags P now d targets target ↔ 2 * (w.after - w.next) < now - last ∧ last < w.expected) :=
    fun hw ht hcron hlast => (flags_iff hw ht).trans (lookAt_some_iff h w hcron hlast)
  have hone : ∀ last : Int, Flags P now (ranAt last) [watchedTarget e] (watchedTarget e) ↔
      2 * (w.after - w.next) < now - last ∧ last < w.expected := fun last =>
    hflags (watched_watchedTarget h) List.mem_cons_self rfl (lastRun_ranAt last)
  have hprevious : w.previous < w.recent := w.previous_greatest.1.2
  have hrecent : w.recent ≤ now := w.recent_greatest.1.2
  have hexpected : w.expected = if w.recent < now then w.recent else w.previous := rfl
  constructor
  · intro hright
    have hright' := fun last => hright [watchedTarget e] (ranAt last) (watchedTarget e) last (watched_watchedTarget h)
      List.mem_cons_self rfl (lastRun_ranAt last)
    refine ⟨fun hlt hnow => ?_, fun M hM => ?_⟩
    · have hquiet := (hright' w.previous).1 le_rfl hnow
      rw [hone, hexpected, if_pos hlt] at hquiet
      omega
    · have hflagged := (hone _).1 ((hright' (now - 2 * M - 1)).2 M hM (by omega))
      split_ifs at hexpected <;> omega
  · rintro ⟨hquiet, hlate⟩ targets d target last hw ht hcron hlast
    rw [hflags hw ht hcron hlast]
    refine ⟨fun hlast hnow hflag => ?_, fun M hM hlast => ?_⟩
    · split_ifs at hexpected with hlt
      · have := hquiet hlt hnow
        omega
      · omega
    · have := hlate M hM
      -- at the moment of a slot, the gap before it is one of those so far
      have hgap : w.recent - w.previous ≤ M := hM.2 ⟨_, _, w.gap_before, hrecent, rfl⟩
      split_ifs at hexpected <;> omega

/-- Slots that recur, as those of a calendar do, leave no late run unnoticed. -/
theorem Around.late {p : ℕ} (h : Recurs S p) (w : Around S now) {M : Int} (hM : IsGreatest (gapsUpTo S now) M) :
    w.after - w.next ≤ M ∧ now - w.recent ≤ 2 * M := by
  have hrecent : Consecutive S w.recent w.next := by
    refine ⟨w.recent_greatest.1.1, ⟨w.next_least.1.1, w.recent_greatest.1.2.trans_lt w.next_least.1.2⟩, ?_⟩
    rintro z ⟨hz, hlt⟩
    by_contra hbefore
    have hle : z ≤ now := by
      by_contra hafter
      have := w.next_least.2 ⟨hz, not_le.1 hafter⟩
      omega
    have := w.recent_greatest.2 ⟨hz, hle⟩
    omega
  have h1 := h.gap_le hM w.gap
  have h2 := h.gap_le hM hrecent
  have h3 := hrecent.lt
  have h4 : now < w.next := w.next_least.1.2
  omega

/-! ### From nine to eleven -/

/-- The hours of a morning, in milliseconds of the day. -/
def morning : Pattern where
  period := 86400000
  first := 32400000
  rest := [36000000, 39600000]
  sorted := by decide
  bounds := by decide

def hours : CronParser :=
  CronParser.patterned fun e =>
    if e = "0 9-11 * * *" then some morning else if e = "0 * * * *" then some CronParser.hourly else none

theorem morning_iterated : hours.Iterated "0 9-11 * * *" morning.points :=
  CronParser.patterned_iterated rfl (by decide) (by decide)

theorem hourly_iterated : hours.Iterated "0 * * * *" CronParser.hourly.points :=
  CronParser.patterned_iterated rfl (by decide) (by decide)

/-- The slots around a time, as the pattern has them. -/
def aroundOf (p : Pattern) (now : Int) : Around p.points now where
  previous := p.prev (p.prev now - 1)
  recent := p.prev now
  next := p.next now
  after := p.next (p.next now)
  recent_greatest := Pattern.isGreatest_prev now
  previous_greatest := Pattern.isGreatest_prev_sub_one _
  next_least := Pattern.isLeast_next now
  after_least := Pattern.isLeast_next _

theorem alarmsRight_hourly : AlarmsRight hours "0 * * * *" (aroundOf CronParser.hourly 3660000) :=
  (alarmsRight_iff hourly_iterated (aroundOf CronParser.hourly 3660000)).2
    ⟨fun _ _ => by decide, fun _ hM => (aroundOf CronParser.hourly 3660000).late Pattern.recurs hM⟩

/-- At nine, the run of eleven the day before is the one expected. -/
example : ∃ d', exec (detectMissedRuns hours .never 118800000 [watchedTarget "0 9-11 * * *"]) (ranAt 39600000) =
    (.ok [], d') := ⟨_, rfl⟩

/-- A minute after nine, a target that ran at eleven the day before is reported as missed. -/
theorem morning_false_alarm :
    (∃ d', exec (detectMissedRuns hours .never 118860000 [watchedTarget "0 9-11 * * *"]) (ranAt 39600000) =
        (.ok [⟨1, makeMonitoredApi.name, 118800000, some 39600000, 79260⟩], d')) ∧
      ¬ AlarmsRight hours "0 9-11 * * *" (aroundOf morning 118860000) := by
  have hrun : ∃ d', exec (detectMissedRuns hours .never 118860000 [watchedTarget "0 9-11 * * *"]) (ranAt 39600000) =
      (.ok [⟨1, makeMonitoredApi.name, 118800000, some 39600000, 79260⟩], d') := ⟨_, rfl⟩
  refine ⟨hrun, fun h => ?_⟩
  obtain ⟨d', hd'⟩ := hrun
  refine (h [watchedTarget "0 9-11 * * *"] (ranAt 39600000) (watchedTarget "0 9-11 * * *") 39600000
    (watched_watchedTarget morning_iterated) List.mem_cons_self rfl (lastRun_ranAt _)).1 (by decide) (by decide) ?_
  exact ⟨_, d', hd', _, List.mem_cons_self, rfl⟩

end CronMonitor
