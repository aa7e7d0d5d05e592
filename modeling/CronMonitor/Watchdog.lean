import CronMonitor.Domain
import CronMonitor.Lib.Newest
import CronMonitor.Lib.Runs
import CronMonitor.Lib.Throttle

/-!
# The watchdog

`src/watchdog/watchdog.ts` beside the schedulers that it watches. Any number of scheduler instances write heartbeats and
prune old ones (`scheduler.repo.ts`), the retention sweep deletes others, and each tick of the watchdog reads the latest
heartbeat and is resumed later with its verdict: ticks may overlap and be resumed in any order. A tick whose query fails
does nothing. `Outcome` says what a resumed tick did.
-/

namespace CronMonitor.Watchdog
open Runs

/-- A row of `scheduler_heartbeats`. -/
structure Heartbeat where
  instanceId : String
  lastTickAt : Int
  activeJobCount : ℕ
  queueDepth : ℕ
  createdAt : Int
deriving DecidableEq, Repr

structure LatestHeartbeat where
  instanceId : String
  lastTickAt : Int
  activeJobCount : ℕ
  queueDepth : ℕ
  ageMs : Int
deriving DecidableEq, Repr

def latestHeartbeat (now : Int) (rows : List Heartbeat) : Option LatestHeartbeat :=
  (History.newest Heartbeat.lastTickAt rows).map fun r =>
    ⟨r.instanceId, r.lastTickAt, r.activeJobCount, r.queueDepth, now - r.lastTickAt⟩

inductive SchedulerHealth
  | ok | stale | notRunning
deriving DecidableEq, Repr

/-- The `health` of `getSchedulerStatus`. -/
def getSchedulerStatus (graceMs : Int) : Option LatestHeartbeat → SchedulerHealth
  | none => .notRunning
  | some hb => if hb.ageMs > graceMs then .stale else .ok

structure WatchdogVerdict where
  healthy : Bool
  reason : String
  lastTickAgeMs : Option Int
deriving DecidableEq, Repr

/-- `Math.round(ms / 1000)`. -/
def seconds (ms : Int) : Int := (ms + 500) / 1000

def evaluateSchedulerLiveness (graceMs : Int) : Option LatestHeartbeat → WatchdogVerdict
  | none => ⟨false, "no scheduler heartbeat has ever been recorded", none⟩
  | some hb =>
    if hb.ageMs > graceMs then
      ⟨false, s!"scheduler \"{hb.instanceId}\" last ticked {seconds hb.ageMs}s ago (grace {seconds graceMs}s)",
        some hb.ageMs⟩
    else ⟨true, "scheduler is ticking", some hb.ageMs⟩

structure Payload where
  alertType : AlertType
  severity : Severity
  detectedAt : Int
  reason : String
  lastTickAgeMs : Option Int
  message : String
deriving DecidableEq, Repr

/-- What `fireWatchdogAlert` logs, and posts when an endpoint is configured. -/
def WatchdogVerdict.payload (v : WatchdogVerdict) (now : Int) : Payload where
  alertType := .schedulerHeartbeatMissed
  severity := .critical
  detectedAt := now
  reason := v.reason
  lastTickAgeMs := v.lastTickAgeMs
  message := "Primary scheduler appears to have stopped. Sent via the independent watchdog path, " ++
    "which does not depend on the primary alert engine."

/-- A tick that waits for its verdict to be looked at; `heard` are the heartbeats written before its query, also those
deleted by then. -/
structure Reading where
  readAt : Int
  heard : List Int
  verdict : WatchdogVerdict
deriving DecidableEq, Repr

/-- What a tick did: it fired the payload, if any. -/
structure Outcome extends Reading where
  resumedAt : Int
  fired : Option Payload
deriving DecidableEq, Repr

/-- `beats` are the heartbeats ever written; `outcomes` the ticks that are over, the last one first. -/
structure World where
  now : Int
  heartbeats : List Heartbeat
  beats : List Int
  readings : List Reading
  alerting : Bool
  lastAlertAt : Int
  outcomes : List Outcome
deriving DecidableEq, Repr

namespace World

def init (now : Int) : World := ⟨now, [], [], [], false, 0, []⟩

inductive Label
  | wait (ms : ℕ)
  | writeHeartbeat (instanceId : String) (activeJobCount queueDepth : ℕ)
  | pruneHeartbeats
  | sweep (days : ℕ+) (batch : Heartbeat → Bool)
  | tick
  | resume (i : ℕ)

def minuteMs : Int := 60000

/-- `DELETE FROM scheduler_heartbeats WHERE created_at < cutoff`, of the rows that `batch` picks. -/
def prune (w : World) (cutoff : Int) (batch : Heartbeat → Bool) : World :=
  { w with heartbeats := w.heartbeats.filter fun r => !(r.createdAt < cutoff && batch r) }

/-- The rest of a tick, once it has its verdict. -/
def resume (graceMs : Int) (w : World) (r : Reading) : World :=
  if r.verdict.healthy then { w with alerting := false, outcomes := ⟨r, w.now, none⟩ :: w.outcomes }
  else if w.alerting ∧ w.now - w.lastAlertAt < graceMs then { w with outcomes := ⟨r, w.now, none⟩ :: w.outcomes }
  else
    { w with
      alerting := true
      lastAlertAt := w.now
      outcomes := ⟨r, w.now, some (r.verdict.payload w.now)⟩ :: w.outcomes }

def step (graceMs : Int) (w : World) : Label → Option World
  | .wait ms => some { w with now := w.now + ms }
  | .writeHeartbeat instanceId activeJobCount queueDepth =>
    some { w with
      heartbeats := w.heartbeats ++ [⟨instanceId, w.now, activeJobCount, queueDepth, w.now⟩]
      beats := w.beats ++ [w.now] }
  | .pruneHeartbeats => some (w.prune (w.now - 60 * minuteMs) fun _ => true)
  | .sweep days batch => some (w.prune (w.now - (days : ℕ) * (24 * 60 * minuteMs)) batch)
  | .tick =>
    some { w with
      readings := w.readings ++
        [⟨w.now, w.beats, evaluateSchedulerLiveness graceMs (latestHeartbeat w.now w.heartbeats)⟩] }
  | .resume i => w.readings[i]?.map fun r => { w with readings := w.readings.eraseIdx i }.resume graceMs r

/-! ### What every tick reads -/

variable {graceMs : Int} {w w' : World} {lbl : Label}

theorem evaluate_healthy_iff {now : Int} {rows : List Heartbeat} :
    (evaluateSchedulerLiveness graceMs (latestHeartbeat now rows)).healthy = true ↔
      ∃ r ∈ rows, now - r.lastTickAt ≤ graceMs := by
  rw [latestHeartbeat]
  cases hnew : History.newest Heartbeat.lastTickAt rows with
  | none =>
    rw [History.newest_eq_none.1 hnew]
    simp [evaluateSchedulerLiveness]
  | some r =>
    have hmem := History.mem_of_newest hnew
    simp only [Option.map_some, evaluateSchedulerLiveness, gt_iff_lt]
    split_ifs with hage
    · refine iff_of_false (by decide) ?_
      rintro ⟨r', hr', hle⟩
      have hlast := History.le_newest hnew hr'
      omega
    · exact iff_of_true rfl ⟨r, hmem, not_lt.1 hage⟩

/-- The status page calls the scheduler ok exactly when the watchdog finds it healthy. -/
theorem getSchedulerStatus_ok_iff (hb : Option LatestHeartbeat) :
    getSchedulerStatus graceMs hb = .ok ↔ (evaluateSchedulerLiveness graceMs hb).healthy = true := by
  cases hb with
  | none => simp [getSchedulerStatus, evaluateSchedulerLiveness]
  | some hb =>
    simp only [getSchedulerStatus, evaluateSchedulerLiveness]
    split_ifs <;> simp

/-- A verdict that is healthy exactly when a heartbeat was written in the `graceMs` before it was read. -/
def Exact (graceMs : Int) (r : Reading) : Prop := r.verdict.healthy = true ↔ ∃ b ∈ r.heard, r.readAt - b ≤ graceMs

/-- The rows are heartbeats that were written, and those of the last hour are all there. -/
structure Hears (w : World) : Prop where
  past : ∀ b ∈ w.beats, b ≤ w.now
  written : ∀ r ∈ w.heartbeats, r.createdAt = r.lastTickAt ∧ r.lastTickAt ∈ w.beats
  kept : ∀ b ∈ w.beats, w.now - b ≤ 60 * minuteMs → ∃ r ∈ w.heartbeats, r.lastTickAt = b

theorem Hears.init (now : Int) : Hears (init now) := ⟨by simp [World.init], by simp [World.init], by simp [World.init]⟩

theorem Hears.prune (h : Hears w) {cutoff : Int} (hcutoff : cutoff ≤ w.now - 60 * minuteMs) (batch : Heartbeat → Bool) :
    Hears (w.prune cutoff batch) := by
  refine ⟨h.past, fun r hr => h.written r (List.mem_of_mem_filter hr), fun b hb hrecent => ?_⟩
  obtain ⟨r, hr, rfl⟩ := h.kept b hb hrecent
  refine ⟨r, List.mem_filter.2 ⟨hr, ?_⟩, rfl⟩
  have hcreated := (h.written r hr).1
  have hnot : ¬ r.createdAt < cutoff := by
    have hle : w.now - r.lastTickAt ≤ 60 * minuteMs := hrecent
    omega
  simp [hnot]

theorem Hears.of_eq (h : Hears w) (hnow : w'.now = w.now) (hrows : w'.heartbeats = w.heartbeats)
    (hbeats : w'.beats = w.beats) : Hears w' := by
  refine ⟨?_, ?_, ?_⟩
  · rw [hbeats, hnow]
    exact h.past
  · rw [hrows, hbeats]
    exact h.written
  · rw [hrows, hbeats, hnow]
    exact h.kept

theorem Hears.exact (h : Hears w) (hgrace : graceMs ≤ 60 * minuteMs) :
    Exact graceMs ⟨w.now, w.beats, evaluateSchedulerLiveness graceMs (latestHeartbeat w.now w.heartbeats)⟩ := by
  rw [Exact, evaluate_healthy_iff]
  constructor
  · rintro ⟨r, hr, hle⟩
    exact ⟨r.lastTickAt, (h.written r hr).2, hle⟩
  · rintro ⟨b, hb, hle⟩
    obtain ⟨r, hr, rfl⟩ := h.kept b hb (hle.trans hgrace)
    exact ⟨r, hr, hle⟩

@[simp] theorem resume_now (r : Reading) : (w.resume graceMs r).now = w.now := by
  unfold resume
  split_ifs <;> rfl

@[simp] theorem resume_heartbeats (r : Reading) : (w.resume graceMs r).heartbeats = w.heartbeats := by
  unfold resume
  split_ifs <;> rfl

@[simp] theorem resume_beats (r : Reading) : (w.resume graceMs r).beats = w.beats := by
  unfold resume
  split_ifs <;> rfl

@[simp] theorem resume_readings (r : Reading) : (w.resume graceMs r).readings = w.readings := by
  unfold resume
  split_ifs <;> rfl

theorem Hears.step (h : Hears w) (hs : step graceMs w lbl = some w') : Hears w' := by
  cases lbl with
  | wait ms =>
    obtain rfl := Option.some.inj hs
    refine ⟨fun b hb => ?_, h.written, fun b hb hrecent => h.kept b hb ?_⟩
    · have hle := h.past b hb
      simp only
      omega
    · simp only at hrecent
      omega
  | writeHeartbeat instanceId activeJobCount queueDepth =>
    obtain rfl := Option.some.inj hs
    refine ⟨?_, ?_, ?_⟩
    · intro b hb
      rcases List.mem_append.1 hb with hb | hb
      · exact h.past b hb
      · exact (List.mem_singleton.1 hb).le
    · intro r hr
      rcases List.mem_append.1 hr with hr | hr
      · exact ⟨(h.written r hr).1, List.mem_append_left _ (h.written r hr).2⟩
      · obtain rfl := List.mem_singleton.1 hr
        exact ⟨rfl, List.mem_append_right _ (List.mem_singleton.2 rfl)⟩
    · intro b hb hrecent
      rcases List.mem_append.1 hb with hb | hb
      · obtain ⟨r, hr, hrb⟩ := h.kept b hb hrecent
        exact ⟨r, List.mem_append_left _ hr, hrb⟩
      · obtain rfl := List.mem_singleton.1 hb
        exact ⟨_, List.mem_append_right _ (List.mem_singleton.2 rfl), rfl⟩
  | pruneHeartbeats =>
    obtain rfl := Option.some.inj hs
    exact h.prune le_rfl _
  | sweep days batch =>
    obtain rfl := Option.some.inj hs
    refine h.prune ?_ batch
    have hdays : (1 : Int) ≤ (days : ℕ) := by exact_mod_cast days.pos
    simp only [minuteMs]
    omega
  | tick =>
    obtain rfl := Option.some.inj hs
    exact ⟨h.past, h.written, h.kept⟩
  | resume i =>
    obtain ⟨r, -, rfl⟩ := Option.map_eq_some_iff.1 hs
    exact h.of_eq (resume_now r) (resume_heartbeats r) (resume_beats r)

/-! ### What every tick does -/

/-- A tick as the throttle sees it: a healthy verdict clears it. -/
def told (o : Outcome) : Throttle.Outcome :=
  if o.verdict.healthy then .cleared o.resumedAt
  else if o.fired.isSome then .fired o.resumedAt
  else .held o.resumedAt

/-- What fires is the payload of a verdict that is not healthy. -/
def Sincere (o : Outcome) : Prop :=
  ∀ p ∈ o.fired, o.verdict.healthy = false ∧ p = o.verdict.payload o.resumedAt

/-- The loop is a throttle over its outcomes, which come one after another. -/
structure Records (graceMs : Int) (w : World) : Prop where
  agrees : Throttle.Agrees graceMs ⟨w.alerting, w.lastAlertAt⟩ (w.outcomes.map told)
  sincere : ∀ o ∈ w.outcomes, Sincere o
  waited : ∀ r ∈ w.readings, r.readAt ≤ w.now
  times : ∀ o ∈ w.outcomes, o.readAt ≤ o.resumedAt ∧ o.resumedAt ≤ w.now
  ordered : w.outcomes.Pairwise fun o o' => o'.resumedAt ≤ o.resumedAt

theorem Records.init (graceMs now : Int) : Records graceMs (init now) :=
  ⟨.init, by simp [World.init], by simp [World.init], by simp [World.init], by simp [World.init]⟩

theorem Records.of_eq (h : Records graceMs w) (hnow : w.now ≤ w'.now) (hreadings : ∀ r ∈ w'.readings, r.readAt ≤ w'.now)
    (halerting : w'.alerting = w.alerting) (hlast : w'.lastAlertAt = w.lastAlertAt) (houtcomes : w'.outcomes = w.outcomes) :
    Records graceMs w' := by
  refine ⟨?_, ?_, hreadings, ?_, ?_⟩
  · rw [halerting, hlast, houtcomes]
    exact h.agrees
  · rw [houtcomes]
    exact h.sincere
  · rw [houtcomes]
    exact fun o ho => ⟨(h.times o ho).1, (h.times o ho).2.trans hnow⟩
  · rw [houtcomes]
    exact h.ordered

/-- One more outcome, at the present time. -/
theorem Records.cons (h : Records graceMs w) {o : Outcome} (ho : w'.outcomes = o :: w.outcomes) (hnow : w'.now = w.now)
    (hat : o.resumedAt = w.now) (hread : o.readAt ≤ w.now) (hsincere : Sincere o) (hreadings : w'.readings = w.readings)
    (hagrees : Throttle.Agrees graceMs ⟨w'.alerting, w'.lastAlertAt⟩ (told o :: w.outcomes.map told)) :
    Records graceMs w' := by
  refine ⟨?_, ?_, ?_, ?_, ?_⟩
  · rw [ho]
    exact hagrees
  · rw [ho]
    exact List.forall_mem_cons.2 ⟨hsincere, h.sincere⟩
  · rw [hreadings, hnow]
    exact h.waited
  · rw [ho, hnow]
    exact List.forall_mem_cons.2 ⟨⟨by omega, hat.le⟩, h.times⟩
  · rw [ho]
    exact List.pairwise_cons.2 ⟨fun o' ho' => by have := (h.times o' ho').2; omega, h.ordered⟩

theorem Records.resume (h : Records graceMs w) {r : Reading} (hr : r.readAt ≤ w.now) :
    Records graceMs (w.resume graceMs r) := by
  unfold World.resume
  split_ifs with hhealthy hheld
  · refine h.cons rfl rfl rfl hr (by simp [Sincere]) rfl ?_
    simp only [told, hhealthy, if_true]
    exact h.agrees.clear w.now
  · refine h.cons rfl rfl rfl hr (by simp [Sincere]) rfl ?_
    have hsignal := h.agrees.signal w.now
    rw [Throttle.signal, if_pos hheld] at hsignal
    simpa [told, hhealthy] using hsignal
  · refine h.cons rfl rfl rfl hr ?_ rfl ?_
    · intro p hp
      obtain rfl := Option.some.inj hp
      exact ⟨eq_false_of_ne_true hhealthy, rfl⟩
    · have hsignal := h.agrees.signal w.now
      rw [Throttle.signal, if_neg hheld] at hsignal
      simpa [told, hhealthy] using hsignal

theorem Records.step (h : Records graceMs w) (hs : step graceMs w lbl = some w') : Records graceMs w' := by
  cases lbl with
  | wait ms =>
    obtain rfl := Option.some.inj hs
    have hnow : w.now ≤ w.now + ms := by omega
    exact h.of_eq hnow (fun r hr => (h.waited r hr).trans hnow) rfl rfl rfl
  | writeHeartbeat instanceId activeJobCount queueDepth =>
    obtain rfl := Option.some.inj hs
    exact h.of_eq le_rfl h.waited rfl rfl rfl
  | pruneHeartbeats =>
    obtain rfl := Option.some.inj hs
    exact h.of_eq le_rfl h.waited rfl rfl rfl
  | sweep days batch =>
    obtain rfl := Option.some.inj hs
    exact h.of_eq le_rfl h.waited rfl rfl rfl
  | tick =>
    obtain rfl := Option.some.inj hs
    refine h.of_eq le_rfl ?_ rfl rfl rfl
    intro r hr
    rcases List.mem_append.1 hr with hr | hr
    · exact h.waited r hr
    · obtain rfl := List.mem_singleton.1 hr
      exact le_rfl
  | resume i =>
    obtain ⟨r, hr, rfl⟩ := Option.map_eq_some_iff.1 hs
    have hrest : Records graceMs { w with readings := w.readings.eraseIdx i } :=
      h.of_eq le_rfl (fun r' hr' => h.waited r' (List.mem_of_mem_eraseIdx hr')) rfl rfl rfl
    exact hrest.resume (h.waited r (List.mem_of_getElem? hr))

/-! ### Every run -/

/-- Every verdict that was ever read is exact. -/
structure Judged (graceMs : Int) (w : World) : Prop where
  hears : Hears w
  readings : ∀ r ∈ w.readings, Exact graceMs r
  outcomes : ∀ o ∈ w.outcomes, Exact graceMs o.toReading

theorem Judged.resume (h : Judged graceMs w) {r : Reading} (hr : Exact graceMs r) : Judged graceMs (w.resume graceMs r) := by
  refine ⟨h.hears.of_eq (resume_now r) (resume_heartbeats r) (resume_beats r), ?_, ?_⟩
  · rw [resume_readings]
    exact h.readings
  · unfold World.resume
    split_ifs <;> exact List.forall_mem_cons.2 ⟨hr, h.outcomes⟩

theorem Judged.step (hgrace : graceMs ≤ 60 * minuteMs) (h : Judged graceMs w) (hs : step graceMs w lbl = some w') :
    Judged graceMs w' := by
  have hhears := h.hears.step hs
  cases lbl with
  | wait ms =>
    obtain rfl := Option.some.inj hs
    exact ⟨hhears, h.readings, h.outcomes⟩
  | writeHeartbeat instanceId activeJobCount queueDepth =>
    obtain rfl := Option.some.inj hs
    exact ⟨hhears, h.readings, h.outcomes⟩
  | pruneHeartbeats =>
    obtain rfl := Option.some.inj hs
    exact ⟨hhears, h.readings, h.outcomes⟩
  | sweep days batch =>
    obtain rfl := Option.some.inj hs
    exact ⟨hhears, h.readings, h.outcomes⟩
  | tick =>
    obtain rfl := Option.some.inj hs
    refine ⟨hhears, ?_, h.outcomes⟩
    intro r hr
    rcases List.mem_append.1 hr with hr | hr
    · exact h.readings r hr
    · obtain rfl := List.mem_singleton.1 hr
      exact h.hears.exact hgrace
  | resume i =>
    obtain ⟨r, hr, rfl⟩ := Option.map_eq_some_iff.1 hs
    have hrest : Judged graceMs { w with readings := w.readings.eraseIdx i } :=
      ⟨h.hears.of_eq rfl rfl rfl, fun r' hr' => h.readings r' (List.mem_of_mem_eraseIdx hr'), h.outcomes⟩
    exact hrest.resume (h.readings r (List.mem_of_getElem? hr))

variable {now : Int} {tr : List Label}

/-- Pruning and retention never make the watchdog see a dead scheduler where one has ticked, nor a live one where none
has, as long as the grace is at most the hour that is kept. -/
theorem verdicts_exact (hgrace : graceMs ≤ 60 * minuteMs) (hr : run (step graceMs) (init now) tr = some w) :
    ∀ o ∈ w.outcomes, o.readAt ≤ o.resumedAt ∧
      (o.verdict.healthy = true ↔ ∃ b ∈ o.heard, o.readAt - b ≤ graceMs) := by
  have hinit : Judged graceMs (init now) := ⟨.init now, by simp [init], by simp [init]⟩
  have hjudged := inv_run (I := Judged graceMs) hinit (fun _ _ _ h hs => h.step hgrace hs) hr
  have hrecords := inv_run (I := Records graceMs) (.init graceMs now) (fun _ _ _ h hs => h.step hs) hr
  intro o ho
  exact ⟨(hrecords.times o ho).1, hjudged.outcomes o ho⟩

theorem told_eq_fired {o : Outcome} {t : Int} (h : told o = .fired t) : o.fired.isSome ∧ t = o.resumedAt := by
  unfold told at h
  split_ifs at h with hhealthy hfired
  exact ⟨hfired, (Throttle.Outcome.fired.inj h).symm⟩

theorem told_eq_held {o : Outcome} {t : Int} (h : told o = .held t) : o.verdict.healthy = false ∧ o.fired = none := by
  unfold told at h
  split_ifs at h with hhealthy hfired
  exact ⟨eq_false_of_ne_true hhealthy, Option.not_isSome_iff_eq_none.1 hfired⟩

theorem told_of_fired {o : Outcome} (hs : Sincere o) (h : o.fired.isSome) : told o = .fired o.resumedAt := by
  obtain ⟨p, hp⟩ := Option.isSome_iff_exists.1 h
  have hhealthy := (hs p hp).1
  simp [told, hhealthy, h]

theorem told_of_held {o : Outcome} (hhealthy : o.verdict.healthy = false) (h : o.fired = none) :
    told o = .held o.resumedAt := by
  simp [told, hhealthy, h]

theorem told_not_cleared {o : Outcome} (hhealthy : o.verdict.healthy = false) : ¬ (told o).IsCleared := by
  unfold told
  split_ifs with h₁ h₂
  · rw [hhealthy] at h₁
    cases h₁
  · exact id
  · exact id

/-- However ticks overlap: an alert tells of a verdict that is not healthy; two alerts are the grace apart, unless a
healthy verdict came between them; and a verdict that is not healthy and fires nothing comes less than the grace after
an alert, with nothing but verdicts between that are not healthy and fire nothing either. -/
theorem alerts_law (hgrace : 0 ≤ graceMs) (hr : run (step graceMs) (init now) tr = some w) :
    (∀ o ∈ w.outcomes, ∀ p ∈ o.fired, o.verdict.healthy = false ∧ p = o.verdict.payload o.resumedAt) ∧
      (∀ new o between o' old, w.outcomes = new ++ o :: (between ++ o' :: old) → o.fired.isSome → o'.fired.isSome →
        (∀ m ∈ between, m.verdict.healthy = false) → graceMs ≤ o.resumedAt - o'.resumedAt) ∧
      ∀ new o old, w.outcomes = new ++ o :: old → o.verdict.healthy = false → o.fired = none →
        ∃ between o' older, old = between ++ o' :: older ∧ o'.fired.isSome ∧ o'.resumedAt ≤ o.resumedAt ∧
          o.resumedAt - o'.resumedAt < graceMs ∧ ∀ m ∈ between, m.verdict.healthy = false ∧ m.fired = none := by
  have h := inv_run (I := Records graceMs) (.init graceMs now) (fun _ _ _ h hs => h.step hs) hr
  refine ⟨h.sincere, ?_, ?_⟩
  · intro new o between o' old heq ho ho' hbetween
    have hl := h.agrees.lawful
    rw [heq] at hl
    simp only [List.map_append, List.map_cons] at hl
    have hsincere : Sincere o ∧ Sincere o' := by
      constructor <;> exact h.sincere _ (by rw [heq]; simp)
    rw [told_of_fired hsincere.1 ho, told_of_fired hsincere.2 ho'] at hl
    refine hl.spaced hgrace ?_
    intro m hm
    obtain ⟨m', hm', rfl⟩ := List.mem_map.1 hm
    exact told_not_cleared (hbetween m' hm')
  · intro new o old heq hhealthy hfired
    have hl := h.agrees.lawful
    rw [heq] at hl
    simp only [List.map_append, List.map_cons] at hl
    rw [told_of_held hhealthy hfired] at hl
    obtain ⟨between, l, older, hold, hlt, hheld⟩ := hl.covered
    obtain ⟨between', rest, rfl, rfl, hrest⟩ := List.map_eq_append_iff.1 hold
    obtain ⟨o', older', rfl, ho', rfl⟩ := List.map_eq_cons_iff.1 hrest
    obtain ⟨hsome, rfl⟩ := told_eq_fired ho'
    have hordered := h.ordered
    rw [heq] at hordered
    have hle := (List.pairwise_cons.1 (List.pairwise_append.1 hordered).2.1).1 o' (by simp)
    refine ⟨between', o', older', rfl, hsome, hle, hlt, ?_⟩
    intro m hm
    obtain ⟨v, hv⟩ := hheld (told m) (List.mem_map_of_mem hm)
    exact told_eq_held hv

/-- A scheduler that ticks once and stops. Two ticks of the watchdog overlap, and before the last one its only heartbeat
is pruned. -/
def stopped : List Label :=
  [.writeHeartbeat "scheduler-1" 0 0, .tick, .resume 0, .wait 31000, .tick, .tick, .resume 1, .wait 10000, .resume 0,
    .wait 3600000, .sweep 1 fun _ => true, .pruneHeartbeats, .tick, .resume 0]

def stoppedWorld : World := (run (step 30000) (init 0) stopped).getD (init 0)

theorem run_stopped : run (step 30000) (init 0) stopped = some stoppedWorld := rfl

theorem verdicts_exact_stopped :
    stoppedWorld.heartbeats = [] ∧ stoppedWorld.outcomes.map (·.verdict.healthy) = [false, false, false, true] ∧
      ∀ o ∈ stoppedWorld.outcomes, o.readAt ≤ o.resumedAt ∧
        (o.verdict.healthy = true ↔ ∃ b ∈ o.heard, o.readAt - b ≤ 30000) :=
  ⟨rfl, rfl, verdicts_exact (by decide) run_stopped⟩

theorem alerts_law_stopped :
    stoppedWorld.outcomes.map (·.fired.isSome) = [true, false, true, false] ∧
      ∀ o ∈ stoppedWorld.outcomes, ∀ p ∈ o.fired, o.verdict.healthy = false ∧ p = o.verdict.payload o.resumedAt :=
  ⟨rfl, (alerts_law (by decide) run_stopped).1⟩

end World

end CronMonitor.Watchdog
