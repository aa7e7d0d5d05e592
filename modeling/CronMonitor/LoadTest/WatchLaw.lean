import CronMonitor.LoadTest.Watch
import CronMonitor.LoadTest.GuardrailWindow
import CronMonitor.LoadTest.LifeCycle

/-!
# Stops and verdicts

`executeRun` writes why it stopped a run into a text, `evaluateRunSlo` reads the text. Whatever an operator writes into
it, an aborted run is judged as failed exactly when the guardrail stopped it for the service's failures or its rate limit.
-/

namespace CronMonitor.LoadTest

/-! ### The rates of the guardrail -/

def Second.Sound (s : Second) : Prop := s.authRefusals ≤ s.total ∧ s.rateLimited ≤ s.total

def RunAggregator.Sound (a : RunAggregator) : Prop := ∀ k s, a.perSecond.get? k = some s → s.Sound

variable {scale : LogScale} {a : RunAggregator}

theorem Second.Sound.count {s : Second} (h : s.Sound) (status : Number) : (s.count status).Sound := by
  obtain ⟨hauth, hlimited⟩ := h
  constructor <;> simp only [Second.count] <;> split <;> omega

namespace RunAggregator.Sound

theorem new : RunAggregator.new.Sound := fun k s h => by cases h

theorem record (h : a.Sound) (time : Time) (ms : ℚ) (status : Number) (expected : Bool) :
    (a.record scale time ms status expected).Sound := by
  intro k s hs
  simp only [RunAggregator.record, OrderedMap.get?_set] at hs
  split at hs
  · obtain rfl := Option.some.inj hs
    refine Second.Sound.count ?_ status
    cases hold : a.perSecond.get? (time / 1000) with
    | none => exact ⟨le_rfl, le_rfl⟩
    | some old => exact h _ old hold
  · exact h k s hs

theorem feed (h : a.Sound) (line : K6Line) : (a.feed scale line).1.Sound := by
  unfold RunAggregator.feed
  split
  · exact h
  · split_ifs
    · exact h
    · exact h
    · exact h
    · exact h.record _ _ _ _

theorem feedAll (h : a.Sound) (lines : List K6Line) : (feedAll scale a lines).Sound := by
  induction lines generalizing a with
  | nil => exact h
  | cons line rest ih => exact ih (h.feed line)

theorem guardrail (h : a.Sound) (nowMs : Time) (opts : GuardrailOptions) : (a.guardrail nowMs opts).1.Sound := by
  intro k s hs
  refine h k s (OrderedMap.get?_eq_some_iff.2 ?_)
  exact (List.mem_filter.1 (OrderedMap.get?_eq_some_iff.1 hs)).1

end RunAggregator.Sound

/-- The rates of a guardrail call are shares of its requests. -/
theorem guardrail_rates (h : a.Sound) (nowMs : Time) (opts : GuardrailOptions) :
    (0 ≤ (a.guardrail nowMs opts).2.refusalRate ∧ (a.guardrail nowMs opts).2.refusalRate ≤ 1) ∧
      (0 ≤ (a.guardrail nowMs opts).2.rateLimitedRate ∧ (a.guardrail nowMs opts).2.rateLimitedRate ≤ 1) := by
  have share {n total : Nat} (hle : n ≤ total) :
      0 ≤ (if total = 0 then 0 else (n : ℚ) / total) ∧ (if total = 0 then 0 else (n : ℚ) / total) ≤ 1 := by
    split
    · exact ⟨le_rfl, zero_le_one⟩
    · exact ⟨by positivity, div_le_one_of_le₀ (Nat.cast_le.2 hle) (Nat.cast_nonneg _)⟩
  have hwindow : ∀ s ∈ (List.range opts.windowSeconds).filterMap fun i : Nat =>
      a.perSecond.get? (nowMs / 1000 - opts.windowSeconds + 1 + i), s.Sound := by
    intro s hs
    obtain ⟨i, -, hi⟩ := List.mem_filterMap.1 hs
    exact h _ s hi
  rw [guardrail_snd]
  exact ⟨share (List.sum_le_sum fun s hs => (hwindow s hs).1), share (List.sum_le_sum fun s hs => (hwindow s hs).2)⟩

/-! ### What can stop a run -/

/-- A text that starts with another letter is no guardrail's. -/
theorem not_guardrail {reason : String} {c : Char} (h : reason.toList.head? = some c) (hc : c ≠ 'g') :
    isGuardrailFail reason = false := by
  refine Bool.and_eq_false_iff.2 (.inl (decide_eq_false ?_))
  rintro ⟨tail, htail⟩
  rw [← htail] at h
  exact hc (Option.some.inj h).symm

/-- `trim` keeps a first character that is no space. -/
theorem trim_head {s : String} {c : Char} {rest : List Char} (h : s.toList = c :: rest)
    (hc : Text.isJsSpace c = false) : (Text.trim s).toList.head? = some c := by
  have hfront : (c :: rest).dropWhile Text.isJsSpace = c :: rest :=
    List.dropWhile_cons_of_neg (by rw [hc]; exact Bool.false_ne_true)
  obtain ⟨kept, hkept⟩ : ∃ kept, (((c :: rest).reverse.dropWhile Text.isJsSpace).reverse) = c :: kept := by
    rw [List.reverse_cons, List.dropWhile_append]
    split
    · exact ⟨[], by rw [List.dropWhile_cons_of_neg (by rw [hc]; exact Bool.false_ne_true)]; rfl⟩
    · exact ⟨_, by rw [List.reverse_append]; rfl⟩
  rw [Text.trim, h, hfront, hkept, String.toList_ofList]
  rfl

theorem controlReason_head {run : LoadRun} {now : Time} {hb : Bool × Option String} {kill : KillSwitchState}
    {authorization : Option LoadAuthorization} {reason : String}
    (h : controlReason run now hb kill authorization = some reason) :
    ∃ c, reason.toList.head? = some c ∧ c ≠ 'g' := by
  unfold controlReason at h
  split_ifs at h with habort hkill hclass
  · obtain rfl := Option.some.inj h
    refine ⟨'a', ?_, by decide⟩
    show ("abort requested: " ++ hb.2.getD "no reason given").toList.head? = _
    rw [String.toList_append]
    rfl
  · obtain rfl := Option.some.inj h
    have hlist : ("kill switch engaged: " ++ kill.reason.getD "").toList =
        'k' :: ("ill switch engaged: ".toList ++ (kill.reason.getD "").toList) := by
      rw [String.toList_append]
      rfl
    exact ⟨'k', trim_head hlist (by decide), by decide⟩
  · cases authorization with
    | none =>
      obtain rfl := Option.some.inj h
      exact ⟨'a', by decide +kernel, by decide⟩
    | some auth =>
      simp only at h
      split_ifs at h
      · obtain rfl := Option.some.inj h
        exact ⟨'a', by decide +kernel, by decide⟩
      · obtain rfl := Option.some.inj h
        exact ⟨'a', by decide +kernel, by decide⟩

/-! ### The watch -/

section Watch
variable {texts : NumberTexts} {guard : GuardrailOptions} {run : LoadRun} {hardDeadline : Time} {w : Watch}

/-- Every reason in the state of the watch reads as what it is. -/
structure Watch.Ok (texts : NumberTexts) (w : Watch) : Prop where
  agg : w.agg.Sound
  stopReason : ∀ reason, w.stopReason = some reason → isGuardrailFail reason = false
  guardrailTrip : ∀ trip, w.guardrailTrip = some trip →
    isGuardrailFail ("guardrail: " ++ trip.message) = decide (trip.kind ≠ .authRefused)

namespace Watch.Ok

theorem new : Watch.new.Ok texts :=
  ⟨RunAggregator.Sound.new, fun _ h => (nomatch h), fun _ h => (nomatch h)⟩

theorem check (h : w.Ok texts) (number : Nat) (o : TickInput) : (w.check texts guard run number o).Ok texts := by
  have hagg := h.agg.guardrail o.now guard
  have hrates := guardrail_rates h.agg o.now guard
  unfold Watch.check
  simp only
  split
  case h_1 kind _ _ =>
    refine ⟨hagg, h.stopReason, fun trip htrip => ?_⟩
    obtain rfl := Option.some.inj htrip
    exact isGuardrailFail_trip texts guard hrates.1 hrates.2 kind
  case h_2 =>
    split
    · refine ⟨hagg, fun reason hreason => ?_, h.guardrailTrip⟩
      obtain ⟨c, hc, hne⟩ := controlReason_head hreason
      exact not_guardrail hc hne
    · exact ⟨hagg, h.stopReason, h.guardrailTrip⟩

theorem deadline (h : w.Ok texts) (now : Time) : (w.deadline hardDeadline now).Ok texts := by
  unfold Watch.deadline
  split
  · refine ⟨h.agg, fun reason hreason => ?_, h.guardrailTrip⟩
    obtain rfl := Option.some.inj hreason
    decide +kernel
  · exact h

theorem tick (h : w.Ok texts) (number : Nat) (o : TickInput) :
    (w.tick texts scale guard run hardDeadline number o).Ok texts := by
  have hfed : ({ w with agg := feedAll scale w.agg o.lines } : Watch).Ok texts :=
    ⟨h.agg.feedAll o.lines, h.stopReason, h.guardrailTrip⟩
  unfold Watch.tick
  simp only
  have hchecked : (if ({ w with agg := feedAll scale w.agg o.lines } : Watch).running = true then
      (({ w with agg := feedAll scale w.agg o.lines } : Watch).check texts guard run number o).deadline hardDeadline
        o.now
      else { w with agg := feedAll scale w.agg o.lines }).Ok texts := by
    split
    · exact (hfed.check number o).deadline o.now
    · exact hfed
  split
  · exact ⟨hchecked.agg, hchecked.stopReason, hchecked.guardrailTrip⟩
  · exact hchecked

theorem after (h : w.Ok texts) (number : Nat) (ticks : List TickInput) :
    (w.after texts scale guard run hardDeadline number ticks).Ok texts := by
  induction ticks generalizing w number with
  | nil => exact h
  | cons o rest ih => exact ih (h.tick number o) (number + 1)

end Watch.Ok
end Watch

/-! ### The verdict on a stopped run -/

/-- The guardrail stopped the run, for the service's failures or its rate limit. -/
def Watching.StoppedByService (x : Watching) (decision : SafetyDecision) : Prop :=
  decision.allowed = true ∧ isSet x.last.stopReason = false ∧
    ∃ trip, x.last.guardrailTrip = some trip ∧ trip.kind ≠ .authRefused

/-- The row of the run once `executeRun` has ended it. -/
def Watching.recorded (x : Watching) (t : LoadRuns) (decision : SafetyDecision) (ending : Ending) (now : Time) :
    Option LoadRun :=
  let r := x.outcome decision ending
  (t.finishRun x.run.id r.status r.finishedReason r.summary r.error now).find x.run.id

/-- The verdict that is read off a row. -/
def Watching.verdict (x : Watching) (slo : Option SloOverrides) (row : LoadRun) : RunVerdict :=
  (evaluateRunSlo x.texts ⟨x.config, slo, row.outcome.summary, row.status, row.outcome.finishedReason⟩).verdict

theorem aborted_verdict (texts : NumberTexts) (cfg : PlanConfig) (slo : Option SloOverrides) (summary : RunSummary)
    (reason : String) : (evaluateRunSlo texts ⟨cfg, slo, some summary, .aborted, some reason⟩).verdict =
      if isGuardrailFail reason then .fail else .inconclusive := by
  simp only [evaluateRunSlo, reduceCtorEq, if_false, ne_eq, not_false_eq_true, if_true, Option.getD_some]
  split <;> rfl

theorem finish_aborted {w : Watch} {profile : LoadProfile} {summary : RunSummary} {exitCode : Option Int}
    {stderrTail : String} (h : (w.finish profile summary exitCode stderrTail).status.1 = .aborted) :
    (w.finish profile summary exitCode stderrTail).summary = some summary ∧
      ((∃ reason, w.stopReason = some reason ∧ isSet w.stopReason = true ∧
          (w.finish profile summary exitCode stderrTail).finishedReason = reason) ∨
        ∃ trip, isSet w.stopReason = false ∧ w.guardrailTrip = some trip ∧
          (profile.seeksLimit = true → trip.kind = .authRefused) ∧
          (w.finish profile summary exitCode stderrTail).finishedReason = "guardrail: " ++ trip.message) := by
  unfold Watch.finish at h ⊢
  by_cases hset : isSet w.stopReason = true
  · obtain ⟨reason, hreason⟩ : ∃ reason, w.stopReason = some reason := by
      cases hr : w.stopReason with
      | none => rw [hr] at hset; cases hset
      | some reason => exact ⟨reason, rfl⟩
    rw [if_pos hset]
    exact ⟨rfl, .inl ⟨reason, hreason, hset, by rw [hreason]; rfl⟩⟩
  · rw [if_neg hset] at h ⊢
    rw [Bool.not_eq_true] at hset
    cases htrip : w.guardrailTrip with
    | none =>
      simp only [htrip] at h
      split_ifs at h
    | some trip =>
      simp only [htrip] at h ⊢
      split_ifs at h ⊢ with hlimit
      refine ⟨rfl, .inr ⟨trip, hset, rfl, fun hseeks => ?_, rfl⟩⟩
      simpa [hseeks] using hlimit

theorem recorded_row {x : Watching} {decision : SafetyDecision} {ending : Ending} {t : LoadRuns} {now : Time}
    {row : LoadRun} (h : x.recorded t decision ending now = some row) :
    row.status = (x.outcome decision ending).status.1 ∧
      row.outcome.finishedReason = some (x.outcome decision ending).finishedReason ∧
      row.outcome.summary = (x.outcome decision ending).summary := by
  unfold Watching.recorded LoadRuns.finishRun RunTable.finish at h
  simp only at h
  rw [RunTable.find_update (by intro r; rfl)] at h
  obtain ⟨old, hold, rfl⟩ := Option.map_eq_some_iff.1 h
  rw [if_pos (decide_eq_true (RunTable.find_mem hold).2)]
  exact ⟨rfl, rfl, rfl⟩

theorem Watching.last_ok (x : Watching) : x.last.Ok x.texts := Watch.Ok.new.after 1 x.ticks

/-- An aborted run is judged as failed if and only if the guardrail stopped it for the service's failures or its rate
limit, which it does for no limit-seeking profile; any other stop is inconclusive. -/
theorem aborted_run_verdict (x : Watching) (slo : Option SloOverrides) (decision : SafetyDecision) (ending : Ending)
    (t : LoadRuns) (now : Time) {row : LoadRun} (hrow : x.recorded t decision ending now = some row)
    (haborted : (x.outcome decision ending).status.1 = .aborted) :
    row.status = .aborted ∧ (x.verdict slo row = .fail ↔ x.StoppedByService decision) ∧
      (x.StoppedByService decision → x.config.profile.seeksLimit = false) ∧
      (¬ x.StoppedByService decision → x.verdict slo row = .inconclusive) := by
  obtain ⟨hstatus, hreason, hsummary⟩ := recorded_row hrow
  have hverdict : x.verdict slo row = (evaluateRunSlo x.texts ⟨x.config, slo, (x.outcome decision ending).summary,
      .aborted, some (x.outcome decision ending).finishedReason⟩).verdict := by
    rw [Watching.verdict, hstatus, hreason, hsummary, haborted]
  refine ⟨hstatus.trans haborted, ?_⟩
  rw [hverdict]
  by_cases hallowed : decision.allowed = true
  · cases ending with
    | threw message =>
      simp only [Watching.outcome, hallowed, if_true] at haborted
      cases haborted
    | exited exitCode late stderrTail =>
      simp only [Watching.outcome, hallowed, if_true] at haborted ⊢
      obtain ⟨hsum, hcause⟩ := finish_aborted haborted
      rw [hsum, aborted_verdict]
      rcases hcause with ⟨reason, hr, hset, htext⟩ | ⟨trip, hset, htrip, hlimit, htext⟩
      · -- a person, the switch, the authorization or the deadline
        have hnot : ¬ x.StoppedByService decision := by
          rintro ⟨-, hunset, -⟩
          rw [hset] at hunset
          cases hunset
        rw [htext, x.last_ok.stopReason reason hr]
        exact ⟨iff_of_false (by decide) hnot, fun h => absurd h hnot, fun _ => rfl⟩
      · have hkind : x.StoppedByService decision ↔ trip.kind ≠ .authRefused := by
          constructor
          · rintro ⟨-, -, trip', htrip', hne⟩
            rw [htrip] at htrip'
            obtain rfl := Option.some.inj htrip'
            exact hne
          · exact fun hne => ⟨hallowed, hset, trip, htrip, hne⟩
        rw [htext, x.last_ok.guardrailTrip trip htrip, hkind]
        by_cases hauth : trip.kind = .authRefused
        · simp [hauth]
        · refine ⟨by simp [hauth], fun _ => ?_, fun hn => absurd hauth hn⟩
          exact Bool.eq_false_iff.2 fun hseeks => hauth (hlimit hseeks)
  · have hnot : ¬ x.StoppedByService decision := fun h => hallowed h.1
    rw [Bool.not_eq_true] at hallowed
    simp only [Watching.outcome, hallowed, Bool.false_eq_true, if_false]
    exact ⟨iff_of_false (by simp [evaluateRunSlo]) hnot, fun h => absurd h hnot, fun _ => rfl⟩

/-- An operator whose reason reads like the guardrail's aborts a run: the verdict stays inconclusive. -/
theorem aborted_run_verdict_operator :
    let cfg : PlanConfig := ⟨.load, .get, none, false, false, 1, 10, 60, 20, 10, by decide, by decide, by decide, rfl⟩
    let run : LoadRun := ⟨7, .running, ⟨1, 2, ⟨cfg, ⟨"bank", "https://uat.bank", false, .sandbox⟩, 10⟩, some .mock, none,
      true, none, none, none⟩, ⟨none, none, none⟩, none, none, 0, some 0, none⟩
    let second : Time → TickInput := fun now =>
      ⟨[], now, now, (true, some "guardrail: server failure rate 100%"), ⟨false, none, none⟩, none⟩
    let x : Watching := ⟨⟨fun _ => "", fun _ => ""⟩, ⟨fun _ => 0, fun _ => 0⟩, ⟨30, 1 / 4, 50, none, none⟩, run, 0,
      [second 1000, second 2000]⟩
    ∃ row, x.recorded ⟨[run], [7], []⟩ ⟨true, some .mock, []⟩ (.exited none [] "") 3000 = some row ∧
      x.verdict none row = .inconclusive := by
  intro cfg run second x
  obtain ⟨row, hrow⟩ := Option.isSome_iff_exists.1
    (by decide +kernel : (x.recorded ⟨[run], [7], []⟩ ⟨true, some .mock, []⟩ (.exited none [] "") 3000).isSome = true)
  have haborted : (x.outcome ⟨true, some .mock, []⟩ (.exited none [] "")).status.1 = .aborted := by decide +kernel
  refine ⟨row, hrow, (aborted_run_verdict x none _ _ ⟨[run], [7], []⟩ 3000 hrow haborted).2.2.2 ?_⟩
  rintro ⟨-, hunset, -⟩
  revert hunset
  decide +kernel

end CronMonitor.LoadTest
