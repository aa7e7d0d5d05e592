import CronMonitor.LoadTest.Execute
import CronMonitor.LoadTest.Metrics
import CronMonitor.LoadTest.Slo

/-!
# Watching a run

The loop of `executeRun` while k6 runs, once a second: the guardrail over the last seconds, every second time the control
check, the hard deadline; then the terminal state. What arrives from k6, the clock and the answers to the control check
are inputs of a tick. `stderrTail` and the message of a thrown error are what `scrubPci` and the cut leave of them.
-/

namespace CronMonitor.LoadTest

/-- The `pct` of the messages. -/
def tripPct (texts : NumberTexts) (n : ℚ) : String := Text.toFixed texts.plain 1 (n * 100) ++ "%"

def tripMessage (texts : NumberTexts) (guard : GuardrailOptions) (g : GuardrailResult) : GuardrailKind → String
  | .authRefused =>
    let rate := tripPct texts g.refusalRate
    s!"{rate} of {g.total} requests were refused with 401/403 (bad or expired key, or a limit/suspension)"
  | .rateLimited =>
    let rate := tripPct texts g.rateLimitedRate
    s!"{rate} of {g.total} requests were rate limited (429)"
  | .serverFailures =>
    let rate := tripPct texts g.errorRate
    let limit := tripPct texts guard.maxErrorRate
    s!"server failure rate {rate} over {g.total} requests in {guard.windowSeconds}s exceeded {limit}"

structure Trip where
  kind : GuardrailKind
  message : String

structure Watch where
  agg : RunAggregator
  stopReason : Option String
  guardrailTrip : Option Trip

/-- The truth value of a text that may be missing. -/
def isSet (s : Option String) : Bool := s.any (· ≠ "")

/-- What one second brings. -/
structure TickInput where
  lines : List K6Line
  now : Time
  controlNow : Time
  heartbeat : Bool × Option String
  kill : KillSwitchState
  authorization : Option LoadAuthorization

def feedAll (scale : LogScale) (a : RunAggregator) (lines : List K6Line) : RunAggregator :=
  lines.foldl (fun a line => (a.feed scale line).1) a

namespace Watch

def new : Watch := ⟨.new, none, none⟩

/-- Nothing has stopped the run so far. -/
def running (w : Watch) : Bool := !isSet w.stopReason && w.guardrailTrip.isNone

section Tick
variable (texts : NumberTexts) (scale : LogScale) (guard : GuardrailOptions) (run : LoadRun) (hardDeadline : Time)

/-- The guardrail first; where it does not trip, the control check of every second tick. -/
def check (w : Watch) (number : Nat) (o : TickInput) : Watch :=
  let g := w.agg.guardrail o.now guard
  let w := { w with agg := g.1 }
  match g.2.breach, g.2.kind with
  | true, some kind => { w with guardrailTrip := some ⟨kind, tripMessage texts guard g.2 kind⟩ }
  | _, _ =>
    if number % 2 = 0 then
      { w with stopReason := controlReason run o.controlNow o.heartbeat o.kill o.authorization }
    else w

def deadline (w : Watch) (now : Time) : Watch :=
  if w.running && now > hardDeadline then { w with stopReason := some "hard deadline exceeded" } else w

def tick (w : Watch) (number : Nat) (o : TickInput) : Watch :=
  let w := { w with agg := feedAll scale w.agg o.lines }
  let w := if w.running then (w.check texts guard run number o).deadline hardDeadline o.now else w
  if number % 5 = 0 then { w with agg := (w.agg.drain scale (some (o.now - BUCKET_MS))).1 } else w

/-- The ticks from number `number` on. -/
def after (w : Watch) (number : Nat) : List TickInput → Watch
  | [] => w
  | o :: rest => (w.tick texts scale guard run hardDeadline number o).after (number + 1) rest

end Tick

end Watch

/-- How k6 ends: with an exit code after the last lines, or an error is thrown on the way. -/
inductive Ending
  | exited (exitCode : Option Int) (late : List K6Line) (stderrTail : String)
  | threw (message : String)

/-- The terminal state of a run that was watched. -/
def Watch.finish (w : Watch) (profile : LoadProfile) (summary : RunSummary) (exitCode : Option Int)
    (stderrTail : String) : RunResult :=
  if isSet w.stopReason then ⟨.aborted, w.stopReason.getD "", summary, none⟩
  else
    match w.guardrailTrip with
    | some trip =>
      if profile.seeksLimit && trip.kind ≠ .authRefused then
        ⟨.completed, s!"limit reached: {trip.message}", summary, none⟩
      else ⟨.aborted, s!"guardrail: {trip.message}", summary, none⟩
    | none =>
      if exitCode = some 0 then ⟨.completed, "completed", summary, none⟩
      else
        let code := exitCode.elim "null" toString
        ⟨.failed, s!"k6 exited with code {code}", summary, some stderrTail⟩

/-- What is watched of a run: the guardrail's configuration, when k6 was started, and the ticks. -/
structure Watching where
  texts : NumberTexts
  scale : LogScale
  guard : GuardrailOptions
  run : LoadRun
  startedAt : Time
  ticks : List TickInput

def Watching.config (x : Watching) : PlanConfig := x.run.data.snapshot.config

def Watching.last (x : Watching) : Watch :=
  Watch.new.after x.texts x.scale x.guard x.run (x.startedAt + (x.config.durationSeconds + 90) * 1000) 1 x.ticks

/-- How `executeRun` ends the run. -/
def Watching.outcome (x : Watching) (decision : SafetyDecision) (ending : Ending) : RunResult :=
  if decision.allowed then
    match ending with
    | .exited exitCode late stderrTail =>
      let agg := feedAll x.scale x.last.agg late
      x.last.finish x.config.profile ((agg.drain x.scale none).1.summary x.scale) exitCode stderrTail
    | .threw message =>
      ⟨.failed, "runner error", some ((x.last.agg.drain x.scale none).1.summary x.scale), some message⟩
  else
    let why := ", ".intercalate (decision.violations.map (·.code))
    ⟨.aborted, s!"safety gate: {why}", none, none⟩

/-! ### Texts -/

theorem digitsThen_append {ds rest : List Char} (hds : ∀ c ∈ ds, c.isDigit = true) (hne : ds ≠ [])
    (hrest : rest.head?.any Char.isDigit = false) : digitsThen (ds ++ rest) = some rest := by
  have hdrop : (ds ++ rest).dropWhile Char.isDigit = rest := by
    rw [List.dropWhile_append_of_pos hds]
    cases rest with
    | nil => rfl
    | cons c cs => exact List.dropWhile_cons_of_neg (by simpa using hrest)
  cases ds with
  | nil => exact absurd rfl hne
  | cons d ds =>
    have hhead : ((d :: ds ++ rest).head?.any Char.isDigit) = true := hds d List.mem_cons_self
    rw [digitsThen, if_pos hhead, hdrop]

theorem digits_toString (n : Nat) : (∀ c ∈ (toString n).toList, c.isDigit = true) ∧ (toString n).toList ≠ [] := by
  have hlist : (toString n).toList = Nat.toDigits 10 n := Nat.toList_repr
  rw [hlist]
  exact ⟨fun c hc => Nat.isDigit_of_mem_toDigits (by decide) (by decide) hc, Nat.toDigits_ne_nil⟩

/-- With one place there is a digit on both sides of the point. -/
theorem fixedDigits_one (n : Nat) : ∃ whole fraction : List Char,
    (Text.fixedDigits 1 n).toList = whole ++ '.' :: fraction ∧ (∀ c ∈ whole, c.isDigit = true) ∧ whole ≠ [] ∧
      (∀ c ∈ fraction, c.isDigit = true) ∧ fraction ≠ [] := by
  have hdigits : ∀ c ∈ Nat.toDigits 10 (n % 10 ^ 1), c.isDigit = true := fun c hc =>
    Nat.isDigit_of_mem_toDigits (by decide) (by decide) hc
  refine ⟨(toString (n / 10 ^ 1)).toList, (Nat.toDigits 10 (n % 10 ^ 1)).leftpad 1 '0', ?_,
    (digits_toString _).1, (digits_toString _).2, fun c hc => ?_, ?_⟩
  · simp [Text.fixedDigits]
  · rcases List.mem_append.1 hc with hc | hc
    · rw [(List.mem_replicate.1 hc).2]
      rfl
    · exact hdigits c hc
  · intro hnil
    exact Nat.toDigits_ne_nil (List.append_eq_nil_iff.1 hnil).2

theorem toFixed_one (numberText : ℚ → String) {x : ℚ} (h0 : 0 ≤ x) (h1 : x < 10 ^ 21) : ∃ n,
    Text.toFixed numberText 1 x = Text.fixedDigits 1 n := by
  refine ⟨⌊x * 10 ^ 1 + 1 / 2⌋.toNat, ?_⟩
  rw [Text.toFixed, if_neg (by rw [abs_of_nonneg h0]; exact not_le.2 h1), if_neg (not_lt.2 h0)]

/-- A share of the requests as the messages begin: only the words after the count tell the two kinds apart. -/
theorem isRateLimitedText_share (texts : NumberTexts) {rate : ℚ} (h0 : 0 ≤ rate) (h1 : rate ≤ 1) (total : Nat)
    (words : List Char) (hwords : words.head?.any Char.isDigit = false) :
    isRateLimitedText ((tripPct texts rate).toList ++ " of ".toList ++ (toString total).toList ++ words) =
      decide (" requests were rate limited".toList <+: words) := by
  obtain ⟨n, hn⟩ := toFixed_one texts.plain (x := rate * 100) (by positivity) (by norm_num; linarith)
  obtain ⟨whole, fraction, htext, hwhole, hwhole', hfraction, hfraction'⟩ := fixedDigits_one n
  have hsplit : (tripPct texts rate).toList ++ " of ".toList ++ (toString total).toList ++ words =
      whole ++ ('.' :: (fraction ++ ("% of ".toList ++ ((toString total).toList ++ words)))) := by
    rw [tripPct, hn, String.toList_append, htext]
    simp
  have hcount := digitsThen_append (digits_toString total).1 (digits_toString total).2 hwords
  rw [hsplit, isRateLimitedText, digitsThen_append hwhole hwhole' rfl]
  simp only [Option.bind_some]
  rw [digitsThen_append hfraction hfraction' rfl]
  simp only [Option.bind_some]
  rw [if_pos (List.prefix_append _ _), List.drop_left' (by decide), hcount]
  rfl

theorem isGuardrailFail_text (message : String) : isGuardrailFail ("guardrail: " ++ message) =
    (decide ("server failure rate".toList <+: message.toList) || isRateLimitedText message.toList) := by
  have hlist : ("guardrail: " ++ message).toList = "guardrail: ".toList ++ message.toList := String.toList_append
  rw [isGuardrailFail, hlist, List.drop_left' (by decide), decide_eq_true (List.prefix_append _ _), Bool.true_and]

section Messages
variable (texts : NumberTexts) (guard : GuardrailOptions) (g : GuardrailResult)

theorem toList_serverFailures : ∃ rest, (tripMessage texts guard g .serverFailures).toList =
    "server failure rate".toList ++ rest := by
  refine ⟨(" " ++ tripPct texts g.errorRate ++ " over " ++ toString g.total ++ " requests in " ++
    toString guard.windowSeconds ++ "s exceeded " ++ tripPct texts guard.maxErrorRate).toList, ?_⟩
  show ("server failure rate " ++ tripPct texts g.errorRate ++ " over " ++ toString g.total ++ " requests in " ++
    toString guard.windowSeconds ++ "s exceeded " ++ tripPct texts guard.maxErrorRate).toList = _
  simp only [String.toList_append, ← List.append_assoc]
  rfl

theorem toList_rateLimited : (tripMessage texts guard g .rateLimited).toList = (tripPct texts g.rateLimitedRate).toList ++
    " of ".toList ++ (toString g.total).toList ++ " requests were rate limited (429)".toList := by
  show (tripPct texts g.rateLimitedRate ++ " of " ++ toString g.total ++
    " requests were rate limited (429)").toList = _
  simp only [String.toList_append]

theorem toList_authRefused : (tripMessage texts guard g .authRefused).toList = (tripPct texts g.refusalRate).toList ++
    " of ".toList ++ (toString g.total).toList ++
    " requests were refused with 401/403 (bad or expired key, or a limit/suspension)".toList := by
  show (tripPct texts g.refusalRate ++ " of " ++ toString g.total ++
    " requests were refused with 401/403 (bad or expired key, or a limit/suspension)").toList = _
  simp only [String.toList_append]

end Messages

/-- A share does not begin like a server failure. -/
theorem tripPct_head (texts : NumberTexts) {rate : ℚ} (h0 : 0 ≤ rate) (h1 : rate ≤ 1) (rest : List Char) :
    ¬ "server failure rate".toList <+: (tripPct texts rate).toList ++ rest := by
  obtain ⟨n, hn⟩ := toFixed_one texts.plain (x := rate * 100) (by positivity) (by norm_num; linarith)
  obtain ⟨whole, fraction, htext, hwhole, hwhole', -⟩ := fixedDigits_one n
  rintro ⟨tail, htail⟩
  rw [tripPct, hn, String.toList_append, htext] at htail
  cases whole with
  | nil => exact hwhole' rfl
  | cons c cs =>
    have hc : 's' = c := (List.cons.inj htail).1
    have hdigit := hwhole c List.mem_cons_self
    rw [← hc] at hdigit
    exact absurd hdigit (by decide)

/-- The reader recovers from the text of a trip whether the service was at fault. -/
theorem isGuardrailFail_trip (texts : NumberTexts) (guard : GuardrailOptions) {g : GuardrailResult}
    (hrefused : 0 ≤ g.refusalRate ∧ g.refusalRate ≤ 1) (hlimited : 0 ≤ g.rateLimitedRate ∧ g.rateLimitedRate ≤ 1)
    (kind : GuardrailKind) :
    isGuardrailFail ("guardrail: " ++ tripMessage texts guard g kind) = decide (kind ≠ .authRefused) := by
  rw [isGuardrailFail_text]
  cases kind with
  | serverFailures =>
    obtain ⟨rest, hrest⟩ := toList_serverFailures texts guard g
    rw [hrest, decide_eq_true (List.prefix_append _ _)]
    rfl
  | rateLimited =>
    rw [toList_rateLimited, isRateLimitedText_share texts hlimited.1 hlimited.2 g.total _ (by decide +kernel),
      decide_eq_true (by decide +kernel : " requests were rate limited".toList <+:
        " requests were rate limited (429)".toList), Bool.or_true]
    rfl
  | authRefused =>
    rw [toList_authRefused, isRateLimitedText_share texts hrefused.1 hrefused.2 g.total _ (by decide +kernel),
      List.append_assoc, List.append_assoc, decide_eq_false (tripPct_head texts hrefused.1 hrefused.2 _), Bool.false_or]
    decide +kernel

end CronMonitor.LoadTest
