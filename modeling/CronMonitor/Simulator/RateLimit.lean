import CronMonitor.Domain
import CronMonitor.Lib.OrderedMap
import CronMonitor.Lib.TokenBucket

/-!
# The rate limiter of the simulator

`takeRateToken` keeps a token bucket of `rps` tokens for every key. Seen by one key it is the bucket of the library
(`rateAnswers_of_key`), so that the window bound holds at any rate. A bucket that holds less than one token never admits
anyone, whatever `Retry-After` says: `rateLaw_iff`.
-/

namespace CronMonitor

namespace Simulator

/-- `rateLimit` as the schema admits it. -/
structure RateLimit where
  enabled : Bool
  rps : ℚ
  rps_pos : 0 < rps

structure RateConfig where
  rateLimit : RateLimit
  /-- `weak.noRateLimit`. -/
  noRateLimit : Bool

/-- `stamp` is the source's `at`. -/
structure Bucket where
  tokens : ℚ
  stamp : Time
deriving DecidableEq

structure RateLimiter where
  buckets : OrderedMap String Bucket
  rateLimited : ℕ

def RateLimiter.fresh : RateLimiter := ⟨.empty, 0⟩

/-- The `SimError` of a refusal, with its header `Retry-After`. -/
structure RateError where
  code : String
  message : String
  retryAfter : ℕ
deriving DecidableEq

structure RateCall where
  key : String
  now : Time
deriving DecidableEq

def takeRateToken (config : RateConfig) (c : RateCall) (s : RateLimiter) : RateLimiter × Except RateError Unit :=
  let rps := config.rateLimit.rps
  if !config.rateLimit.enabled || config.noRateLimit then (s, .ok ())
  else
    let b := (s.buckets.get? c.key).getD ⟨rps, c.now⟩
    let tokens := min rps (b.tokens + ((c.now - b.stamp : ℤ) : ℚ) / 1000 * rps)
    if tokens < 1 then
      (⟨s.buckets.set c.key ⟨tokens, c.now⟩, s.rateLimited + 1⟩,
        .error ⟨"rate_limited", "rate limit exceeded", (max 1 ⌈(1 - tokens) / rps⌉).toNat⟩)
    else (⟨s.buckets.set c.key ⟨tokens - 1, c.now⟩, s.rateLimited⟩, .ok ())

/-! ### Histories -/

def limiterAfter (config : RateConfig) (s : RateLimiter) (calls : List RateCall) : RateLimiter :=
  calls.foldl (fun s c => (takeRateToken config c s).1) s

def rateAnswers (config : RateConfig) : RateLimiter → List RateCall → List (RateCall × Except RateError Unit)
  | _, [] => []
  | s, c :: rest => (c, (takeRateToken config c s).2) :: rateAnswers config (takeRateToken config c s).1 rest

def InOrder (calls : List RateCall) : Prop := calls.Pairwise fun c d => c.now ≤ d.now

def admits : Except RateError Unit → Bool
  | .ok () => true
  | .error _ => false

/-- The calls of a key that are admitted within `seconds` from `start`, which is in milliseconds. -/
def admittedIn (key : String) (start seconds : ℚ) (l : List (RateCall × Except RateError Unit)) : ℕ :=
  l.countP fun p => (admits p.2 && start ≤ p.1.now && (p.1.now : ℚ) ≤ start + 1000 * seconds) && p.1.key = key

structure RateLaw (config : RateConfig) : Prop where
  window : ∀ calls, InOrder calls → ∀ (key : String) (start seconds : ℚ), 0 ≤ seconds →
    (admittedIn key start seconds (rateAnswers config .fresh calls) : ℚ) ≤
      config.rateLimit.rps * seconds + max config.rateLimit.rps 1
  retry : ∀ calls others key now later error,
    InOrder (calls ++ ⟨key, now⟩ :: (others ++ [⟨key, later⟩])) → (∀ c ∈ others, c.key ≠ key) →
    (takeRateToken config ⟨key, now⟩ (limiterAfter config .fresh calls)).2 = .error error →
    now + 1000 * error.retryAfter ≤ later →
    (takeRateToken config ⟨key, later⟩ (limiterAfter config .fresh (calls ++ ⟨key, now⟩ :: others))).2 = .ok ()

/-! ### The bucket of a key -/

def RateConfig.limits (config : RateConfig) : Prop := config.rateLimit.enabled = true ∧ config.noRateLimit = false

variable {config : RateConfig} {s : RateLimiter} {c : RateCall}

/-- Tokens for every millisecond. -/
def RateConfig.perMs (config : RateConfig) : ℚ := config.rateLimit.rps / 1000

theorem RateConfig.perMs_pos (config : RateConfig) : 0 < config.perMs := div_pos config.rateLimit.rps_pos (by norm_num)

/-- A key without a bucket has a full one. -/
def bucketOf (config : RateConfig) (buckets : OrderedMap String Bucket) (key : String) (now : Time) : TokenBucket ℚ :=
  match buckets.get? key with
  | some b => ⟨b.tokens, b.stamp⟩
  | none => ⟨config.rateLimit.rps, now⟩

theorem tokens_eq (c : RateCall) (s : RateLimiter) : min config.rateLimit.rps
    (((s.buckets.get? c.key).getD ⟨config.rateLimit.rps, c.now⟩).tokens +
      ((c.now - ((s.buckets.get? c.key).getD ⟨config.rateLimit.rps, c.now⟩).stamp : ℤ) : ℚ) / 1000 *
        config.rateLimit.rps) =
    (bucketOf config s.buckets c.key c.now).refilled config.perMs config.rateLimit.rps c.now := by
  rw [TokenBucket.refilled, bucketOf, RateConfig.perMs]
  cases s.buckets.get? c.key with
  | none => simp
  | some b =>
    simp only [Option.getD_some]
    push_cast
    ring_nf

theorem takeRateToken_on (hon : config.limits) (c : RateCall) (s : RateLimiter) : takeRateToken config c s =
    let tokens := (bucketOf config s.buckets c.key c.now).refilled config.perMs config.rateLimit.rps c.now
    if tokens < 1 then
      (⟨s.buckets.set c.key ⟨tokens, c.now⟩, s.rateLimited + 1⟩,
        .error ⟨"rate_limited", "rate limit exceeded", (max 1 ⌈(1 - tokens) / config.rateLimit.rps⌉).toNat⟩)
    else (⟨s.buckets.set c.key ⟨tokens - 1, c.now⟩, s.rateLimited⟩, .ok ()) := by
  have hoff : (!config.rateLimit.enabled || config.noRateLimit) = false := by rw [hon.1, hon.2]; rfl
  unfold takeRateToken
  simp only [hoff, Bool.false_eq_true, if_false, tokens_eq]

theorem takeRateToken_eq (hon : config.limits) (c : RateCall) (s : RateLimiter) :
    admits (takeRateToken config c s).2 =
        ((bucketOf config s.buckets c.key c.now).take config.perMs config.rateLimit.rps c.now).1 ∧
      (takeRateToken config c s).1.buckets = s.buckets.set c.key
        ⟨((bucketOf config s.buckets c.key c.now).take config.perMs config.rateLimit.rps c.now).2.tokens, c.now⟩ := by
  rw [takeRateToken_on hon]
  rcases lt_or_ge ((bucketOf config s.buckets c.key c.now).refilled config.perMs config.rateLimit.rps c.now) 1 with
    h | h
  · rw [TokenBucket.take_of_lt h]
    simp only [if_pos h]
    exact ⟨rfl, trivial⟩
  · rw [TokenBucket.take_of_le h]
    simp only [if_neg (not_lt.2 h)]
    exact ⟨rfl, trivial⟩

theorem eq_ok_of_admits {r : Except RateError Unit} (h : admits r = true) : r = .ok () := by
  cases r with
  | ok u => rfl
  | error e => cases h

theorem takeRateToken_off (hoff : ¬config.limits) (c : RateCall) (s : RateLimiter) :
    takeRateToken config c s = (s, .ok ()) := by
  refine if_pos ?_
  cases henabled : config.rateLimit.enabled with
  | false => rfl
  | true =>
    cases hweak : config.noRateLimit with
    | true => rfl
    | false => exact absurd ⟨henabled, hweak⟩ hoff

theorem bucketOf_set {m : OrderedMap String Bucket} {key key' : String} {b : Bucket} {now : Time} :
    bucketOf config (m.set key b) key' now =
      if key = key' then ⟨b.tokens, b.stamp⟩ else bucketOf config m key' now := by
  simp only [bucketOf, OrderedMap.get?_set]
  split_ifs <;> rfl

/-- Up to its first call the bucket of a key is full. -/
theorem refilled_bucketOf {key : String} {since now : Time} (h : since ≤ now) :
    (bucketOf config s.buckets key since).refilled config.perMs config.rateLimit.rps now =
      (bucketOf config s.buckets key now).refilled config.perMs config.rateLimit.rps now := by
  unfold bucketOf
  cases s.buckets.get? key with
  | some b => rfl
  | none =>
    have hsince : ((since : ℤ) : ℚ) ≤ (now : ℤ) := Int.cast_le.2 h
    have hflow : 0 ≤ (((now : ℤ) : ℚ) - (since : ℤ)) * config.perMs :=
      mul_nonneg (sub_nonneg.2 hsince) config.perMs_pos.le
    show min _ _ = min _ _
    rw [min_eq_left (by linarith), sub_self, zero_mul, add_zero, min_self]

theorem take_bucketOf {key : String} {since now : Time} (h : since ≤ now) :
    (bucketOf config s.buckets key since).take config.perMs config.rateLimit.rps now =
      (bucketOf config s.buckets key now).take config.perMs config.rateLimit.rps now := by
  rw [TokenBucket.take, TokenBucket.take, refilled_bucketOf h]

/-- A call touches the bucket of its key only. -/
theorem bucketOf_takeRateToken (hon : config.limits) (key : String) {since : Time} (hsince : since ≤ c.now) :
    bucketOf config (takeRateToken config c s).1.buckets key since =
      if c.key = key then ((bucketOf config s.buckets key since).take config.perMs config.rateLimit.rps c.now).2
      else bucketOf config s.buckets key since := by
  rw [(takeRateToken_eq hon c s).2, bucketOf_set]
  split_ifs with hkey
  · rw [← hkey, take_bucketOf hsince]
    exact congrArg (TokenBucket.mk _) TokenBucket.take_stamp.symm
  · rfl

def timesOf (key : String) (calls : List RateCall) : List ℚ :=
  (calls.filter (·.key = key)).map fun c => ((c.now : ℤ) : ℚ)

/-- What a key sees of a history is what its bucket answers. -/
theorem rateAnswers_of_key (hon : config.limits) {key : String} {since : Time} : ∀ (calls : List RateCall)
    (s : RateLimiter), (∀ c ∈ calls, since ≤ c.now) →
    ((rateAnswers config s calls).filter (·.1.key = key)).map (fun p => (((p.1.now : ℤ) : ℚ), admits p.2)) =
      (bucketOf config s.buckets key since).takes config.perMs config.rateLimit.rps (timesOf key calls) := by
  intro calls
  induction calls with
  | nil => exact fun _ _ => rfl
  | cons c rest ih =>
    intro s hsince
    obtain ⟨hc, hrest⟩ := List.forall_mem_cons.1 hsince
    have hafter := bucketOf_takeRateToken (s := s) hon key hc
    have htail := ih (takeRateToken config c s).1 hrest
    by_cases hkey : c.key = key
    · rw [if_pos hkey] at hafter
      rw [hafter] at htail
      have htimes : timesOf key (c :: rest) = ((c.now : ℤ) : ℚ) :: timesOf key rest := by
        simp [timesOf, hkey]
      rw [rateAnswers, List.filter_cons_of_pos (by simpa using hkey), List.map_cons, htail, htimes, TokenBucket.takes,
        (takeRateToken_eq hon c s).1, hkey, take_bucketOf hc]
    · rw [if_neg hkey] at hafter
      rw [hafter] at htail
      have htimes : timesOf key (c :: rest) = timesOf key rest := by simp [timesOf, hkey]
      rw [rateAnswers, List.filter_cons_of_neg (by simpa using hkey), htail, htimes]

/-! ### The law -/

/-- The bound for any window, at any rate. -/
theorem admittedIn_le (hon : config.limits) {calls : List RateCall} (hcalls : InOrder calls) (key : String)
    (start : ℚ) {seconds : ℚ} (hseconds : 0 ≤ seconds) :
    (admittedIn key start seconds (rateAnswers config .fresh calls) : ℚ) ≤
      config.rateLimit.rps + config.rateLimit.rps * seconds := by
  have hrps := config.rateLimit.rps_pos
  obtain ⟨since, hsince⟩ : ∃ since, ∀ c ∈ calls, since ≤ c.now := by
    cases calls with
    | nil => exact ⟨0, nofun⟩
    | cons c rest =>
      refine ⟨c.now, fun d hd => ?_⟩
      rcases List.mem_cons.1 hd with rfl | hd
      · exact le_refl _
      · exact (List.pairwise_cons.1 hcalls).1 d hd
  have hcount : admittedIn key start seconds (rateAnswers config .fresh calls) =
      TokenBucket.admitted start (start + 1000 * seconds) ((bucketOf config RateLimiter.fresh.buckets key since).takes
        config.perMs config.rateLimit.rps (timesOf key calls)) := by
    rw [← rateAnswers_of_key hon calls .fresh hsince, TokenBucket.admitted, List.countP_map, List.countP_filter,
      admittedIn]
    rfl
  have hordered : (bucketOf config RateLimiter.fresh.buckets key since).Ordered (timesOf key calls) := by
    refine ⟨hrps.le, fun t ht => ?_, ?_⟩
    · obtain ⟨c, hc, rfl⟩ := List.mem_map.1 ht
      exact Int.cast_le.2 (hsince c (List.mem_filter.1 hc).1)
    · refine List.pairwise_map.2 ((hcalls.filter _).imp fun h => ?_)
      exact Int.cast_le.2 h
  rw [hcount]
  refine (TokenBucket.admitted_le_window config.perMs_pos.le hrps.le (by linarith) _ _ hordered).trans ?_
  rw [RateConfig.perMs]
  linarith

/-- What a refusal says, and the bucket it was given on. -/
theorem refused_eq (hon : config.limits) {error : RateError} (h : (takeRateToken config c s).2 = .error error) :
    (bucketOf config s.buckets c.key c.now).refilled config.perMs config.rateLimit.rps c.now < 1 ∧
      (1 - (bucketOf config s.buckets c.key c.now).refilled config.perMs config.rateLimit.rps c.now) /
        config.rateLimit.rps ≤ error.retryAfter := by
  rw [takeRateToken_on hon] at h
  dsimp only at h
  split_ifs at h with hlt
  obtain rfl := Except.error.inj h
  refine ⟨hlt, (Int.le_ceil _).trans ?_⟩
  have hle : ∀ z : ℤ, z ≤ ((max 1 z).toNat : ℤ) := fun z => by omega
  exact_mod_cast hle _

theorem limiterAfter_others (hon : config.limits) {key : String} {since : Time} : ∀ (others : List RateCall)
    (s : RateLimiter), (∀ c ∈ others, c.key ≠ key ∧ since ≤ c.now) →
    bucketOf config (limiterAfter config s others).buckets key since = bucketOf config s.buckets key since := by
  intro others
  induction others with
  | nil => exact fun _ _ => rfl
  | cons c rest ih =>
    intro s h
    obtain ⟨⟨hkey, hc⟩, hrest⟩ := List.forall_mem_cons.1 h
    have hstep := bucketOf_takeRateToken (s := s) hon key hc
    rw [if_neg hkey] at hstep
    exact (ih _ hrest).trans hstep

theorem admitted_after_wait (hon : config.limits) (hrps : 1 ≤ config.rateLimit.rps) {calls others : List RateCall}
    {key : String} {now later : Time} {error : RateError}
    (horder : InOrder (calls ++ ⟨key, now⟩ :: (others ++ [⟨key, later⟩]))) (hothers : ∀ c ∈ others, c.key ≠ key)
    (hrefused : (takeRateToken config ⟨key, now⟩ (limiterAfter config .fresh calls)).2 = .error error)
    (hwait : now + 1000 * error.retryAfter ≤ later) :
    (takeRateToken config ⟨key, later⟩ (limiterAfter config .fresh (calls ++ ⟨key, now⟩ :: others))).2 = .ok () := by
  set s := limiterAfter config .fresh calls
  obtain ⟨hlt, hsaid⟩ := refused_eq hon hrefused
  have hsince : ∀ c ∈ others, c.key ≠ key ∧ now ≤ c.now := fun c hc => ⟨hothers c hc,
    (List.pairwise_cons.1 (List.pairwise_append.1 horder).2.1).1 c (List.mem_append_left _ hc)⟩
  have hlater : now ≤ later :=
    (le_add_of_nonneg_right (mul_nonneg (by norm_num) (Int.natCast_nonneg _))).trans hwait
  -- the bucket as the refusal has left it
  have hbucket : bucketOf config (limiterAfter config .fresh (calls ++ ⟨key, now⟩ :: others)).buckets key now =
      ⟨(bucketOf config s.buckets key now).refilled config.perMs config.rateLimit.rps now, now⟩ := by
    have hsplit : limiterAfter config .fresh (calls ++ ⟨key, now⟩ :: others) =
        limiterAfter config (takeRateToken config ⟨key, now⟩ s).1 others := List.foldl_append ..
    have hcall := bucketOf_takeRateToken (s := s) (c := ⟨key, now⟩) hon key (le_refl now)
    rw [if_pos rfl, TokenBucket.take_of_lt hlt] at hcall
    rw [hsplit, limiterAfter_others hon others _ hsince, hcall]
  refine eq_ok_of_admits ?_
  rw [(takeRateToken_eq hon _ _).1, ← take_bucketOf hlater, hbucket]
  refine TokenBucket.take_of_waited config.perMs_pos hrps ?_
  have hwait' : (((now : ℤ) : ℚ)) + 1000 * error.retryAfter ≤ (later : ℤ) := by exact_mod_cast hwait
  have hms : ∀ t : ℚ, (1 - t) / config.perMs = 1000 * ((1 - t) / config.rateLimit.rps) := fun t => by
    rw [RateConfig.perMs, div_div_eq_mul_div, mul_comm, mul_div_assoc]
  dsimp only at hsaid ⊢
  rw [hms]
  linarith

/-- Off, the limiter has no window bound. -/
theorem admittedIn_off (hoff : ¬config.limits) (n : ℕ) :
    admittedIn "k" 0 0 (rateAnswers config .fresh (List.replicate n ⟨"k", 0⟩)) = n := by
  have hall : ∀ s, rateAnswers config s (List.replicate n ⟨"k", 0⟩) = List.replicate n (⟨"k", 0⟩, .ok ()) := by
    intro s
    induction n with
    | zero => rfl
    | succ n ih => rw [List.replicate_succ, rateAnswers, takeRateToken_off hoff, ih, ← List.replicate_succ]
  rw [hall, admittedIn, List.countP_replicate]
  simp [admits]

/-- The limiter keeps its law exactly if it is on and its buckets hold a whole token. -/
theorem rateLaw_iff (config : RateConfig) : RateLaw config ↔ config.limits ∧ 1 ≤ config.rateLimit.rps := by
  constructor
  · intro h
    have hon : config.limits := by
      by_contra hoff
      have hwindow := h.window (List.replicate (⌈max config.rateLimit.rps 1⌉₊ + 1) ⟨"k", 0⟩)
        (List.pairwise_replicate.2 (.inr (le_refl _))) "k" 0 0 le_rfl
      rw [admittedIn_off hoff] at hwindow
      have hceil := Nat.le_ceil (max config.rateLimit.rps 1)
      push_cast at hwindow
      linarith
    refine ⟨hon, ?_⟩
    by_contra hsmall
    have hrefused : ∀ (c : RateCall) (s : RateLimiter), admits (takeRateToken config c s).2 = false := fun c s => by
      rw [(takeRateToken_eq hon c s).1]
      exact TokenBucket.take_of_cap_lt (not_le.1 hsmall)
    cases hfirst : (takeRateToken config ⟨"k", 0⟩ .fresh).2 with
    | ok u =>
      have := hrefused ⟨"k", 0⟩ .fresh
      rw [hfirst] at this
      cases this
    | error e =>
      have horder : InOrder [⟨"k", 0⟩, ⟨"k", 1000 * (e.retryAfter : ℤ)⟩] := by
        refine List.pairwise_pair.2 ?_
        show (0 : ℤ) ≤ 1000 * e.retryAfter
        omega
      have hretry := h.retry [] [] "k" 0 (1000 * (e.retryAfter : ℤ)) e horder nofun hfirst (by rw [zero_add])
      have := hrefused ⟨"k", 1000 * (e.retryAfter : ℤ)⟩ (limiterAfter config .fresh ([] ++ ⟨"k", 0⟩ :: []))
      rw [hretry] at this
      cases this
  · rintro ⟨hon, hrps⟩
    refine ⟨fun calls hcalls key start seconds hseconds => ?_, ?_⟩
    · have hle := admittedIn_le hon hcalls key start hseconds
      have hmax := le_max_left config.rateLimit.rps 1
      linarith
    · exact fun calls others key now later error horder hothers hrefused hwait =>
        admitted_after_wait hon hrps horder hothers hrefused hwait

/-- Half a request a second: no call is ever admitted. -/
def halfRate : RateConfig := ⟨⟨true, 1 / 2, by norm_num⟩, false⟩

/-- The second call waits the second that the first was told, and is refused like it. -/
theorem halfRate_breaks : ¬RateLaw halfRate := by
  intro h
  have hfirst : (takeRateToken halfRate ⟨"k", 0⟩ .fresh).2 = .error ⟨"rate_limited", "rate limit exceeded", 1⟩ := by
    decide +kernel
  have hsecond : (takeRateToken halfRate ⟨"k", 1000⟩ (limiterAfter halfRate .fresh [⟨"k", 0⟩])).2 =
      .error ⟨"rate_limited", "rate limit exceeded", 1⟩ := by
    decide +kernel
  have hretry := h.retry [] [] "k" 0 1000 _ (List.pairwise_pair.2 (by decide)) nofun hfirst (by decide)
  cases hsecond.symm.trans hretry

end Simulator

end CronMonitor
