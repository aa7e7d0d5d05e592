import CronMonitor.HealthCheck.Outcome
import CronMonitor.JobRunner
import Mathlib.Algebra.BigOperators.Intervals
import Mathlib.Algebra.Order.BigOperators.Group.Finset
import Mathlib.Tactic.Ring

/-!
# Does the lock outlive the check?

`runScheduledCheck` takes the lock for the request timeouts of all attempts and five seconds more; `executeCheck` also
sleeps between its attempts. Times are exact: the delays are rationals, as the backoff multiplier may be a fraction.
-/

namespace CronMonitor.HealthCheck
open Targets (TargetConfig)
open Finset (range)

/-- The policies and timeouts that `createTargetSchema` lets through. -/
structure Admitted (target : TargetConfig) : Prop where
  count : target.retry.count ≤ 10
  baseDelay : target.retry.baseDelayMs ≤ 60000
  multiplier : 1 ≤ target.retry.backoffMultiplier ∧ target.retry.backoffMultiplier ≤ 10
  maxDelay : target.retry.maxDelayMs ≤ 120000
  timeout : 100 ≤ target.timeoutMs ∧ target.timeoutMs ≤ 120000

/-- The sleep after the `n`-th attempt. -/
def retryDelay (r : Targets.RetryConfig) (n : Nat) : ℚ := min (r.baseDelayMs * r.backoffMultiplier ^ (n - 1)) r.maxDelayMs

/-- The sleeps of a check that makes all its attempts. -/
def retryDelays (r : Targets.RetryConfig) : ℚ := ∑ i ∈ range r.count, retryDelay r (i + 1)

/-- All attempts time out, and all delays are slept. -/
def worstCaseMs (target : TargetConfig) : ℚ :=
  (target.retry.count + 1) * target.timeoutMs + retryDelays target.retry

/-- `ttlMs` of `runScheduledCheck`. -/
def lockTtlMs (schedulerLockTtlMs : Nat) (target : TargetConfig) : Nat :=
  max schedulerLockTtlMs (target.timeoutMs * (target.retry.count + 1) + 5000)

/-- The job runner takes its lock for this time. -/
theorem Call.ttlMs_eq (env : Env) (c : Call) (target : TargetConfig) (htimeout : c.target.timeoutMs = target.timeoutMs)
    (hcount : c.target.retry.count = target.retry.count) : c.ttlMs env = lockTtlMs env.schedulerLockTtlMs target := by
  rw [Call.ttlMs, lockTtlMs, htimeout, hcount]

/-! ### The time a check takes -/

/-- The time from the start of the `n`-th attempt to the end: `took i` is how long the `i`-th request lasts, and there
is a sleep between one attempt of the log and the next. -/
def elapsed (r : Targets.RetryConfig) (took : Nat → ℚ) : Nat → List AttemptLog → ℚ
  | _, [] => 0
  | n, [_] => took n
  | n, _ :: a :: rest => took n + retryDelay r n + elapsed r took (n + 1) (a :: rest)

variable {api : UrlApi} {base64 : String → String} {target : TargetConfig} {creds : Option Credentials}
  {r : Targets.RetryConfig} {took : Nat → ℚ} {timeout : ℚ}

theorem retryDelay_nonneg (h : 0 ≤ r.backoffMultiplier) (n : Nat) : 0 ≤ retryDelay r n := by
  unfold retryDelay
  positivity

/-- The delays from the `n`-th on, with one more in front. -/
theorem delays_succ (n k : Nat) :
    ∑ i ∈ range (k + 1), retryDelay r (n + i) = retryDelay r n + ∑ i ∈ range k, retryDelay r (n + 1 + i) := by
  rw [Finset.sum_range_succ', add_comm]
  congr 1
  exact Finset.sum_congr rfl fun i _ => by rw [Nat.add_assoc, Nat.add_comm 1 i]

theorem elapsed_le (hr : 0 ≤ r.backoffMultiplier) (htimeout : 0 ≤ timeout) (htook : ∀ n, took n ≤ timeout) (n k : Nat)
    (log : List AttemptLog) (hlen : log.length ≤ k + 1) :
    elapsed r took n log ≤ (k + 1) * timeout + ∑ i ∈ range k, retryDelay r (n + i) := by
  have hdelays : ∀ n k, 0 ≤ ∑ i ∈ range k, retryDelay r (n + i) := fun n k =>
    Finset.sum_nonneg fun i _ => retryDelay_nonneg hr _
  induction log generalizing n k with
  | nil =>
    have hk : 0 ≤ (k + 1 : ℚ) * timeout := by positivity
    exact add_nonneg hk (hdelays n k)
  | cons a rest ih =>
    cases rest with
    | nil =>
      have hk : 0 ≤ (k : ℚ) * timeout := by positivity
      have h1 := htook n
      have h2 := hdelays n k
      rw [elapsed]
      linarith
    | cons b rest =>
      cases k with
      | zero => simp at hlen
      | succ k =>
        have hrest := ih (n + 1) k (by simpa using hlen)
        have h1 := htook n
        rw [elapsed, delays_succ]
        push_cast
        linarith

theorem elapsed_eq (htook : ∀ n, took n = timeout) (n k : Nat) (log : List AttemptLog) (hlen : log.length = k + 1) :
    elapsed r took n log = (k + 1) * timeout + ∑ i ∈ range k, retryDelay r (n + i) := by
  induction log generalizing n k with
  | nil => simp at hlen
  | cons a rest ih =>
    cases rest with
    | nil =>
      obtain rfl : k = 0 := by simpa using hlen.symm
      simp [elapsed, htook]
    | cons b rest =>
      cases k with
      | zero => simp at hlen
      | succ k =>
        have hrest := ih (n + 1) k (by simpa using hlen)
        rw [elapsed, delays_succ, hrest, htook]
        push_cast
        ring

theorem attempts_length_le (moments : Nat → Moment) (n left : Nat) (cache : TokenCache) :
    (attempts api base64 target creds moments n left cache).1.length ≤ left + 1 := by
  induction left generalizing n cache with
  | zero =>
    rw [attempts]
    split <;> simp
  | succ left ih =>
    rw [attempts]
    split
    · simp
    · dsimp only
      split_ifs
      · simpa using ih (n + 1) _
      · simp

/-- Attempts that all fail in a way that is retried are all made. -/
theorem attempts_length_eq (moments : Nat → Moment) (n left : Nat) (cache : TokenCache)
    (h : ∀ i cache, ∃ r, (attempt api base64 target creds (moments i) cache).2.2 = .ok r ∧ r.again = true) :
    (attempts api base64 target creds moments n left cache).1.length = left + 1 := by
  induction left generalizing n cache with
  | zero =>
    rw [attempts]
    split <;> simp
  | succ left ih =>
    obtain ⟨r, hr, hagain⟩ := h n ((moments n).meanwhile cache)
    rw [attempts]
    generalize attempt api base64 target creds (moments n) ((moments n).meanwhile cache) = answer at hr
    obtain ⟨events, cache', message | r'⟩ := answer
    · cases hr
    · obtain rfl : r' = r := by simpa using hr
      simp [hagain, ih (n + 1) cache']

theorem worstCaseMs_eq :
    worstCaseMs target =
      (target.retry.count + 1) * target.timeoutMs + ∑ i ∈ range target.retry.count, retryDelay target.retry (1 + i) := by
  simp [worstCaseMs, retryDelays, add_comm]

/-- No check takes longer than the worst case. -/
theorem executeCheck_elapsed_le (h : Admitted target) (moments : Nat → Moment) (cache : TokenCache)
    (htook : ∀ n, took n ≤ target.timeoutMs) :
    elapsed target.retry took 1 (executeCheck api base64 target creds moments cache).1 ≤ worstCaseMs target := by
  rw [worstCaseMs_eq]
  exact elapsed_le (le_trans zero_le_one h.multiplier.1) (by positivity) htook 1 _ _ (attempts_length_le moments 1 _ cache)

/-- A check whose requests all time out takes that long. -/
theorem executeCheck_elapsed_eq (moments : Nat → Moment) (cache : TokenCache)
    (h : ∀ i cache, ∃ r, (attempt api base64 target creds (moments i) cache).2.2 = .ok r ∧ r.again = true)
    (htook : ∀ n, took n = target.timeoutMs) :
    elapsed target.retry took 1 (executeCheck api base64 target creds moments cache).1 = worstCaseMs target := by
  rw [worstCaseMs_eq]
  exact elapsed_eq htook 1 _ _ (attempts_length_eq moments 1 _ cache h)

/-! ### The lock -/

/-- The lock outlives the check exactly if the retry delays fit into the five seconds that are added, or the configured
time to live alone is long enough. -/
theorem lock_outlives_iff (schedulerLockTtlMs : Nat) (target : TargetConfig) :
    worstCaseMs target ≤ lockTtlMs schedulerLockTtlMs target ↔
      retryDelays target.retry ≤ 5000 ∨
        target.timeoutMs * (target.retry.count + 1) + retryDelays target.retry ≤ schedulerLockTtlMs := by
  have hworst : worstCaseMs target = target.timeoutMs * (target.retry.count + 1) + retryDelays target.retry := by
    rw [worstCaseMs, mul_comm]
  rw [hworst, lockTtlMs, Nat.cast_max, le_max_iff, or_comm]
  push_cast
  rw [add_le_add_iff_left]

/-- Ten retries, a minute apart. -/
def slowTarget : TargetConfig := { patientTarget with timeoutMs := 5000, retry := ⟨10, 60000, 1, 60000⟩ }

/-- The schema lets the policy through, but the lock is gone after a minute of the eleven that a check may take. -/
theorem lock_expires_first : Admitted slowTarget ∧ worstCaseMs slowTarget = 655000 ∧ lockTtlMs 15000 slowTarget = 60000 ∧
    ¬ worstCaseMs slowTarget ≤ lockTtlMs 15000 slowTarget := by
  have hworst : worstCaseMs slowTarget = 655000 := by decide +kernel
  have httl : lockTtlMs 15000 slowTarget = 60000 := by decide +kernel
  have hadmitted : Admitted slowTarget :=
    ⟨by decide +kernel, by decide +kernel, by decide +kernel, by decide +kernel, by decide +kernel⟩
  refine ⟨hadmitted, hworst, httl, ?_⟩
  rw [hworst, httl]
  norm_num

end CronMonitor.HealthCheck
