import Mathlib.Tactic.Positivity
import CronMonitor.HealthCheck.Executor
import CronMonitor.Lib.JsonAlike
import CronMonitor.Targets.Service

/-!
# The retries of a check

`executeCheck` with what it sends and how long it sleeps. The run's id is drawn once; the bodies of all attempts are the
target's, templated with it (`templating.ts`). What lies outside, the id generator, the clock and the answers, is a
`World`, so that the answers are any sequence; the attempts of `HealthCheck.executeCheck`, with their tokens and
addresses, are those of one such world (`executor_attempts`).
-/

namespace CronMonitor.HealthCheck.Retry

open Utf16 Json
open Targets (HttpMethod)

/-! ### `templating.ts` -/

def UUID_PLACEHOLDER : JsString := js "\x7b\x7buuid\x7d\x7d"

/-- `text.split(sep)` from a place on: the next `skip` units belong to a `sep`, and `piece` has begun. -/
def splitOn (sep : JsString) : ℕ → JsString → JsString → List JsString
  | _, piece, [] => [piece]
  | skip + 1, piece, _ :: text => splitOn sep skip piece text
  | 0, piece, c :: text =>
    if sep.isPrefixOf (c :: text) then piece :: splitOn sep (sep.length - 1) [] text
    else splitOn sep 0 (piece ++ [c]) text

/-- A string with the placeholders replaced. -/
def fillIn (uuid text : JsString) : JsString :=
  if UUID_PLACEHOLDER <:+: text then uuid.intercalate (splitOn UUID_PLACEHOLDER 0 [] text) else text

variable {ν : Type}

mutual

def walk (uuid : JsString) : Value ν → Value ν
  | .str s => .str (fillIn uuid s)
  | .arr xs => .arr (walkElements uuid xs)
  | .obj ms => .obj (walkMembers uuid ms)
  | .null => .null
  | .bool b => .bool b
  | .num x => .num x

def walkElements (uuid : JsString) : List (Value ν) → List (Value ν)
  | [] => []
  | x :: xs => walk uuid x :: walkElements uuid xs

/-- In the copy a member `__proto__` would set the prototype, which is not written. -/
def walkMembers (uuid : JsString) : List (JsString × Value ν) → List (JsString × Value ν)
  | [] => []
  | (key, v) :: ms =>
    if key = js "__proto__" then walkMembers uuid ms else (key, walk uuid v) :: walkMembers uuid ms

end

def substituteUuid (v : Value ν) (uuid : JsString) : Value ν := walk uuid v

/-! ### The loop -/

/-- The bounds of the schema and of the table. -/
structure RetryPolicy extends Targets.RetryConfig where
  backoffMultiplier_min : 1 ≤ backoffMultiplier

/-- What the loop reads of a target; `requestBody` is `null` where there is none. -/
structure CheckedTarget (ν : Type) where
  method : HttpMethod
  requestBody : Value ν
  retry : RetryPolicy

/-- An attempt's result; `details` are its fields that the loop only passes on. -/
structure Answer (δ : Type) extends AttemptResult where
  details : δ
deriving DecidableEq, Repr

structure Outcome (δ : Type) where
  result : Answer δ
  attempts : ℕ
  checkedAt : Time
deriving DecidableEq, Repr

structure World (σ δ : Type) where
  randomUUID : σ → JsString × σ
  /-- An attempt that sends this body. -/
  attempt : Option JsString → σ → Except String (Answer δ) × σ
  sleep : ℚ → σ → σ
  now : σ → Time

inductive Act (δ : Type)
  | attempted (body : Option JsString) (answer : Except String (Answer δ))
  | slept (ms : ℚ)

/-- The delay after the `n`-th attempt. -/
def delay (retry : RetryPolicy) (n : ℕ) : ℚ :=
  min (retry.baseDelayMs * retry.backoffMultiplier ^ (n - 1)) retry.maxDelayMs

variable (F : NumberFormat ν) {σ δ : Type} (W : World σ δ) (target : CheckedTarget ν)

/-- The body of an attempt. -/
def sentBody (runId : JsString) : Option JsString :=
  match target.requestBody with
  | .null => none
  | v =>
    if target.method ≠ .get ∧ target.method ≠ .head then
      some (match substituteUuid v runId with
        | .str s => s
        | v => compact F v)
    else none

/-- The attempts from the `n`-th on, with `left` more after it. -/
def attempts (runId : JsString) : ℕ → ℕ → σ → List (Act δ) × Except String (Outcome δ)
  | n, left, s =>
    let body := sentBody F target runId
    match W.attempt body s with
    | (.error e, _) => ([.attempted body (.error e)], .error e)
    | (.ok r, s) =>
      match left with
      | 0 => ([.attempted body (.ok r)], .ok ⟨r, n, W.now s⟩)
      | left + 1 =>
        if r.again then
          let ms := delay target.retry n
          let rest := attempts runId (n + 1) left (W.sleep ms s)
          (.attempted body (.ok r) :: .slept ms :: rest.1, rest.2)
        else ([.attempted body (.ok r)], .ok ⟨r, n, W.now s⟩)

def executeCheck (s : σ) : List (Act δ) × Except String (Outcome δ) :=
  let (runId, s) := W.randomUUID s
  attempts F W target runId 1 target.retry.count s

/-! ### What templating does -/

section Templating
variable {sep piece text uuid : JsString}

theorem splitOn_pos : ∀ {text piece : JsString} {skip : ℕ}, 1 ≤ (splitOn sep skip piece text).length := by
  intro text
  induction text with
  | nil =>
    intro piece skip
    cases skip <;> exact le_rfl
  | cons c text ih =>
    intro piece skip
    cases skip with
    | succ skip => exact ih
    | zero =>
      rw [splitOn]
      split
      · simp
      · exact ih

/-- A text with the separator in it has two pieces or more. -/
theorem splitOn_two (hsep : sep ≠ []) : ∀ {text piece : JsString}, sep <:+: text → 2 ≤ (splitOn sep 0 piece text).length := by
  intro text
  induction text with
  | nil => exact fun h => absurd (List.infix_nil.1 h) hsep
  | cons c text ih =>
    intro piece h
    rw [splitOn]
    split
    · exact Nat.succ_le_succ splitOn_pos
    · rename_i hhere
      rcases List.infix_cons_iff.1 h with hstart | hlater
      · exact absurd (List.isPrefixOf_iff_prefix.2 hstart) hhere
      · exact ih hlater

/-- A string with the placeholder carries the run's id. -/
theorem infix_fillIn (h : UUID_PLACEHOLDER <:+: text) : uuid <:+: fillIn uuid text := by
  have htwo : 2 ≤ (splitOn UUID_PLACEHOLDER 0 [] text).length := splitOn_two (by decide) h
  rw [fillIn, if_pos h]
  match hpieces : splitOn UUID_PLACEHOLDER 0 [] text with
  | [] | [_] => simp [hpieces] at htwo
  | p :: q :: rest =>
    rw [List.intercalate_cons_cons]
    exact ⟨p, uuid.intercalate (q :: rest), by simp⟩

end Templating

mutual

/-- The strings that a copy keeps, outside members `__proto__`. -/
def strings : Value ν → List JsString
  | .str s => [s]
  | .arr xs => stringsElements xs
  | .obj ms => stringsMembers ms
  | .null => []
  | .bool _ => []
  | .num _ => []

def stringsElements : List (Value ν) → List JsString
  | [] => []
  | x :: xs => strings x ++ stringsElements xs

def stringsMembers : List (JsString × Value ν) → List JsString
  | [] => []
  | (key, v) :: ms => if key = js "__proto__" then stringsMembers ms else strings v ++ stringsMembers ms

end

mutual

/-- Every string of the template is filled in, wherever it stands. -/
theorem strings_walk (uuid : JsString) : ∀ v : Value ν, strings (walk uuid v) = (strings v).map (fillIn uuid)
  | .str _ => by simp only [walk, strings, List.map_cons, List.map_nil]
  | .arr xs => by simp only [walk, strings, strings_walkElements uuid xs]
  | .obj ms => by simp only [walk, strings, strings_walkMembers uuid ms]
  | .null => by simp only [walk, strings, List.map_nil]
  | .bool _ => by simp only [walk, strings, List.map_nil]
  | .num _ => by simp only [walk, strings, List.map_nil]

theorem strings_walkElements (uuid : JsString) :
    ∀ xs : List (Value ν), stringsElements (walkElements uuid xs) = (stringsElements xs).map (fillIn uuid)
  | [] => by simp only [walkElements, stringsElements, List.map_nil]
  | x :: xs => by
    simp only [walkElements, stringsElements, List.map_append, strings_walk uuid x, strings_walkElements uuid xs]

theorem strings_walkMembers (uuid : JsString) :
    ∀ ms : List (JsString × Value ν), stringsMembers (walkMembers uuid ms) = (stringsMembers ms).map (fillIn uuid)
  | [] => by simp only [walkMembers, stringsMembers, List.map_nil]
  | (key, v) :: ms => by
    rw [walkMembers, stringsMembers]
    by_cases hproto : key = js "__proto__"
    · rw [if_pos hproto, if_pos hproto]
      exact strings_walkMembers uuid ms
    · rw [if_neg hproto, if_neg hproto, stringsMembers, if_neg hproto, List.map_append, strings_walk uuid v,
        strings_walkMembers uuid ms]

end

/-- A string of the template with the placeholder in it carries the run's id in the body. -/
theorem carries_walk {uuid s : JsString} {v : Value ν} (hs : s ∈ strings v) (h : UUID_PLACEHOLDER <:+: s) :
    ∃ t ∈ strings (walk uuid v), uuid <:+: t := by
  rw [strings_walk]
  exact ⟨fillIn uuid s, List.mem_map_of_mem hs, infix_fillIn h⟩

/-! ### The delays -/

section Delay
variable (retry : RetryPolicy)

theorem delay_mono {n m : ℕ} (h : n ≤ m) : delay retry n ≤ delay retry m := by
  have hpow : retry.backoffMultiplier ^ (n - 1) ≤ retry.backoffMultiplier ^ (m - 1) :=
    pow_le_pow_right₀ retry.backoffMultiplier_min (Nat.sub_le_sub_right h 1)
  exact min_le_min_right _ (mul_le_mul_of_nonneg_left hpow (Nat.cast_nonneg _))

theorem delay_le (n : ℕ) : delay retry n ≤ retry.maxDelayMs := min_le_right _ _

end Delay

/-! ### The law -/

variable {F W target}

/-- The result of an attempt that is not made again. -/
def Answer.Stops (r : Answer δ) : Prop :=
  r.status ≠ .down ∧ r.status ≠ .unknown ∨ ∀ failureType ∈ r.failureType, failureType ∉ RETRYABLE_FAILURES

theorem Answer.stops_iff {r : Answer δ} : r.Stops ↔ r.again = false := by
  unfold Answer.Stops AttemptResult.again
  cases r.failureType with
  | none => simp
  | some failureType =>
    simp only [Option.mem_some_iff, forall_eq', Option.any_some, Bool.and_eq_false_iff, Bool.or_eq_false_iff,
      decide_eq_false_iff_not]

/-- The acts of a check: attempts that are made again, each with the delay after it, and a last one. -/
def actsOf (retry : RetryPolicy) (body : Option JsString) (last : Except String (Answer δ)) :
    ℕ → List (Answer δ) → List (Act δ)
  | _, [] => [.attempted body last]
  | n, r :: earlier => .attempted body (.ok r) :: .slept (delay retry n) :: actsOf retry body last (n + 1) earlier

/-- What a run of the loop from the `n`-th attempt on, with `left` more after it, comes to. -/
structure Follows (retry : RetryPolicy) (body : Option JsString) (n left : ℕ)
    (run : List (Act δ) × Except String (Outcome δ)) (earlier : List (Answer δ)) (last : Except String (Answer δ)) : Prop
    where
  acts : run.1 = actsOf retry body last n earlier
  earlier_again : ∀ r ∈ earlier, ¬ r.Stops
  enough : earlier.length ≤ left
  failed : ∀ e, last = .error e → run.2 = .error e
  stopped : ∀ r, last = .ok r → r.Stops ∨ earlier.length = left
  returned : ∀ r, last = .ok r → ∃ checkedAt, run.2 = .ok ⟨r, n + earlier.length, checkedAt⟩

/-- One attempt more before. -/
theorem Follows.cons {retry : RetryPolicy} {body : Option JsString} {n left : ℕ}
    {run : List (Act δ) × Except String (Outcome δ)} {earlier : List (Answer δ)} {last : Except String (Answer δ)}
    {r : Answer δ} (h : Follows retry body (n + 1) left run earlier last) (hr : ¬ r.Stops) :
    Follows retry body n (left + 1) (.attempted body (.ok r) :: .slept (delay retry n) :: run.1, run.2) (r :: earlier) last
    where
  acts := by rw [h.acts, actsOf]
  earlier_again := List.forall_mem_cons.2 ⟨hr, h.earlier_again⟩
  enough := Nat.succ_le_succ h.enough
  failed := h.failed
  stopped r' hlast := (h.stopped r' hlast).imp_right (congrArg Nat.succ)
  returned r' hlast := by
    obtain ⟨checkedAt, hrun⟩ := h.returned r' hlast
    exact ⟨checkedAt, by rw [hrun, List.length_cons, Nat.add_right_comm, Nat.add_assoc]⟩

theorem attempts_follows (F : NumberFormat ν) (W : World σ δ) (target : CheckedTarget ν) (runId : JsString) : ∀ (left n : ℕ) (s : σ), ∃ earlier last,
    Follows target.retry (sentBody F target runId) n left (attempts F W target runId n left s) earlier last := by
  intro left
  induction left with
  | zero =>
    intro n s
    cases hattempt : W.attempt (sentBody F target runId) s with
    | mk answer s' =>
      refine ⟨[], answer, ?_⟩
      cases answer <;> constructor <;> simp [attempts, hattempt, actsOf]
  | succ left ih =>
    intro n s
    cases hattempt : W.attempt (sentBody F target runId) s with
    | mk answer s' =>
      cases answer with
      | error e =>
        refine ⟨[], .error e, ?_⟩
        constructor <;> simp [attempts, hattempt, actsOf]
      | ok r =>
        by_cases hagain : r.again = true
        · obtain ⟨earlier, last, h⟩ := ih (n + 1) (W.sleep (delay target.retry n) s')
          refine ⟨r :: earlier, last, ?_⟩
          have hrun := h.cons (r := r) (by rw [Answer.stops_iff, hagain]; decide)
          rw [attempts]
          simpa only [hattempt, hagain, if_true] using hrun
        · refine ⟨[], .ok r, ?_⟩
          have hstops : r.Stops := Answer.stops_iff.2 (eq_false_of_ne_true hagain)
          constructor <;> simp [attempts, hattempt, actsOf, hagain, hstops]

def Act.body? : Act δ → Option (Option JsString)
  | .attempted body _ => some body
  | .slept _ => none

def Act.delay? : Act δ → Option ℚ
  | .attempted _ _ => none
  | .slept ms => some ms

def Act.answer? : Act δ → Option (Except String (Answer δ))
  | .attempted _ answer => some answer
  | .slept _ => none

/-! ### The attempts of the executor -/

section Executor
variable (api : UrlApi) (base64 : String → String) (config : Targets.TargetConfig) (creds : Option Credentials)
  (moments : ℕ → Moment) (runId : JsString)

/-- The world of an executor: the number of the attempt, and the token cache. -/
def momentWorld : World (ℕ × TokenCache) Unit where
  randomUUID s := (runId, s)
  attempt _ s :=
    match attempt api base64 config creds (moments s.1) ((moments s.1).meanwhile s.2) with
    | (_, cache, .error e) => (.error e, (s.1 + 1, cache))
    | (_, cache, .ok r) => (.ok ⟨r, ()⟩, (s.1 + 1, cache))
  sleep _ s := s
  now s := (moments s.1).now

/-- The executor's attempts are those of the loop in its world: as many, and to the same result. -/
theorem executor_attempts : ∀ (left n : ℕ) (cache : TokenCache),
    (HealthCheck.attempts api base64 config creds moments n left cache).2 =
        (attempts F (momentWorld api base64 config creds moments runId) target runId n left (n, cache)).2.map
          (·.result.toAttemptResult) ∧
      (HealthCheck.attempts api base64 config creds moments n left cache).1.length =
        ((attempts F (momentWorld api base64 config creds moments runId) target runId n left (n, cache)).1.filterMap
          Act.answer?).length := by
  intro left
  induction left with
  | zero =>
    intro n cache
    rw [HealthCheck.attempts, attempts]
    rcases hattempt : attempt api base64 config creds (moments n) ((moments n).meanwhile cache) with ⟨events, cache', e | r⟩ <;>
      simp [momentWorld, hattempt, Except.map, Act.answer?]
  | succ left ih =>
    intro n cache
    rw [HealthCheck.attempts, attempts]
    rcases hattempt : attempt api base64 config creds (moments n) ((moments n).meanwhile cache) with ⟨events, cache', e | r⟩
    · simp [momentWorld, hattempt, Except.map, Act.answer?]
    · obtain ⟨hresult, hlength⟩ := ih (n + 1) cache'
      by_cases hagain : r.again = true
      · simpa [momentWorld, hattempt, hagain, Act.answer?] using ⟨hresult, hlength⟩
      · simp [momentWorld, hattempt, hagain, Except.map, Act.answer?]

end Executor

section Acts
variable {retry : RetryPolicy} {body : Option JsString} {last : Except String (Answer δ)}

theorem answers_actsOf : ∀ {earlier : List (Answer δ)} {n : ℕ},
    (actsOf retry body last n earlier).filterMap Act.answer? = earlier.map .ok ++ [last] := by
  intro earlier
  induction earlier with
  | nil => exact fun {_} => rfl
  | cons r earlier ih => exact fun {_} => congrArg (Except.ok r :: ·) ih

theorem bodies_actsOf : ∀ {earlier : List (Answer δ)} {n : ℕ},
    (actsOf retry body last n earlier).filterMap Act.body? = List.replicate (earlier.length + 1) body := by
  intro earlier
  induction earlier with
  | nil => exact fun {_} => rfl
  | cons r earlier ih => exact fun {_} => congrArg (body :: ·) ih

theorem delays_actsOf : ∀ {earlier : List (Answer δ)} {n : ℕ},
    (actsOf retry body last n earlier).filterMap Act.delay? = (List.range' n earlier.length).map (delay retry) := by
  intro earlier
  induction earlier with
  | nil => exact fun {_} => rfl
  | cons r earlier ih => exact fun {n} => congrArg (delay retry n :: ·) ih

end Acts

end CronMonitor.HealthCheck.Retry
