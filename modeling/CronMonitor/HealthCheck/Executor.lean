import CronMonitor.HealthCheck.TokenCache

/-!
# `executor.service.ts`

`executeCheck` makes its attempts one after the other. What an attempt meets (`Moment`) is the clock, the name service,
the answers of the token endpoint and of the target, and what other checks have meanwhile done to the token cache. Every
attempt leaves its requests and its checks behind (`AttemptLog`). Of an attempt's result the fields are kept that the
retry policy reads.
-/

namespace CronMonitor.HealthCheck
open Targets (TargetConfig)

/-- The target's answer: an error of the transport, or a response. -/
inductive Reply
  | fails (failureType : CheckFailureType)
  /-- `passed` is the validation's verdict, `slow` that the latency is near the timeout. -/
  | reply (statusCode : Nat) (passed slow : Bool)
deriving DecidableEq, Repr

structure Moment where
  now : Time
  tokenReply : TokenReply
  repliedAt : Time
  resolve : String → Option (List String)
  reply : Reply
  /-- What other checks of the process do to the cache before this attempt. -/
  meanwhile : TokenCache → TokenCache

structure AttemptResult where
  status : HealthStatus
  httpStatus : Option Nat
  failureType : Option CheckFailureType
deriving DecidableEq, Repr

structure AttemptLog where
  cache : TokenCache
  now : Time
  events : List Event

/-! ### `failure-classifier.ts` -/

def RETRYABLE_FAILURES : List CheckFailureType :=
  [.timeout, .dnsError, .connectionError, .tlsError, .http5xx, .rateLimited]

def classifyHttpStatus (status : Nat) : CheckFailureType :=
  if status = 401 ∨ status = 403 then .authenticationError
  else if status = 429 then .rateLimited
  else if 500 ≤ status then .http5xx
  else if 400 ≤ status then .http4xx
  else .validationError

/-! ### An attempt -/

variable (api : UrlApi) (base64 : String → String)

def buildUrl (base : String) (query : List (String × String)) : Option String :=
  if query = [] then some base else api.setParams base query

/-- The failure when the policy blocks the target. -/
def preflightSsrf (resolve : String → Option (List String)) (target : TargetConfig) : Option CheckFailureType :=
  match assertUrlAllowed api resolve target.url target.allowPrivateNetwork with
  | .ok () => none
  | .error reason =>
    some (if "could not resolve".toList <:+: reason.toList ∨ "no addresses".toList <:+: reason.toList then .dnsError
      else .unknown)

def replyResult : Reply → AttemptResult
  | .fails failureType => ⟨.down, none, some failureType⟩
  | .reply statusCode passed slow =>
    if statusCode = 429 then ⟨.unknown, some 429, some .rateLimited⟩
    else if passed then ⟨if slow then .degraded else .up, some statusCode, none⟩
    else
      ⟨.down, some statusCode,
        some (if 200 ≤ statusCode ∧ statusCode < 300 then .validationError else classifyHttpStatus statusCode)⟩

def attempt (target : TargetConfig) (creds : Option Credentials) (m : Moment) (cache : TokenCache) :
    List Event × TokenCache × Except String AttemptResult :=
  match buildAuthMaterial base64 api target.authenticationType creds cache m.now m.tokenReply m.repliedAt with
  | (events, cache', .error message) => (events, cache', .error message)
  | (events, cache', .ok auth) =>
    match buildUrl api target.url auth.query with
    | none => (events, cache', .error "Invalid URL")
    | some url =>
      match preflightSsrf api m.resolve target with
      | some .dnsError => (events ++ [.refused target.url], cache', .ok ⟨.down, none, some .dnsError⟩)
      | some failureType => (events ++ [.refused target.url], cache', .ok ⟨.unknown, none, some failureType⟩)
      | none => (events ++ [.accepted target.url, .sent url], cache', .ok (replyResult m.reply))

/-- `failed && retryable`. -/
def AttemptResult.again (r : AttemptResult) : Bool :=
  (r.status = .down || r.status = .unknown) && r.failureType.any (· ∈ RETRYABLE_FAILURES)

/-- The attempts from the `n`-th on, at most `left` more after it. -/
def attempts (target : TargetConfig) (creds : Option Credentials) (moments : Nat → Moment) :
    Nat → Nat → TokenCache → List AttemptLog × Except String AttemptResult
  | n, left, cache =>
    let cache := (moments n).meanwhile cache
    match attempt api base64 target creds (moments n) cache with
    | (events, _, .error message) => ([⟨cache, (moments n).now, events⟩], .error message)
    | (events, cache', .ok r) =>
      match left with
      | 0 => ([⟨cache, (moments n).now, events⟩], .ok r)
      | left + 1 =>
        if r.again then
          let rest := attempts target creds moments (n + 1) left cache'
          (⟨cache, (moments n).now, events⟩ :: rest.1, rest.2)
        else ([⟨cache, (moments n).now, events⟩], .ok r)

def executeCheck (target : TargetConfig) (creds : Option Credentials) (moments : Nat → Moment) (cache : TokenCache) :
    List AttemptLog × Except String AttemptResult :=
  attempts api base64 target creds moments 1 target.retry.count cache

end CronMonitor.HealthCheck
