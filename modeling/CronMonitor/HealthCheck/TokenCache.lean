import CronMonitor.HealthCheck.Ssrf
import CronMonitor.HealthCheck.Validator
import CronMonitor.Targets.Repo
import Mathlib.Algebra.Order.Floor.Ring

/-!
# `oauth2-token-cache.ts` and `auth.ts`

A token is fetched where the cache of the process has none that is fresh. What the token endpoint answers is an
observation (`TokenReply`), and so is the clock. A request that is made is an event.
-/

namespace CronMonitor.HealthCheck
open Targets (AuthType)
open Utf16 (JsString js)
open Json (Value)
open Validator (Found getByPath)

/-! ### The token cache -/

structure OAuth2Credentials where
  tokenUrl : String
  tokenUsername : String
  tokenPassword : String
  tokenPath : Option String
  tokenExpiryPath : Option String
  tokenBody : Option String
  tokenMode : Option String
  tokenResource : Option String
deriving DecidableEq, Repr

structure CachedToken where
  value : JsString
  /-- Milliseconds. -/
  expiresAt : ℚ
deriving DecidableEq, Repr

/-- The cache by its keys. -/
abbrev TokenCache := List (String × CachedToken)

def DEFAULT_TOKEN_PATH : String := "data.token"

def DEFAULT_TOKEN_EXPIRY_PATH : String := "data.expiry"

def FALLBACK_TTL_MS : ℚ := 60 * 60 * 1000

def SAFETY_MARGIN_MS : ℚ := 60000

def cacheKey (creds : OAuth2Credentials) : String := s!"{creds.tokenUrl}::{creds.tokenUsername}"

/-- What comes back from the token endpoint: nothing, or a status with a body that is JSON or not. -/
inductive TokenReply
  | fails (message : String)
  | reply (statusCode : Nat) (body : Option (Value ℚ))

inductive Event
  /-- `assertUrlAllowed` accepts or throws. -/
  | accepted (url : String)
  | refused (url : String)
  /-- A request. -/
  | sent (url : String)
deriving DecidableEq, Repr

/-- `undici` sends to HTTP URLs, and throws at anything else before it sends. -/
def sendable (api : UrlApi) (url : String) : Bool :=
  match api.parse url with
  | none => false
  | some u => u.protocol = "http:" || u.protocol = "https:"

def asNumber : Found ℚ → Option ℚ
  | .json (.num q) => some q
  | _ => none

/-- The token of a response, `now` being the time it is read. -/
def readToken (creds : OAuth2Credentials) (json : Value ℚ) (now : Time) : Except String CachedToken :=
  let form := creds.tokenMode = some "form"
  let tokenPath := creds.tokenPath.getD (if form then "access_token" else DEFAULT_TOKEN_PATH)
  match getByPath (.json json) (js tokenPath) with
  | some (.json (.str value)) =>
    if value = [] then .error s!"OAuth2 token not found at \"{tokenPath}\" in token response"
    else
      let expiryPath := creds.tokenExpiryPath.getD (if form then "expires_in" else DEFAULT_TOKEN_EXPIRY_PATH)
      let expiresAt : ℚ :=
        match (getByPath (.json json) (js expiryPath)).bind asNumber with
        | some expiry =>
          if form then now + expiry * 1000 - min SAFETY_MARGIN_MS ⌊expiry * 1000 * (3 / 10)⌋
          else expiry * 1000 - SAFETY_MARGIN_MS
        | none => now + FALLBACK_TTL_MS - SAFETY_MARGIN_MS
      .ok ⟨value, expiresAt⟩
  | _ => .error s!"OAuth2 token not found at \"{tokenPath}\" in token response"

def fetchToken (api : UrlApi) (creds : OAuth2Credentials) (reply : TokenReply) (now : Time) :
    List Event × Except String CachedToken :=
  if sendable api creds.tokenUrl then
    ([.sent creds.tokenUrl],
      match reply with
      | .fails message => .error message
      | .reply statusCode body =>
        if 300 ≤ statusCode then .error s!"OAuth2 token fetch failed (HTTP {statusCode})"
        else
          match body with
          | none => .error "OAuth2 token endpoint returned a non-JSON response"
          | some json => readToken creds json now)
  else ([], .error "Invalid URL")

def TokenCache.get (cache : TokenCache) (key : String) : Option CachedToken := cache.lookup key

def TokenCache.set (cache : TokenCache) (key : String) (token : CachedToken) : TokenCache :=
  (key, token) :: cache.filter (·.1 ≠ key)

/-- The token of the cache that is still fresh. -/
def freshToken (creds : OAuth2Credentials) (cache : TokenCache) (now : Time) : Option CachedToken :=
  (cache.get (cacheKey creds)).filter fun c => (now : ℚ) < c.expiresAt

def getOAuth2Token (api : UrlApi) (creds : OAuth2Credentials) (cache : TokenCache) (now : Time) (reply : TokenReply)
    (repliedAt : Time) : List Event × TokenCache × Except String JsString :=
  match freshToken creds cache now with
  | some c => ([], cache, .ok c.value)
  | none =>
    match fetchToken api creds reply repliedAt with
    | (events, .error message) => (events, cache, .error message)
    | (events, .ok token) => (events, cache.set (cacheKey creds) token, .ok token.value)

/-! ### `auth.ts` -/

abbrev Credentials := List (String × String)

structure AuthMaterial where
  headers : List (String × JsString)
  query : List (String × String)
deriving DecidableEq, Repr

def EMPTY : AuthMaterial := ⟨[], []⟩

/-- A credential that is there and not empty. -/
def Credentials.nonempty (creds : Credentials) (key : String) : Option String := (creds.lookup key).filter (· ≠ "")

/-- The credentials of a token handshake, if they are complete. -/
def oauth2Credentials (creds : Credentials) : Option OAuth2Credentials := do
  let tokenUrl ← creds.nonempty "tokenUrl"
  let tokenUsername ← creds.nonempty "tokenUsername"
  let tokenPassword ← creds.nonempty "tokenPassword"
  return ⟨tokenUrl, tokenUsername, tokenPassword, creds.lookup "tokenPath", creds.lookup "tokenExpiryPath",
    creds.lookup "tokenBody", creds.lookup "tokenMode", creds.lookup "tokenResource"⟩

def apiKeyMaterial (creds : Credentials) : AuthMaterial :=
  match creds.nonempty "apiId", creds.nonempty "apiSecret" with
  | some apiId, some apiSecret => ⟨[("apiId", js apiId), ("apiSecret", js apiSecret)], []⟩
  | _, _ =>
    let value := (((creds.lookup "value").or (creds.lookup "apiKey")).or (creds.lookup "key")).getD ""
    if value = "" then EMPTY
    else
      match creds.nonempty "query" with
      | some query => ⟨[], [(query, value)]⟩
      | none => ⟨[((creds.lookup "header").getD "X-API-Key", js value)], []⟩

variable (base64 : String → String)

/-- The material of the schemes that need no handshake. -/
def staticMaterial (creds : Credentials) : AuthType → AuthMaterial
  | .apiKey => apiKeyMaterial creds
  | .bearer =>
    let token := ((creds.lookup "token").or (creds.lookup "accessToken")).getD ""
    if token = "" then EMPTY else ⟨[("Authorization", js s!"Bearer {token}")], []⟩
  | .basic =>
    let user := (creds.lookup "username").getD ""
    let pass := (creds.lookup "password").getD ""
    let encoded := base64 s!"{user}:{pass}"
    ⟨[("Authorization", js s!"Basic {encoded}")], []⟩
  | .customHeader =>
    match ((creds.lookup "name").or (creds.lookup "header")).filter (· ≠ ""), creds.nonempty "value" with
    | some name, some value => ⟨[(name, js value)], []⟩
    | _, _ => EMPTY
  | .none | .oauth2 => EMPTY

def buildAuthMaterial (api : UrlApi) (type : AuthType) (creds : Option Credentials) (cache : TokenCache) (now : Time)
    (reply : TokenReply) (repliedAt : Time) : List Event × TokenCache × Except String AuthMaterial :=
  match type, creds with
  | .none, _ | _, none => ([], cache, .ok EMPTY)
  | .oauth2, some creds =>
    match oauth2Credentials creds with
    | none => ([], cache, .ok EMPTY)
    | some c =>
      match getOAuth2Token api c cache now reply repliedAt with
      | (events, cache', .error message) => (events, cache', .error message)
      | (events, cache', .ok token) => (events, cache', .ok ⟨[("Authorization", js "Bearer " ++ token)], []⟩)
  | type, some creds => ([], cache, .ok (staticMaterial base64 creds type))

end CronMonitor.HealthCheck
