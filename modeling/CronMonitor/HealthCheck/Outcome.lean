import CronMonitor.HealthCheck.Vetted
import CronMonitor.JobRunner

/-!
# When a check has an outcome

Of the three calls that leave the process only two are caught: the name service inside `preflightSsrf` and the request to
the target. An error of the token endpoint leaves `attempt`, and with it `executeCheck`, and the run is dead-lettered.
So a check has an outcome exactly if every attempt that needs a token is served one.
-/

namespace CronMonitor.HealthCheck
open Targets (TargetConfig)
open Utf16 (js)
open Json (Value)
open Validator (getByPath)

/-- Where the token is read in a response. -/
def OAuth2Credentials.path (c : OAuth2Credentials) : String :=
  c.tokenPath.getD (if c.tokenMode = some "form" then "access_token" else DEFAULT_TOKEN_PATH)

/-- The endpoint answers with a token. -/
def TokenReply.Serves (c : OAuth2Credentials) : TokenReply → Prop
  | .fails _ => False
  | .reply statusCode body =>
    statusCode < 300 ∧ ∃ json ∈ body, ∃ value, getByPath (.json json) (js c.path) = some (.json (.str value)) ∧ value ≠ []

/-- An attempt of the target that needs a token finds a fresh one in the cache, or gets one. -/
def TokenServed (api : UrlApi) (target : TargetConfig) (creds : Option Credentials) (cache : TokenCache) (m : Moment) :
    Prop :=
  target.authenticationType = .oauth2 → ∀ c ∈ creds.bind oauth2Credentials,
    freshToken c cache m.now ≠ none ∨ sendable api c.tokenUrl = true ∧ m.tokenReply.Serves c

variable {api : UrlApi} {base64 : String → String} {target : TargetConfig} {creds : Option Credentials} {m : Moment}
  {cache : TokenCache}

/-! ### The token -/

theorem readToken_ok_iff (c : OAuth2Credentials) (json : Value ℚ) (now : Time) :
    (∃ token, readToken c json now = .ok token) ↔
      ∃ value, getByPath (.json json) (js c.path) = some (.json (.str value)) ∧ value ≠ [] := by
  have hpath : c.path = c.tokenPath.getD (if c.tokenMode = some "form" then "access_token" else DEFAULT_TOKEN_PATH) := rfl
  unfold readToken
  simp only [← hpath]
  split
  · rename_i value hvalue
    by_cases hempty : value = []
    · simp [hvalue, hempty]
    · simp [hvalue, hempty]
  · rename_i hnone
    constructor
    · rintro ⟨_, h⟩
      cases h
    · rintro ⟨value, hvalue, -⟩
      exact absurd hvalue (hnone value)

theorem fetchToken_ok_iff (c : OAuth2Credentials) (reply : TokenReply) (now : Time) :
    (∃ token, (fetchToken api c reply now).2 = .ok token) ↔ sendable api c.tokenUrl = true ∧ reply.Serves c := by
  unfold fetchToken
  split
  · rename_i hsend
    cases reply with
    | fails message => simp [TokenReply.Serves]
    | reply statusCode body =>
      by_cases hstatus : 300 ≤ statusCode
      · have hno : ¬ statusCode < 300 := by omega
        simp [TokenReply.Serves, hstatus, hno]
      · have hlt : statusCode < 300 := by omega
        cases body with
        | none => simp [TokenReply.Serves, hstatus]
        | some json =>
          simp only [if_neg hstatus, hsend, true_and, TokenReply.Serves, hlt, Option.mem_some_iff, exists_eq_left']
          exact readToken_ok_iff c json now
  · rename_i hsend
    simp [hsend]

theorem getOAuth2Token_ok_iff (c : OAuth2Credentials) (now repliedAt : Time) (reply : TokenReply) :
    (∃ token, (getOAuth2Token api c cache now reply repliedAt).2.2 = .ok token) ↔
      freshToken c cache now ≠ none ∨ sendable api c.tokenUrl = true ∧ reply.Serves c := by
  unfold getOAuth2Token
  cases hfresh : freshToken c cache now with
  | some token => simp
  | none =>
    have hfetch := @fetchToken_ok_iff api c reply repliedAt
    rw [← hfetch]
    rcases fetchToken api c reply repliedAt with ⟨events, message | token⟩ <;> simp

theorem buildAuthMaterial_ok_iff :
    (∃ auth, (buildAuthMaterial base64 api target.authenticationType creds cache m.now m.tokenReply m.repliedAt).2.2 =
      .ok auth) ↔ TokenServed api target creds cache m := by
  unfold TokenServed
  cases creds with
  | none => cases target.authenticationType <;> simp [buildAuthMaterial]
  | some cs =>
    cases htype : target.authenticationType with
    | oauth2 =>
      cases hcs : oauth2Credentials cs with
      | none => simp [buildAuthMaterial, hcs]
      | some c =>
        have hget := @getOAuth2Token_ok_iff api cache c m.now m.repliedAt m.tokenReply
        simp only [buildAuthMaterial, hcs, Option.bind_some, Option.mem_some_iff, forall_eq', true_implies, ← hget]
        rcases getOAuth2Token api c cache m.now m.tokenReply m.repliedAt with ⟨events, cache', message | token⟩ <;> simp
    | none | apiKey | bearer | basic | customHeader => simp [buildAuthMaterial]

/-! ### The attempts -/

/-- What the code relies on: the target's URL is one, and parameters can be set on a URL. -/
structure Checkable (api : UrlApi) (target : TargetConfig) : Prop where
  url : (api.parse target.url).isSome
  setParams : ∀ base query, (api.parse base).isSome → (api.setParams base query).isSome

theorem buildUrl_isSome (h : Checkable api target) (query : List (String × String)) :
    ∃ url, buildUrl api target.url query = some url := by
  unfold buildUrl
  split
  · exact ⟨_, rfl⟩
  · exact Option.isSome_iff_exists.1 (h.setParams _ query h.url)

/-- The target has answered, and the response passes in good time. -/
def Reply.Healthy : Reply → Prop
  | .fails _ => False
  | .reply statusCode passed slow => statusCode ≠ 429 ∧ passed = true ∧ slow = false

theorem replyResult_up {reply : Reply} (h : (replyResult reply).status = .up) : reply.Healthy := by
  cases reply with
  | fails failureType => cases h
  | reply statusCode passed slow =>
    unfold replyResult at h
    by_cases hlimit : statusCode = 429
    · simp [hlimit] at h
    · cases passed <;> cases slow <;> simp_all [Reply.Healthy]

theorem attempt_ok_iff (h : Checkable api target) :
    (∃ r, (attempt api base64 target creds m cache).2.2 = .ok r) ↔ TokenServed api target creds cache m := by
  rw [← @buildAuthMaterial_ok_iff api base64]
  unfold attempt
  rcases buildAuthMaterial base64 api target.authenticationType creds cache m.now m.tokenReply m.repliedAt with
    ⟨events, cache', message | auth⟩
  · simp
  · obtain ⟨url, hurl⟩ := buildUrl_isSome h auth.query
    simp only [hurl, Except.ok.injEq, exists_eq', iff_true]
    split <;> exact ⟨_, rfl⟩

theorem attempt_up {r : AttemptResult} (h : (attempt api base64 target creds m cache).2.2 = .ok r)
    (hup : r.status = .up) : m.reply.Healthy := by
  unfold attempt at h
  split at h
  · cases h
  · split at h
    · cases h
    · split at h
      · cases h
        cases hup
      · cases h
        cases hup
      · cases h
        exact replyResult_up hup

/-- The check has an outcome, and one that is up only if the last answer is healthy. -/
def Yields (moments : Nat → Moment) (n : Nat) (run : List AttemptLog × Except String AttemptResult) : Prop :=
  ∃ r, run.2 = .ok r ∧ (r.status = .up → (moments (n + run.1.length - 1)).reply.Healthy)

/-- A run that ends with its first attempt. -/
theorem yields_single {moments : Nat → Moment} {n : Nat} {a : AttemptLog} {result : Except String AttemptResult}
    {served : AttemptLog → Moment → Prop} (hserved : (∃ r, result = .ok r) ↔ served a (moments n))
    (hup : ∀ r, result = .ok r → r.status = .up → (moments n).reply.Healthy) :
    Yields moments n ([a], result) ↔ ∀ i b, [a][i]? = some b → served b (moments (n + i)) := by
  constructor
  · rintro ⟨r, hr, -⟩ i b hb
    obtain ⟨hi, hget⟩ := List.getElem?_eq_some_iff.1 hb
    obtain rfl : i = 0 := by simpa using hi
    obtain rfl : a = b := hget
    exact hserved.1 ⟨r, hr⟩
  · intro h
    obtain ⟨r, hr⟩ := hserved.2 (h 0 a rfl)
    exact ⟨r, hr, hup r hr⟩

/-- A run that goes on after its first attempt. -/
theorem yields_cons {moments : Nat → Moment} {n : Nat} {a : AttemptLog} {rest : List AttemptLog × Except String AttemptResult}
    {served : AttemptLog → Moment → Prop} (hserved : served a (moments n)) (hrest : rest.1 ≠ [])
    (ih : Yields moments (n + 1) rest ↔ ∀ i b, rest.1[i]? = some b → served b (moments (n + 1 + i))) :
    Yields moments n (a :: rest.1, rest.2) ↔ ∀ i b, (a :: rest.1)[i]? = some b → served b (moments (n + i)) := by
  have hlen := List.length_pos_of_ne_nil hrest
  have hlast : n + (a :: rest.1).length - 1 = n + 1 + rest.1.length - 1 := by
    rw [List.length_cons]
    omega
  have hyields : Yields moments n (a :: rest.1, rest.2) ↔ Yields moments (n + 1) rest := by
    simp only [Yields, hlast]
  rw [hyields, ih]
  constructor
  · intro h i b hb
    cases i with
    | zero =>
      obtain rfl : a = b := by simpa using hb
      exact hserved
    | succ i =>
      have hb' := h i b (by simpa using hb)
      rwa [Nat.add_assoc, Nat.add_comm 1 i] at hb'
  · intro h i b hb
    rw [Nat.add_assoc, Nat.add_comm 1 i]
    exact h (i + 1) b (by simpa using hb)

theorem attempts_ne_nil (moments : Nat → Moment) (n left : Nat) (cache : TokenCache) :
    (attempts api base64 target creds moments n left cache).1 ≠ [] := by
  cases left with
  | zero =>
    rw [attempts]
    split <;> exact List.cons_ne_nil _ _
  | succ left =>
    rw [attempts]
    split
    · exact List.cons_ne_nil _ _
    · dsimp only
      split_ifs <;> exact List.cons_ne_nil _ _

/-- What the first attempt of a run needs, and what it may answer. -/
theorem first_attempt (h : Checkable api target) :
    ((∃ r, (attempt api base64 target creds m cache).2.2 = .ok r) ↔ TokenServed api target creds cache m) ∧
      ∀ r, (attempt api base64 target creds m cache).2.2 = .ok r → r.status = .up → m.reply.Healthy :=
  ⟨attempt_ok_iff h, fun _ hr => attempt_up hr⟩

theorem attempts_yields_iff (h : Checkable api target) (moments : Nat → Moment) (n left : Nat) (cache : TokenCache) :
    Yields moments n (attempts api base64 target creds moments n left cache) ↔
      ∀ i a, (attempts api base64 target creds moments n left cache).1[i]? = some a →
        TokenServed api target creds a.cache (moments (n + i)) := by
  induction left generalizing n cache with
  | zero =>
    have hfirst := @first_attempt api base64 target creds (moments n) ((moments n).meanwhile cache) h
    rw [attempts]
    generalize attempt api base64 target creds (moments n) ((moments n).meanwhile cache) = answer at hfirst
    obtain ⟨events, cache', message | r⟩ := answer
    all_goals exact yields_single hfirst.1 hfirst.2
  | succ left ih =>
    have hfirst := @first_attempt api base64 target creds (moments n) ((moments n).meanwhile cache) h
    rw [attempts]
    generalize attempt api base64 target creds (moments n) ((moments n).meanwhile cache) = answer at hfirst
    obtain ⟨events, cache', message | r⟩ := answer
    · exact yields_single hfirst.1 hfirst.2
    · dsimp only
      split_ifs
      · exact yields_cons (hfirst.1.1 ⟨r, rfl⟩) (attempts_ne_nil moments (n + 1) left cache') (ih (n + 1) cache')
      · exact yields_single hfirst.1 hfirst.2

/-- A check has an outcome exactly when every attempt it makes that needs a token is served one. -/
theorem executeCheck_yields_iff (api : UrlApi) (base64 : String → String) (target : TargetConfig)
    (creds : Option Credentials) (moments : Nat → Moment) (cache : TokenCache) (h : Checkable api target) :
    Yields moments 1 (executeCheck api base64 target creds moments cache) ↔
      ∀ i a, (executeCheck api base64 target creds moments cache).1[i]? = some a →
        TokenServed api target creds a.cache (moments (1 + i)) :=
  attempts_yields_iff h moments 1 target.retry.count cache

/-! ### A token endpoint that times out -/

def tokenUrl : String := "https://auth.example.com/token"

/-- The target and its token endpoint, neither of which keeps parameters. -/
def plainUrls : UrlApi where
  parse url := if url = tokenUrl ∨ url = publicUrl then some ⟨"https:", "example.com"⟩ else none
  setParams base _ := if base = tokenUrl ∨ base = publicUrl then some base else none
  isIP host := if host = "203.0.113.7" then some .v4 else none
  parse_setParams base query url h := by
    split_ifs at h
    obtain rfl : base = url := by simpa using h
    rfl

def patientTarget : TargetConfig := { oauthTarget with retry := ⟨2, 500, 2, 5000⟩ }

theorem patientTarget_checkable : Checkable plainUrls patientTarget := by
  refine ⟨by decide +kernel, fun base query h => ?_⟩
  unfold plainUrls at h ⊢
  simp only at h ⊢
  split_ifs at h ⊢ with hurl
  · rfl
  · cases h

def tokenCredentials : Credentials := [("tokenUrl", tokenUrl), ("tokenUsername", "user"), ("tokenPassword", "pass")]

/-- The target is healthy, `reply` is what the token endpoint does. -/
def tokenMoment (reply : TokenReply) : Moment := ⟨0, reply, 0, fun _ => some ["203.0.113.7"], .reply 200 true false, id⟩

def tokenTimeout : TokenReply := .fails "The operation was aborted due to timeout"

def tokenGranted : TokenReply := .reply 200 (some (.obj [(js "data", .obj [(js "token", .str (js "t"))])]))

theorem executeCheck_yields_granted :
    Yields (fun _ => tokenMoment tokenGranted) 1
      (executeCheck plainUrls id patientTarget (some tokenCredentials) (fun _ => tokenMoment tokenGranted) []) := by
  refine (executeCheck_yields_iff plainUrls id patientTarget (some tokenCredentials) _ [] patientTarget_checkable).2 ?_
  intro i a _ _ c hc
  have hc' : oauth2Credentials tokenCredentials = some c := hc
  have hcreds : oauth2Credentials tokenCredentials = some ⟨tokenUrl, "user", "pass", none, none, none, none, none⟩ := by
    decide +kernel
  rw [hcreds, Option.some.injEq] at hc'
  subst hc'
  exact .inr ⟨by decide +kernel, by decide, _, rfl, js "t", rfl, by decide⟩

/-- The target is healthy and two retries are left, but the check throws, and the runner dead-letters it. -/
theorem token_timeout_dead_letters :
    Checkable plainUrls patientTarget ∧
      (executeCheck plainUrls id patientTarget (some tokenCredentials) (fun _ => tokenMoment tokenTimeout) []).2 =
        .error "The operation was aborted due to timeout" ∧
      (executeCheck plainUrls id patientTarget (some tokenCredentials) (fun _ => tokenMoment tokenTimeout) []).1.length =
        1 ∧
      (tokenMoment tokenTimeout).reply.Healthy ∧
      ∀ env rca target slot claimId, runClaimed env rca target slot claimId
        (.error "The operation was aborted due to timeout") =
          deadLetter target claimId "The operation was aborted due to timeout" := by
  refine ⟨patientTarget_checkable, by decide +kernel, by decide +kernel, ⟨by decide, rfl, rfl⟩, fun _ _ _ _ _ => rfl⟩

end CronMonitor.HealthCheck
