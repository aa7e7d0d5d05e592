import CronMonitor.HealthCheck.Executor

/-!
# Requests that the policy has seen

Every request of an attempt should go where the SSRF policy has let it go earlier in the attempt. The request to the
target does. The request to a token endpoint comes first and is never looked at, so that an attempt keeps the rule
exactly when it needs no token.
-/

namespace CronMonitor.HealthCheck
open Targets (TargetConfig)

variable (api : UrlApi) (base64 : String → String)

/-- Every request goes to a protocol and a host that the policy has accepted before. -/
def Vetted (events : List Event) : Prop :=
  ∀ pre url post, events = pre ++ .sent url :: post →
    ∃ vetted, .accepted vetted ∈ pre ∧ api.parse vetted = api.parse url

/-- The credentials of a token handshake are complete, the endpoint has a URL that can be sent to, and the cache has no
fresh token. -/
def AsksForToken (target : TargetConfig) (creds : Option Credentials) (cache : TokenCache) (now : Time) : Prop :=
  target.authenticationType = .oauth2 ∧
    ∃ c ∈ creds.bind oauth2Credentials, sendable api c.tokenUrl = true ∧ freshToken c cache now = none

variable {api base64} {target : TargetConfig} {creds : Option Credentials} {m : Moment} {cache : TokenCache}

theorem not_vetted_of_sent_first {url : String} {post : List Event} : ¬ Vetted api (.sent url :: post) := by
  intro h
  obtain ⟨_, hmem, -⟩ := h [] url post rfl
  cases hmem

theorem vetted_nil : Vetted api [] := by
  intro pre url post h
  simp at h

theorem vetted_refused (url : String) : Vetted api [.refused url] := by
  intro pre u post h
  rcases pre with _ | ⟨e, pre⟩
  · cases h
  · simp at h

theorem vetted_accepted {v u : String} (h : api.parse u = api.parse v) : Vetted api [.accepted v, .sent u] := by
  intro pre url post heq
  rcases pre with _ | ⟨e, pre⟩
  · cases heq
  · rcases pre with _ | ⟨e', pre⟩
    · cases heq
      exact ⟨v, List.mem_cons_self, h.symm⟩
    · simp at heq

theorem fetchToken_events (c : OAuth2Credentials) (reply : TokenReply) (now : Time) :
    (fetchToken api c reply now).1 = if sendable api c.tokenUrl then [.sent c.tokenUrl] else [] := by
  unfold fetchToken
  split_ifs <;> rfl

theorem getOAuth2Token_events (c : OAuth2Credentials) (now repliedAt : Time) (reply : TokenReply) :
    (getOAuth2Token api c cache now reply repliedAt).1 =
      if sendable api c.tokenUrl ∧ freshToken c cache now = none then [.sent c.tokenUrl] else [] := by
  unfold getOAuth2Token
  cases hf : freshToken c cache now with
  | some token => simp
  | none =>
    have hevents := @fetchToken_events api c reply repliedAt
    cases hfetch : fetchToken api c reply repliedAt with
    | mk events result =>
      rw [hfetch] at hevents
      cases result <;> simpa using hevents

/-- Authentication makes no request, but for the one to a token endpoint. -/
theorem buildAuthMaterial_events : (∃ url, AsksForToken api target creds cache m.now ∧
      (buildAuthMaterial base64 api target.authenticationType creds cache m.now m.tokenReply m.repliedAt).1 = [.sent url]) ∨
    (¬ AsksForToken api target creds cache m.now ∧
      (buildAuthMaterial base64 api target.authenticationType creds cache m.now m.tokenReply m.repliedAt).1 = []) := by
  by_cases hasks : target.authenticationType = .oauth2 ∧ ∃ c ∈ creds.bind oauth2Credentials, True
  · obtain ⟨htype, c, hc, -⟩ := hasks
    obtain ⟨cs, rfl, hcs⟩ := Option.bind_eq_some_iff.1 hc
    have hevents := @getOAuth2Token_events api cache c m.now m.repliedAt m.tokenReply
    have hauth : (buildAuthMaterial base64 api target.authenticationType (some cs) cache m.now m.tokenReply m.repliedAt).1 =
        (getOAuth2Token api c cache m.now m.tokenReply m.repliedAt).1 := by
      rw [htype]
      simp only [buildAuthMaterial, hcs]
      split <;> simp_all
    have hiff : AsksForToken api target (some cs) cache m.now ↔
        sendable api c.tokenUrl = true ∧ freshToken c cache m.now = none := by
      simp [AsksForToken, htype, hcs]
    rw [hauth, hevents, hiff]
    by_cases h : sendable api c.tokenUrl = true ∧ freshToken c cache m.now = none
    · exact .inl ⟨c.tokenUrl, h, if_pos h⟩
    · exact .inr ⟨h, if_neg h⟩
  · have hno : ¬ AsksForToken api target creds cache m.now := by
      rintro ⟨htype, c, hc, -⟩
      exact hasks ⟨htype, c, hc, trivial⟩
    refine .inr ⟨hno, ?_⟩
    cases creds with
    | none => cases target.authenticationType <;> rfl
    | some cs =>
      cases htype : target.authenticationType <;> try rfl
      have hcs : oauth2Credentials cs = none := by
        by_contra hne
        obtain ⟨c, hc⟩ := Option.ne_none_iff_exists'.1 hne
        exact hasks ⟨htype, c, by simpa using hc, trivial⟩
      simp [buildAuthMaterial, hcs]

theorem buildUrl_parse {base url : String} {query : List (String × String)} (h : buildUrl api base query = some url) :
    api.parse url = api.parse base := by
  unfold buildUrl at h
  split_ifs at h
  · cases h
    rfl
  · exact api.parse_setParams _ _ _ h

/-- What an attempt does after authentication. -/
theorem attempt_events : ∃ rest, Vetted api rest ∧ (attempt api base64 target creds m cache).1 =
    (buildAuthMaterial base64 api target.authenticationType creds cache m.now m.tokenReply m.repliedAt).1 ++ rest := by
  unfold attempt
  split
  · rename_i h
    exact ⟨[], vetted_nil, by rw [h]; simp⟩
  · rename_i events cache' auth h
    rw [h]
    split
    · exact ⟨[], vetted_nil, by simp⟩
    · rename_i url hurl
      split
      · exact ⟨_, vetted_refused _, rfl⟩
      · exact ⟨_, vetted_refused _, rfl⟩
      · exact ⟨_, vetted_accepted (buildUrl_parse hurl), rfl⟩

theorem attempt_vetted_iff :
    Vetted api (attempt api base64 target creds m cache).1 ↔ ¬ AsksForToken api target creds cache m.now := by
  obtain ⟨rest, hrest, hevents⟩ := @attempt_events api base64 target creds m cache
  rw [hevents]
  rcases @buildAuthMaterial_events api base64 target creds m cache with ⟨url, hasks, hauth⟩ | ⟨hno, hauth⟩
  · rw [hauth]
    exact ⟨fun h => absurd h not_vetted_of_sent_first, fun h => absurd hasks h⟩
  · rw [hauth]
    exact ⟨fun _ => hno, fun _ => hrest⟩

/-- Every attempt made is one from the cache it found. -/
theorem mem_attempts {moments : Nat → Moment} {left n : Nat} {a : AttemptLog}
    (h : a ∈ (attempts api base64 target creds moments n left cache).1) :
    ∃ m : Moment, a.now = m.now ∧ a.events = (attempt api base64 target creds m a.cache).1 := by
  induction left generalizing n cache with
  | zero =>
    rw [attempts] at h
    refine ⟨moments n, ?_⟩
    split at h <;> rename_i hattempt
    · obtain rfl := List.mem_singleton.1 h
      simp [hattempt]
    · obtain rfl := List.mem_singleton.1 h
      simp [hattempt]
  | succ left ih =>
    rw [attempts] at h
    split at h <;> rename_i hattempt
    · obtain rfl := List.mem_singleton.1 h
      exact ⟨moments n, rfl, by simp [hattempt]⟩
    · dsimp only at h
      split_ifs at h
      · rcases List.mem_cons.1 h with rfl | h
        · exact ⟨moments n, rfl, by simp [hattempt]⟩
        · exact ih h
      · obtain rfl := List.mem_singleton.1 h
        exact ⟨moments n, rfl, by simp [hattempt]⟩

/-- Every request of a check is vetted earlier in its attempt exactly when no attempt has to ask for a token. -/
theorem executeCheck_vetted_iff (api : UrlApi) (base64 : String → String) (target : TargetConfig)
    (creds : Option Credentials) (moments : Nat → Moment) (cache : TokenCache) :
    (∀ a ∈ (executeCheck api base64 target creds moments cache).1, Vetted api a.events) ↔
      ∀ a ∈ (executeCheck api base64 target creds moments cache).1, ¬ AsksForToken api target creds a.cache a.now := by
  refine forall₂_congr fun a ha => ?_
  obtain ⟨m, hnow, hevents⟩ := mem_attempts ha
  rw [hevents, hnow]
  exact attempt_vetted_iff

/-! ### A token endpoint in the private network -/

def metadataUrl : String := "http://169.254.169.254/latest/api/token"

def publicUrl : String := "https://api.example.com/health"

/-- The two URLs, neither of which gets parameters. -/
def twoUrls : UrlApi where
  parse url :=
    if url = metadataUrl then some ⟨"http:", "169.254.169.254"⟩
    else if url = publicUrl then some ⟨"https:", "api.example.com"⟩
    else none
  setParams _ _ := none
  isIP host := if host = "169.254.169.254" || host = "203.0.113.7" then some .v4 else none
  parse_setParams _ _ _ h := by cases h

def oauthTarget : TargetConfig where
  name := "payments"
  description := none
  environment := .production
  endpointClass := .auth
  severityDefault := .high
  isMoneyMoving := false
  url := publicUrl
  method := .get
  authenticationType := .oauth2
  headers := []
  requestBody := Targets.Json.null
  expectedStatus := none
  expectedResponse := none
  timeoutMs := 5000
  frequencyCron := "*/5 * * * *"
  retry := ⟨0, 500, 2, 5000⟩
  slaTargetPercent := 99
  ownerId := none
  teamId := none
  escalationPolicyId := none
  tags := []
  isActive := true
  allowPrivateNetwork := false
  bypassMinIntervalFloor := false

def metadataCredentials : Credentials :=
  [("tokenUrl", metadataUrl), ("tokenUsername", "user"), ("tokenPassword", "pass")]

/-- The token endpoint refuses, everything else is fine. -/
def refusingMoment : Moment := ⟨0, .reply 403 none, 0, fun _ => some ["203.0.113.7"], .reply 200 true false, id⟩

/-- The check posts the credentials to the metadata address, which the policy refuses. -/
theorem token_request_not_vetted :
    (executeCheck twoUrls id oauthTarget (some metadataCredentials) (fun _ => refusingMoment) []).1.map (·.events) =
        [[.sent metadataUrl]] ∧
      assertUrlAllowed twoUrls (fun _ => some ["203.0.113.7"]) metadataUrl false =
        .error "resolves to blocked address 169.254.169.254" ∧
      ¬ ∀ a ∈ (executeCheck twoUrls id oauthTarget (some metadataCredentials) (fun _ => refusingMoment) []).1,
        Vetted twoUrls a.events := by
  have hevents : (executeCheck twoUrls id oauthTarget (some metadataCredentials) (fun _ => refusingMoment) []).1.map
      (·.events) = [[.sent metadataUrl]] := by decide +kernel
  refine ⟨hevents, by decide +kernel, fun h => ?_⟩
  have hmem : [Event.sent metadataUrl] ∈
      (executeCheck twoUrls id oauthTarget (some metadataCredentials) (fun _ => refusingMoment) []).1.map (·.events) := by
    rw [hevents]
    exact List.mem_cons_self
  obtain ⟨a, ha, hae⟩ := List.mem_map.1 hmem
  have hvetted := h a ha
  rw [hae] at hvetted
  exact not_vetted_of_sent_first hvetted

end CronMonitor.HealthCheck
