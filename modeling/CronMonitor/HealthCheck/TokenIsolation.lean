import CronMonitor.HealthCheck.Outcome
import CronMonitor.Lib.Runs

/-!
# Whose token is it?

Calls of `getOAuth2Token` side by side: a call looks into the cache in one step, and where it has to fetch, the answer
comes in a later one. What has been stored, by which credentials, and what has been returned is kept beside the cache.
-/

namespace CronMonitor.HealthCheck

open Utf16 (JsString js)
open Json (Value)
open Validator (getByPath)

/-- A call that waits for its answer. -/
structure PendingCall where
  creds : OAuth2Credentials
  calledAt : Time

/-- The tokens stored so far, the last one first. -/
abbrev StoredTokens := List (OAuth2Credentials × CachedToken)

structure Returned where
  creds : OAuth2Credentials
  calledAt : Time
  value : JsString
  /-- What had been stored by then. -/
  stored : StoredTokens
deriving DecidableEq

structure TokenSys where
  cache : TokenCache
  pending : List PendingCall
  stored : StoredTokens
  returned : List Returned

inductive TokenStep
  | call (creds : OAuth2Credentials) (now : Time)
  | answer (i : Nat) (reply : TokenReply) (repliedAt : Time)

namespace TokenSys

def init : TokenSys := ⟨[], [], [], []⟩

variable (api : UrlApi)

def step (s : TokenSys) : TokenStep → Option TokenSys
  | .call creds now =>
    match freshToken creds s.cache now with
    | some c => some { s with returned := s.returned ++ [⟨creds, now, c.value, s.stored⟩] }
    | none => some { s with pending := s.pending ++ [⟨creds, now⟩] }
  | .answer i reply repliedAt =>
    match s.pending[i]? with
    | none => none
    | some p =>
      match (fetchToken api p.creds reply repliedAt).2 with
      | .error _ => some { s with pending := s.pending.eraseIdx i }
      | .ok token =>
        some
          { cache := s.cache.set (cacheKey p.creds) token
            pending := s.pending.eraseIdx i
            stored := (p.creds, token) :: s.stored
            returned := s.returned ++ [⟨p.creds, p.calledAt, token.value, (p.creds, token) :: s.stored⟩] }

/-- A call whose answer comes at once is `getOAuth2Token`. -/
theorem run_call_answer (s : TokenSys) (hs : s.pending = []) (creds : OAuth2Credentials) (now repliedAt : Time)
    (reply : TokenReply) :
    ∃ s', (Runs.run (step api) s [.call creds now] = some s' ∨
        Runs.run (step api) s [.call creds now, .answer 0 reply repliedAt] = some s') ∧
      s'.pending = [] ∧ s'.cache = (getOAuth2Token api creds s.cache now reply repliedAt).2.1 ∧
      s'.returned = s.returned ++
        match (getOAuth2Token api creds s.cache now reply repliedAt).2.2 with
        | .ok value => [⟨creds, now, value, s'.stored⟩]
        | .error _ => [] := by
  cases hfresh : freshToken creds s.cache now with
  | some c => exact ⟨_, .inl (by simp [Runs.run, step, hfresh]; rfl), by simp [hs, getOAuth2Token, hfresh]⟩
  | none =>
    rcases hfetch : fetchToken api creds reply repliedAt with ⟨events, message | token⟩
    · exact ⟨_, .inr (by simp [Runs.run, step, hfresh, hs, hfetch]; rfl), by simp [getOAuth2Token, hfresh, hfetch]⟩
    · exact ⟨_, .inr (by simp [Runs.run, step, hfresh, hs, hfetch]; rfl), by simp [getOAuth2Token, hfresh, hfetch]⟩

/-- Some fetch with these credentials got the token. -/
def Obtained (creds : OAuth2Credentials) (token : CachedToken) : Prop :=
  ∃ reply repliedAt, (fetchToken api creds reply repliedAt).2 = .ok token

/-- A call returns the last token that was stored for exactly its credentials, and that was not expired when it began. -/
def Right (r : Returned) : Prop :=
  ∃ token, Obtained api r.creds token ∧ r.stored.find? (·.1 = r.creds) = some (r.creds, token) ∧ token.value = r.value ∧
    (r.calledAt : ℚ) < token.expiresAt

/-- The expiry that comes with a token lies after the call. -/
def Lasting (creds : OAuth2Credentials) (calledAt repliedAt : Time) (json : Value ℚ) : Prop :=
  let form := creds.tokenMode = some "form"
  let expiryPath := creds.tokenExpiryPath.getD (if form then "expires_in" else DEFAULT_TOKEN_EXPIRY_PATH)
  match (getByPath (.json json) (js expiryPath)).bind asNumber with
  | some expiry =>
    if form then (calledAt : ℚ) < repliedAt + expiry * 1000 - min SAFETY_MARGIN_MS ⌊expiry * 1000 * (3 / 10)⌋
    else calledAt + SAFETY_MARGIN_MS < expiry * 1000
  | none => calledAt + SAFETY_MARGIN_MS < repliedAt + FALLBACK_TTL_MS

/-- No other credentials of the same URL and user have a token in store that is still fresh; what an endpoint answers
is not expired. -/
def Apart (s : TokenSys) : TokenStep → Prop
  | .call creds now => ∀ e ∈ s.stored, cacheKey e.1 = cacheKey creds → (now : ℚ) < e.2.expiresAt → e.1 = creds
  | .answer i reply repliedAt =>
    ∀ p json, s.pending[i]? = some p → (∃ statusCode, reply = .reply statusCode (some json)) →
      Lasting p.creds p.calledAt repliedAt json

/-! ### The cache holds what was stored last -/

/-- The cache has the last token of each key. -/
structure Mirrors (s : TokenSys) : Prop where
  entry : ∀ creds token, s.cache.get (cacheKey creds) = some token →
    ∃ creds', s.stored.find? (fun e => cacheKey e.1 = cacheKey creds) = some (creds', token)
  obtained : ∀ e ∈ s.stored, Obtained api e.1 e.2
  right : ∀ r ∈ s.returned, Right api r

variable {api} {s s' : TokenSys} {creds : OAuth2Credentials} {now repliedAt : Time} {token : CachedToken}

theorem get_set (cache : TokenCache) (key key' : String) :
    (cache.set key token).get key' = if key' = key then some token else cache.get key' := by
  unfold TokenCache.set TokenCache.get
  rw [List.lookup_cons]
  by_cases h : key' = key
  · simp [h]
  · simp only [beq_eq_false_iff_ne.2 h, if_neg h]
    induction cache with
    | nil => rfl
    | cons e cache ih =>
      by_cases he : e.1 = key
      · have hne : key' ≠ e.1 := fun h' => h (h'.trans he)
        rw [List.filter_cons_of_neg (by simp [he]), ih, List.lookup_cons, beq_eq_false_iff_ne.2 hne]
      · rw [List.filter_cons_of_pos (by simp [he]), List.lookup_cons, List.lookup_cons, ih]

/-- The first that satisfies a condition is the first that satisfies a narrower one, if it does. -/
theorem find?_narrow {α : Type} {p q : α → Bool} {l : List α} {a : α} (h : l.find? p = some a) (ha : q a = true)
    (hqp : ∀ b, q b = true → p b = true) : l.find? q = some a := by
  induction l with
  | nil => cases h
  | cons b l ih =>
    by_cases hb : p b = true
    · rw [List.find?_cons_of_pos hb, Option.some.injEq] at h
      subst h
      exact List.find?_cons_of_pos ha
    · rw [List.find?_cons_of_neg hb] at h
      rw [List.find?_cons_of_neg fun hq => hb (hqp b hq), ih h]

theorem readToken_lasting {json : Value ℚ} {calledAt : Time} (h : readToken creds json repliedAt = .ok token)
    (hl : Lasting creds calledAt repliedAt json) : (calledAt : ℚ) < token.expiresAt := by
  unfold readToken at h
  unfold Lasting at hl
  by_cases hform : creds.tokenMode = some "form"
  · simp only [hform, if_true] at h hl
    generalize (getByPath (.json json) (js (creds.tokenExpiryPath.getD "expires_in"))).bind asNumber = expiry at h hl
    split at h
    · split_ifs at h
      obtain rfl := Except.ok.inj h
      cases expiry with
      | none => exact lt_sub_iff_add_lt.2 hl
      | some expiry => exact hl
    · cases h
  · simp only [hform, if_false] at h hl
    generalize (getByPath (.json json) (js (creds.tokenExpiryPath.getD DEFAULT_TOKEN_EXPIRY_PATH))).bind asNumber = expiry at h hl
    split at h
    · split_ifs at h
      obtain rfl := Except.ok.inj h
      cases expiry with
      | none => exact lt_sub_iff_add_lt.2 hl
      | some expiry => exact lt_sub_iff_add_lt.2 hl
    · cases h

theorem fetchToken_lasting {reply : TokenReply} {calledAt : Time}
    (h : (fetchToken api creds reply repliedAt).2 = .ok token)
    (hlast : ∀ json, (∃ statusCode, reply = .reply statusCode (some json)) → Lasting creds calledAt repliedAt json) :
    (calledAt : ℚ) < token.expiresAt := by
  unfold fetchToken at h
  split at h
  · cases reply with
    | fails message => cases h
    | reply statusCode body =>
      simp only at h
      split_ifs at h
      cases body with
      | none => cases h
      | some json => exact readToken_lasting h (hlast json ⟨statusCode, rfl⟩)
  · cases h

/-! ### One step -/

theorem Mirrors.call (h : Mirrors api s) (hs : step api s (.call creds now) = some s') (hapart : Apart s (.call creds now)) :
    Mirrors api s' := by
  unfold step at hs
  cases hfresh : freshToken creds s.cache now with
  | none =>
    simp only [hfresh, Option.some.injEq] at hs
    subst hs
    exact ⟨h.entry, h.obtained, h.right⟩
  | some c =>
    simp only [hfresh, Option.some.injEq] at hs
    subst hs
    refine ⟨h.entry, h.obtained, fun r hr => ?_⟩
    rcases List.mem_append.1 hr with hr | hr
    · exact h.right r hr
    · obtain rfl := List.mem_singleton.1 hr
      obtain ⟨hget, hexpiry⟩ := Option.filter_eq_some_iff.1 hfresh
      obtain ⟨creds', hlast⟩ := h.entry creds c hget
      have hmem := List.mem_of_find?_eq_some hlast
      have hkey : cacheKey creds' = cacheKey creds := by simpa using List.find?_some hlast
      have hexpiry' : (now : ℚ) < c.expiresAt := by simpa using hexpiry
      obtain rfl : creds' = creds := hapart _ hmem hkey hexpiry'
      refine ⟨c, h.obtained _ hmem, find?_narrow hlast (decide_eq_true rfl) fun e he => ?_, rfl, hexpiry'⟩
      rw [of_decide_eq_true he]
      exact decide_eq_true rfl

theorem Mirrors.answer (h : Mirrors api s) {i : Nat} {reply : TokenReply}
    (hs : step api s (.answer i reply repliedAt) = some s') (hapart : Apart s (.answer i reply repliedAt)) :
    Mirrors api s' := by
  unfold step at hs
  cases hp : s.pending[i]? with
  | none => simp [hp] at hs
  | some p =>
    cases hfetch : (fetchToken api p.creds reply repliedAt).2 with
    | error message =>
      simp only [hp, hfetch, Option.some.injEq] at hs
      subst hs
      exact ⟨h.entry, h.obtained, h.right⟩
    | ok token =>
      simp only [hp, hfetch, Option.some.injEq] at hs
      subst hs
      have hlast := fetchToken_lasting hfetch fun json hreply => hapart p json hp hreply
      refine ⟨fun creds t ht => ?_, ?_, fun r hr => ?_⟩
      · rw [get_set] at ht
        by_cases hkey : cacheKey creds = cacheKey p.creds
        · rw [if_pos hkey, Option.some.injEq] at ht
          subst ht
          exact ⟨p.creds, List.find?_cons_of_pos (decide_eq_true hkey.symm)⟩
        · rw [if_neg hkey] at ht
          obtain ⟨creds', hfind⟩ := h.entry creds t ht
          have hne : ¬ cacheKey p.creds = cacheKey creds := fun he => hkey he.symm
          exact ⟨creds', by rw [List.find?_cons_of_neg (by simpa using hne), hfind]⟩
      · intro e he
        rcases List.mem_cons.1 he with rfl | he
        · exact ⟨reply, repliedAt, hfetch⟩
        · exact h.obtained e he
      · rcases List.mem_append.1 hr with hr | hr
        · exact h.right r hr
        · obtain rfl := List.mem_singleton.1 hr
          exact ⟨token, ⟨reply, repliedAt, hfetch⟩, List.find?_cons_of_pos (decide_eq_true rfl), rfl, hlast⟩

theorem Mirrors.step (h : Mirrors api s) {l : TokenStep} (hs : step api s l = some s') (hapart : Apart s l) :
    Mirrors api s' := by
  cases l with
  | call creds now => exact h.call hs hapart
  | answer i reply repliedAt => exact h.answer hs hapart

/-! ### Whole runs -/

/-- Every call of a run gets a token of its own credentials, where credentials that differ are kept apart and no answer
is expired. -/
theorem returns_isolated (api : UrlApi) (tr : List TokenStep) (s : TokenSys) (hrun : Runs.run (step api) init tr = some s)
    (hapart : Runs.Along (step api) (fun s l _ => Apart s l) init tr) : ∀ r ∈ s.returned, Right api r := by
  have hinit : Mirrors api init := ⟨nofun, nofun, nofun⟩
  exact (hapart.inv hinit (fun _ _ _ h hs hc => h.step hs hc) hrun).right

/-- It is enough that calls with one URL and user have the same credentials. -/
theorem apart_of_keys {calls : Set OAuth2Credentials} (hkeys : Set.InjOn cacheKey calls)
    (hstored : ∀ e ∈ s.stored, e.1 ∈ calls) (hcreds : creds ∈ calls) : Apart s (.call creds now) :=
  fun e he hkey _ => hkeys (hstored e he) hcreds hkey

/-! ### A rotated password -/

def userCredentials (password : String) : OAuth2Credentials :=
  ⟨tokenUrl, "user", password, none, none, none, none, none⟩

/-- Two calls of one user, the second with another password. -/
def rotated (password : String) : List TokenStep :=
  [.call (userCredentials "pass") 0, .answer 0 tokenGranted 100, .call (userCredentials password) 1000]

/-- What the two calls return. -/
def rotatedReturns (password : String) : List Returned :=
  [⟨userCredentials "pass", 0, js "t", [(userCredentials "pass", ⟨js "t", 3540100⟩)]⟩,
    ⟨userCredentials password, 1000, js "t", [(userCredentials "pass", ⟨js "t", 3540100⟩)]⟩]

theorem tokenGranted_lasting {calledAt : Time} {json : Value ℚ} (hcall : calledAt = 0)
    (hreply : ∃ statusCode, tokenGranted = .reply statusCode (some json)) :
    Lasting (userCredentials "pass") calledAt 100 json := by
  obtain ⟨statusCode, hreply⟩ := hreply
  obtain ⟨-, rfl⟩ : 200 = statusCode ∧ Value.obj [(js "data", .obj [(js "token", .str (js "t"))])] = json := by
    simpa [tokenGranted] using hreply
  have hnone : (getByPath (.json (.obj [(js "data", .obj [(js "token", .str (js "t"))])])) (js DEFAULT_TOKEN_EXPIRY_PATH)).bind
      asNumber = none := by
    decide +kernel
  subst hcall
  simp [Lasting, userCredentials, hnone, SAFETY_MARGIN_MS, FALLBACK_TTL_MS]
  norm_num

theorem same_password_isolated : ∃ s, Runs.run (step plainUrls) init (rotated "pass") = some s ∧
    s.returned.map (·.value) = [js "t", js "t"] ∧ ∀ r ∈ s.returned, Right plainUrls r := by
  have hreturns : (Runs.run (step plainUrls) init (rotated "pass")).map (·.returned) = some (rotatedReturns "pass") := by
    decide +kernel
  obtain ⟨s, hrun, hs⟩ := Option.map_eq_some_iff.1 hreturns
  refine ⟨s, hrun, by rw [hs]; rfl, returns_isolated plainUrls (rotated "pass") s hrun ?_⟩
  refine fun s₁ h₁ => ⟨nofun, fun s₂ h₂ => ⟨fun p json hp hreply => ?_, fun s₃ _ => ⟨?_, trivial⟩⟩⟩
  · obtain rfl : { init with pending := [⟨userCredentials "pass", 0⟩] } = s₁ := Option.some.inj h₁
    obtain rfl : (⟨userCredentials "pass", 0⟩ : PendingCall) = p := Option.some.inj hp
    exact tokenGranted_lasting rfl hreply
  · obtain rfl : { init with pending := [⟨userCredentials "pass", 0⟩] } = s₁ := Option.some.inj h₁
    have hstored : (step plainUrls { init with pending := [⟨userCredentials "pass", 0⟩] }
        (.answer 0 tokenGranted 100)).map (·.stored.map (·.1)) = some [userCredentials "pass"] := by decide +kernel
    rw [h₂, Option.map_some, Option.some.injEq] at hstored
    intro e he _ _
    exact List.mem_singleton.1 (hstored ▸ List.mem_map_of_mem he)

/-- A call with another password gets the token of the first. -/
theorem wrong_password_served : ∃ s, Runs.run (step plainUrls) init (rotated "wrong") = some s ∧
    s.returned = rotatedReturns "wrong" ∧ ¬ ∀ r ∈ s.returned, Right plainUrls r := by
  have hreturns : (Runs.run (step plainUrls) init (rotated "wrong")).map (·.returned) = some (rotatedReturns "wrong") := by
    decide +kernel
  obtain ⟨s, hrun, hs⟩ := Option.map_eq_some_iff.1 hreturns
  refine ⟨s, hrun, hs, fun h => ?_⟩
  rw [hs] at h
  obtain ⟨token, -, hfind, -⟩ := h _ (List.mem_cons_of_mem _ List.mem_cons_self)
  have hnone : ([(userCredentials "pass", (⟨js "t", 3540100⟩ : CachedToken))].find? (·.1 = userCredentials "wrong")) = none := by
    decide
  exact absurd (hnone.symm.trans hfind) nofun

end TokenSys

end CronMonitor.HealthCheck
