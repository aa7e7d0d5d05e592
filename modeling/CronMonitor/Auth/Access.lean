import CronMonitor.Auth.Steps
import Mathlib.Logic.Equiv.List

/-!
# Who may call the API

`authenticate` and `requireRole` of the middleware, beside the session calls. An access token carries what its user's row
said when a call read it, and nobody looks at the row again: `Privileges` says how stale a request can be. Rows are read,
and edited by administrators, in the middle of the calls.
-/

namespace CronMonitor

open Runs

/-! ### Access tokens -/

/-- What `SignJWT` signs; `iat` and `exp` are in seconds. -/
structure JwtPayload extends AccessClaims where
  iat : Int
  exp : Int
deriving DecidableEq, Repr

def AuthEnv.payload (env : AuthEnv) (claims : AccessClaims) (now : Time) : JwtPayload where
  toAccessClaims := claims
  iat := now / 1000
  exp := now / 1000 + env.accessTokenTtlSeconds

/-- `jwtVerify` is the payload of a text with a signature of ours and the issuer and the audience of this API. -/
structure ApiEnv extends AuthEnv where
  authEnabled : Bool
  jwtVerify : String → Option JwtPayload
  jwtVerify_sign : ∀ claims now, jwtVerify (signAccessToken claims now) = some (toAuthEnv.payload claims now)

namespace ApiEnv

/-- A token is good until its second `exp` begins. -/
def verifyAccessToken (E : ApiEnv) (now : Time) (token : String) : Option AccessClaims :=
  match E.jwtVerify token with
  | some p => if p.exp ≤ now / 1000 then none else some p.toAccessClaims
  | none => none

end ApiEnv

/-! ### The middleware -/

def RbacRole.key : RbacRole → String
  | admin => "ADMIN"
  | operator => "OPERATOR"
  | developer => "DEVELOPER"
  | compliance => "COMPLIANCE"
  | management => "MANAGEMENT"
  | viewer => "VIEWER"

/-- An `AppError` as the client sees it. -/
structure ApiError where
  statusCode : Nat
  code : String
  message : String
deriving DecidableEq, Repr

def unauthorizedError (message : String) : ApiError := ⟨401, "UNAUTHORIZED", message⟩

def forbiddenError (message : String) : ApiError := ⟨403, "FORBIDDEN", message⟩

/-- The actor when authentication is off, which production refuses. -/
def DEV_ACTOR : AccessClaims := ⟨0, "dev@local", [.admin, .operator, .developer, .compliance, .management, .viewer]⟩

/-- `header.startsWith('Bearer ')` and `header.slice(7)`. -/
def bearerToken (header : String) : Option String :=
  if "Bearer ".toList.isPrefixOf header.toList then some (String.ofList (header.toList.drop 7)) else none

def authenticate (E : ApiEnv) (now : Time) (header : Option String) : Except ApiError AccessClaims :=
  if !E.authEnabled then .ok DEV_ACTOR
  else
    match header.bind bearerToken with
    | none => .error (unauthorizedError "Missing bearer token")
    | some token =>
      match E.verifyAccessToken now token with
      | some claims => .ok claims
      | none => .error (unauthorizedError "Invalid or expired access token")

def requireRole (roles : List RbacRole) (user : AccessClaims) : Except ApiError Unit :=
  if !roles.isEmpty && !roles.any (· ∈ user.roles) then
    .error (forbiddenError ("Requires one of: " ++ ", ".intercalate (roles.map RbacRole.key)))
  else .ok ()

/-- A request on its way to a route that requires one of `roles`. -/
def enter (E : ApiEnv) (roles : List RbacRole) (now : Time) (header : Option String) : Except ApiError AccessClaims := do
  let user ← authenticate E now header
  requireRole roles user
  return user

/-! ### Calls and administrators -/

inductive ApiLabel
  | session (l : AuthLabel)
  /-- statements outside the service leave these rows in `users`, with these roles -/
  | edit (users : List User)
deriving DecidableEq, Repr

def AuthSys.apiStep (env : AuthEnv) (s : AuthSys) : ApiLabel → Option AuthSys
  | .session l => s.step env l
  | .edit users => some { s with store := { s.store with users := users } }

/-- The row of a user who may use the routes that require one of `roles`. -/
def User.May (id : Uuid) (roles : List RbacRole) (user : User) : Prop :=
  user.id = id ∧ user.status = .active ∧ (roles = [] ∨ ∃ r ∈ roles, r ∈ user.roles)

def SessionUser.May (id : Uuid) (roles : List RbacRole) (user : SessionUser) : Prop :=
  user.id = id ∧ user.status = .active ∧ (roles = [] ∨ ∃ r ∈ roles, r ∈ user.roles)

/-- The row that a call has read and not answered with yet. -/
def AuthPc.reads : AuthPc → Option User
  | .updateLastLogin user _ | .auditLogin user _ | .storeRefreshToken user _ _ | .rotateRefreshToken _ user _ _ => some user
  | _ => none

/-- Nobody else signs: a token that verifies is one that a call has answered with. -/
def AuthSys.Genuine (E : ApiEnv) (s : AuthSys) (header : Option String) : Prop :=
  ∀ token ∈ header.bind bearerToken, (E.jwtVerify token).isSome →
    ∃ result, .returned (some result) ∈ s.calls ∧ result.accessToken = token

structure Privileges (E : ApiEnv) (s₀ : AuthSys) : Prop where
  /-- Who passes was allowed to when a call read the row, and that call answered less than the lifetime of a token ago. -/
  read : ∀ tr s roles header actor, run (AuthSys.apiStep E.toAuthEnv) s₀ tr = some s → s.Genuine E header →
    enter E roles s.store.now header = .ok actor →
    ∃ pre mid post s₁ s₂ user, tr = pre ++ mid ++ post ∧ run (AuthSys.apiStep E.toAuthEnv) s₀ pre = some s₁ ∧
      run (AuthSys.apiStep E.toAuthEnv) s₁ mid = some s₂ ∧ user ∈ s₁.store.users ∧ user.May actor.sub roles ∧
      actor.email = user.email ∧ actor.roles = user.roles ∧ s₂.store.now ≤ s.store.now ∧
      s.store.now < s₂.store.now + 1000 * E.accessTokenTtlSeconds
  /-- Once no row allows it and no call is under way with a row that did, it ends with the tokens that are out. -/
  ended : ∀ tr s tr' s' roles header actor, run (AuthSys.apiStep E.toAuthEnv) s₀ tr = some s →
    (∀ pc ∈ s.calls, ∀ user ∈ pc.reads, ¬user.May actor.sub roles) →
    run (AuthSys.apiStep E.toAuthEnv) s tr' = some s' →
    Throughout (AuthSys.apiStep E.toAuthEnv) (fun t => ∀ user ∈ t.store.users, ¬user.May actor.sub roles) s tr' →
    s'.Genuine E header → enter E roles s'.store.now header = .ok actor →
    s'.store.now < s.store.now + 1000 * E.accessTokenTtlSeconds
  /-- An answer is good for its lifetime, whatever becomes of the account. -/
  lasts : ∀ tr s result, run (AuthSys.apiStep E.toAuthEnv) s₀ tr = some s → .returned (some result) ∈ s.calls →
    ∃ signed ≤ s.store.now, ∀ roles now, enter E roles now (some ("Bearer " ++ result.accessToken)) =
        .ok result.user.claims ↔
      now / 1000 < signed / 1000 + E.accessTokenTtlSeconds ∧ (roles = [] ∨ ∃ r ∈ roles, r ∈ result.user.roles)

/-! ### What a step reads and answers -/

section Steps

variable {env : AuthEnv} {st : AuthStore} {pc : AuthPc}

theorem advance_now (env : AuthEnv) (st : AuthStore) (pc : AuthPc) : (st.advance env pc).1.now = st.now := by
  cases pc with
  | storeRefreshToken user raw next =>
    simp only [AuthStore.advance, AuthStore.storeRefreshToken]
    split_ifs <;> rfl
  | rotateRefreshToken stored user raw next =>
    simp only [AuthStore.advance, AuthStore.rotateRefreshToken, AuthStore.storeRefreshToken]
    split_ifs <;> rfl
  | findUserByEmail email password info | findUserById stored info =>
    simp only [AuthStore.advance]
    repeat' split
    all_goals rfl
  | _ => rfl

/-- A row that a call has read is that of an active user. -/
theorem advance_reads {user : User} (h : user ∈ (st.advance env pc).2.reads) :
    user ∈ pc.reads ∨ user ∈ st.users ∧ user.status = .active := by
  cases pc with
  | findUserByEmail email password info =>
    simp only [AuthStore.advance] at h
    cases hu : st.findUserByEmail env.toLowerCase (env.toLowerCase email) with
    | none =>
      rw [hu] at h
      cases h
    | some record =>
      rw [hu] at h
      simp only at h
      split_ifs at h with hadmits
      · obtain rfl : record = user := Option.some.inj h
        simp only [AuthStore.admits, Bool.and_eq_true, decide_eq_true_eq] at hadmits
        exact .inr ⟨List.mem_of_find?_eq_some hu, hadmits.2⟩
      · cases h
  | findUserById stored info =>
    simp only [AuthStore.advance] at h
    cases hu : st.findUserById stored.userId with
    | none =>
      rw [hu] at h
      cases h
    | some record =>
      rw [hu] at h
      simp only at h
      split_ifs at h with hactive
      · obtain rfl : record = user := Option.some.inj h
        exact .inr ⟨List.mem_of_find?_eq_some hu, hactive⟩
      · cases h
  | updateLastLogin record info | auditLogin record info => exact .inl h
  | storeRefreshToken record raw next =>
    simp only [AuthStore.advance] at h
    split at h <;> cases h
  | rotateRefreshToken stored record raw next =>
    simp only [AuthStore.advance] at h
    split at h <;> cases h
  | findRefreshToken raw info =>
    simp only [AuthStore.advance] at h
    unfold AuthStore.checkStored at h
    repeat' split at h
    all_goals cases h
  | revokeTokenFamily | auditReuse | revokeUserTokens | auditLogout | returned | thrown => cases h

/-- A call answers with a token for the row that it has read. -/
theorem advance_returns {result : AuthResult} (hpc : pc.isDone = false)
    (h : (st.advance env pc).2 = .returned (some result)) :
    ∃ user ∈ pc.reads, toUser user = result.user ∧ result.accessToken = env.signAccessToken result.user.claims st.now := by
  cases pc with
  | storeRefreshToken user raw next =>
    simp only [AuthStore.advance] at h
    split at h
    · cases h
      exact ⟨user, rfl, rfl, rfl⟩
    · cases h
  | rotateRefreshToken stored user raw next =>
    simp only [AuthStore.advance] at h
    split at h
    · cases h
      exact ⟨user, rfl, rfl, rfl⟩
    · cases h
  | findUserByEmail email password info | findUserById stored info =>
    simp only [AuthStore.advance] at h
    repeat' split at h
    all_goals cases h
  | findRefreshToken raw info =>
    simp only [AuthStore.advance] at h
    unfold AuthStore.checkStored at h
    repeat' split at h
    all_goals cases h
  | returned result | thrown error => cases hpc
  | updateLastLogin | auditLogin | revokeTokenFamily | auditReuse | revokeUserTokens | auditLogout => cases h

variable {s s' : AuthSys} {l : ApiLabel}

theorem apiStep_now (h : s.apiStep env l = some s') : s.store.now ≤ s'.store.now := by
  cases l with
  | edit users =>
    cases h
    exact le_rfl
  | session l =>
    cases l with
    | request r | setStatus userId status =>
      cases h
      exact le_rfl
    | elapse ms =>
      cases h
      exact Int.le_add_of_nonneg_right (Int.natCast_nonneg ms)
    | advance i =>
      simp only [AuthSys.apiStep, AuthSys.step] at h
      repeat' split at h
      all_goals cases h
      exact (advance_now env _ _).ge
    | fail i =>
      simp only [AuthSys.apiStep, AuthSys.step] at h
      repeat' split at h
      all_goals cases h
      exact le_rfl

/-- A call after a step: as it was, without a row and an answer, or moved on. -/
theorem apiStep_mem {pc' : AuthPc} (h : s.apiStep env l = some s') (hmem : pc' ∈ s'.calls) :
    pc' ∈ s.calls ∨ (pc'.reads = none ∧ ∀ result, pc' ≠ .returned (some result)) ∨
      ∃ pc ∈ s.calls, pc.isDone = false ∧ pc' = (s.store.advance env pc).2 := by
  cases l with
  | edit users =>
    cases h
    exact .inl hmem
  | session l =>
    cases l with
    | request r =>
      cases h
      rcases List.mem_append.1 hmem with hmem | hmem
      · exact .inl hmem
      · rw [List.mem_singleton.1 hmem]
        cases r <;> exact .inr (.inl ⟨rfl, fun result h => by cases h⟩)
    | elapse ms | setStatus userId status =>
      cases h
      exact .inl hmem
    | advance i =>
      simp only [AuthSys.apiStep, AuthSys.step] at h
      split at h
      · rename_i pc hpc
        split_ifs at h with hdone
        cases h
        rcases List.mem_or_eq_of_mem_set hmem with hmem | rfl
        · exact .inl hmem
        · exact .inr (.inr ⟨pc, List.mem_of_getElem? hpc, by simpa using hdone, rfl⟩)
      · cases h
    | fail i =>
      simp only [AuthSys.apiStep, AuthSys.step] at h
      split at h
      · split_ifs at h
        cases h
        rcases List.mem_or_eq_of_mem_set hmem with hmem | rfl
        · exact .inl hmem
        · exact .inr (.inl ⟨rfl, fun result h => by cases h⟩)
      · cases h

end Steps

/-! ### What the calls of a run hold -/

section Told

variable {env : AuthEnv} {s₀ s s' : AuthSys} {tr tr' : List ApiLabel}

/-- Every row that a call holds was read on the way, and every answer was signed later on the way. -/
structure Told (env : AuthEnv) (s₀ : AuthSys) (tr : List ApiLabel) (s : AuthSys) : Prop where
  reads : ∀ pc ∈ s.calls, ∀ user ∈ pc.reads, ∃ pre mid s₁, tr = pre ++ mid ∧
    run (AuthSys.apiStep env) s₀ pre = some s₁ ∧ run (AuthSys.apiStep env) s₁ mid = some s ∧
    user ∈ s₁.store.users ∧ user.status = .active
  answers : ∀ result, .returned (some result) ∈ s.calls → ∃ pre mid post s₁ s₂ user, tr = pre ++ mid ++ post ∧
    run (AuthSys.apiStep env) s₀ pre = some s₁ ∧ run (AuthSys.apiStep env) s₁ mid = some s₂ ∧
    user ∈ s₁.store.users ∧ toUser user = result.user ∧ user.status = .active ∧ s₂.store.now ≤ s.store.now ∧
    result.accessToken = env.signAccessToken result.user.claims s₂.store.now

theorem Told.step (h : Told env s₀ tr s) (hr : run (AuthSys.apiStep env) s₀ tr = some s) {l : ApiLabel}
    (hs : s.apiStep env l = some s') : Told env s₀ (tr ++ [l]) s' where
  reads := by
    intro pc' hmem user huser
    rcases apiStep_mem hs hmem with hmem | ⟨hnone, -⟩ | ⟨pc, hpc, -, rfl⟩
    · obtain ⟨pre, mid, s₁, rfl, hpre, hmid, hrow⟩ := h.reads pc' hmem user huser
      exact ⟨pre, mid ++ [l], s₁, List.append_assoc .., hpre, run_snoc hmid hs, hrow⟩
    · rw [hnone] at huser
      cases huser
    · rcases advance_reads huser with huser | hrow
      · obtain ⟨pre, mid, s₁, rfl, hpre, hmid, hrow⟩ := h.reads pc hpc user huser
        exact ⟨pre, mid ++ [l], s₁, List.append_assoc .., hpre, run_snoc hmid hs, hrow⟩
      · exact ⟨tr, [l], s, rfl, hr, run_snoc run_nil hs, hrow⟩
  answers := by
    intro result hmem
    rcases apiStep_mem hs hmem with hmem | ⟨-, hnone⟩ | ⟨pc, hpc, hdone, hadv⟩
    · obtain ⟨pre, mid, post, s₁, s₂, user, rfl, hpre, hmid, hrow, huser, hactive, hle, htoken⟩ := h.answers result hmem
      exact ⟨pre, mid, post ++ [l], s₁, s₂, user, List.append_assoc .., hpre, hmid, hrow, huser, hactive,
        hle.trans (apiStep_now hs), htoken⟩
    · exact absurd rfl (hnone result)
    · obtain ⟨user, hread, huser, htoken⟩ := advance_returns hdone hadv.symm
      obtain ⟨pre, mid, s₁, rfl, hpre, hmid, hrow, hactive⟩ := h.reads pc hpc _ hread
      exact ⟨pre, mid, [l], s₁, s, user, rfl, hpre, hmid, hrow, huser, hactive, apiStep_now hs, htoken⟩

theorem told_run (hcalls : s₀.calls = []) (hr : run (AuthSys.apiStep env) s₀ tr = some s) : Told env s₀ tr s := by
  induction tr using List.reverseRecOn generalizing s with
  | nil =>
    cases hr
    exact ⟨fun pc hpc => by simp [hcalls] at hpc, fun result hpc => by simp [hcalls] at hpc⟩
  | append_singleton tr l ih =>
    obtain ⟨t, ht, hl⟩ := run_append_iff.1 hr
    obtain ⟨t', hs, hnil⟩ := run_cons_iff.1 hl
    obtain rfl := Option.some.inj hnil
    exact (ih ht).step ht hs

end Told

/-! ### The law -/

section Law

variable {E : ApiEnv} {s s' : AuthSys} {roles : List RbacRole} {now : Time} {header : Option String} {actor : AccessClaims}

theorem requireRole_ok_iff : requireRole roles actor = .ok () ↔ roles = [] ∨ ∃ r ∈ roles, r ∈ actor.roles := by
  have hany : (!roles.isEmpty && !roles.any (· ∈ actor.roles)) = false ↔ roles = [] ∨ ∃ r ∈ roles, r ∈ actor.roles := by
    rw [Bool.and_eq_false_iff, Bool.not_eq_false', Bool.not_eq_false', List.isEmpty_iff, List.any_eq_true]
    simp only [decide_eq_true_eq]
  rw [← hany, requireRole]
  cases !roles.isEmpty && !roles.any (· ∈ actor.roles) <;> simp

theorem authenticate_ok (hon : E.authEnabled = true) (h : authenticate E now header = .ok actor) :
    ∃ token ∈ header.bind bearerToken, ∃ p, E.jwtVerify token = some p ∧ now / 1000 < p.exp ∧
      actor = p.toAccessClaims := by
  rw [authenticate, hon] at h
  cases htoken : header.bind bearerToken with
  | none =>
    rw [htoken] at h
    cases h
  | some token =>
    simp only [htoken, ApiEnv.verifyAccessToken] at h
    cases hp : E.jwtVerify token with
    | none =>
      rw [hp] at h
      cases h
    | some p =>
      rw [hp] at h
      simp only at h
      by_cases hexp : p.exp ≤ now / 1000
      · rw [if_pos hexp] at h
        cases h
      · rw [if_neg hexp] at h
        exact ⟨token, rfl, p, hp, lt_of_not_ge hexp, (Except.ok.inj h).symm⟩

theorem bearerToken_bearer (token : String) : bearerToken ("Bearer " ++ token) = some token := by
  have hprefix : "Bearer ".toList.isPrefixOf ("Bearer " ++ token).toList = true := by
    rw [String.toList_append, List.isPrefixOf_iff_prefix]
    exact List.prefix_append _ _
  rw [bearerToken, if_pos hprefix, String.toList_append]
  exact congrArg some (String.ofList_toList (s := token))

/-- Who presents an answer does not sign. -/
theorem genuine_of_mem {result : AuthResult} (h : .returned (some result) ∈ s.calls) :
    s.Genuine E (some ("Bearer " ++ result.accessToken)) := by
  intro token htoken _
  exact ⟨result, h, Option.some.inj ((bearerToken_bearer _).symm.trans htoken)⟩

theorem enter_ok (h : enter E roles now header = .ok actor) :
    authenticate E now header = .ok actor ∧ (roles = [] ∨ ∃ r ∈ roles, r ∈ actor.roles) := by
  unfold enter at h
  cases hauth : authenticate E now header with
  | error e =>
    rw [hauth] at h
    cases h
  | ok user =>
    rw [hauth] at h
    cases hrole : requireRole roles user with
    | error e => simp [bind, Except.bind, hrole] at h
    | ok u =>
      simp only [bind, Except.bind, hrole] at h
      obtain rfl : user = actor := Except.ok.inj h
      exact ⟨rfl, requireRole_ok_iff.1 hrole⟩

theorem enter_signed_iff (hon : E.authEnabled = true) {claims : AccessClaims} {signed : Time} :
    enter E roles now (some ("Bearer " ++ E.signAccessToken claims signed)) = .ok claims ↔
      now / 1000 < signed / 1000 + E.accessTokenTtlSeconds ∧ (roles = [] ∨ ∃ r ∈ roles, r ∈ claims.roles) := by
  have hbearer : (some ("Bearer " ++ E.signAccessToken claims signed)).bind bearerToken =
      some (E.signAccessToken claims signed) := bearerToken_bearer _
  constructor
  · intro h
    obtain ⟨hauth, hroles⟩ := enter_ok h
    obtain ⟨token, htoken, p, hp, hexp, -⟩ := authenticate_ok hon hauth
    obtain rfl := Option.some.inj (hbearer.symm.trans htoken)
    obtain rfl := Option.some.inj ((E.jwtVerify_sign claims signed).symm.trans hp)
    exact ⟨hexp, hroles⟩
  · rintro ⟨hexp, hroles⟩
    have hverify : E.verifyAccessToken now (E.signAccessToken claims signed) = some claims := by
      rw [ApiEnv.verifyAccessToken, E.jwtVerify_sign]
      exact if_neg (not_le_of_gt hexp)
    have hauth : authenticate E now (some ("Bearer " ++ E.signAccessToken claims signed)) = .ok claims := by
      rw [authenticate, hon, hbearer]
      simp only [hverify, Bool.not_true, Bool.false_eq_true, if_false]
    have hrole : requireRole roles claims = .ok () := requireRole_ok_iff.2 hroles
    simp only [enter, hauth, bind, Except.bind, hrole, pure, Except.pure]

/-- Seconds are rounded down on both sides. -/
theorem lt_of_seconds {now signed : Int} {ttl : Nat} (h : now / 1000 < signed / 1000 + ttl) :
    now < signed + 1000 * ttl := by
  omega

/-- A request that passes carries an answer, which says who it is. -/
theorem admitted (hon : E.authEnabled = true) (hgenuine : s.Genuine E header)
    (h : enter E roles now header = .ok actor) :
    ∃ result, .returned (some result) ∈ s.calls ∧ (roles = [] ∨ ∃ r ∈ roles, r ∈ actor.roles) ∧
      ∀ t, result.accessToken = E.signAccessToken result.user.claims t →
        actor = result.user.claims ∧ now < t + 1000 * E.accessTokenTtlSeconds := by
  obtain ⟨hauth, hroles⟩ := enter_ok h
  obtain ⟨token, htoken, p, hp, hexp, rfl⟩ := authenticate_ok hon hauth
  obtain ⟨result, hmem, rfl⟩ := hgenuine token htoken (by rw [hp]; rfl)
  refine ⟨result, hmem, hroles, fun t ht => ?_⟩
  rw [ht, E.jwtVerify_sign] at hp
  obtain rfl := Option.some.inj hp
  exact ⟨rfl, lt_of_seconds hexp⟩

/-- From `since` on, nobody who was let go has been answered. -/
structure LetGo (E : ApiEnv) (id : Uuid) (roles : List RbacRole) (since : Time) (s : AuthSys) : Prop where
  rows : ∀ user ∈ s.store.users, ¬user.May id roles
  reads : ∀ pc ∈ s.calls, ∀ user ∈ pc.reads, ¬user.May id roles
  answers : ∀ result, .returned (some result) ∈ s.calls → result.user.May id roles →
    ∃ t ≤ since, result.accessToken = E.signAccessToken result.user.claims t

theorem LetGo.step {id : Uuid} {since : Time} (h : LetGo E id roles since s) {l : ApiLabel}
    (hs : s.apiStep E.toAuthEnv l = some s') (hrows : ∀ user ∈ s'.store.users, ¬user.May id roles) :
    LetGo E id roles since s' where
  rows := hrows
  reads := by
    intro pc' hmem user huser
    rcases apiStep_mem hs hmem with hmem | ⟨hnone, -⟩ | ⟨pc, hpc, -, rfl⟩
    · exact h.reads pc' hmem user huser
    · rw [hnone] at huser
      cases huser
    · rcases advance_reads huser with huser | hrow
      · exact h.reads pc hpc user huser
      · exact h.rows user hrow.1
  answers := by
    intro result hmem hmay
    rcases apiStep_mem hs hmem with hmem | ⟨-, hnone⟩ | ⟨pc, hpc, hdone, hadv⟩
    · exact h.answers result hmem hmay
    · exact absurd rfl (hnone result)
    · obtain ⟨user, hread, huser, -⟩ := advance_returns hdone hadv.symm
      exact absurd (huser ▸ hmay : (toUser user).May id roles) (h.reads pc hpc user hread)

theorem privileges (E : ApiEnv) (hon : E.authEnabled = true) (users : List User) (now : Time) :
    Privileges E (AuthSys.init users now) where
  read := by
    intro tr s roles header actor hr hgenuine henter
    obtain ⟨result, hmem, hroles, hsigned⟩ := admitted hon hgenuine henter
    obtain ⟨pre, mid, post, s₁, s₂, user, htr, hpre, hmid, hrow, huser, hactive, hle, htoken⟩ :=
      (told_run rfl hr).answers result hmem
    obtain ⟨rfl, hlt⟩ := hsigned _ htoken
    rw [← huser] at hroles ⊢
    exact ⟨pre, mid, post, s₁, s₂, user, htr, hpre, hmid, hrow, ⟨rfl, hactive, hroles⟩, rfl, rfl, hle, hlt⟩
  ended := by
    intro tr s tr' s' roles header actor hr hreads hr' hrows hgenuine henter
    have htold := told_run rfl hr
    have hstart : LetGo E actor.sub roles s.store.now s := by
      refine ⟨hrows.1, hreads, fun result hmem _ => ?_⟩
      obtain ⟨-, -, -, -, s₂, -, -, -, -, -, -, -, hle, htoken⟩ := htold.answers result hmem
      exact ⟨s₂.store.now, hle, htoken⟩
    have hend := hrows.2.inv hstart (fun _ _ _ h hs hC => h.step hs hC) hr'
    obtain ⟨result, hmem, hroles, hsigned⟩ := admitted hon hgenuine henter
    obtain ⟨-, -, -, -, s₂, user, -, -, -, -, huser, hactive, -, htoken⟩ :=
      (told_run rfl (run_append_iff.2 ⟨s, hr, hr'⟩)).answers result hmem
    obtain ⟨rfl, -⟩ := hsigned _ htoken
    obtain ⟨t, hle, ht⟩ := hend.answers result hmem ⟨rfl, huser ▸ hactive, hroles⟩
    exact (hsigned t ht).2.trans_le (Int.add_le_add_right hle _)
  lasts := by
    intro tr s result hr hmem
    obtain ⟨-, -, -, -, s₂, -, -, -, -, -, -, -, hle, htoken⟩ := (told_run rfl hr).answers result hmem
    refine ⟨s₂.store.now, hle, fun roles now => ?_⟩
    rw [htoken]
    exact enter_signed_iff hon

/-! ### A configuration to evaluate -/

/-- A payload as numbers. -/
def JwtPayload.code (p : JwtPayload) : Nat × List Nat × List Nat × Int × Int :=
  (p.sub, p.email.toList.map Char.toNat, p.roles.map DEV_ACTOR.roles.idxOf, p.iat, p.exp)

def JwtPayload.ofCode (c : Nat × List Nat × List Nat × Int × Int) : JwtPayload where
  sub := c.1
  email := String.ofList (c.2.1.map Char.ofNat)
  roles := c.2.2.1.map fun i => DEV_ACTOR.roles.getD i .viewer
  iat := c.2.2.2.1
  exp := c.2.2.2.2

theorem ofCode_code (p : JwtPayload) : JwtPayload.ofCode p.code = p := by
  obtain ⟨⟨sub, email, roles⟩, iat, exp⟩ := p
  have hrole : ∀ r : RbacRole, DEV_ACTOR.roles.getD (DEV_ACTOR.roles.idxOf r) .viewer = r := by
    intro r
    cases r <;> rfl
  simp only [JwtPayload.ofCode, JwtPayload.code, List.map_map]
  have hroles : roles.map ((fun i => DEV_ACTOR.roles.getD i .viewer) ∘ DEV_ACTOR.roles.idxOf) = roles :=
    (List.map_congr_left fun r _ => hrole r).trans (List.map_id' roles)
  have hemail : email.toList.map (Char.ofNat ∘ Char.toNat) = email.toList :=
    (List.map_congr_left fun c _ => Char.ofNat_toNat c).trans (List.map_id' _)
  rw [hroles, hemail, String.ofList_toList]

/-- A token that is as long as the number of its payload. -/
@[irreducible] def JwtPayload.text (p : JwtPayload) : String :=
  String.ofList (List.replicate (Encodable.encode p.code) '.')

@[irreducible] def JwtPayload.ofText (token : String) : Option JwtPayload :=
  (Encodable.decode token.length).map JwtPayload.ofCode

theorem ofText_text (p : JwtPayload) : JwtPayload.ofText p.text = some p := by
  unfold JwtPayload.ofText JwtPayload.text
  rw [String.length_ofList, List.length_replicate, Encodable.encodek, Option.map_some, ofCode_code]

def AuthEnv.numbered : AuthEnv :=
  { AuthEnv.plain with toLowerCase := id, signAccessToken := fun claims now => (AuthEnv.plain.payload claims now).text }

def ApiEnv.plain : ApiEnv :=
  ⟨.numbered, true, JwtPayload.ofText, fun claims now => ofText_text (AuthEnv.plain.payload claims now)⟩

/-- The user signs in and is disabled. -/
def leaving : List ApiLabel :=
  [.session (.request (.login "dev@test.local" "password123" .browser)), .session (.advance 0), .session (.advance 0),
    .session (.advance 0), .session (.advance 0), .edit [{ User.dev with status := .disabled }]]

def left : AuthSys := (run (AuthSys.apiStep ApiEnv.plain.toAuthEnv) (.init [User.dev] 0) leaving).getD (.init [] 0)

theorem run_leaving : run (AuthSys.apiStep ApiEnv.plain.toAuthEnv) (.init [User.dev] 0) leaving = some left := rfl

theorem left_calls :
    left.calls = [.returned (some ⟨toUser User.dev, ApiEnv.plain.signAccessToken (toUser User.dev).claims 0, 1, 900⟩)] := rfl

theorem left_users : left.store.users = [{ User.dev with status := .disabled }] := rfl

/-- Just before the token is out of date the user is still in. -/
theorem privileges_leaving :
    left.store.users = [{ User.dev with status := .disabled }] ∧
      enter ApiEnv.plain [.developer] 899999 (some ("Bearer " ++ ApiEnv.plain.signAccessToken (toUser User.dev).claims 0)) =
        .ok ⟨7, "dev@test.local", [.developer]⟩ ∧
      (899999 : Int) < 0 + 1000 * 900 := by
  have henter : enter ApiEnv.plain [.developer] 899999 (some ("Bearer " ++ ApiEnv.plain.signAccessToken (toUser User.dev).claims 0)) =
      .ok ⟨7, "dev@test.local", [.developer]⟩ := by
    have hsigned := @enter_signed_iff ApiEnv.plain [.developer] 899999 rfl (toUser User.dev).claims 0
    exact hsigned.2 ⟨by decide, .inr ⟨.developer, by decide, by decide⟩⟩
  have hlate : run (AuthSys.apiStep ApiEnv.plain.toAuthEnv) left [.session (.elapse 899999)] =
      some { left with store := { left.store with now := 899999 } } := rfl
  have hreads : ∀ pc ∈ left.calls, ∀ user ∈ pc.reads, ¬user.May 7 [.developer] := by
    rw [left_calls]
    intro pc hpc user huser
    rw [List.mem_singleton.1 hpc] at huser
    cases huser
  have hrows : ∀ user ∈ left.store.users, ¬user.May 7 [.developer] := by
    rw [left_users]
    intro user huser hmay
    rw [List.mem_singleton.1 huser] at hmay
    cases hmay.2.1
  have hmem : .returned (some ⟨toUser User.dev, ApiEnv.plain.signAccessToken (toUser User.dev).claims 0, 1, 900⟩) ∈ left.calls := by
    rw [left_calls]
    exact List.mem_singleton_self _
  have hthroughout : Throughout (AuthSys.apiStep ApiEnv.plain.toAuthEnv)
      (fun t => ∀ user ∈ t.store.users, ¬user.May 7 [.developer]) left [.session (.elapse 899999)] := by
    refine ⟨hrows, fun s' hs => ⟨?_, trivial⟩⟩
    rw [← Option.some.inj (hlate.symm.trans (run_snoc run_nil hs))]
    exact hrows
  exact ⟨left_users, henter, (privileges ApiEnv.plain rfl [User.dev] 0).ended leaving left _ _ [.developer] _ _
    run_leaving hreads hlate hthroughout (genuine_of_mem hmem) henter⟩

end Law

end CronMonitor
