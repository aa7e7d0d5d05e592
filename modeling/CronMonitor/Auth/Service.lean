import CronMonitor.Repo.Users

/-!
# `auth.service.ts`

A call to `login`, `refresh` or `logout` is suspended at every statement it sends. `AuthPc` is where it is
suspended and what it has read so far; `advance` runs the statement and then the code up to the next one.
-/

namespace CronMonitor

structure AccessClaims where
  sub : Uuid
  email : String
  roles : List RbacRole
deriving DecidableEq, Repr

def SessionUser.claims (user : SessionUser) : AccessClaims := ⟨user.id, user.email, user.roles⟩

/-- What lies outside the repository: configuration, `node:crypto` and the signer of access tokens. -/
structure AuthEnv where
  toLowerCase : String → String
  verifyPassword : String → String → Bool
  hashToken : RawToken → String
  signAccessToken : AccessClaims → Time → String
  accessTokenTtlSeconds : Nat
  refreshTokenTtlDays : Nat

/-- A configuration to evaluate: distinct tokens have distinct hashes, and passwords are kept as they are. -/
def AuthEnv.plain : AuthEnv where
  toLowerCase := String.toLower
  verifyPassword := fun password hash => password = hash
  hashToken := fun raw => String.ofList (List.replicate raw '0')
  signAccessToken := fun claims now => s!"{claims.email}@{now}"
  accessTokenTtlSeconds := 900
  refreshTokenTtlDays := 7

structure RequestMeta where
  userAgent : Option String
  ip : Option String
deriving DecidableEq, Repr

def RequestMeta.browser : RequestMeta := ⟨some "browser", none⟩

def User.dev : User := ⟨7, "dev@test.local", "dev", .active, none, [.developer], some "password123", none, 0⟩

structure AuthResult where
  user : SessionUser
  accessToken : String
  refreshToken : RawToken
  expiresIn : Nat
deriving DecidableEq, Repr

inductive AuthError
  | unauthorized (message : String)
  | database (message : String)
deriving DecidableEq, Repr

inductive AuthRequest
  | login (email password : String) (info : RequestMeta)
  | refresh (rawToken : RawToken) (info : RequestMeta)
  | logout (userId : Uuid)
deriving DecidableEq, Repr

inductive AuthPc
  | findUserByEmail (email password : String) (info : RequestMeta)
  | updateLastLogin (user : User) (info : RequestMeta)
  | auditLogin (user : User) (info : RequestMeta)
  | storeRefreshToken (user : User) (raw : RawToken) (next : RefreshTokenInput)
  | findRefreshToken (raw : RawToken) (info : RequestMeta)
  | revokeTokenFamily (stored : RefreshToken) (info : RequestMeta)
  | auditReuse (stored : RefreshToken) (info : RequestMeta)
  | findUserById (stored : RefreshToken) (info : RequestMeta)
  | rotateRefreshToken (stored : RefreshToken) (user : User) (raw : RawToken) (next : RefreshTokenInput)
  | revokeUserTokens (userId : Uuid)
  | auditLogout (userId : Uuid)
  | returned (result : Option AuthResult)
  | thrown (error : AuthError)
deriving DecidableEq, Repr

def AuthRequest.start : AuthRequest → AuthPc
  | .login email password info => .findUserByEmail email password info
  | .refresh rawToken info => .findRefreshToken rawToken info
  | .logout userId => .revokeUserTokens userId

def AuthPc.isDone : AuthPc → Bool
  | .returned _ | .thrown _ => true
  | _ => false

def AuthEnv.refreshExpiry (env : AuthEnv) (now : Time) : Time :=
  now + env.refreshTokenTtlDays * 24 * 60 * 60 * 1000

/-- What `issue` and `refresh` answer once the token is stored. -/
def AuthEnv.authResult (env : AuthEnv) (user : User) (raw : RawToken) (now : Time) : AuthResult where
  user := toUser user
  accessToken := env.signAccessToken (toUser user).claims now
  refreshToken := raw
  expiresIn := env.accessTokenTtlSeconds

/-- The row that `issue` and `refresh` are about to insert for the token `raw`. -/
def AuthEnv.nextToken (env : AuthEnv) (user : User) (raw : RawToken) (familyId : Uuid) (info : RequestMeta)
    (now : Time) : RefreshTokenInput where
  userId := user.id
  tokenHash := env.hashToken raw
  familyId := familyId
  expiresAt := env.refreshExpiry now
  userAgent := info.userAgent
  ip := info.ip

def auditLoginEntry (user : User) (info : RequestMeta) : AuditEntry where
  actor := ⟨some user.id, none, info.ip, info.userAgent⟩
  action := "auth.login"
  entityType := "user"
  entityId := some user.id
  summary := some s!"{user.email} signed in"
  changes := none

def auditReuseEntry (stored : RefreshToken) (info : RequestMeta) : AuditEntry where
  actor := ⟨some stored.userId, none, info.ip, none⟩
  action := "auth.token_reuse"
  entityType := "user"
  entityId := some stored.userId
  summary := some "Refresh-token reuse detected; all sessions in the family revoked"
  changes := none

def auditLogoutEntry (userId : Uuid) : AuditEntry where
  actor := ⟨some userId, none, none, none⟩
  action := "auth.logout"
  entityType := "user"
  entityId := some userId
  summary := some "Signed out (all refresh tokens revoked)"
  changes := none

def uniqueViolation : AuthError := .database "duplicate key value violates unique constraint"

namespace AuthStore

/-- The next value of the random stream, drawn. -/
def draw (st : AuthStore) : Uuid × AuthStore := (st.nextUuid, { st with nextUuid := st.nextUuid + 1 })

/-- `verifyPassword` runs whether or not the user exists; a user without a hash never passes. -/
def admits (env : AuthEnv) (password : String) (record : User) : Bool :=
  (match record.passwordHash with
    | some hash => env.verifyPassword password hash
    | none => false) && record.status = .active

/-- What `refresh` does with the row it found. -/
def checkStored (info : RequestMeta) (now : Time) : Option RefreshToken → AuthPc
  | none => .thrown (.unauthorized "Refresh token is invalid or expired")
  | some stored =>
    if stored.expiresAt < now then .thrown (.unauthorized "Refresh token is invalid or expired")
    else if stored.revokedAt.isSome then .revokeTokenFamily stored info
    else .findUserById stored info

/-- The statement a call is suspended at, and the code from there to its next statement. -/
def advance (env : AuthEnv) (st : AuthStore) : AuthPc → AuthStore × AuthPc
  | .findUserByEmail email password info =>
    match st.findUserByEmail env.toLowerCase (env.toLowerCase email) with
    | some record =>
      if admits env password record then (st, .updateLastLogin record info)
      else (st, .thrown (.unauthorized "Invalid email or password"))
    | none => (st, .thrown (.unauthorized "Invalid email or password"))
  | .updateLastLogin user info => (st.updateLastLogin user.id, .auditLogin user info)
  | .auditLogin user info =>
    let (familyId, st) := (st.recordAudit (auditLoginEntry user info)).draw
    let (raw, st) := st.draw
    (st, .storeRefreshToken user raw (env.nextToken user raw familyId info st.now))
  | .storeRefreshToken user raw next =>
    match st.storeRefreshToken next with
    | some st' => (st', .returned (some (env.authResult user raw st.now)))
    | none => (st, .thrown uniqueViolation)
  | .findRefreshToken raw info => (st, checkStored info st.now (st.findRefreshToken (env.hashToken raw)))
  | .revokeTokenFamily stored info => (st.revokeTokenFamily stored.familyId, .auditReuse stored info)
  | .auditReuse stored info =>
    (st.recordAudit (auditReuseEntry stored info), .thrown (.unauthorized "Session invalidated — please sign in again"))
  | .findUserById stored info =>
    match st.findUserById stored.userId with
    | some user =>
      if user.status = .active then
        let (raw, st) := st.draw
        (st, .rotateRefreshToken stored user raw (env.nextToken user raw stored.familyId info st.now))
      else (st, .thrown (.unauthorized "Account is not active"))
    | none => (st, .thrown (.unauthorized "Account is not active"))
  | .rotateRefreshToken stored user raw next =>
    match st.rotateRefreshToken stored.id next with
    | some st' => (st', .returned (some (env.authResult user raw st.now)))
    | none => (st, .thrown uniqueViolation)
  | .revokeUserTokens userId => (st.revokeUserTokens userId, .auditLogout userId)
  | .auditLogout userId => (st.recordAudit (auditLogoutEntry userId), .returned none)
  | .returned result => (st, .returned result)
  | .thrown error => (st, .thrown error)

end AuthStore

/-! ### Interleaved calls -/

/-- The server with its calls, and the ids of the tokens that were exchanged, in order. -/
structure AuthSys where
  store : AuthStore
  calls : List AuthPc
  exchanged : List Uuid
deriving DecidableEq, Repr

inductive AuthLabel
  /-- a call comes in -/
  | request (r : AuthRequest)
  /-- the statement of the `i`-th call runs -/
  | advance (i : Nat)
  /-- it throws and changes nothing -/
  | fail (i : Nat)
  | elapse (ms : Nat)
  /-- an administrator enables or disables an account -/
  | setStatus (userId : Uuid) (status : UserStatus)
deriving DecidableEq, Repr

/-- The token whose exchange commits when the call at `pc` leaves the store `st'` and answers `pc'`. -/
def AuthPc.exchanges : AuthPc → AuthPc → List Uuid
  | .rotateRefreshToken stored _ _ _, .returned _ => [stored.id]
  | _, _ => []

def AuthStore.setStatus (userId : Uuid) (status : UserStatus) (st : AuthStore) : AuthStore :=
  { st with users := st.users.map fun u => if u.id = userId then { u with status := status } else u }

namespace AuthSys

def init (users : List User) (now : Time) : AuthSys := ⟨⟨users, [], [], 0, now⟩, [], []⟩

def step (env : AuthEnv) (s : AuthSys) : AuthLabel → Option AuthSys
  | .request r => some { s with calls := s.calls ++ [r.start] }
  | .advance i =>
    match s.calls[i]? with
    | some pc =>
      if pc.isDone then none
      else
        let (st', pc') := s.store.advance env pc
        some ⟨st', s.calls.set i pc', s.exchanged ++ pc.exchanges pc'⟩
    | none => none
  | .fail i =>
    match s.calls[i]? with
    | some pc => if pc.isDone then none else some { s with calls := s.calls.set i (.thrown (.database "failed")) }
    | none => none
  | .elapse ms => some { s with store := { s.store with now := s.store.now + ms } }
  | .setStatus userId status => some { s with store := s.store.setStatus userId status }

end AuthSys

end CronMonitor
