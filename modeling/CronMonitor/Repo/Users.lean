import CronMonitor.Repo.Audit

/-!
# `users.repo.ts`

The tables behind a session and the statements that read and write them. The raw refresh token is known to
the client only; the table keeps its hash. A statement returns `none` where it violates a constraint and
the driver throws.
-/

namespace CronMonitor

inductive UserStatus
  | active | disabled
deriving DecidableEq, Repr

inductive RbacRole
  | admin | operator | developer | compliance | management | viewer
deriving DecidableEq, Repr

/-- A row of `users`, with the role keys that `user_roles` gives it. -/
structure User where
  id : Uuid
  email : String
  fullName : String
  status : UserStatus
  teamId : Option Uuid
  roles : List RbacRole
  passwordHash : Option String
  lastLoginAt : Option Time
  createdAt : Time
deriving DecidableEq, Repr

/-- What `toUser` gives out of a row. -/
structure SessionUser where
  id : Uuid
  email : String
  fullName : String
  status : UserStatus
  teamId : Option Uuid
  roles : List RbacRole
  createdAt : Time
deriving DecidableEq, Repr

def toUser (r : User) : SessionUser := ⟨r.id, r.email, r.fullName, r.status, r.teamId, r.roles, r.createdAt⟩

/-- 48 random bytes, drawn from the stream that also yields the identifiers. -/
abbrev RawToken := Nat

/-- A row of `refresh_tokens`. -/
structure RefreshToken where
  id : Uuid
  userId : Uuid
  tokenHash : String
  familyId : Uuid
  expiresAt : Time
  revokedAt : Option Time
  replacedBy : Option Uuid
  userAgent : Option String
  ipAddress : Option String
  createdAt : Time
deriving DecidableEq, Repr

/-- The columns of `refresh_tokens` that a caller supplies. -/
structure RefreshTokenInput where
  userId : Uuid
  tokenHash : String
  familyId : Uuid
  expiresAt : Time
  userAgent : Option String
  ip : Option String
deriving DecidableEq, Repr

structure AuthStore where
  users : List User
  refreshTokens : List RefreshToken
  auditLogs : List AuditLog
  /-- The next value of the random stream. -/
  nextUuid : Uuid
  now : Time
deriving DecidableEq, Repr

/-- Neither revoked nor expired. -/
def RefreshToken.live (now : Time) (t : RefreshToken) : Bool := t.revokedAt.isNone && decide (now ≤ t.expiresAt)

/-- The row as it was inserted. -/
def RefreshToken.asIssued (t : RefreshToken) : RefreshToken := { t with revokedAt := none, replacedBy := none }

/-- `revoked_at = COALESCE(revoked_at, now())` on the rows that satisfy `p`. -/
def RefreshToken.revokeIf (p : RefreshToken → Bool) (now : Time) (t : RefreshToken) : RefreshToken :=
  if p t then { t with revokedAt := t.revokedAt <|> some now } else t

/-- `revoked_at = now(), replaced_by = $2` on the row `oldId`, whatever it held. -/
def RefreshToken.replaceIf (oldId newId : Uuid) (now : Time) (t : RefreshToken) : RefreshToken :=
  if t.id = oldId then { t with revokedAt := some now, replacedBy := some newId } else t

def RefreshTokenInput.row (i : RefreshTokenInput) (id : Uuid) (now : Time) : RefreshToken where
  id := id
  userId := i.userId
  tokenHash := i.tokenHash
  familyId := i.familyId
  expiresAt := i.expiresAt
  revokedAt := none
  replacedBy := none
  userAgent := i.userAgent
  ipAddress := i.ip
  createdAt := now

namespace AuthStore

/-- `u.email` is `citext`: both sides are compared in lower case. -/
def findUserByEmail (toLowerCase : String → String) (email : String) (st : AuthStore) : Option User :=
  st.users.find? fun u => toLowerCase u.email = toLowerCase email

def findUserById (id : Uuid) (st : AuthStore) : Option User := st.users.find? (·.id = id)

def updateLastLogin (id : Uuid) (st : AuthStore) : AuthStore :=
  { st with users := st.users.map fun u => if u.id = id then { u with lastLoginAt := some st.now } else u }

def recordAudit (e : AuditEntry) (st : AuthStore) : AuthStore :=
  { st with auditLogs := st.auditLogs ++ [e.toLog] }

/-- `token_hash text NOT NULL UNIQUE`. -/
def storeRefreshToken (i : RefreshTokenInput) (st : AuthStore) : Option AuthStore :=
  if st.refreshTokens.any (·.tokenHash = i.tokenHash) then none
  else some { st with
    nextUuid := st.nextUuid + 1
    refreshTokens := st.refreshTokens ++ [i.row st.nextUuid st.now] }

def findRefreshToken (tokenHash : String) (st : AuthStore) : Option RefreshToken :=
  st.refreshTokens.find? (·.tokenHash = tokenHash)

/-- The insert and the update commit together. The update does not look at `revoked_at`. -/
def rotateRefreshToken (oldId : Uuid) (next : RefreshTokenInput) (st : AuthStore) : Option AuthStore :=
  (st.storeRefreshToken next).map fun st' =>
    { st' with refreshTokens := st'.refreshTokens.map (RefreshToken.replaceIf oldId st.nextUuid st.now) }

def revokeTokenFamily (familyId : Uuid) (st : AuthStore) : AuthStore :=
  { st with refreshTokens := st.refreshTokens.map (RefreshToken.revokeIf (·.familyId = familyId) st.now) }

def revokeUserTokens (userId : Uuid) (st : AuthStore) : AuthStore :=
  { st with refreshTokens := st.refreshTokens.map (RefreshToken.revokeIf (·.userId = userId) st.now) }

end AuthStore

end CronMonitor
