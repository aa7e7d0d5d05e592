import CronMonitor.Auth.Steps

/-!
# Session calls one after another

`complete` runs a call to its end with nothing in between. A serial run keeps a history: for each call what was
asked, when, the row that the presented token had, and the rows that the call inserted. The history decides the
fate of every token: `revoked_iff` is what the table and the history say about each other, and
`refresh_accepted_iff` reads off which tokens are exchanged.
-/

namespace CronMonitor

open Runs

/-- Run the statements of a call, at most `n` of them. -/
def AuthStore.complete (env : AuthEnv) : Nat → AuthStore → AuthPc → AuthStore × AuthPc
  | 0, st, pc => (st, pc)
  | n + 1, st, pc => AuthStore.complete env n (st.advance env pc).1 (st.advance env pc).2

/-- No call sends more than four statements. -/
def AuthStore.call (env : AuthEnv) (st : AuthStore) (r : AuthRequest) : AuthStore × AuthPc := st.complete env 4 r.start

/-- The row of the token that a request presents. -/
def AuthRequest.presented (env : AuthEnv) (st : AuthStore) : AuthRequest → Option RefreshToken
  | .refresh raw _ => st.findRefreshToken (env.hashToken raw)
  | _ => none

structure HistoryEntry where
  request : AuthRequest
  time : Time
  presented : Option RefreshToken
  issued : List RefreshToken
deriving DecidableEq, Repr

abbrev AuthHistory := List HistoryEntry

namespace AuthHistory

/-- All tokens ever issued, in order, as they were inserted. -/
def issued (h : AuthHistory) : List RefreshToken := h.flatMap (·.issued)

/-- The user logged out since the login that began the family. -/
def LoggedOut (h : AuthHistory) (t : RefreshToken) : Prop :=
  ∃ before e after, h = before ++ e :: after ∧ e.request = .logout t.userId ∧
    ∃ r ∈ issued before, r.familyId = t.familyId

/-- An unexpired token of the family was presented that had been rotated or revoked. -/
def Replayed (h : AuthHistory) (family : Uuid) : Prop :=
  ∃ e ∈ h, ∃ row, e.presented = some row ∧ row.familyId = family ∧ e.time ≤ row.expiresAt ∧ row.revokedAt.isSome

end AuthHistory

/-- `t` is the last token of its family in `toks`. -/
def Newest (toks : List RefreshToken) (t : RefreshToken) : Prop :=
  ((toks.filter (·.familyId = t.familyId)).map (·.id)).getLast? = some t.id

structure SerialAuth where
  store : AuthStore
  history : AuthHistory
deriving DecidableEq, Repr

inductive SerialLabel
  | call (r : AuthRequest)
  | elapse (ms : Nat)
  | setStatus (userId : Uuid) (status : UserStatus)
deriving DecidableEq, Repr

namespace SerialAuth

def init (users : List User) (now : Time) : SerialAuth := ⟨⟨users, [], [], 0, now⟩, []⟩

def step (env : AuthEnv) (s : SerialAuth) : SerialLabel → Option SerialAuth
  | .call r =>
    let st' := (s.store.call env r).1
    some ⟨st', s.history ++ [⟨r, s.store.now, r.presented env s.store,
      st'.refreshTokens.drop s.store.refreshTokens.length⟩]⟩
  | .elapse ms => some { s with store := { s.store with now := s.store.now + ms } }
  | .setStatus userId status => some { s with store := s.store.setStatus userId status }

/-- A refresh with `raw`, made now, is answered with a new token. -/
def Accepts (env : AuthEnv) (s : SerialAuth) (raw : RawToken) (info : RequestMeta) : Prop :=
  ∃ result, (s.store.call env (.refresh raw info)).2 = .returned (some result)

end SerialAuth

/-! ### Whole calls -/

/-- How many statements are left at most. -/
def AuthPc.remaining : AuthPc → Nat
  | .findUserByEmail _ _ _ => 4
  | .updateLastLogin _ _ | .findRefreshToken _ _ => 3
  | .auditLogin _ _ | .revokeTokenFamily _ _ | .findUserById _ _ | .revokeUserTokens _ => 2
  | .storeRefreshToken _ _ _ | .auditReuse _ _ | .rotateRefreshToken _ _ _ _ | .auditLogout _ => 1
  | .returned _ | .thrown _ => 0

section Calls

variable {env : AuthEnv} {st : AuthStore}

theorem complete_thrown (n : Nat) (e : AuthError) : st.complete env n (.thrown e) = (st, .thrown e) := by
  induction n with
  | zero => rfl
  | succ n ih => exact ih

theorem complete_returned (n : Nat) (r : Option AuthResult) :
    st.complete env n (.returned r) = (st, .returned r) := by
  induction n with
  | zero => rfl
  | succ n ih => exact ih

theorem complete_step {n : Nat} {st' : AuthStore} {pc pc' : AuthPc} (h : st.advance env pc = (st', pc')) :
    st.complete env (n + 1) pc = st'.complete env n pc' := by
  rw [AuthStore.complete, h]

theorem remaining_advance (env : AuthEnv) (st : AuthStore) (pc : AuthPc) :
    (st.advance env pc).2.remaining ≤ pc.remaining - 1 := by
  cases pc with
  | findUserByEmail | storeRefreshToken | findUserById | rotateRefreshToken =>
    simp only [AuthStore.advance]
    repeat' split
    all_goals simp [AuthPc.remaining]
  | findRefreshToken raw info =>
    simp only [AuthStore.advance]
    cases st.findRefreshToken (env.hashToken raw) with
    | none => simp [AuthStore.checkStored, AuthPc.remaining]
    | some stored =>
      simp only [AuthStore.checkStored]
      repeat' split
      all_goals simp [AuthPc.remaining]
  | _ => simp [AuthStore.advance, AuthPc.remaining]

theorem complete_done (env : AuthEnv) (n : Nat) :
    ∀ (st : AuthStore) (pc : AuthPc), pc.remaining ≤ n → (st.complete env n pc).2.isDone = true := by
  induction n with
  | zero =>
    intro st pc h
    cases pc <;> simp [AuthPc.remaining] at h <;> rfl
  | succ n ih =>
    intro st pc h
    have hadv := remaining_advance env st pc
    exact ih _ _ (by omega)

/-- Four statements are enough: a call returns or throws. -/
theorem call_done (env : AuthEnv) (st : AuthStore) (r : AuthRequest) : (st.call env r).2.isDone = true :=
  complete_done env 4 st r.start (by cases r <;> simp [AuthRequest.start, AuthPc.remaining])

/-- The user behind a token may have sessions. -/
def AuthStore.Active (st : AuthStore) (userId : Uuid) : Prop :=
  ∃ user, st.findUserById userId = some user ∧ user.status = .active

/-- What a whole call does to the tokens, and what it answers. -/
inductive CallOutcome (env : AuthEnv) (st : AuthStore) : AuthRequest → AuthStore × AuthPc → Prop
  | refuses {r st' e} (htoks : st'.refreshTokens = st.refreshTokens) (hnext : st.nextUuid ≤ st'.nextUuid)
      (hlogout : ∀ userId, r ≠ .logout userId)
      (hwhy : ∀ row, r.presented env st = some row → row.expiresAt < st.now ∨ row.revokedAt = none ∧
        (st.Active row.userId → ∃ t ∈ st.refreshTokens, t.tokenHash = env.hashToken st.nextUuid)) :
      CallOutcome env st r (st', .thrown e)
  | logsIn {email password info st' row result} (hid : row.id = st.nextUuid + 2) (hfam : row.familyId = st.nextUuid)
      (hhash : row.tokenHash = env.hashToken (st.nextUuid + 1)) (hopen : row.asIssued = row)
      (hunused : ∀ t ∈ st.refreshTokens, t.tokenHash ≠ row.tokenHash)
      (htoks : st'.refreshTokens = st.refreshTokens ++ [row]) (hnext : st'.nextUuid = st.nextUuid + 3) :
      CallOutcome env st (.login email password info) (st', .returned (some result))
  | exchanges {raw info stored row st' now result} (hfind : st.findRefreshToken (env.hashToken raw) = some stored)
      (hexp : st.now ≤ stored.expiresAt) (hstored : stored.revokedAt = none) (hactive : st.Active stored.userId)
      (hid : row.id = st.nextUuid + 1) (hfam : row.familyId = stored.familyId) (huser : row.userId = stored.userId)
      (hhash : row.tokenHash = env.hashToken st.nextUuid) (hopen : row.asIssued = row)
      (hunused : ∀ t ∈ st.refreshTokens, t.tokenHash ≠ row.tokenHash)
      (htoks : st'.refreshTokens =
        (st.refreshTokens ++ [row]).map (RefreshToken.replaceIf stored.id (st.nextUuid + 1) now))
      (hnext : st'.nextUuid = st.nextUuid + 2) :
      CallOutcome env st (.refresh raw info) (st', .returned (some result))
  | burns {raw info stored st' now e} (hfind : st.findRefreshToken (env.hashToken raw) = some stored)
      (hexp : st.now ≤ stored.expiresAt) (hstored : stored.revokedAt.isSome)
      (htoks : st'.refreshTokens = st.refreshTokens.map (RefreshToken.revokeIf (·.familyId = stored.familyId) now))
      (hnext : st'.nextUuid = st.nextUuid) : CallOutcome env st (.refresh raw info) (st', .thrown e)
  | logsOut {userId st' now}
      (htoks : st'.refreshTokens = st.refreshTokens.map (RefreshToken.revokeIf (·.userId = userId) now))
      (hnext : st'.nextUuid = st.nextUuid) : CallOutcome env st (.logout userId) (st', .returned none)

theorem storeRefreshToken_none {next : RefreshTokenInput} (h : st.storeRefreshToken next = none) :
    ∃ t ∈ st.refreshTokens, t.tokenHash = next.tokenHash := by
  simp only [AuthStore.storeRefreshToken] at h
  split at h
  · rename_i hused
    simpa using hused
  · cases h

theorem storeRefreshToken_some {next : RefreshTokenInput} {st' : AuthStore} (h : st.storeRefreshToken next = some st') :
    st'.refreshTokens = st.refreshTokens ++ [next.row st.nextUuid st.now] ∧ st'.nextUuid = st.nextUuid + 1 ∧
      ∀ t ∈ st.refreshTokens, t.tokenHash ≠ next.tokenHash := by
  simp only [AuthStore.storeRefreshToken] at h
  split at h
  · cases h
  · rename_i hused
    cases h
    exact ⟨rfl, rfl, by simpa using hused⟩

theorem call_login (email password : String) (info : RequestMeta) :
    CallOutcome env st (.login email password info) (st.call env (.login email password info)) := by
  have hrefuses : ∀ st' e, st'.refreshTokens = st.refreshTokens → st.nextUuid ≤ st'.nextUuid →
      CallOutcome env st (.login email password info) (st', .thrown e) := fun st' e htoks hnext =>
    .refuses htoks hnext (fun _ => AuthRequest.noConfusion) fun _ h => nomatch h
  cases hu : st.findUserByEmail env.toLowerCase (env.toLowerCase email) with
  | none =>
    rw [AuthStore.call, AuthRequest.start, complete_step (by simp only [AuthStore.advance, hu]; rfl), complete_thrown]
    exact hrefuses st _ rfl le_rfl
  | some user =>
    by_cases hok : AuthStore.admits env password user
    · rw [AuthStore.call, AuthRequest.start, complete_step (by simp only [AuthStore.advance, hu, hok, if_true]; rfl),
        complete_step rfl, complete_step rfl]
      simp only [AuthStore.complete, AuthStore.advance]
      split
      · rename_i st' hst
        obtain ⟨htoks, hnext, hunused⟩ := storeRefreshToken_some hst
        refine .logsIn rfl rfl rfl rfl ?_ htoks hnext
        exact hunused
      · exact hrefuses _ _ rfl (Nat.le_add_right st.nextUuid 2)
    · rw [AuthStore.call, AuthRequest.start,
        complete_step (by simp only [AuthStore.advance, hu, hok]; rfl), complete_thrown]
      exact hrefuses st _ rfl le_rfl

theorem call_refresh (raw : RawToken) (info : RequestMeta) :
    CallOutcome env st (.refresh raw info) (st.call env (.refresh raw info)) := by
  rw [AuthStore.call, AuthRequest.start]
  cases hf : st.findRefreshToken (env.hashToken raw) with
  | none =>
    rw [complete_step (by simp only [AuthStore.advance, hf, AuthStore.checkStored]; rfl), complete_thrown]
    exact .refuses rfl le_rfl (fun _ => AuthRequest.noConfusion) fun row h => by
      simp [AuthRequest.presented, hf] at h
  | some stored =>
    have hrefuses : ∀ st' e, st'.refreshTokens = st.refreshTokens → st.nextUuid ≤ st'.nextUuid →
        (stored.expiresAt < st.now ∨ stored.revokedAt = none ∧
          (st.Active stored.userId → ∃ t ∈ st.refreshTokens, t.tokenHash = env.hashToken st.nextUuid)) →
        CallOutcome env st (.refresh raw info) (st', .thrown e) := fun st' e htoks hnext hwhy =>
      .refuses htoks hnext (fun _ => AuthRequest.noConfusion) fun row h => by
        obtain rfl : stored = row := by simpa [AuthRequest.presented, hf] using h
        exact hwhy
    have hfirst : st.advance env (.findRefreshToken raw info) =
        (st, AuthStore.checkStored info st.now (some stored)) := by rw [AuthStore.advance, hf]
    rw [complete_step hfirst, AuthStore.checkStored]
    split_ifs with hexp hrev
    · rw [complete_thrown]
      exact hrefuses st _ rfl le_rfl (.inl hexp)
    · rw [complete_step rfl, complete_step rfl, complete_thrown]
      exact .burns hf (not_lt.1 hexp) hrev rfl rfl
    have hopen : stored.revokedAt = none := by simpa using hrev
    cases hu : st.findUserById stored.userId with
    | none =>
      rw [complete_step (by simp only [AuthStore.advance, hu]; rfl), complete_thrown]
      refine hrefuses st _ rfl le_rfl (.inr ⟨hopen, ?_⟩)
      rintro ⟨user, hsome, -⟩
      cases hu.symm.trans hsome
    | some user =>
      by_cases hactive : user.status = .active
      · have hid : user.id = stored.userId := by simpa using List.find?_some hu
        rw [complete_step (by simp only [AuthStore.advance, hu, hactive, if_true]; rfl)]
        cases hst : st.draw.2.storeRefreshToken (env.nextToken user st.draw.1 stored.familyId info st.draw.2.now) with
        | none =>
          have hrot : st.draw.2.rotateRefreshToken stored.id
              (env.nextToken user st.draw.1 stored.familyId info st.draw.2.now) = none := by
            rw [AuthStore.rotateRefreshToken, hst, Option.map_none]
          rw [complete_step (by simp only [AuthStore.advance]; rw [hrot]), complete_thrown]
          obtain ⟨t, ht, hhash⟩ := storeRefreshToken_none hst
          exact hrefuses st.draw.2 _ rfl (Nat.le_succ _) (.inr ⟨hopen, fun _ => ⟨t, ht, hhash⟩⟩)
        | some st' =>
          have hrot : st.draw.2.rotateRefreshToken stored.id
              (env.nextToken user st.draw.1 stored.familyId info st.draw.2.now) = some { st' with
                refreshTokens := st'.refreshTokens.map (.replaceIf stored.id st.draw.2.nextUuid st.draw.2.now) } := by
            rw [AuthStore.rotateRefreshToken, hst, Option.map_some]
          rw [complete_step (by simp only [AuthStore.advance]; rw [hrot]), complete_returned]
          obtain ⟨htoks, hnext, hunused⟩ := storeRefreshToken_some hst
          refine .exchanges hf (not_lt.1 hexp) hopen ⟨user, hu, hactive⟩ ?_ ?_ ?_ ?_ ?_ ?_
            (congrArg (List.map (RefreshToken.replaceIf stored.id (st.nextUuid + 1) st.now)) htoks) hnext
          exacts [rfl, rfl, hid, rfl, rfl, hunused]
      · rw [complete_step (by simp only [AuthStore.advance, hu, hactive, if_false]; rfl), complete_thrown]
        refine hrefuses st _ rfl le_rfl (.inr ⟨hopen, ?_⟩)
        rintro ⟨u, hsome, hact⟩
        obtain rfl : user = u := Option.some.inj (hu.symm.trans hsome)
        exact absurd hact hactive

theorem call_cases (env : AuthEnv) (st : AuthStore) (r : AuthRequest) : CallOutcome env st r (st.call env r) := by
  cases r with
  | login email password info => exact call_login email password info
  | refresh raw info => exact call_refresh raw info
  | logout userId => exact .logsOut rfl rfl

end Calls

/-! ### A serial run is a run -/

/-- The statements of a call run one after another, as the last call of the interleaved system. -/
theorem run_complete (env : AuthEnv) (calls : List AuthPc) (n : Nat) :
    ∀ (st : AuthStore) (pc : AuthPc) (exchanged : List Uuid), ∃ k exchanged',
      run (AuthSys.step env) ⟨st, calls ++ [pc], exchanged⟩ (List.replicate k (.advance calls.length)) =
        some ⟨(st.complete env n pc).1, calls ++ [(st.complete env n pc).2], exchanged'⟩ := by
  induction n with
  | zero => exact fun st pc exchanged => ⟨0, exchanged, rfl⟩
  | succ n ih =>
    intro st pc exchanged
    cases hdone : pc.isDone with
    | true =>
      refine ⟨0, exchanged, ?_⟩
      cases pc with
      | returned r => rw [complete_returned]; rfl
      | thrown e => rw [complete_thrown]; rfl
      | _ => cases hdone
    | false =>
      obtain ⟨k, exchanged', hk⟩ := ih (st.advance env pc).1 (st.advance env pc).2
        (exchanged ++ pc.exchanges (st.advance env pc).2)
      refine ⟨k + 1, exchanged', run_cons_iff.2 ⟨_, ?_, hk⟩⟩
      simp [AuthSys.step, hdone]

/-- Every serial step is a run of the interleaved system. -/
theorem SerialAuth.step_simulated {env : AuthEnv} {s s' : SerialAuth} {l : SerialLabel} (h : step env s l = some s')
    (calls : List AuthPc) (exchanged : List Uuid) :
    ∃ tr calls' exchanged', run (AuthSys.step env) ⟨s.store, calls, exchanged⟩ tr = some ⟨s'.store, calls', exchanged'⟩ := by
  cases l with
  | call r =>
    cases h
    obtain ⟨k, exchanged', hk⟩ := run_complete env calls 4 s.store r.start exchanged
    exact ⟨.request r :: List.replicate k (.advance calls.length), _, exchanged', run_cons_iff.2 ⟨_, rfl, hk⟩⟩
  | elapse ms =>
    cases h
    exact ⟨[.elapse ms], calls, exchanged, rfl⟩
  | setStatus userId status =>
    cases h
    exact ⟨[.setStatus userId status], calls, exchanged, rfl⟩

end CronMonitor
