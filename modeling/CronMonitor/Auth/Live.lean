import CronMonitor.Auth.Reuse

/-!
# A token through one call

`Live` is a token that is the newest of its family, and the family was never replayed: it is spent only if its user
logged out. A call leaves it live unless it presents a token of the same family; the call that exchanges it answers with
another live token of that family.
-/

namespace CronMonitor

open Runs

/-! ### What a call answers -/

/-- The token that a call will answer with, if it does. -/
def AuthPc.answers (st : AuthStore) : AuthPc → Option RawToken
  | .findUserByEmail _ _ _ | .updateLastLogin _ _ | .auditLogin _ _ => some (st.nextUuid + 1)
  | .storeRefreshToken _ raw _ | .rotateRefreshToken _ _ raw _ => some raw
  | .findRefreshToken _ _ | .revokeTokenFamily _ _ | .auditReuse _ _ | .findUserById _ _ => some st.nextUuid
  | .returned (some result) => some result.refreshToken
  | .revokeUserTokens _ | .auditLogout _ | .returned none | .thrown _ => none

section Answers

variable {env : AuthEnv} {st : AuthStore} {pc : AuthPc} {raw : RawToken}

theorem answers_advance (h : (st.advance env pc).2.answers (st.advance env pc).1 = some raw) :
    pc.answers st = some raw := by
  cases pc with
  | findUserByEmail email password info =>
    simp only [AuthStore.advance] at h
    cases hu : st.findUserByEmail env.toLowerCase (env.toLowerCase email) with
    | none =>
      rw [hu] at h
      cases h
    | some user =>
      rw [hu] at h
      simp only at h
      split_ifs at h
      · exact h
      · cases h
  | updateLastLogin user info => exact h
  | auditLogin user info => exact h
  | storeRefreshToken user raw' next =>
    simp only [AuthStore.advance] at h
    cases hst : st.storeRefreshToken next with
    | none =>
      rw [hst] at h
      cases h
    | some st' =>
      rw [hst] at h
      exact h
  | findRefreshToken raw' info =>
    simp only [AuthStore.advance] at h
    cases hf : st.findRefreshToken (env.hashToken raw') with
    | none =>
      rw [hf] at h
      cases h
    | some stored =>
      rw [hf, AuthStore.checkStored] at h
      split_ifs at h
      · cases h
      · exact h
      · exact h
  | revokeTokenFamily stored info => exact h
  | auditReuse stored info => cases h
  | findUserById stored info =>
    simp only [AuthStore.advance] at h
    cases hu : st.findUserById stored.userId with
    | none =>
      rw [hu] at h
      cases h
    | some user =>
      rw [hu] at h
      simp only at h
      split_ifs at h
      · exact h
      · cases h
  | rotateRefreshToken stored user raw' next =>
    simp only [AuthStore.advance] at h
    cases hst : st.rotateRefreshToken stored.id next with
    | none =>
      rw [hst] at h
      cases h
    | some st' =>
      rw [hst] at h
      exact h
  | revokeUserTokens userId => cases h
  | auditLogout userId => cases h
  | returned result => exact h
  | thrown error => cases h

theorem answers_complete (env : AuthEnv) (n : Nat) (h : (st.complete env n pc).2.answers (st.complete env n pc).1 = some raw) :
    pc.answers st = some raw := by
  induction n generalizing st pc with
  | zero => exact h
  | succ n ih => exact answers_advance (ih h)

variable {info : RequestMeta} {result : AuthResult}

theorem refresh_answers {raw : RawToken} (h : (st.call env (.refresh raw info)).2 = .returned (some result)) :
    result.refreshToken = st.nextUuid := by
  have hans : (AuthRequest.refresh raw info).start.answers st = some result.refreshToken := by
    refine answers_complete env 4 ?_
    rw [show st.complete env 4 (AuthRequest.refresh raw info).start = st.call env (.refresh raw info) from rfl, h]
    rfl
  exact (Option.some.inj hans).symm

theorem login_answers {email password : String}
    (h : (st.call env (.login email password info)).2 = .returned (some result)) :
    result.refreshToken = st.nextUuid + 1 := by
  have hans : (AuthRequest.login email password info).start.answers st = some result.refreshToken := by
    refine answers_complete env 4 ?_
    rw [show st.complete env 4 (AuthRequest.login email password info).start = st.call env (.login email password info)
      from rfl, h]
    rfl
  exact (Option.some.inj hans).symm

end Answers

/-! ### Live tokens -/

namespace SerialAuth

open AuthHistory

variable {env : AuthEnv} {s s' : SerialAuth} {raw : RawToken} {r : AuthRequest} {l : SerialLabel} {t t' row : RefreshToken}
  {g : RefreshToken → RefreshToken} {e : HistoryEntry}

structure Live (env : AuthEnv) (s : SerialAuth) (raw : RawToken) (t : RefreshToken) : Prop where
  found : s.store.findRefreshToken (env.hashToken raw) = some t
  newest : Newest s.store.refreshTokens t
  unreplayed : ¬ Replayed s.history t.familyId

theorem Live.mem (h : Live env s raw t) : t ∈ s.store.refreshTokens := List.mem_of_find?_eq_some h.found

theorem Live.tokenHash (h : Live env s raw t) : t.tokenHash = env.hashToken raw := by
  simpa using List.find?_some h.found

/-- A live token is spent only by a logout. -/
theorem Live.loggedOut (h : Live env s raw t) (hok : Ok env s) (hrev : t.revokedAt.isSome) : LoggedOut s.history t := by
  rcases (hok.revoked_iff t h.mem).1 hrev with hnew | hout | hrep
  · exact absurd h.newest hnew
  · exact hout
  · exact absurd hrep h.unreplayed

theorem Live.accepts_iff (h : Live env s raw t) (hok : Ok env s) (hinj : Function.Injective env.hashToken)
    (info : RequestMeta) : s.Accepts env raw info ↔
      s.store.now ≤ t.expiresAt ∧ s.store.Active t.userId ∧ ¬ LoggedOut s.history t := by
  constructor
  · intro ha
    obtain ⟨stored, hfind, hexp, hopen, hactive⟩ := ha.stored
    obtain rfl := Option.some.inj (h.found.symm.trans hfind)
    refine ⟨hexp, hactive, fun hout => ?_⟩
    exact (hok.open_iff h.mem).1 hopen (.inr (.inl hout))
  · rintro ⟨hexp, hactive, hout⟩
    refine hok.accepts hinj h.found hexp ?_ hactive info
    by_contra hrev
    exact hout (h.loggedOut hok (Option.isSome_iff_ne_none.2 hrev))

theorem find_rewritten {hash : String} {new : List RefreshToken} (hg : Keeps g)
    (htoks : s'.store.refreshTokens = (s.store.refreshTokens ++ new).map g)
    (hfind : s.store.findRefreshToken hash = some t) : s'.store.findRefreshToken hash = some (g t) := by
  unfold AuthStore.findRefreshToken at hfind ⊢
  have hkey : (fun t => decide ((g t).tokenHash = hash)) = fun t : RefreshToken => decide (t.tokenHash = hash) := by
    funext t
    rw [hg.tokenHash]
  rw [htoks, List.find?_map, Function.comp_def, hkey, List.find?_append, hfind]
  rfl

/-- A call that inserts a row of another family, if any, and presents no spent token of this one. -/
theorem Live.extend {n : Option RefreshToken} (h : Live env s raw t) (hg : Keeps g)
    (htoks : s'.store.refreshTokens = (s.store.refreshTokens ++ n.toList).map g)
    (hn : ∀ row ∈ n, row.familyId ≠ t.familyId) (hhist : s'.history = s.history ++ [e])
    (hpres : ∀ row, e.presented = some row → row.familyId ≠ t.familyId) : Live env s' raw (g t) where
  found := find_rewritten hg htoks h.found
  newest := by
    rw [htoks]
    refine (newestToken_map hg.id hg.familyId).2 ?_
    cases n with
    | none =>
      rw [Option.toList_none, List.append_nil]
      exact h.newest
    | some row => exact newestToken_append.2 (by rw [if_neg (hn row rfl)]; exact h.newest)
  unreplayed := by
    rw [hhist, hg.familyId, replayed_append]
    rintro (hrep | ⟨row, hrow, hfam, -⟩)
    · exact h.unreplayed hrep
    · exact hpres row hrow hfam

/-- A call that presents no token of the family. -/
theorem Live.call (h : Live env s raw t) (hok : Ok env s) (hs : SerialAuth.step env s (.call r) = some s')
    (hpres : ∀ row, r.presented env s.store = some row → row.familyId ≠ t.familyId) :
    ∃ t', Live env s' raw t' ∧ t'.familyId = t.familyId := by
  cases hs
  have hcase := call_cases env s.store r
  generalize s.store.call env r = p at hcase
  cases hcase with
  | refuses htoks =>
    refine ⟨t, h.extend (n := none) keeps_id ?_ (fun _ hn => by cases hn) rfl hpres, rfl⟩
    rw [Option.toList_none, List.append_nil, List.map_id]
    exact htoks
  | @logsIn email password info st' row result hid hfam hhash hopen hunused htoks =>
    have hfresh : row.familyId ≠ t.familyId := hfam ▸ (Nat.ne_of_lt (hok.table.drawn t h.mem).2).symm
    refine ⟨t, h.extend (n := some row) keeps_id ?_ (by rintro _ ⟨⟩; exact hfresh) rfl hpres, rfl⟩
    rw [List.map_id]
    exact htoks
  | @exchanges raw' info stored row st' now result hfind hexp hstored hactive hid hfam huser hhash hopen hunused htoks =>
    have hg := keeps_replaceIf stored.id (s.store.nextUuid + 1) now
    have hother : row.familyId ≠ t.familyId := hfam ▸ hpres stored hfind
    exact ⟨_, h.extend (n := some row) hg htoks (by rintro _ ⟨⟩; exact hother) rfl hpres, hg.familyId t⟩
  | @burns raw' info stored st' now e hfind hexp hstored htoks =>
    have hg := keeps_revokeIf (·.familyId = stored.familyId) now
    refine ⟨_, h.extend (n := none) hg ?_ (fun _ hn => by cases hn) rfl hpres, hg.familyId t⟩
    rw [Option.toList_none, List.append_nil]
    exact htoks
  | @logsOut userId st' now htoks =>
    have hg := keeps_revokeIf (·.userId = userId) now
    refine ⟨_, h.extend (n := none) hg ?_ (fun _ hn => by cases hn) rfl hpres, hg.familyId t⟩
    rw [Option.toList_none, List.append_nil]
    exact htoks

theorem Live.step (h : Live env s raw t) (hok : Ok env s) (hs : SerialAuth.step env s l = some s')
    (hpres : ∀ r row, l = .call r → r.presented env s.store = some row → row.familyId ≠ t.familyId) :
    ∃ t', Live env s' raw t' ∧ t'.familyId = t.familyId := by
  cases l with
  | call r => exact h.call hok hs fun row => hpres r row rfl
  | elapse ms | setStatus userId status =>
    cases hs
    exact ⟨t, ⟨h.found, h.newest, h.unreplayed⟩, rfl⟩

/-- The token that a login answers with begins a family of its own. -/
theorem live_login {email password : String} {info : RequestMeta} {result : AuthResult} (hok : Ok env s)
    (hans : (s.store.call env (.login email password info)).2 = .returned (some result))
    (hs : SerialAuth.step env s (.call (.login email password info)) = some s') :
    ∃ t', Live env s' result.refreshToken t' ∧ t'.familyId = s.store.nextUuid := by
  have hok' := hok.step hs
  have htoken := login_answers hans
  cases hs
  have hcase := call_cases env s.store (.login email password info)
  revert hok'
  generalize s.store.call env (.login email password info) = p at hcase hans
  intro hok'
  cases hcase with
  | refuses => cases hans
  | @logsIn _ _ _ st' row result' hid hfam hhash hopen hunused htoks hnext =>
    have hmem : row ∈ st'.refreshTokens := htoks ▸ List.mem_append_right _ (List.mem_singleton.2 rfl)
    refine ⟨row, ⟨(hok'.find_iff _).2 ⟨hmem, by rw [hhash, htoken]⟩, ?_, ?_⟩, hfam⟩
    · show Newest st'.refreshTokens row
      rw [htoks]
      exact newestToken_append.2 (by rw [if_pos rfl])
    · rw [replayed_append]
      rintro (⟨e, he, q, hq, hqf, -⟩ | ⟨q, hq, -⟩)
      · obtain ⟨r, hr, hrf⟩ := hok.presented e he q hq
        exact absurd (hok.table.drawn r hr).2 (by rw [hrf, hqf, hfam]; exact lt_irrefl _)
      · cases hq

/-- The token that a live one is exchanged for is live. -/
theorem Live.exchanged {info : RequestMeta} {result : AuthResult} (h : Live env s raw t) (hok : Ok env s)
    (hans : (s.store.call env (.refresh raw info)).2 = .returned (some result))
    (hs : SerialAuth.step env s (.call (.refresh raw info)) = some s') :
    ∃ t', Live env s' result.refreshToken t' ∧ t'.familyId = t.familyId := by
  have hok' := hok.step hs
  have htoken := refresh_answers hans
  cases hs
  have hcase := call_cases env s.store (.refresh raw info)
  revert hok'
  generalize s.store.call env (.refresh raw info) = p at hcase hans
  intro hok'
  cases hcase with
  | refuses | burns => cases hans
  | @exchanges _ _ stored row st' now result' hfind hexp hstored hactive hid hfam huser hhash hopen hunused htoks hnext =>
    obtain rfl := Option.some.inj (h.found.symm.trans hfind)
    have hg := keeps_replaceIf t.id (s.store.nextUuid + 1) now
    have hmem : row.replaceIf t.id (s.store.nextUuid + 1) now ∈ st'.refreshTokens := by
      rw [htoks]
      exact List.mem_map_of_mem (List.mem_append_right _ (List.mem_singleton.2 rfl))
    refine ⟨_, ⟨(hok'.find_iff _).2 ⟨hmem, by rw [hg.tokenHash, hhash, htoken]⟩, ?_, ?_⟩, by rw [hg.familyId, hfam]⟩
    · show Newest st'.refreshTokens _
      rw [htoks]
      exact (newestToken_map hg.id hg.familyId).2 (newestToken_append.2 (by rw [if_pos rfl]))
    · rw [replayed_append, hg.familyId, hfam]
      rintro (hrep | ⟨q, hq, -, -, hrev⟩)
      · exact h.unreplayed hrep
      · obtain rfl := Option.some.inj (hq.symm.trans h.found)
        rw [hstored] at hrev
        cases hrev

/-- Where the rows come from: they were there, or the call answered with them, in a family of their own or in that of the
token that it presented. -/
theorem rows_step (hs : SerialAuth.step env s l = some s') (ht : t' ∈ s'.store.refreshTokens) :
    (∃ t ∈ s.store.refreshTokens, t.familyId = t'.familyId ∧ t.tokenHash = t'.tokenHash) ∨
      ∃ r result, l = .call r ∧ (s.store.call env r).2 = .returned (some result) ∧
        t'.tokenHash = env.hashToken result.refreshToken ∧ (t'.familyId = s.store.nextUuid ∨
          ∃ stored, r.presented env s.store = some stored ∧ stored.familyId = t'.familyId) := by
  cases l with
  | elapse ms | setStatus userId status =>
    cases hs
    exact .inl ⟨t', ht, rfl, rfl⟩
  | call r =>
    cases hs
    have hcase := call_cases env s.store r
    have hrefresh : ∀ raw info result, r = .refresh raw info → (s.store.call env r).2 = .returned (some result) →
        result.refreshToken = s.store.nextUuid := by
      rintro raw info result rfl hans
      exact refresh_answers hans
    have hlogin : ∀ email password info result, r = .login email password info →
        (s.store.call env r).2 = .returned (some result) → result.refreshToken = s.store.nextUuid + 1 := by
      rintro email password info result rfl hans
      exact login_answers hans
    generalize hp : s.store.call env r = p at hcase ht hrefresh hlogin
    cases hcase with
    | refuses htoks =>
      rw [htoks] at ht
      exact .inl ⟨t', ht, rfl, rfl⟩
    | @logsIn email password info st' row result hid hfam hhash hopen hunused htoks =>
      rw [htoks] at ht
      rcases List.mem_append.1 ht with ht | ht
      · exact .inl ⟨t', ht, rfl, rfl⟩
      · obtain rfl := List.mem_singleton.1 ht
        refine .inr ⟨_, result, rfl, by rw [hp], ?_, .inl hfam⟩
        rw [hhash, hlogin email password info result rfl rfl]
    | @exchanges raw info stored row st' now result hfind hexp hstored hactive hid hfam huser hhash hopen hunused htoks =>
      have hg := keeps_replaceIf stored.id (s.store.nextUuid + 1) now
      rw [htoks] at ht
      obtain ⟨q, hq, rfl⟩ := List.mem_map.1 ht
      rw [hg.familyId, hg.tokenHash]
      rcases List.mem_append.1 hq with hq | hq
      · exact .inl ⟨q, hq, rfl, rfl⟩
      · obtain rfl := List.mem_singleton.1 hq
        refine .inr ⟨_, result, rfl, by rw [hp], ?_, .inr ⟨stored, hfind, hfam.symm⟩⟩
        rw [hhash, hrefresh raw info result rfl rfl]
    | @burns raw info stored st' now e hfind hexp hstored htoks =>
      have hg := keeps_revokeIf (·.familyId = stored.familyId) now
      rw [htoks] at ht
      obtain ⟨q, hq, rfl⟩ := List.mem_map.1 ht
      exact .inl ⟨q, hq, (hg.familyId q).symm, (hg.tokenHash q).symm⟩
    | @logsOut userId st' now htoks =>
      have hg := keeps_revokeIf (·.userId = userId) now
      rw [htoks] at ht
      obtain ⟨q, hq, rfl⟩ := List.mem_map.1 ht
      exact .inl ⟨q, hq, (hg.familyId q).symm, (hg.tokenHash q).symm⟩

theorem nextUuid_step (hs : SerialAuth.step env s l = some s') : s.store.nextUuid ≤ s'.store.nextUuid := by
  cases l with
  | elapse ms | setStatus userId status =>
    cases hs
    exact le_rfl
  | call r =>
    cases hs
    have hcase := call_cases env s.store r
    generalize s.store.call env r = p at hcase
    cases hcase with
    | refuses _ hnext => exact hnext
    | logsIn _ _ _ _ _ _ hnext | exchanges _ _ _ _ _ _ _ _ _ _ _ hnext => exact hnext ▸ Nat.le_add_right _ _
    | burns _ _ _ _ hnext | logsOut _ hnext => exact hnext.ge

end SerialAuth

end CronMonitor
