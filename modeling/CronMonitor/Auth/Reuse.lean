import CronMonitor.Auth.Serial

/-!
# Which tokens a serial run accepts

A row of the table is revoked exactly when the history says that its token is spent: a newer token of its family
was issued, its user logged out, or a spent token of its family was presented. `Ok.call` keeps this through every
call, and acceptance is read off the table with it.
-/

namespace CronMonitor

open Runs AuthHistory

variable {env : AuthEnv} {toks : List RefreshToken} {row t : RefreshToken} {g : RefreshToken → RefreshToken}
  {h : AuthHistory} {e : HistoryEntry} {family : Uuid}

/-! ### The newest token of a family -/

theorem newestToken_append : Newest (toks ++ [row]) t ↔
    if row.familyId = t.familyId then row.id = t.id else Newest toks t := by
  by_cases hf : row.familyId = t.familyId <;> simp [Newest, List.filter_append, hf]

theorem newestToken_map (hid : ∀ t, (g t).id = t.id) (hfam : ∀ t, (g t).familyId = t.familyId) :
    Newest (toks.map g) (g t) ↔ Newest toks t := by
  have hkeys : ((toks.map g).filter (·.familyId = (g t).familyId)).map (·.id) =
      (toks.filter (·.familyId = t.familyId)).map (·.id) := by
    rw [List.filter_map, List.map_map]
    simp [Function.comp_def, hfam, hid]
  rw [Newest, Newest, hkeys, hid]

theorem Newest.unique {t' : RefreshToken} (hn : Newest toks t) (hn' : Newest toks t') (hf : t.familyId = t'.familyId) :
    t.id = t'.id := by
  rw [Newest, ← hf] at hn'
  exact Option.some.inj (hn.symm.trans hn')

/-! ### Histories extended by one call -/

theorem issued_append : issued (h ++ [e]) = issued h ++ e.issued := by
  simp [AuthHistory.issued]

theorem loggedOut_append : LoggedOut (h ++ [e]) t ↔
    LoggedOut h t ∨ e.request = .logout t.userId ∧ ∃ r ∈ issued h, r.familyId = t.familyId := by
  constructor
  · rintro ⟨before, e', after, heq, hreq, hfam⟩
    rcases List.eq_nil_or_concat after with rfl | ⟨after', x, rfl⟩
    · obtain ⟨rfl, hlast⟩ := List.append_inj' heq rfl
      obtain rfl : e = e' := by simpa using hlast
      exact .inr ⟨hreq, hfam⟩
    · rw [List.concat_eq_append, ← List.cons_append, ← List.append_assoc] at heq
      obtain ⟨rfl, -⟩ := List.append_inj' heq rfl
      exact .inl ⟨before, e', after', rfl, hreq, hfam⟩
  · rintro (⟨before, e', after, rfl, hreq, hfam⟩ | ⟨hreq, hfam⟩)
    · exact ⟨before, e', after ++ [e], by simp, hreq, hfam⟩
    · exact ⟨h, e, [], rfl, hreq, hfam⟩

theorem replayed_append : Replayed (h ++ [e]) family ↔ Replayed h family ∨
    ∃ row, e.presented = some row ∧ row.familyId = family ∧ e.time ≤ row.expiresAt ∧ row.revokedAt.isSome := by
  simp only [Replayed, List.mem_append, List.mem_singleton]
  constructor
  · rintro ⟨e', he | rfl, hrow⟩
    · exact .inl ⟨e', he, hrow⟩
    · exact .inr hrow
  · rintro (⟨e', he, hrow⟩ | hrow)
    · exact ⟨e', .inl he, hrow⟩
    · exact ⟨e, .inr rfl, hrow⟩

/-- Whether a token is logged out depends on its user and its family. -/
theorem loggedOut_congr {t' : RefreshToken} (hu : t'.userId = t.userId) (hf : t'.familyId = t.familyId) :
    LoggedOut h t' ↔ LoggedOut h t := by
  rw [LoggedOut, LoggedOut, hu, hf]

/-- A family that nobody has was never logged out. -/
theorem AuthHistory.LoggedOut.mem_issued (hl : LoggedOut h t) : ∃ r ∈ issued h, r.familyId = t.familyId := by
  obtain ⟨before, e, after, rfl, -, r, hr, hf⟩ := hl
  refine ⟨r, ?_, hf⟩
  simp only [AuthHistory.issued, List.flatMap_append, List.mem_append] at hr ⊢
  exact .inl hr

namespace SerialAuth

variable {s s' : SerialAuth} {l : SerialLabel}

/-- The token is spent, as the history tells it. -/
def Spent (s : SerialAuth) (t : RefreshToken) : Prop :=
  ¬ Newest s.store.refreshTokens t ∨ LoggedOut s.history t ∨ Replayed s.history t.familyId

structure Ok (env : AuthEnv) (s : SerialAuth) : Prop where
  table : TableOk s.store.refreshTokens s.store.nextUuid
  issued : issued s.history = s.store.refreshTokens.map RefreshToken.asIssued
  hashes : (s.store.refreshTokens.map (·.tokenHash)).Nodup
  drawn : ∀ t ∈ s.store.refreshTokens, ∃ raw < s.store.nextUuid, t.tokenHash = env.hashToken raw
  presented : ∀ e ∈ s.history, ∀ row, e.presented = some row → ∃ r ∈ s.store.refreshTokens, r.familyId = row.familyId
  revoked_iff : ∀ t ∈ s.store.refreshTokens, t.revokedAt.isSome ↔ s.Spent t

theorem ok_init (env : AuthEnv) (users : List User) (now : Time) : Ok env (init users now) :=
  ⟨⟨List.nodup_nil, by simp [init], by simp [init]⟩, rfl, List.nodup_nil, by simp [init], by simp [init], by simp [init]⟩

/-- A call that inserts `n`, if anything, rewrites the rows by `g`, and gets `revoked_iff` right. -/
theorem Ok.extend {n : Option RefreshToken} (hok : Ok env s) (hg : Keeps g)
    (htoks : s'.store.refreshTokens = (s.store.refreshTokens ++ n.toList).map g)
    (hnext : s.store.nextUuid ≤ s'.store.nextUuid) (htable : TableOk s'.store.refreshTokens s'.store.nextUuid)
    (hhist : s'.history = s.history ++ [e]) (hissued : e.issued = n.toList.map RefreshToken.asIssued)
    (hnew : ∀ row ∈ n, (∀ t ∈ s.store.refreshTokens, t.tokenHash ≠ row.tokenHash) ∧
      ∃ raw < s'.store.nextUuid, row.tokenHash = env.hashToken raw)
    (hpres : ∀ row, e.presented = some row → ∃ r ∈ s.store.refreshTokens, r.familyId = row.familyId)
    (hrev : ∀ t ∈ s.store.refreshTokens ++ n.toList, (g t).revokedAt.isSome ↔ s'.Spent (g t)) : Ok env s' where
  table := htable
  issued := by
    rw [hhist, issued_append, hok.issued, hissued, htoks, List.map_map, ← List.map_append]
    exact List.map_congr_left fun t _ => (hg.asIssued t).symm
  hashes := by
    have hkeys : s'.store.refreshTokens.map (·.tokenHash) =
        s.store.refreshTokens.map (·.tokenHash) ++ n.toList.map (·.tokenHash) := by
      rw [htoks, List.map_map, ← List.map_append]
      exact List.map_congr_left fun t _ => hg.tokenHash t
    rw [hkeys]
    refine List.nodup_append.2 ⟨hok.hashes, ?_, fun a ha b hb hab => ?_⟩
    · cases n <;> simp
    · obtain ⟨t, ht, rfl⟩ := List.mem_map.1 ha
      obtain ⟨row, hrow, rfl⟩ := List.mem_map.1 hb
      exact (hnew row (Option.mem_toList.1 hrow)).1 t ht hab
  drawn := by
    intro t ht
    rw [htoks] at ht
    obtain ⟨q, hq, rfl⟩ := List.mem_map.1 ht
    rw [hg.tokenHash]
    rcases List.mem_append.1 hq with hq | hq
    · obtain ⟨raw, hraw, hhash⟩ := hok.drawn q hq
      exact ⟨raw, Nat.lt_of_lt_of_le hraw hnext, hhash⟩
    · exact (hnew q (Option.mem_toList.1 hq)).2
  presented := by
    intro e' he' row hrow
    have hold : ∃ r ∈ s.store.refreshTokens, r.familyId = row.familyId := by
      rw [hhist] at he'
      rcases List.mem_append.1 he' with he' | he'
      · exact hok.presented e' he' row hrow
      · rw [List.mem_singleton.1 he'] at hrow
        exact hpres row hrow
    obtain ⟨r, hr, hf⟩ := hold
    refine ⟨g r, ?_, by rw [hg.familyId, hf]⟩
    rw [htoks]
    exact List.mem_map_of_mem (List.mem_append_left _ hr)
  revoked_iff := by
    intro t ht
    rw [htoks] at ht
    obtain ⟨q, hq, rfl⟩ := List.mem_map.1 ht
    exact hrev q hq

/-- What a rewritten row's fate is after one more call. -/
theorem spent_map (hg : Keeps g) (htoks : s'.store.refreshTokens = toks.map g) (hhist : s'.history = s.history ++ [e]) :
    s'.Spent (g t) ↔ ¬ Newest toks t ∨
      (LoggedOut s.history t ∨ e.request = .logout t.userId ∧ ∃ r ∈ AuthHistory.issued s.history, r.familyId = t.familyId) ∨
      (Replayed s.history t.familyId ∨ ∃ row, e.presented = some row ∧ row.familyId = t.familyId ∧
        e.time ≤ row.expiresAt ∧ row.revokedAt.isSome) := by
  rw [Spent, htoks, hhist, newestToken_map hg.id hg.familyId, loggedOut_append, replayed_append,
    loggedOut_congr (hg.userId t) (hg.familyId t), hg.userId, hg.familyId]

/-- The families in the table are those of the history. -/
theorem Ok.exists_issued (hok : Ok env s) {family : Uuid} :
    (∃ r ∈ AuthHistory.issued s.history, r.familyId = family) ↔ ∃ r ∈ s.store.refreshTokens, r.familyId = family := by
  rw [hok.issued]
  simp [RefreshToken.asIssued]

/-- Two open tokens of a family are one. -/
theorem Ok.open_unique (hok : Ok env s) {t t' : RefreshToken} (ht : t ∈ s.store.refreshTokens)
    (ht' : t' ∈ s.store.refreshTokens) (hf : t.familyId = t'.familyId) (ho : t.revokedAt = none)
    (ho' : t'.revokedAt = none) : t = t' := by
  have hnewest : ∀ q ∈ s.store.refreshTokens, q.revokedAt = none → Newest s.store.refreshTokens q := by
    intro q hq hopen
    by_contra hn
    have hsome := (hok.revoked_iff q hq).2 (.inl hn)
    rw [hopen] at hsome
    cases hsome
  exact hok.table.eq_of_id ht ht' ((hnewest t ht ho).unique (hnewest t' ht' ho') hf)

section Call

variable {st' : AuthStore}

/-- The state and the history after a call that left the store `st'`. -/
def after (env : AuthEnv) (s : SerialAuth) (r : AuthRequest) (st' : AuthStore) : SerialAuth :=
  ⟨st', s.history ++ [⟨r, s.store.now, r.presented env s.store, st'.refreshTokens.drop s.store.refreshTokens.length⟩]⟩

theorem drop_rewritten {new : List RefreshToken} (g : RefreshToken → RefreshToken) :
    ((toks ++ new).map g).drop toks.length = new.map g := by
  have hlen : (toks.map g).length = toks.length := List.length_map g
  rw [List.map_append, ← hlen, List.drop_left]

theorem presented_mem {r : AuthRequest} (hp : r.presented env s.store = some row) : row ∈ s.store.refreshTokens := by
  cases r with
  | refresh raw info => exact List.mem_of_find?_eq_some hp
  | login | logout => cases hp

theorem Ok.refuses {r : AuthRequest} (hok : Ok env s) (htoks : st'.refreshTokens = s.store.refreshTokens)
    (hnext : s.store.nextUuid ≤ st'.nextUuid) (hlogout : ∀ userId, r ≠ .logout userId)
    (hwhy : ∀ row, r.presented env s.store = some row → row.expiresAt < s.store.now ∨ row.revokedAt = none) :
    Ok env (s.after env r st') := by
  have hsame : (s.after env r st').store.refreshTokens =
      (s.store.refreshTokens ++ (none : Option RefreshToken).toList).map id := by simp [after, htoks]
  refine hok.extend keeps_id hsame hnext ?_ rfl ?_ (fun _ h => nomatch h)
    (fun row hp => ⟨row, presented_mem hp, rfl⟩) fun t ht => ?_
  · rw [after, htoks]
    exact hok.table.mono hnext
  · simp [htoks]
  · rw [Option.toList_none, List.append_nil] at ht hsame
    rw [spent_map keeps_id hsame rfl, id_eq, hok.revoked_iff t ht, Spent]
    have hreplay : ¬ ∃ row, r.presented env s.store = some row ∧ row.familyId = t.familyId ∧
        s.store.now ≤ row.expiresAt ∧ row.revokedAt.isSome := by
      rintro ⟨row, hp, -, hexp, hrev⟩
      rcases hwhy row hp with h | h
      · exact absurd hexp (not_le.2 h)
      · rw [h] at hrev
        cases hrev
    simp only [hreplay, hlogout, or_false, false_and]

theorem Ok.logsIn {email password : String} {info : RequestMeta} (hok : Ok env s)
    (hid : row.id = s.store.nextUuid + 2) (hfam : row.familyId = s.store.nextUuid)
    (hhash : row.tokenHash = env.hashToken (s.store.nextUuid + 1)) (hopen : row.asIssued = row)
    (hunused : ∀ t ∈ s.store.refreshTokens, t.tokenHash ≠ row.tokenHash)
    (htoks : st'.refreshTokens = s.store.refreshTokens ++ [row]) (hnext : st'.nextUuid = s.store.nextUuid + 3) :
    Ok env (s.after env (.login email password info) st') := by
  have hsame : (s.after env (.login email password info) st').store.refreshTokens =
      (s.store.refreshTokens ++ (some row).toList).map id := by simp [after, htoks]
  have hle : s.store.nextUuid ≤ st'.nextUuid := hnext ▸ Nat.le_add_right _ _
  -- nobody has the family of the new token
  have hfresh : ∀ r ∈ s.store.refreshTokens, r.familyId ≠ row.familyId := fun r hr =>
    hfam ▸ Nat.ne_of_lt (hok.table.drawn r hr).2
  refine hok.extend keeps_id hsame hle ?_ rfl ?_ ?_ (fun _ h => by cases h) fun t ht => ?_
  · rw [after, htoks, hnext]
    refine (hok.table.mono (Nat.le_add_right _ 2)).append hid (by rw [hfam]; exact Nat.lt_add_of_pos_right two_pos) ?_
    exact fun t ht hf => absurd hf (hfresh t ht)
  · simp [htoks, hopen]
  · rintro _ ⟨⟩
    exact ⟨hunused, _, by rw [after, hnext]; exact Nat.lt_add_of_pos_right two_pos, hhash⟩
  · rw [spent_map keeps_id hsame rfl, id_eq]
    rcases List.mem_append.1 ht with ht | ht
    · have hnew : Newest (s.store.refreshTokens ++ (some row).toList) t ↔ Newest s.store.refreshTokens t :=
        newestToken_append.trans (by rw [if_neg (hfresh t ht).symm])
      rw [hnew, hok.revoked_iff t ht, Spent]
      simp [AuthRequest.presented]
    · obtain rfl : t = row := List.mem_singleton.1 ht
      have hnew : Newest (s.store.refreshTokens ++ [t]) t := newestToken_append.2 (by simp)
      have hlogged : ¬ LoggedOut s.history t := fun hl => by
        obtain ⟨r, hr, hf⟩ := hok.exists_issued.1 hl.mem_issued
        exact hfresh r hr hf
      have hreplay : ¬ Replayed s.history t.familyId := by
        rintro ⟨e, he, q, hq, hf, -⟩
        obtain ⟨r, hr, hrf⟩ := hok.presented e he q hq
        exact hfresh r hr (hrf.trans hf)
      have hnone : t.revokedAt = none := by rw [← hopen]; rfl
      simp [hnew, hlogged, hreplay, hnone, AuthRequest.presented]

theorem Ok.exchanges {raw : RawToken} {info : RequestMeta} {stored : RefreshToken} {now : Time} (hok : Ok env s)
    (hfind : s.store.findRefreshToken (env.hashToken raw) = some stored) (hstored : stored.revokedAt = none)
    (hid : row.id = s.store.nextUuid + 1) (hfam : row.familyId = stored.familyId) (huser : row.userId = stored.userId)
    (hhash : row.tokenHash = env.hashToken s.store.nextUuid) (hopen : row.asIssued = row)
    (hunused : ∀ t ∈ s.store.refreshTokens, t.tokenHash ≠ row.tokenHash)
    (htoks : st'.refreshTokens =
      (s.store.refreshTokens ++ [row]).map (RefreshToken.replaceIf stored.id (s.store.nextUuid + 1) now))
    (hnext : st'.nextUuid = s.store.nextUuid + 2) : Ok env (s.after env (.refresh raw info) st') := by
  have hmem : stored ∈ s.store.refreshTokens := List.mem_of_find?_eq_some hfind
  have hg := keeps_replaceIf stored.id (s.store.nextUuid + 1) now
  have hle : s.store.nextUuid ≤ st'.nextUuid := hnext ▸ Nat.le_add_right _ _
  have hne : ∀ t ∈ s.store.refreshTokens, row.id ≠ t.id := fun t ht =>
    hid ▸ (Nat.lt_succ_of_lt (hok.table.drawn t ht).1).ne'
  have hrow : row.replaceIf stored.id (s.store.nextUuid + 1) now = row := if_neg (hne stored hmem)
  have hfresh : ¬ s.Spent stored := fun hs => by
    have hsome := (hok.revoked_iff stored hmem).2 hs
    rw [hstored] at hsome
    cases hsome
  -- a token that is still open was not replayed
  have hreplay : ∀ family, ¬ ∃ q, (AuthRequest.refresh raw info).presented env s.store = some q ∧ q.familyId = family ∧
      s.store.now ≤ q.expiresAt ∧ q.revokedAt.isSome := by
    rintro family ⟨q, hq, -, -, hrev⟩
    obtain rfl : stored = q := Option.some.inj (hfind.symm.trans hq)
    rw [hstored] at hrev
    cases hrev
  refine hok.extend (n := some row) hg htoks hle ?_ rfl ?_ ?_
    (fun q hp => ⟨q, presented_mem (r := .refresh raw info) hp, rfl⟩) fun t ht => ?_
  · rw [after, htoks, hnext]
    refine ((hok.table.mono (Nat.le_succ _)).append hid ?_ ?_).map hg
    · exact hfam ▸ Nat.lt_succ_of_lt (hok.table.drawn stored hmem).2
    · intro t ht hf
      rw [huser]
      exact hok.table.owner t ht stored hmem (hf.trans hfam)
  · rw [htoks, drop_rewritten, List.map_singleton, hrow]
    exact congrArg (fun r => [r]) hopen.symm
  · rintro _ ⟨⟩
    exact ⟨hunused, _, by rw [after, hnext]; exact Nat.lt_add_of_pos_right two_pos, hhash⟩
  · rw [spent_map hg htoks rfl]
    simp only [hreplay, or_false, reduceCtorEq, false_and]
    rcases List.mem_append.1 ht with ht | ht
    · rw [replaceIf_revokedAt, newestToken_append]
      by_cases hf : row.familyId = t.familyId
      · rw [if_pos hf]
        have hrev : t.id = stored.id ∨ t.revokedAt.isSome := by
          by_cases ho : t.revokedAt = none
          · exact .inl (congrArg RefreshToken.id (hok.open_unique ht hmem (hf.symm.trans hfam) ho hstored))
          · exact .inr (Option.isSome_iff_ne_none.2 ho)
        simp [hne t ht, hrev]
      · have hid' : t.id ≠ stored.id := fun heq => hf (by rw [hfam, hok.table.eq_of_id ht hmem heq])
        rw [if_neg hf]
        simpa [hid', Spent] using hok.revoked_iff t ht
    · obtain rfl : t = row := List.mem_singleton.1 ht
      have hnone : t.revokedAt = none := by rw [← hopen]; rfl
      rw [hrow, hnone, newestToken_append, if_pos rfl, loggedOut_congr huser hfam, hfam]
      simp only [Spent, not_or] at hfresh
      simp [hfresh]

theorem Ok.burns {raw : RawToken} {info : RequestMeta} {stored : RefreshToken} {now : Time} (hok : Ok env s)
    (hfind : s.store.findRefreshToken (env.hashToken raw) = some stored) (hexp : s.store.now ≤ stored.expiresAt)
    (hstored : stored.revokedAt.isSome)
    (htoks : st'.refreshTokens =
      s.store.refreshTokens.map (RefreshToken.revokeIf (·.familyId = stored.familyId) now))
    (hnext : st'.nextUuid = s.store.nextUuid) : Ok env (s.after env (.refresh raw info) st') := by
  have hg := keeps_revokeIf (·.familyId = stored.familyId) now
  have hsame : (s.after env (.refresh raw info) st').store.refreshTokens = (s.store.refreshTokens ++
      (none : Option RefreshToken).toList).map (RefreshToken.revokeIf (·.familyId = stored.familyId) now) := by
    rw [Option.toList_none, List.append_nil]
    exact htoks
  refine hok.extend hg hsame hnext.ge ?_ rfl ?_ (fun _ h => nomatch h)
    (fun q hp => ⟨q, presented_mem (r := .refresh raw info) hp, rfl⟩) fun t ht => ?_
  · rw [after, htoks, hnext]
    exact hok.table.map hg
  · simp [htoks]
  · rw [Option.toList_none, List.append_nil] at ht
    rw [spent_map hg htoks rfl, revokeIf_revokedAt]
    have hpres : (AuthRequest.refresh raw info).presented env s.store = some stored := hfind
    by_cases hf : t.familyId = stored.familyId
    · simp [hf, hpres, hexp, hstored]
    · simpa [hf, hpres, Ne.symm hf, Spent] using hok.revoked_iff t ht

theorem Ok.logsOut {userId : Uuid} {now : Time} (hok : Ok env s)
    (htoks : st'.refreshTokens = s.store.refreshTokens.map (RefreshToken.revokeIf (·.userId = userId) now))
    (hnext : st'.nextUuid = s.store.nextUuid) : Ok env (s.after env (.logout userId) st') := by
  have hg := keeps_revokeIf (·.userId = userId) now
  have hsame : (s.after env (.logout userId) st').store.refreshTokens = (s.store.refreshTokens ++
      (none : Option RefreshToken).toList).map (RefreshToken.revokeIf (·.userId = userId) now) := by
    rw [Option.toList_none, List.append_nil]
    exact htoks
  refine hok.extend hg hsame hnext.ge ?_ rfl ?_ (fun _ h => nomatch h) (fun _ h => nomatch h) fun t ht => ?_
  · rw [after, htoks, hnext]
    exact hok.table.map hg
  · simp [htoks]
  · rw [Option.toList_none, List.append_nil] at ht
    rw [spent_map hg htoks rfl, revokeIf_revokedAt]
    have hissued : ∃ r ∈ AuthHistory.issued s.history, r.familyId = t.familyId := hok.exists_issued.2 ⟨t, ht, rfl⟩
    by_cases hu : t.userId = userId
    · simp [hu, hissued]
    · simpa [hu, Ne.symm hu, AuthRequest.presented, Spent] using hok.revoked_iff t ht

end Call

theorem Ok.step (hok : Ok env s) (hs : SerialAuth.step env s l = some s') : Ok env s' := by
  cases l with
  | call r =>
    cases hs
    have hcase := call_cases env s.store r
    generalize s.store.call env r = p at hcase
    cases hcase with
    | refuses htoks hnext hlogout hwhy =>
      exact hok.refuses htoks hnext hlogout fun row hp => (hwhy row hp).imp_right And.left
    | logsIn hid hfam hhash hopen hunused htoks hnext => exact hok.logsIn hid hfam hhash hopen hunused htoks hnext
    | exchanges hfind _ hstored _ hid hfam huser hhash hopen hunused htoks hnext =>
      exact hok.exchanges hfind hstored hid hfam huser hhash hopen hunused htoks hnext
    | burns hfind hexp hstored htoks hnext => exact hok.burns hfind hexp hstored htoks hnext
    | logsOut htoks hnext => exact hok.logsOut htoks hnext
  | elapse ms | setStatus userId status =>
    cases hs
    exact ⟨hok.table, hok.issued, hok.hashes, hok.drawn, hok.presented, hok.revoked_iff⟩

theorem Ok.run {tr : List SerialLabel} (hok : Ok env s) (hr : Runs.run (SerialAuth.step env) s tr = some s') : Ok env s' :=
  inv_run hok (fun _ _ _ => Ok.step) hr

/-! ### Acceptance -/

/-- An accepted token was found open, unexpired, and its user active. -/
theorem Accepts.stored {raw : RawToken} {info : RequestMeta} (ha : s.Accepts env raw info) :
    ∃ stored, s.store.findRefreshToken (env.hashToken raw) = some stored ∧ s.store.now ≤ stored.expiresAt ∧
      stored.revokedAt = none ∧ s.store.Active stored.userId := by
  obtain ⟨result, hres⟩ := ha
  have hcase := call_cases env s.store (.refresh raw info)
  generalize s.store.call env (.refresh raw info) = p at hcase hres
  cases hcase with
  | refuses | burns => cases hres
  | exchanges hfind hexp hstored hactive => exact ⟨_, hfind, hexp, hstored, hactive⟩

/-- A token found open and unexpired of an active user is accepted: the new token's hash is nobody's. -/
theorem Ok.accepts {raw : RawToken} {stored : RefreshToken} (hok : Ok env s) (hinj : Function.Injective env.hashToken)
    (hfind : s.store.findRefreshToken (env.hashToken raw) = some stored) (hexp : s.store.now ≤ stored.expiresAt)
    (hopen : stored.revokedAt = none) (hactive : s.store.Active stored.userId) (info : RequestMeta) :
    s.Accepts env raw info := by
  have hcase := call_cases env s.store (.refresh raw info)
  rw [Accepts]
  generalize s.store.call env (.refresh raw info) = p at hcase ⊢
  cases hcase with
  | refuses _ _ _ hwhy =>
    rcases hwhy stored hfind with h | ⟨-, h⟩
    · exact absurd hexp (not_le.2 h)
    · obtain ⟨t, ht, hhash⟩ := h hactive
      obtain ⟨raw', hlt, hraw'⟩ := hok.drawn t ht
      exact absurd (hinj (hraw'.symm.trans hhash)) (Nat.ne_of_lt hlt)
  | exchanges => exact ⟨_, rfl⟩
  | burns hfind' _ hrev =>
    obtain rfl := Option.some.inj (hfind.symm.trans hfind')
    rw [hopen] at hrev
    cases hrev

theorem Ok.find_iff (hok : Ok env s) (hash : String) :
    s.store.findRefreshToken hash = some t ↔ t ∈ s.store.refreshTokens ∧ t.tokenHash = hash := by
  constructor
  · intro hf
    exact ⟨List.mem_of_find?_eq_some hf, by simpa using List.find?_some hf⟩
  · rintro ⟨ht, rfl⟩
    cases hf : s.store.findRefreshToken t.tokenHash with
    | none => exact absurd (List.find?_eq_none.1 hf t ht) (by simp)
    | some r =>
      have hhash : r.tokenHash = t.tokenHash := by simpa using List.find?_some hf
      rw [List.inj_on_of_nodup_map hok.hashes (List.mem_of_find?_eq_some hf) ht hhash]

theorem Ok.open_iff (hok : Ok env s) (ht : t ∈ s.store.refreshTokens) : t.revokedAt = none ↔ ¬ s.Spent t := by
  rw [← hok.revoked_iff t ht]
  simp

theorem replayed_step (h : Replayed s.history family) (hs : SerialAuth.step env s l = some s') :
    Replayed s'.history family := by
  cases l with
  | call r =>
    cases hs
    exact replayed_append.2 (.inl h)
  | elapse ms | setStatus userId status =>
    cases hs
    exact h

theorem refresh_reuse_detected {users : List User} {now : Time} {tr : List SerialLabel}
    (hinj : Function.Injective env.hashToken) (hr : Runs.run (SerialAuth.step env) (init users now) tr = some s) :
    -- a spent token is refused, and burns its family for good
    (∀ raw info row, s.store.findRefreshToken (env.hashToken raw) = some row → s.store.now ≤ row.expiresAt →
      row.revokedAt.isSome → ¬ s.Accepts env raw info ∧
        ∀ tr' s', Runs.run (SerialAuth.step env) s (.call (.refresh raw info) :: tr') = some s' →
          ∀ raw' info' row', s'.store.findRefreshToken (env.hashToken raw') = some row' →
            row'.familyId = row.familyId → ¬ s'.Accepts env raw' info') ∧
    ∀ raw info, s.Accepts env raw info ↔ ∃ t ∈ AuthHistory.issued s.history, t.tokenHash = env.hashToken raw ∧
      Newest (AuthHistory.issued s.history) t ∧ s.store.now ≤ t.expiresAt ∧ s.store.Active t.userId ∧
      ¬ LoggedOut s.history t ∧ ¬ Replayed s.history t.familyId := by
  have hok := (ok_init env users now).run hr
  refine ⟨fun raw info row hfind hexp hrev => ⟨fun ha => ?_, ?_⟩, fun raw info => ⟨fun ha => ?_, ?_⟩⟩
  · obtain ⟨stored, hfind', -, hopen, -⟩ := ha.stored
    obtain rfl := Option.some.inj (hfind.symm.trans hfind')
    rw [hopen] at hrev
    cases hrev
  · intro tr' s' hr' raw' info' row' hfind' hfam ha
    have hok' := hok.run hr'
    obtain ⟨s₁, hs₁, hrest⟩ := run_cons_iff.1 hr'
    have hburned : Replayed s₁.history row.familyId := by
      cases hs₁
      exact replayed_append.2 (.inr ⟨row, hfind, rfl, hexp, hrev⟩)
    have hstill : Replayed s'.history row.familyId :=
      inv_run (I := fun s => Replayed s.history row.familyId) hburned (fun _ _ _ h hs => replayed_step h hs) hrest
    obtain ⟨stored, hstored, -, hopen, -⟩ := ha.stored
    obtain rfl := Option.some.inj (hfind'.symm.trans hstored)
    exact (hok'.open_iff ((hok'.find_iff _).1 hfind').1).1 hopen (.inr (.inr (hfam ▸ hstill)))
  · obtain ⟨stored, hfind, hexp, hopen, hactive⟩ := ha.stored
    obtain ⟨hmem, hhash⟩ := (hok.find_iff _).1 hfind
    have hfresh := (hok.open_iff hmem).1 hopen
    simp only [Spent, not_or, not_not] at hfresh
    rw [hok.issued]
    exact ⟨stored.asIssued, List.mem_map_of_mem hmem, hhash,
      (newestToken_map (g := RefreshToken.asIssued) (fun _ => rfl) fun _ => rfl).2 hfresh.1, hexp, hactive, hfresh.2.1, hfresh.2.2⟩
  · rintro ⟨t, ht, hhash, hnew, hexp, hactive, hlogged, hreplay⟩
    rw [hok.issued] at ht hnew
    obtain ⟨row, hmem, rfl⟩ := List.mem_map.1 ht
    have hopen : row.revokedAt = none := (hok.open_iff hmem).2 (by
      rintro (h | h | h)
      · exact h ((newestToken_map (g := RefreshToken.asIssued) (fun _ => rfl) fun _ => rfl).1 hnew)
      · exact hlogged h
      · exact hreplay h)
    exact hok.accepts hinj ((hok.find_iff _).2 ⟨hmem, hhash⟩) hexp hopen hactive info

theorem plain_hashToken_injective : Function.Injective AuthEnv.plain.hashToken := fun a b h => by
  simpa [AuthEnv.plain] using congrArg String.length h

def exchange : List SerialLabel :=
  [.call (.login "dev@test.local" "password123" .browser), .call (.refresh 1 .browser), .elapse 1000]

/-- A login and an exchange. The first token is refused, and once it was presented so is the second one. -/
theorem refresh_reuse_detected_replay : ∃ s, Runs.run (step AuthEnv.plain) (init [User.dev] 0) exchange = some s ∧
    s.store.refreshTokens.length = 2 ∧ ¬ s.Accepts AuthEnv.plain 1 .browser ∧
    ∀ s', Runs.run (step AuthEnv.plain) s [.call (.refresh 1 .browser)] = some s' →
      ¬ s'.Accepts AuthEnv.plain 3 .browser := by
  obtain ⟨s, hr, hs⟩ := Option.map_eq_some_iff.1 (show (Runs.run (step AuthEnv.plain) (init [User.dev] 0) exchange).map
      (fun s => (s.store.refreshTokens.length, s.store.now, s.store.findRefreshToken (AuthEnv.plain.hashToken 1))) =
    some (2, 1000, some ⟨2, 7, "0", 0, 604800000, some 0, some 4, some "browser", none, 0⟩) by decide +kernel)
  simp only [Prod.mk.injEq] at hs
  obtain ⟨hlen, hnow, hfind⟩ := hs
  obtain ⟨hrefused, hburned⟩ := (refresh_reuse_detected plain_hashToken_injective hr).1 1 .browser _ hfind
    (by rw [hnow]; decide) rfl
  refine ⟨s, hr, hlen, hrefused, fun s' hr' => ?_⟩
  have hend := run_append_iff.2 ⟨s, hr, hr'⟩
  obtain ⟨t, ht, hrow⟩ := Option.map_eq_some_iff.1 (show
    (Runs.run (step AuthEnv.plain) (init [User.dev] 0) (exchange ++ [.call (.refresh 1 .browser)])).map
      (fun s => (s.store.findRefreshToken (AuthEnv.plain.hashToken 3)).map (·.familyId)) = some (some 0) by decide +kernel)
  obtain rfl : s' = t := Option.some.inj (hend.symm.trans ht)
  obtain ⟨row, hrow, hfam⟩ := Option.map_eq_some_iff.1 hrow
  exact hburned [] s' hr' 3 .browser row hrow hfam

end SerialAuth

end CronMonitor
