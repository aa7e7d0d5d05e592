import CronMonitor.Lib.Runs
import CronMonitor.Auth.Service

/-!
# What a step of a session call does

`Advances` lists what a statement of a call can do to the token table. Every step leaves the table as
`(tokens ++ new).map g`, where `g` rewrites a row without touching its identity and without undoing a
revocation (`Keeps`). `AuthPc.Known` is what a suspended call knows about the table, and `AuthSys.Ok` holds in
every run.
-/

namespace CronMonitor

open Runs

variable {toks : List RefreshToken} {g : RefreshToken → RefreshToken}

/-! ### Rewriting a row -/

structure Keeps (g : RefreshToken → RefreshToken) : Prop where
  asIssued : ∀ t, (g t).asIssued = t.asIssued
  revoked : ∀ t, t.revokedAt.isSome → (g t).revokedAt.isSome

namespace Keeps

theorem id (h : Keeps g) (t : RefreshToken) : (g t).id = t.id := by
  show (g t).asIssued.id = t.asIssued.id
  rw [h.asIssued]

theorem userId (h : Keeps g) (t : RefreshToken) : (g t).userId = t.userId := by
  show (g t).asIssued.userId = t.asIssued.userId
  rw [h.asIssued]

theorem tokenHash (h : Keeps g) (t : RefreshToken) : (g t).tokenHash = t.tokenHash := by
  show (g t).asIssued.tokenHash = t.asIssued.tokenHash
  rw [h.asIssued]

theorem familyId (h : Keeps g) (t : RefreshToken) : (g t).familyId = t.familyId := by
  show (g t).asIssued.familyId = t.asIssued.familyId
  rw [h.asIssued]

theorem isOpen (h : Keeps g) {t : RefreshToken} (ho : (g t).revokedAt = none) : t.revokedAt = none := by
  cases hr : t.revokedAt with
  | none => rfl
  | some now =>
    have hs := h.revoked t (by rw [hr]; rfl)
    rw [ho] at hs
    cases hs

end Keeps

theorem keeps_id : Keeps id := ⟨fun _ => rfl, fun _ h => h⟩

theorem revokeIf_revokedAt (p : RefreshToken → Bool) (now : Time) (t : RefreshToken) :
    (t.revokeIf p now).revokedAt.isSome = (p t || t.revokedAt.isSome) := by
  cases hr : t.revokedAt <;> cases hp : p t <;> simp [RefreshToken.revokeIf, hr, hp]

theorem replaceIf_revokedAt (oldId newId : Uuid) (now : Time) (t : RefreshToken) :
    (t.replaceIf oldId newId now).revokedAt.isSome = (decide (t.id = oldId) || t.revokedAt.isSome) := by
  by_cases h : t.id = oldId <;> simp [RefreshToken.replaceIf, h]

theorem keeps_revokeIf (p : RefreshToken → Bool) (now : Time) : Keeps (RefreshToken.revokeIf p now) := by
  refine ⟨fun t => ?_, fun t ht => by simp [revokeIf_revokedAt, ht]⟩
  simp only [RefreshToken.revokeIf]
  split <;> rfl

theorem keeps_replaceIf (oldId newId : Uuid) (now : Time) : Keeps (RefreshToken.replaceIf oldId newId now) := by
  refine ⟨fun t => ?_, fun t ht => by simp [replaceIf_revokedAt, ht]⟩
  simp only [RefreshToken.replaceIf]
  split <;> rfl

/-! ### The table -/

/-- Rows are told apart by their ids, ids and families were drawn, and a family belongs to one user. -/
structure TableOk (toks : List RefreshToken) (next : Uuid) : Prop where
  ids : (toks.map (·.id)).Nodup
  drawn : ∀ t ∈ toks, t.id < next ∧ t.familyId < next
  owner : ∀ t ∈ toks, ∀ t' ∈ toks, t.familyId = t'.familyId → t.userId = t'.userId

/-- A family has at most one row that is not revoked. -/
def OneOpen (toks : List RefreshToken) : Prop :=
  ∀ t ∈ toks, ∀ t' ∈ toks, t.familyId = t'.familyId → t.revokedAt = none → t'.revokedAt = none → t.id = t'.id

/-- The family has tokens and none of them is open. -/
def Closed (family : Uuid) (toks : List RefreshToken) : Prop :=
  (∃ t ∈ toks, t.familyId = family) ∧ ∀ t ∈ toks, t.familyId = family → t.revokedAt ≠ none

namespace TableOk

variable {next next' : Uuid}

theorem mono (h : TableOk toks next) (hle : next ≤ next') : TableOk toks next' :=
  ⟨h.ids, fun t ht => ⟨Nat.lt_of_lt_of_le (h.drawn t ht).1 hle, Nat.lt_of_lt_of_le (h.drawn t ht).2 hle⟩, h.owner⟩

theorem map (h : TableOk toks next) (hg : Keeps g) : TableOk (toks.map g) next where
  ids := by
    have hids : (toks.map g).map (·.id) = toks.map (·.id) := by simp [hg.id]
    rw [hids]
    exact h.ids
  drawn := by
    intro t ht
    obtain ⟨r, hr, rfl⟩ := List.mem_map.1 ht
    rw [hg.id, hg.familyId]
    exact h.drawn r hr
  owner := by
    intro t ht t' ht' hf
    obtain ⟨r, hr, rfl⟩ := List.mem_map.1 ht
    obtain ⟨r', hr', rfl⟩ := List.mem_map.1 ht'
    rw [hg.familyId, hg.familyId] at hf
    rw [hg.userId, hg.userId]
    exact h.owner r hr r' hr' hf

theorem append {row : RefreshToken} (h : TableOk toks next) (hid : row.id = next)
    (hfam : row.familyId < next) (hown : ∀ t ∈ toks, t.familyId = row.familyId → t.userId = row.userId) :
    TableOk (toks ++ [row]) (next + 1) where
  ids := by
    rw [List.map_append, List.map_cons, List.map_nil]
    refine List.nodup_append.2 ⟨h.ids, List.nodup_singleton _, ?_⟩
    intro a ha b hb
    obtain ⟨t, ht, rfl⟩ := List.mem_map.1 ha
    rw [List.mem_singleton.1 hb, hid]
    exact Nat.ne_of_lt (h.drawn t ht).1
  drawn := by
    intro t ht
    rcases List.mem_append.1 ht with ht | ht
    · have hlt := h.drawn t ht
      exact ⟨Nat.lt_succ_of_lt hlt.1, Nat.lt_succ_of_lt hlt.2⟩
    · rw [List.mem_singleton.1 ht]
      exact ⟨by rw [hid]; exact Nat.lt_succ_self next, Nat.lt_succ_of_lt hfam⟩
  owner := by
    intro t ht t' ht' hf
    rcases List.mem_append.1 ht with ht | ht <;> rcases List.mem_append.1 ht' with ht' | ht'
    · exact h.owner t ht t' ht' hf
    · rw [List.mem_singleton.1 ht'] at hf ⊢
      exact hown t ht hf
    · rw [List.mem_singleton.1 ht] at hf ⊢
      exact (hown t' ht' hf.symm).symm
    · rw [List.mem_singleton.1 ht, List.mem_singleton.1 ht']

theorem eq_of_id (h : TableOk toks next) {t t' : RefreshToken} (ht : t ∈ toks) (ht' : t' ∈ toks)
    (hid : t.id = t'.id) : t = t' := List.inj_on_of_nodup_map h.ids ht ht' hid

end TableOk

namespace OneOpen

theorem map (h : OneOpen toks) (hg : Keeps g) : OneOpen (toks.map g) := by
  intro t ht t' ht' hf ho ho'
  obtain ⟨r, hr, rfl⟩ := List.mem_map.1 ht
  obtain ⟨r', hr', rfl⟩ := List.mem_map.1 ht'
  rw [hg.familyId, hg.familyId] at hf
  rw [hg.id, hg.id]
  exact h r hr r' hr' hf (hg.isOpen ho) (hg.isOpen ho')

/-- A new row may be open when its family has no open row. -/
theorem append {row : RefreshToken} (h : OneOpen toks)
    (hrow : ∀ t ∈ toks, t.familyId = row.familyId → t.revokedAt ≠ none) : OneOpen (toks ++ [row]) := by
  intro t ht t' ht' hf ho ho'
  rcases List.mem_append.1 ht with ht | ht <;> rcases List.mem_append.1 ht' with ht' | ht'
  · exact h t ht t' ht' hf ho ho'
  · rw [List.mem_singleton.1 ht'] at hf
    exact absurd ho (hrow t ht hf)
  · rw [List.mem_singleton.1 ht] at hf
    exact absurd ho' (hrow t' ht' hf.symm)
  · rw [List.mem_singleton.1 ht, List.mem_singleton.1 ht']

end OneOpen

namespace Closed

variable {family : Uuid}

theorem map (h : Closed family toks) (hg : Keeps g) : Closed family (toks.map g) := by
  obtain ⟨⟨t, ht, hf⟩, hall⟩ := h
  refine ⟨⟨g t, List.mem_map_of_mem ht, by rw [hg.familyId, hf]⟩, ?_⟩
  intro t ht hf ho
  obtain ⟨r, hr, rfl⟩ := List.mem_map.1 ht
  exact hall r hr (by rw [← hf, hg.familyId]) (hg.isOpen ho)

theorem append {row : RefreshToken} (h : Closed family toks) (hrow : row.familyId ≠ family) :
    Closed family (toks ++ [row]) := by
  obtain ⟨⟨t, ht, hf⟩, hall⟩ := h
  refine ⟨⟨t, List.mem_append_left _ ht, hf⟩, ?_⟩
  intro t ht hf
  rcases List.mem_append.1 ht with ht | ht
  · exact hall t ht hf
  · rw [List.mem_singleton.1 ht] at hf
    exact absurd hf hrow

end Closed

/-! ### What a suspended call knows -/

/-- The row of the table that a call read as `stored`, as it is now. -/
def RefreshToken.IsRow (toks : List RefreshToken) (stored : RefreshToken) : Prop :=
  ∃ t ∈ toks, t.id = stored.id ∧ t.familyId = stored.familyId ∧ t.userId = stored.userId

def AuthPc.Known (st : AuthStore) : AuthPc → Prop
  | .storeRefreshToken _ _ next => next.familyId < st.nextUuid ∧ ∀ t ∈ st.refreshTokens, t.familyId ≠ next.familyId
  | .revokeTokenFamily stored _ => stored.IsRow st.refreshTokens
  | .findUserById stored _ => stored.IsRow st.refreshTokens
  | .rotateRefreshToken stored _ _ next =>
    stored.IsRow st.refreshTokens ∧ next.familyId = stored.familyId ∧ next.userId = stored.userId
  | _ => True

/-- The family that a login has drawn and not stored yet. -/
def AuthPc.newFamily : AuthPc → Option Uuid
  | .storeRefreshToken _ _ next => some next.familyId
  | _ => none

/-- A statement of a call, by what it does to the token table. -/
inductive Advances (st : AuthStore) : AuthPc → AuthStore → AuthPc → Prop
  | idle {pc st' pc'} (htoks : st'.refreshTokens = st.refreshTokens) (hnext : st'.nextUuid = st.nextUuid)
      (hknown : ∀ st, pc'.Known st) (hnew : pc'.newFamily = none) (hex : pc.exchanges pc' = []) :
      Advances st pc st' pc'
  | begins {user info st' raw next} (htoks : st'.refreshTokens = st.refreshTokens)
      (hnext : st'.nextUuid = st.nextUuid + 2) (hfam : next.familyId = st.nextUuid) :
      Advances st (.auditLogin user info) st' (.storeRefreshToken user raw next)
  | stores {user raw next st' result}
      (htoks : st'.refreshTokens = st.refreshTokens ++ [next.row st.nextUuid st.now])
      (hnext : st'.nextUuid = st.nextUuid + 1) :
      Advances st (.storeRefreshToken user raw next) st' (.returned result)
  | finds {raw info stored pc'} (hmem : stored ∈ st.refreshTokens)
      (hpc : pc' = .revokeTokenFamily stored info ∨ pc' = .findUserById stored info) :
      Advances st (.findRefreshToken raw info) st pc'
  | burns {stored info} :
      Advances st (.revokeTokenFamily stored info) (st.revokeTokenFamily stored.familyId) (.auditReuse stored info)
  | checks {stored user info st' raw next} (htoks : st'.refreshTokens = st.refreshTokens)
      (hnext : st'.nextUuid = st.nextUuid + 1) (hfam : next.familyId = stored.familyId)
      (huser : next.userId = stored.userId) :
      Advances st (.findUserById stored info) st' (.rotateRefreshToken stored user raw next)
  | rotates {stored user raw next st' result}
      (htoks : st'.refreshTokens =
        (st.refreshTokens ++ [next.row st.nextUuid st.now]).map (RefreshToken.replaceIf stored.id st.nextUuid st.now))
      (hnext : st'.nextUuid = st.nextUuid + 1) :
      Advances st (.rotateRefreshToken stored user raw next) st' (.returned result)
  | logsOut {userId} : Advances st (.revokeUserTokens userId) (st.revokeUserTokens userId) (.auditLogout userId)

variable {st : AuthStore} {pc : AuthPc}

theorem AuthPc.exchanges_thrown (pc : AuthPc) (e : AuthError) : pc.exchanges (.thrown e) = [] := by
  cases pc <;> rfl

theorem Advances.throws (e : AuthError) : Advances st pc st (.thrown e) :=
  .idle rfl rfl (fun _ => trivial) rfl (pc.exchanges_thrown e)

theorem AuthStore.advance_cases (env : AuthEnv) (st : AuthStore) (pc : AuthPc) (hpc : pc.isDone = false) :
    Advances st pc (st.advance env pc).1 (st.advance env pc).2 := by
  cases pc with
  | findUserByEmail email password info =>
    simp only [advance]
    split
    · split
      · exact .idle rfl rfl (fun _ => trivial) rfl rfl
      · exact .throws _
    · exact .throws _
  | updateLastLogin user info => exact .idle rfl rfl (fun _ => trivial) rfl rfl
  | auditLogin user info => exact .begins rfl rfl rfl
  | storeRefreshToken user raw next =>
    simp only [advance, AuthStore.storeRefreshToken]
    split
    · rename_i st' h
      split at h
      · cases h
      · cases h
        exact .stores rfl rfl
    · exact .throws _
  | findRefreshToken raw info =>
    simp only [advance]
    cases hf : st.findRefreshToken (env.hashToken raw) with
    | none => exact .throws _
    | some stored =>
      have hmem : stored ∈ st.refreshTokens := List.mem_of_find?_eq_some hf
      simp only [checkStored]
      split
      · exact .throws _
      split
      · exact .finds hmem (.inl rfl)
      · exact .finds hmem (.inr rfl)
  | revokeTokenFamily stored info => exact .burns
  | auditReuse stored info => exact .idle rfl rfl (fun _ => trivial) rfl rfl
  | findUserById stored info =>
    simp only [advance]
    split
    · rename_i user hu
      split
      · have hid : user.id = stored.userId := by simpa using List.find?_some hu
        exact .checks rfl rfl rfl hid
      · exact .throws _
    · exact .throws _
  | rotateRefreshToken stored user raw next =>
    simp only [advance, AuthStore.rotateRefreshToken, AuthStore.storeRefreshToken]
    split
    · rename_i st' h
      split at h
      · cases h
      · cases h
        exact .rotates rfl rfl
    · exact .throws _
  | revokeUserTokens userId => exact .logsOut
  | auditLogout userId => exact .idle rfl rfl (fun _ => trivial) rfl rfl
  | returned result => cases hpc
  | thrown error => cases hpc

namespace Advances

variable {st' : AuthStore} {pc' : AuthPc}

theorem tableOk (h : Advances st pc st' pc') (hk : pc.Known st) (ht : TableOk st.refreshTokens st.nextUuid) :
    TableOk st'.refreshTokens st'.nextUuid := by
  cases h with
  | idle htoks hnext =>
    rw [htoks, hnext]
    exact ht
  | begins htoks hnext _ | checks htoks hnext _ _ =>
    rw [htoks, hnext]
    exact ht.mono (Nat.le_add_right _ _)
  | stores htoks hnext =>
    rw [htoks, hnext]
    exact ht.append rfl hk.1 fun t hmem hf => absurd hf (hk.2 t hmem)
  | finds => exact ht
  | burns => exact ht.map (keeps_revokeIf _ _)
  | @rotates stored user raw next _ _ htoks hnext =>
    obtain ⟨⟨r, hr, -, hfam, huser⟩, hnf, hnu⟩ := hk
    rw [htoks, hnext]
    refine (ht.append rfl ?_ ?_).map (keeps_replaceIf _ _ _)
    · show next.familyId < st.nextUuid
      rw [hnf, ← hfam]
      exact (ht.drawn r hr).2
    · intro t hmem (hf : t.familyId = next.familyId)
      show t.userId = next.userId
      rw [ht.owner t hmem r hr (by rw [hf, hnf, hfam]), huser, hnu]
  | logsOut => exact ht.map (keeps_revokeIf _ _)

/-- The table afterwards, in one form. A new row belongs to the call's own new family or to one that has rows. -/
theorem table (h : Advances st pc st' pc') (hk : pc.Known st) :
    ∃ new g, Keeps g ∧ st'.refreshTokens = (st.refreshTokens ++ new).map g ∧ st.nextUuid ≤ st'.nextUuid ∧
      ∀ t ∈ new, pc.newFamily = some t.familyId ∨ ∃ r ∈ st.refreshTokens, r.familyId = t.familyId := by
  cases h with
  | idle htoks hnext => exact ⟨[], id, keeps_id, by simp [htoks], hnext.ge, by simp⟩
  | begins htoks hnext _ | checks htoks hnext _ _ => exact ⟨[], id, keeps_id, by simp [htoks], hnext ▸ Nat.le_add_right _ _, by simp⟩
  | @stores user raw next st' result htoks hnext =>
    refine ⟨[next.row st.nextUuid st.now], id, keeps_id, by simp [htoks], hnext ▸ Nat.le_add_right _ _, ?_⟩
    intro t ht
    rw [List.mem_singleton.1 ht]
    exact .inl rfl
  | finds => exact ⟨[], id, keeps_id, by simp, le_rfl, by simp⟩
  | burns => exact ⟨[], _, keeps_revokeIf _ _, by rw [List.append_nil]; rfl, le_rfl, by simp⟩
  | @rotates stored user raw next st' result htoks hnext =>
    obtain ⟨⟨r, hr, -, hfam, -⟩, hnf, -⟩ := hk
    refine ⟨[next.row st.nextUuid st.now], _, keeps_replaceIf _ _ _, htoks, hnext ▸ Nat.le_add_right _ _, ?_⟩
    intro t ht
    rw [List.mem_singleton.1 ht]
    exact .inr ⟨r, hr, hfam.trans hnf.symm⟩
  | logsOut => exact ⟨[], _, keeps_revokeIf _ _, by rw [List.append_nil]; rfl, le_rfl, by simp⟩

/-- What the call itself knows when it is suspended again. -/
theorem known (h : Advances st pc st' pc') (hk : pc.Known st) (ht : TableOk st.refreshTokens st.nextUuid) :
    pc'.Known st' := by
  cases h with
  | idle _ _ hknown => exact hknown _
  | begins htoks hnext hfam =>
    refine ⟨by rw [hfam, hnext]; exact Nat.lt_add_of_pos_right two_pos, fun t hmem => ?_⟩
    rw [htoks] at hmem
    rw [hfam]
    exact Nat.ne_of_lt (ht.drawn t hmem).2
  | stores | rotates | burns | logsOut => trivial
  | @finds raw info stored _ hmem hpc => rcases hpc with rfl | rfl <;> exact ⟨stored, hmem, rfl, rfl, rfl⟩
  | @checks stored _ _ _ _ _ htoks hnext hfam huser =>
    refine ⟨?_, hfam, huser⟩
    rw [htoks]
    exact hk

/-- A call draws a family that nobody has, once. -/
theorem newFamily (h : Advances st pc st' pc') : pc'.newFamily = none ∨ pc'.newFamily = some st.nextUuid := by
  cases h with
  | idle _ _ _ hnew => exact .inl hnew
  | begins _ _ hfam => exact .inr (congrArg some hfam)
  | finds _ hpc => rcases hpc with rfl | rfl <;> exact .inl rfl
  | stores | rotates | burns | logsOut | checks => exact .inl rfl

end Advances

section Known

variable {st' : AuthStore}

theorem RefreshToken.IsRow.map {stored : RefreshToken} {new : List RefreshToken} (h : stored.IsRow toks)
    (hg : Keeps g) : stored.IsRow ((toks ++ new).map g) := by
  obtain ⟨t, ht, hid, hf, hu⟩ := h
  exact ⟨g t, List.mem_map_of_mem (List.mem_append_left _ ht), by rw [hg.id, hid], by rw [hg.familyId, hf],
    by rw [hg.userId, hu]⟩

/-- A step of another call keeps what this one knows. -/
theorem AuthPc.Known.mono {n : List RefreshToken} (h : pc.Known st) (hg : Keeps g)
    (htoks : st'.refreshTokens = (st.refreshTokens ++ n).map g) (hnext : st.nextUuid ≤ st'.nextUuid)
    (hnew : ∀ t ∈ n, pc.newFamily ≠ some t.familyId) : pc.Known st' := by
  cases pc with
  | storeRefreshToken user raw next =>
    refine ⟨Nat.lt_of_lt_of_le h.1 hnext, fun t ht hf => ?_⟩
    rw [htoks] at ht
    obtain ⟨r, hr, rfl⟩ := List.mem_map.1 ht
    rw [hg.familyId] at hf
    rcases List.mem_append.1 hr with hr | hr
    · exact h.2 r hr hf
    · exact hnew r hr (congrArg some hf.symm)
  | revokeTokenFamily stored info | findUserById stored info =>
    simp only [AuthPc.Known, htoks] at h ⊢
    exact h.map hg
  | rotateRefreshToken stored user raw next =>
    simp only [AuthPc.Known, htoks] at h ⊢
    exact ⟨h.1.map hg, h.2⟩
  | _ => trivial

end Known

/-! ### Every run -/

namespace AuthSys

variable {env : AuthEnv} {s s' : AuthSys} {l : AuthLabel}

structure Ok (s : AuthSys) : Prop where
  table : TableOk s.store.refreshTokens s.store.nextUuid
  known : ∀ pc ∈ s.calls, pc.Known s.store
  -- two calls never hold the same new family
  distinct : ∀ (i j : Nat) f, s.calls[i]?.bind AuthPc.newFamily = some f → s.calls[j]?.bind AuthPc.newFamily = some f → i = j

/-- Either no statement ran on the tokens, or the `i`-th call ran one. -/
theorem step_cases (h : step env s l = some s') :
    (s'.store.refreshTokens = s.store.refreshTokens ∧ s'.store.nextUuid = s.store.nextUuid ∧
      s'.exchanged = s.exchanged ∧ (s'.calls = s.calls ∨ ∃ r : AuthRequest, s'.calls = s.calls ++ [r.start])) ∨
    ∃ i pc pc', (l = .advance i ∨ ∃ e, pc' = .thrown e) ∧ s.calls[i]? = some pc ∧ Advances s.store pc s'.store pc' ∧
      s'.calls = s.calls.set i pc' ∧ s'.exchanged = s.exchanged ++ pc.exchanges pc' := by
  cases l with
  | request r =>
    cases h
    exact .inl ⟨rfl, rfl, rfl, .inr ⟨r, rfl⟩⟩
  | advance i =>
    simp only [step] at h
    split at h
    · rename_i pc hpc
      split at h
      · cases h
      · rename_i hdone
        cases h
        exact .inr ⟨i, pc, _, .inl rfl, hpc, s.store.advance_cases env pc (by simpa using hdone), rfl, rfl⟩
    · cases h
  | fail i =>
    simp only [step] at h
    split at h
    · rename_i pc hpc
      split at h
      · cases h
      · cases h
        exact .inr ⟨i, pc, _, .inr ⟨_, rfl⟩, hpc, .throws _, rfl, by rw [pc.exchanges_thrown, List.append_nil]⟩
    · cases h
  | elapse ms =>
    cases h
    exact .inl ⟨rfl, rfl, rfl, .inl rfl⟩
  | setStatus userId status =>
    cases h
    exact .inl ⟨rfl, rfl, rfl, .inl rfl⟩

theorem ok_init (users : List User) (now : Time) : Ok (init users now) :=
  ⟨⟨List.nodup_nil, by simp [init], by simp [init]⟩, by simp [init], by simp [init]⟩

theorem AuthRequest.start_known (r : AuthRequest) (st : AuthStore) : r.start.Known st ∧ r.start.newFamily = none := by
  cases r <;> exact ⟨trivial, rfl⟩

theorem Ok.step (h : Ok s) (hs : AuthSys.step env s l = some s') : Ok s' := by
  rcases step_cases hs with ⟨htoks, hnext, -, hcalls⟩ | ⟨i, pc, pc', -, hi, hadv, hcalls, -⟩
  · have hknown : ∀ pc : AuthPc, pc.Known s.store → pc.Known s'.store := by
      intro pc hpc
      exact hpc.mono (n := []) keeps_id (by simp [htoks]) hnext.ge (by simp)
    refine ⟨by rw [htoks, hnext]; exact h.table, ?_, ?_⟩ <;> rcases hcalls with hcalls | ⟨r, hcalls⟩ <;>
      rw [hcalls]
    · exact fun pc hpc => hknown pc (h.known pc hpc)
    · intro pc hpc
      rcases List.mem_append.1 hpc with hpc | hpc
      · exact hknown pc (h.known pc hpc)
      · rw [List.mem_singleton.1 hpc]
        exact (AuthRequest.start_known r _).1
    · exact h.distinct
    · have hlast : ∀ (k : Nat) f, (s.calls ++ [r.start])[k]?.bind AuthPc.newFamily = some f →
          s.calls[k]?.bind AuthPc.newFamily = some f := by
        intro k f hk
        rcases Nat.lt_or_ge k s.calls.length with hlt | hge
        · rwa [List.getElem?_append_left hlt] at hk
        · rw [List.getElem?_append_right hge] at hk
          cases hd : k - s.calls.length with
          | zero => simp [hd, (AuthRequest.start_known r s.store).2] at hk
          | succ n => simp [hd] at hk
      exact fun i j f hi hj => h.distinct i j f (hlast i f hi) (hlast j f hj)
  · have hpc := h.known pc (List.mem_of_getElem? hi)
    obtain ⟨new, g, hg, htoks, hnext, hnew⟩ := hadv.table hpc
    refine ⟨hadv.tableOk hpc h.table, ?_, ?_⟩ <;> rw [hcalls]
    · intro q hq
      obtain ⟨j, hj, rfl⟩ := List.getElem_of_mem hq
      by_cases hij : i = j
      · subst hij
        rw [List.getElem_set_self]
        exact hadv.known hpc h.table
      · rw [List.length_set] at hj
        rw [List.getElem_set_ne hij]
        have hqk := h.known _ (List.getElem_mem hj)
        refine hqk.mono hg htoks hnext fun t ht hf => ?_
        rcases hnew t ht with hown | ⟨r, hr, hrf⟩
        · exact hij (h.distinct i j t.familyId (by rw [hi]; exact hown) (by rw [List.getElem?_eq_getElem hj]; exact hf))
        · -- a call that holds a new family knows that no row has it
          cases hq : s.calls[j] <;> rw [hq] at hf hqk <;> simp only [AuthPc.newFamily, reduceCtorEq] at hf
          exact hqk.2 r hr (by rw [hrf]; exact (Option.some.inj hf).symm)
    · have hfresh : ∀ (q : AuthPc), q ∈ s.calls → q.newFamily ≠ some s.store.nextUuid := by
        intro q hq hf
        have hk := h.known q hq
        cases q <;> simp only [AuthPc.newFamily, reduceCtorEq] at hf
        exact Nat.ne_of_lt hk.1 (Option.some.inj hf)
      have hset : ∀ (k : Nat) f, (s.calls.set i pc')[k]?.bind AuthPc.newFamily = some f →
          s.calls[k]?.bind AuthPc.newFamily = some f ∨ k = i ∧ f = s.store.nextUuid := by
        intro k f hk
        by_cases hki : i = k
        · subst hki
          rw [List.getElem?_set_self (List.getElem?_eq_some_iff.1 hi).1] at hk
          rcases hadv.newFamily with hn | hn <;> rw [Option.bind_some, hn] at hk
          · cases hk
          · exact .inr ⟨rfl, (Option.some.inj hk).symm⟩
        · rw [List.getElem?_set_ne hki] at hk
          exact .inl hk
      have hold : ∀ (k : Nat), s.calls[k]?.bind AuthPc.newFamily ≠ some s.store.nextUuid := by
        intro k hk
        obtain ⟨q, hq, hf⟩ := Option.bind_eq_some_iff.1 hk
        exact hfresh q (List.mem_of_getElem? hq) hf
      intro k j f hk hj
      rcases hset k f hk with hk | ⟨hki, hf⟩ <;> rcases hset j f hj with hj | ⟨hji, hf'⟩
      · exact h.distinct k j f hk hj
      · exact absurd (hf' ▸ hk) (hold k)
      · exact absurd (hf ▸ hj) (hold j)
      · rw [hki, hji]

theorem Ok.run {tr : List AuthLabel} (h : Ok s) (hr : Runs.run (AuthSys.step env) s tr = some s') : Ok s' :=
  inv_run h (fun _ _ _ => Ok.step) hr

end AuthSys

end CronMonitor
