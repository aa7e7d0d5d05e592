import CronMonitor.Auth.Steps

/-!
# The refresh tokens of a family

A rotation inserts the next token of the family and revokes the one it was given. As long as that one was still
open, a family has at most one open token at any time, a token is exchanged at most once, and a family without
an open token never gets one again. The transaction does not ask: its update is by id alone.
-/

namespace CronMonitor

open Runs

/-! ### What one step keeps -/

structure Exclusive (st : AuthStore) (exchanged : List Uuid) : Prop where
  oneOpen : OneOpen st.refreshTokens
  once : exchanged.Nodup
  spent : ∀ id ∈ exchanged, id < st.nextUuid ∧ ∀ t ∈ st.refreshTokens, t.id = id → t.revokedAt.isSome

/-- After a rotation of the open token `r` of a family, the new row is the only open one. -/
theorem OneOpen.rotate {toks : List RefreshToken} {newId : Uuid} {r row : RefreshToken} {now : Time} (h : OneOpen toks)
    (hr : r ∈ toks) (hopen : r.revokedAt = none) (hid : row.id ≠ r.id) (hrow : row.familyId = r.familyId) :
    OneOpen ((toks ++ [row]).map (RefreshToken.replaceIf r.id newId now)) := by
  have hg := keeps_replaceIf r.id newId now
  have hrow' : row.replaceIf r.id newId now = row := if_neg hid
  rw [List.map_append, List.map_cons, List.map_nil, hrow']
  refine (h.map hg).append fun t hmem hf ho => ?_
  obtain ⟨q, hq, rfl⟩ := List.mem_map.1 hmem
  have hqid : q.id = r.id := by
    refine h q hq r hr ?_ (hg.isOpen ho) hopen
    rw [hg.familyId] at hf
    rw [hf, hrow]
  have hsome := replaceIf_revokedAt r.id newId now q
  rw [ho, hqid] at hsome
  simp at hsome

theorem OneOpen.live_le_one {toks : List RefreshToken} {next : Uuid} (h : OneOpen toks) (ht : TableOk toks next)
    (family : Uuid) (now : Time) : (toks.filter fun t => t.familyId = family && t.live now).length ≤ 1 := by
  rcases hf : toks.filter fun t => t.familyId = family && t.live now with _ | ⟨a, _ | ⟨b, rest⟩⟩
  · rw [hf]
    exact Nat.zero_le 1
  · rw [hf]
    exact le_rfl
  · have hlive : ∀ t ∈ a :: b :: rest, t ∈ toks ∧ t.familyId = family ∧ t.revokedAt = none := by
      intro t hmem
      rw [← hf, List.mem_filter] at hmem
      simp only [RefreshToken.live, Bool.and_eq_true, decide_eq_true_eq, Option.isNone_iff_eq_none] at hmem
      exact ⟨hmem.1, hmem.2.1, hmem.2.2.1⟩
    have hids : ((a :: b :: rest).map (·.id)).Nodup := by
      rw [← hf]
      exact ht.ids.sublist (List.filter_sublist.map _)
    obtain ⟨ha, hfa, hra⟩ := hlive a List.mem_cons_self
    obtain ⟨hb, hfb, hrb⟩ := hlive b (List.mem_cons_of_mem _ List.mem_cons_self)
    have hne : a.id ≠ b.id := by
      simp only [List.map_cons, List.nodup_cons, List.mem_cons, not_or] at hids
      exact hids.1.1
    exact absurd (h a ha b hb (hfa.trans hfb.symm) hra hrb) hne

theorem Closed.not_live {family : Uuid} {toks : List RefreshToken} (h : Closed family toks) (now : Time) :
    ∀ t ∈ toks, t.familyId = family → t.live now = false := by
  intro t ht hf
  cases hr : t.revokedAt with
  | none => exact absurd hr (h.2 t ht hf)
  | some time => simp [RefreshToken.live, hr]

/-- Revoking all tokens of a family closes it. -/
theorem Closed.revokeIf {family : Uuid} {toks : List RefreshToken} {p : RefreshToken → Bool} {now : Time}
    (hex : ∃ t ∈ toks, t.familyId = family) (hp : ∀ t ∈ toks, t.familyId = family → p t = true) :
    Closed family (toks.map (RefreshToken.revokeIf p now)) := by
  have hg := keeps_revokeIf p now
  obtain ⟨t, ht, hf⟩ := hex
  refine ⟨⟨t.revokeIf p now, List.mem_map_of_mem ht, by rw [hg.familyId, hf]⟩, fun q hq hqf ho => ?_⟩
  obtain ⟨r, hr, rfl⟩ := List.mem_map.1 hq
  have hsome := revokeIf_revokedAt p now r
  rw [ho, hp r hr (by rw [← hqf, hg.familyId])] at hsome
  simp at hsome

section Step

variable {st st' : AuthStore} {pc pc' : AuthPc} {exchanged : List Uuid}

theorem Exclusive.extend {g : RefreshToken → RefreshToken} {n : List RefreshToken} (h : Exclusive st exchanged)
    (hg : Keeps g) (htoks : st'.refreshTokens = (st.refreshTokens ++ n).map g) (hnext : st.nextUuid ≤ st'.nextUuid)
    (hnew : ∀ t ∈ n, t.id = st.nextUuid) (hopen : OneOpen st'.refreshTokens) : Exclusive st' exchanged := by
  refine ⟨hopen, h.once, fun id hid => ?_⟩
  obtain ⟨hlt, hall⟩ := h.spent id hid
  refine ⟨Nat.lt_of_lt_of_le hlt hnext, fun t ht htid => ?_⟩
  rw [htoks] at ht
  obtain ⟨q, hq, rfl⟩ := List.mem_map.1 ht
  rw [hg.id] at htid
  rcases List.mem_append.1 hq with hq | hq
  · exact hg.revoked q (hall q hq htid)
  · rw [hnew q hq] at htid
    exact absurd htid (Nat.ne_of_gt hlt)

/-- A rewriting of the rows alone. -/
theorem Exclusive.rewrite {g : RefreshToken → RefreshToken} (h : Exclusive st exchanged) (hg : Keeps g)
    (htoks : st'.refreshTokens = st.refreshTokens.map g) (hnext : st.nextUuid ≤ st'.nextUuid) :
    Exclusive st' exchanged :=
  h.extend (n := []) hg (by rw [htoks, List.append_nil]) hnext (fun _ ht => absurd ht List.not_mem_nil)
    (by rw [htoks]; exact h.oneOpen.map hg)

theorem Exclusive.same (h : Exclusive st exchanged) (htoks : st'.refreshTokens = st.refreshTokens)
    (hnext : st.nextUuid ≤ st'.nextUuid) : Exclusive st' exchanged :=
  h.rewrite keeps_id (by rw [htoks, List.map_id]) hnext

theorem Exclusive.advances (h : Exclusive st exchanged) (hadv : Advances st pc st' pc') (hk : pc.Known st)
    (ht : TableOk st.refreshTokens st.nextUuid)
    (hopen : ∀ stored user raw next result, pc = .rotateRefreshToken stored user raw next → pc' = .returned result →
      ∀ t ∈ st.refreshTokens, t.id = stored.id → t.revokedAt = none) :
    Exclusive st' (exchanged ++ pc.exchanges pc') := by
  cases hadv with
  | idle htoks hnext _ _ hnone =>
    rw [hnone, List.append_nil]
    exact h.same htoks hnext.ge
  | begins htoks hnext | checks htoks hnext =>
    rw [show AuthPc.exchanges _ _ = [] from rfl, List.append_nil]
    exact h.same htoks (hnext ▸ Nat.le_add_right _ _)
  | stores htoks hnext =>
    rw [show AuthPc.exchanges _ _ = [] from rfl, List.append_nil]
    refine h.extend keeps_id (by rw [htoks, List.map_id]) (hnext ▸ Nat.le_add_right _ _)
      (fun t hmem => by rw [List.mem_singleton.1 hmem]; rfl) ?_
    rw [htoks]
    -- no row has the family that the login drew
    exact h.oneOpen.append fun t hmem hf => absurd hf (hk.2 t hmem)
  | @finds raw info stored _ _ hpc =>
    rcases hpc with rfl | rfl
    all_goals
      rw [show AuthPc.exchanges _ _ = [] from rfl, List.append_nil]
      exact h
  | burns | logsOut =>
    rw [show AuthPc.exchanges _ _ = [] from rfl, List.append_nil]
    exact h.rewrite (keeps_revokeIf _ _) rfl le_rfl
  | @rotates stored user raw next _ result htoks hnext =>
    obtain ⟨⟨r, hr, hid, hfam, -⟩, hnf, -⟩ := hk
    have hopen := hopen stored user raw next result rfl rfl
    have hlt := (ht.drawn r hr).1
    have hex := h.extend (keeps_replaceIf _ _ _) htoks (hnext ▸ Nat.le_add_right _ _)
      (fun t hmem => by rw [List.mem_singleton.1 hmem]; rfl) (by
        rw [htoks, ← hid]
        exact h.oneOpen.rotate hr (hopen r hr hid) (Nat.ne_of_gt hlt) (hnf.trans hfam.symm))
    refine ⟨hex.oneOpen, ?_, fun id hmem => ?_⟩
    · refine List.nodup_append.2 ⟨h.once, List.nodup_singleton _, fun a ha b hb hab => ?_⟩
      -- an exchanged token is revoked, and this one is still open
      have hsome := (h.spent a ha).2 r hr (by rw [hid, hab, List.mem_singleton.1 hb])
      rw [hopen r hr hid] at hsome
      cases hsome
    · rcases List.mem_append.1 hmem with hmem | hmem
      · exact hex.spent id hmem
      · obtain rfl : id = stored.id := List.mem_singleton.1 hmem
        refine ⟨by rw [hnext, ← hid]; exact Nat.lt_succ_of_lt hlt, fun t hmem htid => ?_⟩
        rw [htoks] at hmem
        obtain ⟨q, -, rfl⟩ := List.mem_map.1 hmem
        rw [(keeps_replaceIf _ _ _).id] at htid
        simp [replaceIf_revokedAt, htid]

/-- A family without an open token stays without one. -/
theorem Closed.advances {family : Uuid} (h : Closed family st.refreshTokens) (hadv : Advances st pc st' pc')
    (hk : pc.Known st)
    (hopen : ∀ stored user raw next result, pc = .rotateRefreshToken stored user raw next → pc' = .returned result →
      ∀ t ∈ st.refreshTokens, t.id = stored.id → t.revokedAt = none) : Closed family st'.refreshTokens := by
  cases hadv with
  | idle htoks | begins htoks | checks htoks => rwa [htoks]
  | stores htoks =>
    obtain ⟨⟨t, hmem, hf⟩, -⟩ := id h
    rw [htoks]
    exact h.append fun hrow => hk.2 t hmem (hf.trans hrow.symm)
  | finds => exact h
  | burns | logsOut => exact h.map (keeps_revokeIf _ _)
  | @rotates stored user raw next _ result htoks =>
    obtain ⟨⟨r, hr, hid, hfam, -⟩, hnf, -⟩ := hk
    rw [htoks]
    refine (h.append fun hrow => ?_).map (keeps_replaceIf _ _ _)
    exact h.2 r hr (by rw [hfam, ← hnf]; exact hrow) (hopen stored user raw next result rfl rfl r hr hid)

end Step

namespace AuthSys

variable {env : AuthEnv} {s s' s₀ : AuthSys} {l : AuthLabel} {tr : List AuthLabel} {pc pc' : AuthPc}

/-- A token that a rotation is about to revoke has not been revoked since it was read. -/
def RotatesOpen (s : AuthSys) : AuthLabel → Prop
  | .advance i =>
    match s.calls[i]? with
    | some (.rotateRefreshToken stored _ _ _) => ∀ t ∈ s.store.refreshTokens, t.id = stored.id → t.revokedAt = none
    | _ => True
  | _ => True

instance : DecidablePred (RotatesOpen s) := by
  intro l
  unfold RotatesOpen
  split
  · split <;> infer_instance
  · infer_instance

/-- What a run `tr` from `s₀` to `s` guarantees the holders of refresh tokens. -/
structure FamilySafe (env : AuthEnv) (s₀ : AuthSys) (tr : List AuthLabel) (s : AuthSys) : Prop where
  oneLive : ∀ family,
    (s.store.refreshTokens.filter fun t => t.familyId = family && t.live s.store.now).length ≤ 1
  exchangedOnce : ∀ id, s.exchanged.count id ≤ 1
  burned : ∀ pre i post s₁ stored info, tr = pre ++ .advance i :: post → run (step env) s₀ pre = some s₁ →
    s₁.calls[i]? = some (.revokeTokenFamily stored info) →
      ∀ t ∈ s.store.refreshTokens, t.familyId = stored.familyId → t.live s.store.now = false
  -- the tokens that stem from a login before the logout are those of the families that had a token then
  loggedOut : ∀ pre i post s₁ userId, tr = pre ++ .advance i :: post → run (step env) s₀ pre = some s₁ →
    s₁.calls[i]? = some (.revokeUserTokens userId) →
      ∀ r ∈ s₁.store.refreshTokens, r.userId = userId →
        ∀ t ∈ s.store.refreshTokens, t.familyId = r.familyId → t.live s.store.now = false

/-! ### Runs -/

/-- What the condition gives for the statement that a step runs. -/
theorem RotatesOpen.statement {i : Nat} (h : RotatesOpen s l) (hi : s.calls[i]? = some pc)
    (hl : l = .advance i ∨ ∃ e, pc' = .thrown e) :
    ∀ stored user raw next result, pc = .rotateRefreshToken stored user raw next → pc' = .returned result →
      ∀ t ∈ s.store.refreshTokens, t.id = stored.id → t.revokedAt = none := by
  rintro stored user raw next result rfl rfl
  rcases hl with rfl | ⟨e, he⟩
  · simpa only [RotatesOpen, hi] using h
  · cases he

theorem exclusive_step (h : Exclusive s.store s.exchanged) (hok : Ok s) (hs : AuthSys.step env s l = some s')
    (hl : RotatesOpen s l) : Exclusive s'.store s'.exchanged := by
  rcases step_cases hs with ⟨htoks, hnext, hex, -⟩ | ⟨i, pc, pc', hli, hi, hadv, -, hex⟩ <;> rw [hex]
  · exact h.same htoks hnext.ge
  · exact h.advances hadv (hok.known pc (List.mem_of_getElem? hi)) hok.table (hl.statement hi hli)

theorem closed_step {family : Uuid} (h : Closed family s.store.refreshTokens) (hok : Ok s)
    (hs : AuthSys.step env s l = some s') (hl : RotatesOpen s l) : Closed family s'.store.refreshTokens := by
  rcases step_cases hs with ⟨htoks, -⟩ | ⟨i, pc, pc', hli, hi, hadv, -⟩
  · rwa [htoks]
  · exact h.advances hadv (hok.known pc (List.mem_of_getElem? hi)) (hl.statement hi hli)

/-- Once a statement has closed a family, the rest of the run keeps it closed. -/
theorem closed_after {pre post : List AuthLabel} {s₁ : AuthSys} {family : Uuid} (hok : Ok s₀)
    (hc : Along (step env) (fun s l _ => RotatesOpen s l) s₀ (pre ++ l :: post))
    (hr : run (step env) s₀ (pre ++ l :: post) = some s) (hpre : run (step env) s₀ pre = some s₁)
    (hclose : ∀ s₂, step env s₁ l = some s₂ → Closed family s₂.store.refreshTokens) :
    Closed family s.store.refreshTokens := by
  obtain ⟨s₁', hpre', hrest⟩ := run_append_iff.1 hr
  obtain rfl : s₁ = s₁' := Option.some.inj (hpre.symm.trans hpre')
  obtain ⟨s₂, hs₂, hpost⟩ := run_cons_iff.1 hrest
  have hend : Ok s ∧ Closed family s.store.refreshTokens :=
    Along.inv (I := fun s => Ok s ∧ Closed family s.store.refreshTokens) ((hc.append hpre) s₂ hs₂).2
      ⟨(hok.run hpre).step hs₂, hclose s₂ hs₂⟩
      (fun a l b hI hs hl => ⟨hI.1.step hs, closed_step hI.2 hI.1 hs hl⟩) hpost
  exact hend.2

/-- The statement of a call that is about to revoke tokens does it. -/
theorem advance_eq {i : Nat} {pc : AuthPc} {s₂ : AuthSys} (hi : s.calls[i]? = some pc)
    (hs : step env s (.advance i) = some s₂) : s₂.store = (s.store.advance env pc).1 := by
  simp only [step, hi] at hs
  split at hs
  · cases hs
  · cases hs
    rfl

theorem refresh_family_safe {users : List User} {now : Time}
    (hc : Along (step env) (fun s l _ => RotatesOpen s l) (init users now) tr)
    (hr : run (step env) (init users now) tr = some s) : FamilySafe env (init users now) tr s := by
  have hok₀ := ok_init users now
  have hend : Ok s ∧ Exclusive s.store s.exchanged :=
    Along.inv (I := fun s => Ok s ∧ Exclusive s.store s.exchanged) hc
      ⟨hok₀, ⟨by simp [OneOpen, init], List.nodup_nil, by simp [init]⟩⟩
      (fun a l b hI hs hl => ⟨hI.1.step hs, exclusive_step hI.2 hI.1 hs hl⟩) hr
  obtain ⟨hok, hex⟩ := hend
  refine ⟨fun family => ?_, fun id => List.nodup_iff_count_le_one.1 hex.once id, ?_, ?_⟩
  · exact hex.oneOpen.live_le_one hok.table family s.store.now
  · rintro pre i post s₁ stored info rfl hpre hi
    refine Closed.not_live (closed_after hok₀ hc hr hpre fun s₂ hs₂ => ?_) _
    obtain ⟨t, ht, -, hf, -⟩ := (hok₀.run hpre).known _ (List.mem_of_getElem? hi)
    rw [advance_eq hi hs₂]
    exact .revokeIf ⟨t, ht, hf⟩ fun t _ hf => by simpa using hf
  · rintro pre i post s₁ userId rfl hpre hi r hr' hu
    refine Closed.not_live (closed_after hok₀ hc hr hpre fun s₂ hs₂ => ?_) _
    rw [advance_eq hi hs₂]
    refine .revokeIf ⟨r, hr', rfl⟩ fun t ht hf => ?_
    -- a family belongs to one user
    simpa [hu] using (hok₀.run hpre).table.owner t ht r hr' hf

def devLogin : List AuthLabel :=
  [.request (.login "Dev@Test.local" "password123" .browser), .advance 0, .advance 0, .advance 0, .advance 0]

/-- A login, an exchange, a replay of the old token that burns the family, and a logout. -/
def replayed : List AuthLabel :=
  devLogin ++ [.request (.refresh 1 .browser), .advance 1, .advance 1, .advance 1, .request (.refresh 1 .browser),
    .elapse 1000, .advance 2, .advance 2, .advance 2, .request (.logout 7), .advance 3, .advance 3]

theorem refresh_family_safe_replayed : ∃ s, run (step AuthEnv.plain) (init [User.dev] 0) replayed = some s ∧
    s.exchanged = [2] ∧ s.store.refreshTokens.length = 2 ∧ FamilySafe AuthEnv.plain (init [User.dev] 0) replayed s := by
  obtain ⟨s, hr, hs⟩ := Option.map_eq_some_iff.1 (show
    (run (step AuthEnv.plain) (init [User.dev] 0) replayed).map (fun s => (s.exchanged, s.store.refreshTokens.length)) =
      some ([2], 2) by decide +kernel)
  obtain ⟨hex, hlen⟩ := Prod.mk.inj hs
  have hc : Along (step AuthEnv.plain) (fun s l _ => RotatesOpen s l) (init [User.dev] 0) replayed := by decide +kernel
  exact ⟨s, hr, hex, hlen, refresh_family_safe hc hr⟩

/-- Two requests with one token: both read it before either rotation commits, and both rotate it. -/
theorem refresh_family_forks : ¬ ∀ (env : AuthEnv) (users : List User) (now : Time) (tr : List AuthLabel) (s : AuthSys),
    run (step env) (init users now) tr = some s → FamilySafe env (init users now) tr s := by
  intro h
  obtain ⟨s, hr, hs⟩ := Option.map_eq_some_iff.1 (show
    (run (step AuthEnv.plain) (init [User.dev] 0) (devLogin ++
      [.request (.refresh 1 .browser), .request (.refresh 1 .browser), .advance 1, .advance 2, .advance 1, .advance 2,
        .advance 1, .advance 2])).map (fun s =>
          (s.exchanged, (s.store.refreshTokens.filter fun t => t.familyId = 0 && t.live s.store.now).length)) =
      some ([2, 2], 2) by decide +kernel)
  obtain ⟨-, hlive⟩ := Prod.mk.inj hs
  have hone := (h _ _ _ _ s hr).oneLive 0
  rw [hlive] at hone
  exact absurd hone (by decide)

end AuthSys

end CronMonitor
