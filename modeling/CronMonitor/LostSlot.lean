import CronMonitor.AtMostOnce

/-!
# When contention loses a slot

A worker that does not get the lock writes a `SKIPPED_LOCK_CONTENDED` row under the key on which the claim of
the lock holder is decided. Written before that claim, the row takes the slot away from the holder, and
nobody runs the check (`contended_slot_lost`). In a run without crashes and errors this is the only way to
lose a slot whose lock was taken (`contended_slot_runs_iff`).
-/

namespace CronMonitor

open Runs

/-- No worker dies and no statement throws in this step. -/
def Label.isQuiet : Label → Bool
  | .crash _ => false
  | .advance _ ev => ev.failAt.isNone
  | .invoke _ _ _ | .elapse _ => true

/-- `execute` was started, and unless something throws the call is not going to report a skip. -/
def Pc.isStarted : Pc → Bool
  | .executing _ | .recording _ _ | .refreshing _ _ | .deadLettering _ _ | .alerting _ => true
  | .releasing (.ok r) | .returned (.ok r) => !r.isSkipped
  | _ => false

namespace Sys

/-- The step sends a `recordSkippedRun` of `k` that takes effect. -/
def SendsSkip (k : Uuid × Time) (s : Sys) (a : Label) : Prop :=
  ∃ i ev c, a = .advance i ev ∧ (∀ e, ev.failAt ≠ some (0, e)) ∧ s.calls[i]? = some c ∧ c.pc = .skipping ∧ c.key = k

/-- A skip of `k` finds a row of `k`. -/
def SkipFindsRow (k : Uuid × Time) (s : Sys) (a : Label) : Prop := s.SendsSkip k a → slotKey k ∈ s.store.runKeys

/-- What holds while no skip comes too early. -/
structure Progress (k : Uuid × Time) (s : Sys) : Prop where
  /-- The row of the slot is there because of a claim. -/
  row : slotKey k ∈ s.store.runKeys → 0 < s.claims k
  /-- A lock holder is about to claim, or the slot is claimed. -/
  locked : k ∈ s.locked → (∃ c ∈ s.calls, c.key = k ∧ c.pc = .claiming) ∨ slotKey k ∈ s.store.runKeys
  started : k ∈ s.started → ∃ c ∈ s.calls, c.key = k ∧ c.pc.isStarted

variable {env : Env} {rca : Uuid → Except String (List IncidentEventInput)} {k : Uuid × Time} {s s' : Sys}
  {a : Label} {ev : Event} {c : Call} {st st' : Store} {pc' : Pc}

/-- A member with `p` is still there after one was replaced, unless it is the one. -/
theorem exists_mem_set {p : Call → Prop} {calls : List Call} {i : Nat} {d : Call} (hi : calls[i]? = some c)
    (h : ∃ x ∈ calls, p x) : (∃ x ∈ calls.set i d, p x) ∨ p c := by
  obtain ⟨x, hx, hp⟩ := h
  obtain ⟨j, hj⟩ := List.mem_iff_getElem?.1 hx
  by_cases hij : i = j
  · subst hij
    rw [hi] at hj
    cases hj
    exact .inr hp
  · refine .inl ⟨x, List.mem_iff_getElem?.2 ⟨j, ?_⟩, hp⟩
    rw [List.getElem?_set_ne hij, hj]

theorem mem_set_self {calls : List Call} {i : Nat} {d : Call} (hi : calls[i]? = some c) : d ∈ calls.set i d := by
  obtain ⟨hlt, -⟩ := List.getElem?_eq_some_iff.1 hi
  exact List.mem_iff_getElem?.2 ⟨i, List.getElem?_set_self hlt⟩

/-- A call that has started keeps being one that has. -/
theorem isStarted_advances (h : c.Advances env ev st st' pc') (hev : ev.failAt = none) (hc : c.pc.isStarted) :
    pc'.isStarted := by
  cases h with
  | throwEarly _ hf | throwLate _ hf => simp [hev] at hf
  | release hpc _ =>
    rw [hpc] at hc
    cases ‹Except String RunResult› with
    | error e => simp [Pc.isStarted] at hc
    | ok r => exact hc
  | _ => simp_all [Pc.isStarted, RunResult.isSkipped]

/-- The slot gets its first row from a skip or from a claim. -/
theorem first_row (h : c.Advances env ev st st' pc') (hev : ev.failAt = none) (hbefore : slotKey k ∉ st.runKeys)
    (hafter : slotKey k ∈ st'.runKeys) : c.key = k ∧ (c.pc = .skipping ∨ ∃ id, pc' = .claimed id) := by
  have hkey : c.key = k := by
    rcases h.runKeys with heq | ⟨-, heq⟩
    · exact absurd (heq ▸ hafter) hbefore
    · rw [heq, List.mem_append, List.mem_singleton] at hafter
      exact (slotKey_inj.1 (hafter.resolve_left hbefore)).symm
  refine ⟨hkey, ?_⟩
  cases h with
  | skip hpc _ => exact .inl hpc
  | claim hpc hnone => exact .inr ⟨_, rfl⟩
  | throwEarly _ hf | throwLate _ hf => simp [hev] at hf
  | commit _ hst | lock _ hst | rollback _ hst | refresh _ hst | alert _ hst | release _ hst =>
    exact absurd (hst.runKeys ▸ hafter) hbefore
  | deadLetter _ => exact absurd (runKeys_complete _ _ st ▸ hafter) hbefore
  | _ => exact absurd hafter hbefore

/-- What a call that holds the lock does next settles the claim. -/
theorem claiming_advances (h : c.Advances env ev st st' pc') (hev : ev.failAt = none) (hpc : c.pc = .claiming) :
    slotKey c.key ∈ st'.runKeys := by
  cases h with
  | claim _ hnone =>
    rw [runKeys_claim _ _ hnone]
    exact List.mem_append_right _ (List.mem_singleton_self _)
  | lost _ hrow =>
    obtain ⟨r, hr, hkey⟩ := hrow
    exact List.mem_map.2 ⟨r, hr, hkey⟩
  | throwEarly _ hf | throwLate _ hf => simp [hev] at hf
  | _ => simp_all

theorem Progress.advance {i : Nat} (h : s.Progress k) (hev : ev.failAt = none) (hi : s.calls[i]? = some c)
    (hadv : c.Advances env ev s.store st' pc') (hskip : s.SkipFindsRow k (.advance i ev)) :
    Progress k ⟨st', s.calls.set i { c with pc := pc' }, s.started ++ noteStart c pc', s.locked ++ noteLock c pc'⟩ := by
  have hself : { c with pc := pc' } ∈ s.calls.set i { c with pc := pc' } := mem_set_self hi
  refine ⟨fun hrow => ?_, fun hlocked => ?_, fun hstarted => ?_⟩
  · by_cases hbefore : slotKey k ∈ s.store.runKeys
    · have hpos := h.row hbefore
      rcases claims_advance (l := s.locked ++ noteLock c pc') hi hadv k with heq | ⟨-, -, -, heq⟩ <;> omega
    · obtain ⟨hkey, hpc | ⟨id, rfl⟩⟩ := first_row hadv hev hbefore hrow
      · exact absurd (hskip ⟨i, ev, c, rfl, by simp [hev], hi, hpc, hkey⟩) hbefore
      · refine Nat.add_pos_right _ (List.countP_pos_iff.2 ⟨_, hself, ?_⟩)
        exact decide_eq_true hkey
  · rw [List.mem_append] at hlocked
    rcases hlocked with hlocked | hlocked
    · rcases h.locked hlocked with hclaiming | hrow
      · rcases exists_mem_set (d := { c with pc := pc' }) hi hclaiming with hstill | ⟨rfl, hpc⟩
        · exact .inl hstill
        · exact .inr (claiming_advances hadv hev hpc)
      · exact .inr (hadv.mem_runKeys hrow)
    · unfold noteLock at hlocked
      split at hlocked
      · rw [List.mem_singleton] at hlocked
        exact .inl ⟨_, hself, hlocked.symm, rfl⟩
      · cases hlocked
  · rw [List.mem_append] at hstarted
    rcases hstarted with hstarted | hstarted
    · rcases exists_mem_set (d := { c with pc := pc' }) hi (h.started hstarted) with hstill | ⟨hkey, hpc⟩
      · exact hstill
      · exact ⟨_, hself, hkey, isStarted_advances hadv hev hpc⟩
    · unfold noteStart at hstarted
      split at hstarted
      · rw [List.mem_singleton] at hstarted
        exact ⟨_, hself, hstarted.symm, rfl⟩
      · cases hstarted

theorem Progress.step (h : s.Progress k) (hs : s.Steps env a s') (hquiet : a.isQuiet) (hskip : s.SkipFindsRow k a) :
    s'.Progress k := by
  cases hs with
  | invoke target slot workerId =>
    refine ⟨fun hrow => ?_, fun hlocked => ?_, fun hstarted => ?_⟩
    · simpa [claims, Call.isClaimedFor, List.countP_append] using h.row hrow
    · refine (h.locked hlocked).imp_left ?_
      rintro ⟨c, hc, hp⟩
      exact ⟨c, List.mem_append_left _ hc, hp⟩
    · obtain ⟨c, hc, hp⟩ := h.started hstarted
      exact ⟨c, List.mem_append_left _ hc, hp⟩
  | elapse ms => exact ⟨h.row, h.locked, h.started⟩
  | crash hi => simp [Label.isQuiet] at hquiet
  | advance hi hadv => exact h.advance (by simpa [Label.isQuiet] using hquiet) hi hadv hskip

/-- Once the slot has a row that no claim made, it is never executed. -/
theorem never_started {tr : List Label} (hrow : slotKey k ∈ s.store.runKeys) (hclaims : s.claims k = 0)
    (hr : run (Sys.step env rca) s tr = some s') : k ∉ s'.started := by
  have hinv : slotKey k ∈ s'.store.runKeys ∧ s'.claims k = 0 := by
    refine inv_run (I := fun s => slotKey k ∈ s.store.runKeys ∧ s.claims k = 0) ⟨hrow, hclaims⟩ ?_ hr
    rintro s a s' ⟨hrow, hclaims⟩ hs
    cases steps hs with
    | invoke target slot workerId =>
      exact ⟨hrow, by simpa [claims, Call.isClaimedFor, List.countP_append] using hclaims⟩
    | elapse ms => exact ⟨hrow, hclaims⟩
    | @crash i c hi =>
      refine ⟨hrow, ?_⟩
      have hle := claims_crash hi k
      omega
    | advance hi hadv =>
      refine ⟨hadv.mem_runKeys hrow, ?_⟩
      rcases claims_advance hi hadv k with heq | ⟨-, hnew, -⟩
      · exact heq.trans hclaims
      · exact absurd hrow hnew
  have hcount : s'.started.count k = 0 := by
    have := hinv.2
    simp only [claims] at this
    omega
  exact List.count_eq_zero.1 hcount

/-- A skip that does not throw takes effect. -/
theorem skipping_advances (h : c.Advances env ev st st' pc') (hpc : c.pc = .skipping)
    (hev : ∀ e, ev.failAt ≠ some (0, e)) :
    st' = (Sql.recordSkippedRun c.input .skippedLockContended st).2 ∧ pc' = .returned (.ok (.skipped .lockContended)) := by
  cases h with
  | skip _ _ => exact ⟨rfl, rfl⟩
  | throwEarly _ hf | throwLate _ hf => exact absurd hf (hev _)
  | _ => simp_all

/-- A skip that comes before any row of its slot is the end of the slot. -/
theorem early_skip {tr : List Label} (h : s.ClaimsHaveRows) (hs : s.Steps env a s') (hskip : s.SendsSkip k a)
    (hnone : slotKey k ∉ s.store.runKeys) {t : Sys} (hr : run (Sys.step env rca) s' tr = some t) : k ∉ t.started := by
  obtain ⟨i, ev, c, rfl, hev, hi, hpc, rfl⟩ := hskip
  have hclaims : s.claims c.key = 0 := by
    have hle := h c.key
    rw [if_neg hnone] at hle
    omega
  cases hs with
  | @advance _ _ c' st' pc' hi' hadv =>
    obtain rfl : c = c' := Option.some.inj (hi.symm.trans hi')
    obtain ⟨rfl, rfl⟩ := skipping_advances hadv hpc hev
    refine never_started ?_ ?_ hr
    · rw [runKeys_skip, c.input_key, if_neg hnone]
      exact List.mem_append_right _ (List.mem_singleton_self _)
    · rcases claims_advance hi hadv c.key with heq | ⟨⟨id, hid⟩, -⟩
      · exact heq.trans hclaims
      · cases hid

/-- In a run without crashes and errors, in which some worker got the lock of a fresh slot and every call for
it has returned, the slot is executed exactly when no contender recorded its skip before the slot had a row. -/
theorem contended_slot_runs_iff {tr : List Label} (hfresh : slotKey k ∉ st.runKeys)
    (hr : run (step env rca) (init st) tr = some s) (hquiet : ∀ a ∈ tr, a.isQuiet)
    (hdone : ∀ c ∈ s.calls, c.key = k → ∃ r, c.pc = .returned r) (hlocked : k ∈ s.locked) :
    (k ∈ s.started ∧ ∃ c ∈ s.calls, c.key = k ∧ ∃ r, c.pc = .returned (.ok r) ∧ ¬ r.isSkipped) ↔
      Along (step env rca) (fun s a _ => s.SkipFindsRow k a) (init st) tr := by
  constructor
  · rintro ⟨hstarted, -⟩
    refine along_iff.2 fun pre a post s₁ s₂ htr hr₁ hs hskip => ?_
    by_contra hnone
    have hI : s₁.ClaimsHaveRows := inv_run (ClaimsHaveRows.init st) (fun _ _ _ h hs => h.step (steps hs)) hr₁
    rw [htr, run_append_iff] at hr
    obtain ⟨s₁', hr₁', hr⟩ := hr
    obtain rfl : s₁ = s₁' := Option.some.inj (hr₁.symm.trans hr₁')
    obtain ⟨s₂', hs', hr⟩ := run_cons_iff.1 hr
    obtain rfl : s₂ = s₂' := Option.some.inj (hs.symm.trans hs')
    exact early_skip hI (steps hs) hskip hnone hr hstarted
  · intro hskips
    have hinit : (init st).Progress k :=
      ⟨fun h => absurd h hfresh, fun h => absurd h List.not_mem_nil, fun h => absurd h List.not_mem_nil⟩
    have hend := (hskips.and (Along.of_labels hquiet)).inv hinit
      (fun _ _ _ h hs hC => h.step (steps hs) hC.2 hC.1) hr
    have hrow : slotKey k ∈ s.store.runKeys := by
      refine (hend.locked hlocked).resolve_left ?_
      rintro ⟨c, hc, hkey, hpc⟩
      obtain ⟨r, hret⟩ := hdone c hc hkey
      rw [hpc] at hret
      cases hret
    have hnone : s.calls.countP (·.isClaimedFor k) = 0 := by
      refine List.countP_eq_zero.2 fun c hc hclaimed => ?_
      unfold Call.isClaimedFor at hclaimed
      split at hclaimed
      · rename_i hpc
        obtain ⟨r, hret⟩ := hdone c hc (by simpa using hclaimed)
        rw [hpc] at hret
        cases hret
      · cases hclaimed
    have hstarted : k ∈ s.started := by
      have hpos := hend.row hrow
      rw [claims, hnone] at hpos
      exact List.count_pos_iff.1 hpos
    obtain ⟨c, hc, hkey, hpc⟩ := hend.started hstarted
    obtain ⟨r, hret⟩ := hdone c hc hkey
    refine ⟨hstarted, c, hc, hkey, ?_⟩
    rw [hret] at hpc ⊢
    cases r with
    | error e => cases hpc
    | ok r => exact ⟨r, rfl, by simpa [Pc.isStarted] using hpc⟩

/-- The second worker records its skip between the lock and the claim of the first. -/
def earlySkip : List Label :=
  [.invoke makeMonitoredApi 60000 "w1", .invoke makeMonitoredApi 60000 "w2"] ++ undisturbed 0 2 (.error "") ++
    undisturbed 1 3 (.error "") ++ undisturbed 0 2 (.error "")

/-- The second worker records its skip after the claim of the first. -/
def lateSkip : List Label :=
  [.invoke makeMonitoredApi 60000 "w1", .invoke makeMonitoredApi 60000 "w2"] ++ undisturbed 0 3 (.error "") ++
    undisturbed 1 3 (.error "") ++ undisturbed 0 5 (.error "check failed")

theorem contended_slot_runs_lateSkip :
    ∃ s, run (step Env.default fun _ => .ok []) (init Store.empty) lateSkip = some s ∧ (1, 60000) ∈ s.locked ∧
      ((1, 60000) ∈ s.started ∧ (∃ c ∈ s.calls, c.key = (1, 60000) ∧ ∃ r, c.pc = .returned (.ok r) ∧ ¬ r.isSkipped) ↔
        Along (step Env.default fun _ => .ok []) (fun s a _ => s.SkipFindsRow (1, 60000) a) (init Store.empty) lateSkip) := by
  obtain ⟨s, hr, hs⟩ := Option.map_eq_some_iff.1 (show (run (step Env.default fun _ => .ok [])
    (init Store.empty) lateSkip).map (fun s => (s.locked, s.calls.map (·.pc))) = some ([(1, 60000)],
      [.returned (.ok (.deadLettered "check failed")), .returned (.ok (.skipped .lockContended))]) from rfl)
  obtain ⟨hlocked, hpcs⟩ := Prod.mk.inj hs
  have hmem : (1, 60000) ∈ s.locked := hlocked ▸ List.mem_singleton_self _
  refine ⟨s, hr, hmem, contended_slot_runs_iff (by decide) hr (by decide) (fun c hc _ => ?_) hmem⟩
  have hpc : c.pc ∈ s.calls.map (·.pc) := List.mem_map_of_mem hc
  rw [hpcs] at hpc
  rcases List.mem_pair.1 hpc with h | h
  · exact ⟨_, h⟩
  · exact ⟨_, h⟩

/-- Both workers report a skip, although one of them held the lock: the check of this slot never runs. -/
theorem contended_slot_lost :
    slotKey (1, 60000) ∉ Store.empty.runKeys ∧ (∀ a ∈ earlySkip, a.isQuiet) ∧
      ∃ s, run (step Env.default fun _ => .ok []) (init Store.empty) earlySkip = some s ∧ (1, 60000) ∈ s.locked ∧
        s.started = [] ∧ s.calls.map (·.pc) =
          [.returned (.ok (.skipped .alreadyDone)), .returned (.ok (.skipped .lockContended))] := by
  refine ⟨by decide, by decide, ?_⟩
  obtain ⟨s, hr, hs⟩ := Option.map_eq_some_iff.1 (show (run (step Env.default fun _ => .ok [])
    (init Store.empty) earlySkip).map (fun s => (s.locked, s.started, s.calls.map (·.pc))) = some ([(1, 60000)], [],
      [.returned (.ok (.skipped .alreadyDone)), .returned (.ok (.skipped .lockContended))]) from rfl)
  simp only [Prod.mk.injEq] at hs
  obtain ⟨hlocked, hstarted, hpcs⟩ := hs
  exact ⟨s, hr, hlocked ▸ List.mem_singleton_self _, hstarted, hpcs⟩

end Sys

end CronMonitor
