import CronMonitor.LostSlot

/-!
# When a terminal run status is final

Three statements write the status of a run: the claim creates it, the owner of the claim completes it, and a
contender's skip overwrites it. The owner completes its row once, so `SUCCESS` and `DEAD_LETTERED` are final
against claims and completions; a contender that lost the lock before the owner was done and records its skip
afterwards takes the status back (`terminal_status_overwritten`). No other step does
(`terminal_status_final_iff`).
-/

namespace CronMonitor

open Runs

/-- The claim that a call holds: it may still complete the row. -/
def Pc.claim? : Pc → Option Uuid
  | .claimed id | .executing id | .recording id _ | .deadLettering id _ => some id
  | _ => none

/-- The status of the row of a slot. -/
def Store.runStatus (st : Store) (k : Uuid × Time) : Option CronRunStatus :=
  (st.db.cronJobRuns.find? (·.key = slotKey k)).map (·.status)

/-- The run rows were written by this program: identifiers were drawn from the stream, and `job_run_id` is the
idempotency key of the row's target and slot. -/
structure Store.RunsWf (st : Store) : Prop where
  id_lt : ∀ r ∈ st.db.cronJobRuns, r.id < st.nextUuid
  jobRunId_eq : ∀ r ∈ st.db.cronJobRuns, r.jobRunId = jobRunId r.targetId r.scheduledSlot

/-- Where the rows of `st'` come from: an old row, which became terminal only if it is `done`, or a new row
with the next identifier. -/
def RowsFrom (done : Option Uuid) (st st' : Store) : Prop :=
  ∀ r' ∈ st'.db.cronJobRuns,
    (∃ r ∈ st.db.cronJobRuns, r'.id = r.id ∧ r'.key = r.key ∧ r'.jobRunId = r.jobRunId ∧
      (r'.status.isTerminal → r.status.isTerminal ∨ done = some r.id)) ∨
    r'.id = st.nextUuid ∧ st.nextUuid < st'.nextUuid ∧ r'.jobRunId = jobRunId r'.targetId r'.scheduledSlot ∧
      ¬ r'.status.isTerminal

section Rows

variable {env : Env} {ev : Event} {st st' : Store} {c : Call} {pc' : Pc} {done : Option Uuid}

theorem RowsFrom.of_eq (h : st'.db.cronJobRuns = st.db.cronJobRuns) : RowsFrom none st st' := by
  intro r hr
  rw [h] at hr
  exact .inl ⟨r, hr, rfl, rfl, rfl, .inl⟩

theorem rowsFrom_complete (id : Uuid) (status : CronRunStatus)
    (h : st'.db.cronJobRuns = (Sql.completeJobRun id status st).2.db.cronJobRuns) : RowsFrom (some id) st st' := by
  intro r' hr'
  rw [h] at hr'
  obtain ⟨r, hr, rfl⟩ := List.mem_map.1 hr'
  refine .inl ⟨r, hr, ?_⟩
  split
  · rename_i hid
    exact ⟨rfl, rfl, rfl, fun _ => .inr (congrArg some hid.symm)⟩
  · exact ⟨rfl, rfl, rfl, .inl⟩

theorem rowsFrom_skip (c : Call) (st : Store) :
    RowsFrom none st (Sql.recordSkippedRun c.input .skippedLockContended st).2 := by
  intro r' hr'
  unfold Sql.recordSkippedRun at hr' ⊢
  split at hr'
  · obtain ⟨r, hr, rfl⟩ := List.mem_map.1 hr'
    refine .inl ⟨r, hr, ?_⟩
    split
    · exact ⟨rfl, rfl, rfl, fun h => by cases h⟩
    · exact ⟨rfl, rfl, rfl, .inl⟩
  · rcases List.mem_append.1 hr' with hr | hr
    · exact .inl ⟨r', hr, rfl, rfl, rfl, .inl⟩
    · rw [List.mem_singleton.1 hr, if_neg ‹_›]
      exact .inr ⟨rfl, Nat.lt_succ_self _, rfl, Bool.false_ne_true⟩

theorem rowsFrom_claim (c : Call) (st : Store) : RowsFrom none st (Sql.claimJobRun c.input st).2 := by
  intro r' hr'
  unfold Sql.claimJobRun at hr' ⊢
  split at hr'
  · exact .inl ⟨r', hr', rfl, rfl, rfl, .inl⟩
  · rcases List.mem_append.1 hr' with hr | hr
    · exact .inl ⟨r', hr, rfl, rfl, rfl, .inl⟩
    · rw [List.mem_singleton.1 hr, if_neg ‹_›]
      exact .inr ⟨rfl, Nat.lt_succ_self _, rfl, Bool.false_ne_true⟩

/-- What a step does to the rows and to the claim its call holds. -/
theorem Call.Advances.rowsFrom (h : c.Advances env ev st st' pc') :
    ∃ done, RowsFrom done st st' ∧ st.nextUuid ≤ st'.nextUuid ∧
      (done = none ∨ done = c.pc.claim? ∧ pc'.claim? = none) ∧
      (pc'.claim? = c.pc.claim? ∨ pc'.claim? = none ∨
        pc'.claim? = some st.nextUuid ∧ st.nextUuid < st'.nextUuid) := by
  cases h with
  | skip hpc _ =>
    refine ⟨none, rowsFrom_skip c st, ?_, .inl rfl, .inr (.inl rfl)⟩
    unfold Sql.recordSkippedRun
    split
    · exact Nat.le_refl _
    · exact Nat.le_succ _
  | claim hpc hnone =>
    have hany : ¬ st.db.cronJobRuns.any (·.key = c.input.key) := by simpa using hnone
    have huuid : (Sql.claimJobRun c.input st).2.nextUuid = st.nextUuid + 1 := by rw [Sql.claimJobRun, if_neg hany]
    exact ⟨none, rowsFrom_claim c st, huuid ▸ Nat.le_succ _, .inl rfl, .inr (.inr ⟨rfl, huuid ▸ Nat.lt_succ_self _⟩)⟩
  | @commit id o t st' hpc hst =>
    rcases hst.runs with hruns | hruns
    · exact ⟨none, .of_eq hruns, hst.uuid, .inl rfl, .inr (.inl rfl)⟩
    · exact ⟨some id, rowsFrom_complete id _ hruns, hst.uuid, .inr ⟨by rw [hpc]; rfl, rfl⟩, .inr (.inl rfl)⟩
  | @deadLetter id e hpc =>
    exact ⟨some id, rowsFrom_complete id _ rfl, Nat.le_refl _, .inr ⟨by rw [hpc]; rfl, rfl⟩, .inr (.inl rfl)⟩
  | rollback hpc hst => exact ⟨none, .of_eq hst.runs, hst.uuid, .inl rfl, .inl (by rw [hpc]; rfl)⟩
  | lock hpc hst | refresh hpc hst | alert hpc hst | release hpc hst =>
    exact ⟨none, .of_eq hst.runs, hst.uuid, .inl rfl, .inr (.inl rfl)⟩
  | start hpc | settle hpc | reject hpc =>
    exact ⟨none, .of_eq rfl, Nat.le_refl _, .inl rfl, .inl (by rw [hpc]; rfl)⟩
  | known _ | unknown _ | contended _ | lost _ _ | throwEarly _ _ | throwLate _ _ =>
    exact ⟨none, .of_eq rfl, Nat.le_refl _, .inl rfl, .inr (.inl rfl)⟩

/-! ### The status of one slot -/

variable {k : Uuid × Time} {status : CronRunStatus}

/-- An update that keeps the keys commutes with looking a key up. -/
theorem find?_map_key {f : CronJobRun → CronJobRun} (hf : ∀ r, (f r).key = r.key) (rows : List CronJobRun)
    (key : Uuid × Time × Nat) : (rows.map f).find? (·.key = key) = (rows.find? (·.key = key)).map f := by
  rw [List.find?_map]
  simp only [Function.comp_def, hf]

theorem runStatus_complete {id : Uuid} {final : CronRunStatus}
    (hopen : ∀ r ∈ st.db.cronJobRuns, r.id = id → ¬ r.status.isTerminal) (hterm : status.isTerminal)
    (h : st.runStatus k = some status) : (Sql.completeJobRun id final st).2.runStatus k = some status := by
  obtain ⟨r, hr, rfl⟩ := Option.map_eq_some_iff.1 h
  simp only [Store.runStatus, Sql.completeJobRun]
  rw [find?_map_key (by intro r; split <;> rfl), hr]
  have hid : r.id ≠ id := fun hid => hopen r (List.mem_of_find?_eq_some hr) hid hterm
  simp [hid]

theorem runStatus_append {row : CronJobRun} (hrows : st'.db.cronJobRuns = st.db.cronJobRuns ++ [row])
    (h : st.runStatus k = some status) : st'.runStatus k = some status := by
  obtain ⟨r, hr, rfl⟩ := Option.map_eq_some_iff.1 h
  rw [Store.runStatus, hrows, List.find?_append, hr]
  rfl

theorem runStatus_claim {i : JobRunInput} (h : st.runStatus k = some status) :
    (Sql.claimJobRun i st).2.runStatus k = some status := by
  unfold Sql.claimJobRun
  split
  · exact h
  · exact runStatus_append rfl h

/-- A skip overwrites the status of its own slot. -/
theorem runStatus_skip_self (hkey : c.key = k) (h : st.runStatus k = some status) :
    (Sql.recordSkippedRun c.input .skippedLockContended st).2.runStatus k = some .skippedLockContended := by
  subst hkey
  obtain ⟨r, hr, rfl⟩ := Option.map_eq_some_iff.1 h
  have hrkey : r.key = c.input.key := by
    rw [c.input_key]
    simpa using List.find?_some hr
  have hany : st.db.cronJobRuns.any (·.key = c.input.key) := by
    simpa using ⟨r, List.mem_of_find?_eq_some hr, hrkey⟩
  rw [Sql.recordSkippedRun, if_pos hany, Store.runStatus, find?_map_key (by intro r; split <;> rfl), hr]
  simp [hrkey]

theorem runStatus_skip_other (hkey : c.key ≠ k) (h : st.runStatus k = some status) :
    (Sql.recordSkippedRun c.input .skippedLockContended st).2.runStatus k = some status := by
  obtain ⟨r, hr, rfl⟩ := Option.map_eq_some_iff.1 h
  have hrkey : r.key ≠ c.input.key := by
    have : r.key = slotKey k := by simpa using List.find?_some hr
    rw [this, c.input_key, Ne, slotKey_inj]
    exact fun h => hkey h.symm
  unfold Sql.recordSkippedRun
  split
  · rw [Store.runStatus, find?_map_key (by intro r; split <;> rfl), hr]
    simp [hrkey]
  · exact runStatus_append rfl h

/-- A terminal row keeps `jobRunExists` true. -/
theorem jobRunExists_of_runStatus (hwf : st.RunsWf) (hterm : status.isTerminal) (h : st.runStatus k = some status) :
    (Sql.jobRunExists (jobRunId k.1 k.2) st).1 = true := by
  obtain ⟨r, hr, rfl⟩ := Option.map_eq_some_iff.1 h
  have hmem := List.mem_of_find?_eq_some hr
  have hkey : r.key = slotKey k := by simpa using List.find?_some hr
  simp only [CronJobRun.key, slotKey, Prod.mk.injEq] at hkey
  have hrun := hwf.jobRunId_eq r hmem
  rw [hkey.1, hkey.2.1] at hrun
  simpa [Sql.jobRunExists] using ⟨r, hmem, hrun, hterm⟩

end Rows

namespace Sys

/-- Who may still complete which row. -/
structure Owned (s : Sys) : Prop where
  wf : s.store.RunsWf
  claim_lt : ∀ (i : Nat) (c : Call) (id : Uuid), s.calls[i]? = some c → c.pc.claim? = some id → id < s.store.nextUuid
  /-- The row of a claim that is held is not complete. -/
  claim_open : ∀ (i : Nat) (c : Call) (id : Uuid), s.calls[i]? = some c → c.pc.claim? = some id →
    ∀ r ∈ s.store.db.cronJobRuns, r.id = id → ¬ r.status.isTerminal
  /-- No two calls hold the same claim. -/
  claim_inj : ∀ (i j : Nat) (c d : Call) (id : Uuid), s.calls[i]? = some c → s.calls[j]? = some d →
    c.pc.claim? = some id → d.pc.claim? = some id → i = j

variable {env : Env} {rca : Uuid → Except String (List IncidentEventInput)} {k : Uuid × Time} {s s' : Sys}
  {a : Label} {ev : Event} {c : Call} {st st' : Store} {pc' : Pc}

theorem RunsWf.of_rowsFrom {done : Option Uuid} (h : st.RunsWf) (hfrom : RowsFrom done st st')
    (huuid : st.nextUuid ≤ st'.nextUuid) : st'.RunsWf := by
  refine ⟨fun r' hr' => ?_, fun r' hr' => ?_⟩ <;> rcases hfrom r' hr' with ⟨r, hr, hid, hkey, hrun, -⟩ | ⟨hid, hlt, hrun, -⟩
  · rw [hid]
    exact (h.id_lt r hr).trans_le huuid
  · rw [hid]
    exact hlt
  · simp only [CronJobRun.key, Prod.mk.injEq] at hkey
    rw [hrun, h.jobRunId_eq r hr, hkey.1, hkey.2.1]
  · exact hrun

/-- The calls after one was replaced: the new one, and the others at their places. -/
theorem getElem?_set_cases {calls : List Call} {i j : Nat} {d x : Call} (h : (calls.set i d)[j]? = some x) :
    i = j ∧ x = d ∨ i ≠ j ∧ calls[j]? = some x := by
  by_cases hij : i = j
  · subst hij
    rw [List.getElem?_set_self'] at h
    cases hi : calls[i]? <;> simp [hi] at h
    exact .inl ⟨rfl, h.symm⟩
  · rw [List.getElem?_set_ne hij] at h
    exact .inr ⟨hij, h⟩

/-- A claim other than the completed one is still open after the step. -/
theorem Owned.open_after {done : Option Uuid} {j : Nat} {d : Call} {id : Uuid} (h : s.Owned)
    (hfrom : RowsFrom done s.store st') (hj : s.calls[j]? = some d) (hid : d.pc.claim? = some id) (hne : done ≠ some id) :
    ∀ r ∈ st'.db.cronJobRuns, r.id = id → ¬ r.status.isTerminal := by
  intro r' hr' hrid hterm
  rcases hfrom r' hr' with ⟨r, hr, hrr, -, -, hstatus⟩ | ⟨-, -, -, hnot⟩
  · have hrid' : r.id = id := hrr.symm.trans hrid
    rcases hstatus hterm with hr_term | hr_done
    · exact h.claim_open j d id hj hid r hr hrid' hr_term
    · exact hne (hr_done.trans (congrArg some hrid'))
  · exact hnot hterm

theorem Owned.advance {i : Nat} {l l' : List (Uuid × Time)} (h : s.Owned) (hi : s.calls[i]? = some c)
    (hadv : c.Advances env ev s.store st' pc') : Owned ⟨st', s.calls.set i { c with pc := pc' }, l, l'⟩ := by
  obtain ⟨done, hfrom, huuid, hdone, hclaim⟩ := hadv.rowsFrom
  -- The claim of the call that moved, if it holds one: its own, or the row it has just inserted.
  have hnew : ∀ id, pc'.claim? = some id →
      c.pc.claim? = some id ∨ id = s.store.nextUuid ∧ s.store.nextUuid < st'.nextUuid := by
    intro id hid
    rcases hclaim with heq | heq | ⟨heq, hlt⟩
    · exact .inl (heq ▸ hid)
    · rw [heq] at hid
      cases hid
    · rw [heq] at hid
      exact .inr ⟨(Option.some.inj hid).symm, hlt⟩
  -- A row that another call may complete is not the one completed in this step.
  have hother : ∀ (j : Nat) (d : Call) (id : Uuid), i ≠ j → s.calls[j]? = some d → d.pc.claim? = some id → done ≠ some id := by
    rintro j d id hij hj hid rfl
    rcases hdone with hdone | ⟨hdone, -⟩
    · cases hdone
    · exact hij (h.claim_inj i j c d id hi hj hdone.symm hid)
  refine ⟨RunsWf.of_rowsFrom h.wf hfrom huuid, fun j d id hj hid => ?_, fun j d id hj hid => ?_,
    fun j₁ j₂ d₁ d₂ id hj₁ hj₂ hid₁ hid₂ => ?_⟩
  · rcases getElem?_set_cases hj with ⟨-, rfl⟩ | ⟨-, hj⟩
    · rcases hnew id hid with hold | ⟨rfl, hlt⟩
      · exact (h.claim_lt i c id hi hold).trans_le huuid
      · exact hlt
    · exact (h.claim_lt j d id hj hid).trans_le huuid
  · rcases getElem?_set_cases hj with ⟨-, rfl⟩ | ⟨hij, hj⟩
    · rcases hnew id hid with hold | ⟨rfl, hlt⟩
      · refine h.open_after hfrom hi hold ?_
        rintro rfl
        rcases hdone with hdone | ⟨-, hnone⟩
        · cases hdone
        · rw [hnone] at hid
          cases hid
      · intro r' hr' hrid
        rcases hfrom r' hr' with ⟨r, hr, hrr, -⟩ | ⟨-, -, -, hnot⟩
        · have hlt' := h.wf.id_lt r hr
          rw [← hrr, hrid] at hlt'
          exact absurd hlt' (Nat.lt_irrefl _)
        · exact hnot
    · exact h.open_after hfrom hj hid (hother j d id hij hj hid)
  · have hfresh : ∀ (j : Nat) (d : Call), s.calls[j]? = some d → d.pc.claim? = some id → id ≠ s.store.nextUuid :=
      fun j d hj hid => Nat.ne_of_lt (h.claim_lt j d id hj hid)
    rcases getElem?_set_cases hj₁ with ⟨rfl, rfl⟩ | ⟨hij₁, hj₁⟩ <;>
      rcases getElem?_set_cases hj₂ with ⟨rfl, rfl⟩ | ⟨hij₂, hj₂⟩
    · rfl
    · rcases hnew id hid₁ with hold | ⟨heq, -⟩
      · exact h.claim_inj _ _ _ _ id hi hj₂ hold hid₂
      · exact absurd heq (hfresh _ _ hj₂ hid₂)
    · rcases hnew id hid₂ with hold | ⟨heq, -⟩
      · exact h.claim_inj _ _ _ _ id hj₁ hi hid₁ hold
      · exact absurd heq (hfresh _ _ hj₁ hid₁)
    · exact h.claim_inj _ _ _ _ id hj₁ hj₂ hid₁ hid₂

/-- Calls that hold no claim do not matter. -/
theorem Owned.of_holders {calls : List Call} (h : s.Owned)
    (hold : ∀ (j : Nat) (d : Call) (id : Uuid), calls[j]? = some d → d.pc.claim? = some id → s.calls[j]? = some d) :
    Owned { s with calls := calls } :=
  ⟨h.wf, fun j d id hj hid => h.claim_lt j d id (hold j d id hj hid) hid,
    fun j d id hj hid => h.claim_open j d id (hold j d id hj hid) hid,
    fun j₁ j₂ d₁ d₂ id hj₁ hj₂ hid₁ hid₂ =>
      h.claim_inj j₁ j₂ d₁ d₂ id (hold _ _ _ hj₁ hid₁) (hold _ _ _ hj₂ hid₂) hid₁ hid₂⟩

theorem Owned.step (h : s.Owned) (hs : s.Steps env a s') : s'.Owned := by
  cases hs with
  | elapse ms => exact ⟨⟨h.wf.id_lt, h.wf.jobRunId_eq⟩, h.claim_lt, h.claim_open, h.claim_inj⟩
  | advance hi hadv => exact h.advance hi hadv
  | invoke target slot workerId =>
    refine h.of_holders fun j d id hj hid => ?_
    by_cases hlt : j < s.calls.length
    · rwa [List.getElem?_append_left hlt] at hj
    · rw [List.getElem?_append_right (Nat.le_of_not_lt hlt)] at hj
      rw [List.mem_singleton.1 (List.mem_of_getElem? hj)] at hid
      cases hid
  | crash hi =>
    refine h.of_holders fun j d id hj hid => ?_
    rcases getElem?_set_cases hj with ⟨-, rfl⟩ | ⟨-, hj⟩
    · cases hid
    · exact hj

theorem Owned.init (h : st.RunsWf) : (init st).Owned := by
  refine ⟨h, fun j d id hj => ?_, fun j d id hj => ?_, fun j₁ j₂ d₁ d₂ id hj₁ => ?_⟩
  all_goals simp [Sys.init] at *

/-- The step keeps the status of the slot if it is terminal. -/
def KeepsTerminal (k : Uuid × Time) (s s' : Sys) : Prop :=
  ∀ status : CronRunStatus, status.isTerminal → s.store.runStatus k = some status → s'.store.runStatus k = some status

/-- The step records no skip of the slot while its status is terminal. -/
def NoLateSkip (k : Uuid × Time) (s : Sys) (a : Label) : Prop :=
  s.SendsSkip k a → ∀ status : CronRunStatus, s.store.runStatus k = some status → ¬ status.isTerminal

/-- A step of a call keeps a terminal status unless it is a skip of that slot. -/
theorem Owned.keeps {i : Nat} {status : CronRunStatus} (h : s.Owned) (hi : s.calls[i]? = some c)
    (hadv : c.Advances env ev s.store st' pc') (hskip : c.pc = .skipping → (∀ e, ev.failAt ≠ some (0, e)) → c.key ≠ k)
    (hterm : status.isTerminal) (hst : s.store.runStatus k = some status) : st'.runStatus k = some status := by
  cases hadv with
  | skip hpc hev => exact runStatus_skip_other (hskip hpc hev) hst
  | claim hpc hnone => exact runStatus_claim hst
  | commit hpc hst' =>
    rcases hst'.runs with hruns | hruns <;> rw [Store.runStatus, hruns]
    · exact hst
    · exact runStatus_complete (h.claim_open i c _ hi (by rw [hpc]; rfl)) hterm hst
  | deadLetter hpc => exact runStatus_complete (h.claim_open i c _ hi (by rw [hpc]; rfl)) hterm hst
  | lock hpc hst' | rollback hpc hst' | refresh hpc hst' | alert hpc hst' | release hpc hst' =>
    rw [Store.runStatus, hst'.runs]
    exact hst
  | _ => exact hst

theorem Owned.keepsTerminal_iff (h : s.Owned) (hs : s.Steps env a s') : s.KeepsTerminal k s' ↔ s.NoLateSkip k a := by
  constructor
  · rintro hkeeps ⟨i, ev, c, rfl, hev, hi, hpc, hkey⟩ status hst hterm
    cases hs with
    | @advance _ _ c' st' pc' hi' hadv =>
      obtain rfl : c = c' := Option.some.inj (hi.symm.trans hi')
      obtain ⟨rfl, -⟩ := skipping_advances hadv hpc hev
      have hafter := hkeeps status hterm hst
      rw [runStatus_skip_self hkey hst] at hafter
      cases hafter
      cases hterm
  · intro hskip status hterm hst
    cases hs with
    | invoke | crash => exact hst
    | elapse ms => exact hst
    | @advance i ev c st' pc' hi hadv =>
      refine h.keeps hi hadv (fun hpc hev hkey => ?_) hterm hst
      exact hskip ⟨i, ev, c, rfl, hev, hi, hpc, hkey⟩ status hst hterm

/-- Between any two moments of the run, the earlier of which finds the slot's status terminal, the status stays
what it is, and `jobRunExists` is true at the later one. -/
def TerminalIsFinal (env : Env) (rca : Uuid → Except String (List IncidentEventInput)) (k : Uuid × Time) (s : Sys)
    (tr : List Label) : Prop :=
  ∀ pre mid post s₁ s₂, tr = pre ++ mid ++ post → run (step env rca) s pre = some s₁ →
    run (step env rca) s₁ mid = some s₂ → ∀ status : CronRunStatus, status.isTerminal →
      s₁.store.runStatus k = some status →
        s₂.store.runStatus k = some status ∧ (Sql.jobRunExists (jobRunId k.1 k.2) s₂.store).1 = true

/-- Terminal run statuses are final exactly in the runs in which no contender records its skip of a slot that
is already complete. -/
theorem terminal_status_final_iff (hwf : st.RunsWf) (k : Uuid × Time) (tr : List Label) :
    TerminalIsFinal env rca k (init st) tr ↔ Along (step env rca) (fun s a _ => s.NoLateSkip k a) (init st) tr := by
  have howned : ∀ pre s₁, run (step env rca) (init st) pre = some s₁ → s₁.Owned := fun pre s₁ hpre =>
    inv_run (Owned.init hwf) (fun _ _ _ h hs => h.step (steps hs)) hpre
  rw [← along_congr (C := fun s _ s' => s.KeepsTerminal k s') (Owned.init hwf)
    fun s a s' h hs => ⟨h.keepsTerminal_iff (steps hs), fun _ => h.step (steps hs)⟩]
  constructor
  · intro hfinal
    refine along_iff.2 fun pre a post s₁ s₂ htr hpre hs status hterm hst => ?_
    refine (hfinal pre [a] post s₁ s₂ ?_ hpre ?_ status hterm hst).1
    · rw [htr, List.append_assoc]
      rfl
    · exact run_cons_iff.2 ⟨s₂, hs, rfl⟩
  · rintro hkeeps pre mid post s₁ s₂ rfl hpre hmid status hterm hst
    have hst₂ : s₂.store.runStatus k = some status :=
      (hkeeps.left.append hpre).inv hst (fun _ _ _ h _ hkeep => hkeep status hterm h) hmid
    have hr₂ : run (step env rca) (init st) (pre ++ mid) = some s₂ := run_append_iff.2 ⟨s₁, hpre, hmid⟩
    exact ⟨hst₂, jobRunExists_of_runStatus (howned _ _ hr₂).wf hterm hst₂⟩

/-- The second worker loses the lock, the first one finishes, and only then the second one records its skip. -/
def staleSkip : List Label :=
  [.invoke makeMonitoredApi 60000 "w1", .invoke makeMonitoredApi 60000 "w2"] ++ undisturbed 0 2 (.error "") ++
    undisturbed 1 2 (.error "") ++ undisturbed 0 4 (.error "check failed") ++ undisturbed 1 1 (.error "")

theorem terminal_status_final_lateSkip :
    Store.RunsWf Store.empty ∧
      (TerminalIsFinal Env.default (fun _ => .ok []) (1, 60000) (init Store.empty) lateSkip ↔
        Along (step Env.default fun _ => .ok []) (fun s a _ => s.NoLateSkip (1, 60000) a) (init Store.empty) lateSkip) := by
  have hwf : Store.RunsWf Store.empty := ⟨by simp [Store.empty, Db.empty], by simp [Store.empty, Db.empty]⟩
  exact ⟨hwf, terminal_status_final_iff hwf _ _⟩

/-- The status of the slot is `DEAD_LETTERED` before the last step and `SKIPPED_LOCK_CONTENDED` after it, and
`jobRunExists` is false again. -/
theorem terminal_status_overwritten :
    ¬ TerminalIsFinal Env.default (fun _ => .ok []) (1, 60000) (init Store.empty) staleSkip := by
  intro hfinal
  obtain ⟨s₁, hpre, hst₁⟩ := Option.map_eq_some_iff.1 (show (run (step Env.default fun _ => .ok [])
    (init Store.empty) (staleSkip.take 10)).map (·.store.runStatus (1, 60000)) = some (some .deadLettered) from rfl)
  obtain ⟨s₂, hall, hst₂⟩ := Option.map_eq_some_iff.1 (show (run (step Env.default fun _ => .ok [])
    (init Store.empty) (staleSkip.take 10 ++ staleSkip.drop 10)).map (·.store.runStatus (1, 60000)) =
      some (some .skippedLockContended) from rfl)
  obtain ⟨s₁', hpre', hmid⟩ := run_append_iff.1 hall
  obtain rfl : s₁ = s₁' := Option.some.inj (hpre.symm.trans hpre')
  have hkept := (hfinal _ _ [] s₁ s₂ rfl hpre hmid .deadLettered rfl hst₁).1
  rw [hst₂] at hkept
  cases hkept

end Sys

end CronMonitor
