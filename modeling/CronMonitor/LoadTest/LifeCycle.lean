import CronMonitor.LoadTest.Runs

/-!
# The life cycle of a run

Whatever the clients do, no run is claimed twice and none that was aborted while QUEUED is claimed at all (`Ok`). That a
run's status only advances and that a finished run stays as it is (`Legal`) is kept by every statement that looks at the
status; `markRunning` and `finishRun` do not, and write over a run that another worker has meanwhile recovered as stale.
-/

namespace CronMonitor.LoadTest
open Runs

/-- A status stays, or takes one of its moves. -/
def LoadRunStatus.MovesTo : LoadRunStatus → LoadRunStatus → Prop
  | .queued, b => b = .queued ∨ b = .preflight ∨ b = .aborted
  | .preflight, b => b = .preflight ∨ b = .running ∨ b.isFinal
  | .running, b => b = .running ∨ b.isFinal
  | a, b => b = a

theorem LoadRunStatus.MovesTo.refl (a : LoadRunStatus) : a.MovesTo a := by
  cases a <;> simp [MovesTo]

variable {D O : Type}

structure RunRow.Legal (r r' : RunRow D O) : Prop where
  moves : r.status.MovesTo r'.status
  final : r.status.isFinal → r'.outcome = r.outcome ∧ r'.finishedAt = r.finishedAt

theorem RunRow.Legal.refl (r : RunRow D O) : r.Legal r := ⟨.refl _, fun _ => ⟨rfl, rfl⟩⟩

/-- What is under way may advance in any way its status allows. -/
theorem RunRow.Legal.of_open {r r' : RunRow D O} (h : r.status.isFinal = false) (hm : r.status.MovesTo r'.status) :
    r.Legal r' :=
  ⟨hm, fun hf => absurd hf (by simp [h])⟩

namespace RunTable

/-- Every row of `t` is still there and has changed legally, and what is new is QUEUED. -/
structure Legal (t t' : RunTable D O) : Prop where
  kept : ∀ id r, t.find id = some r → ∃ r', t'.find id = some r' ∧ r.Legal r'
  added : ∀ id r', t.find id = none → t'.find id = some r' → r'.status = .queued

theorem Legal.refl (t : RunTable D O) : t.Legal t :=
  ⟨fun _ r hr => ⟨r, hr, .refl r⟩, fun id r' hnone hsome => by rw [hnone] at hsome; cases hsome⟩

structure Ok (next : Uuid) (t : RunTable D O) : Prop where
  nodup : (t.rows.map (·.id)).Nodup
  fresh : ∀ r ∈ t.rows, r.id < next
  claimed_known : ∀ id ∈ t.claimed, id < next
  aborted_known : ∀ id ∈ t.aborted, id < next
  claimed_once : t.claimed.Nodup
  claimed_left : ∀ r ∈ t.rows, r.id ∈ t.claimed → r.status ≠ .queued
  aborted_left : ∀ r ∈ t.rows, r.id ∈ t.aborted → r.status ≠ .queued
  never_claimed : ∀ id ∈ t.aborted, id ∉ t.claimed

variable {t t' : RunTable D O} {next : Uuid} {p : RunRow D O → Bool} {f : RunRow D O → RunRow D O}

theorem find_mem {id : Uuid} {r : RunRow D O} (h : t.find id = some r) : r ∈ t.rows ∧ r.id = id :=
  ⟨List.mem_of_find?_eq_some h, by simpa using List.find?_some h⟩

theorem Ok.eq_of_id (h : Ok next t) {r r' : RunRow D O} (hr : r ∈ t.rows) (hr' : r' ∈ t.rows) (hid : r.id = r'.id) :
    r = r' :=
  List.inj_on_of_nodup_map h.nodup hr hr' hid

/-! ### An `UPDATE` -/

theorem ids_update (hf : ∀ r, (f r).id = r.id) : (t.update p f).rows.map (·.id) = t.rows.map (·.id) := by
  simp only [update, List.map_map]
  refine List.map_congr_left fun r _ => ?_
  simp only [Function.comp_apply]
  split
  · exact hf r
  · rfl

theorem mem_update {r' : RunRow D O} (h : r' ∈ (t.update p f).rows) :
    ∃ r ∈ t.rows, p r ∧ r' = f r ∨ p r = false ∧ r' = r := by
  obtain ⟨r, hr, rfl⟩ := List.mem_map.1 h
  cases hp : p r with
  | true => exact ⟨r, hr, .inl ⟨hp, by simp⟩⟩
  | false => exact ⟨r, hr, .inr ⟨hp, by simp⟩⟩

theorem find_update (hf : ∀ r, (f r).id = r.id) (id : Uuid) :
    (t.update p f).find id = (t.find id).map fun r => if p r then f r else r := by
  refine List.find?_map_of_key (fun r => ?_) t.rows id
  split
  · exact hf r
  · rfl

theorem Legal.of_rows (ht : t'.rows = (t.update p f).rows) (hf : ∀ r, (f r).id = r.id)
    (h : ∀ r ∈ t.rows, p r → r.Legal (f r)) : t.Legal t' := by
  have hfind : ∀ id, t'.find id = (t.find id).map fun r => if p r then f r else r := by
    intro id
    rw [← find_update hf, find, ht, find]
  refine ⟨fun id r hr => ?_, fun id r' hnone hsome => ?_⟩
  · rw [hfind, hr]
    refine ⟨_, rfl, ?_⟩
    cases hp : p r with
    | true => simpa [hp] using h r (find_mem hr).1 hp
    | false => simpa [hp] using RunRow.Legal.refl r
  · rw [hfind, hnone] at hsome
    cases hsome

theorem Legal.update (hf : ∀ r, (f r).id = r.id) (h : ∀ r ∈ t.rows, p r → r.Legal (f r)) : t.Legal (t.update p f) :=
  .of_rows rfl hf h

theorem Ok.update (h : Ok next t) (hf : ∀ r, (f r).id = r.id)
    (hq : ∀ r ∈ t.rows, p r → (f r).status = .queued → r.status = .queued) : Ok next (t.update p f) where
  nodup := by rw [ids_update hf]; exact h.nodup
  fresh r' hr' := by
    obtain ⟨r, hr, ⟨-, rfl⟩ | ⟨-, rfl⟩⟩ := mem_update hr'
    · rw [hf]
      exact h.fresh r hr
    · exact h.fresh _ hr
  claimed_known := h.claimed_known
  aborted_known := h.aborted_known
  claimed_once := h.claimed_once
  claimed_left r' hr' hid hst := by
    obtain ⟨r, hr, ⟨hp, rfl⟩ | ⟨-, rfl⟩⟩ := mem_update hr'
    · exact h.claimed_left r hr (hf r ▸ hid) (hq r hr hp hst)
    · exact h.claimed_left _ hr hid hst
  aborted_left r' hr' hid hst := by
    obtain ⟨r, hr, ⟨hp, rfl⟩ | ⟨-, rfl⟩⟩ := mem_update hr'
    · exact h.aborted_left r hr (hf r ▸ hid) (hq r hr hp hst)
    · exact h.aborted_left _ hr hid hst
  never_claimed := h.never_claimed

/-! ### The statements of a table -/

theorem Ok.mono (h : Ok next t) {next' : Uuid} (hle : next ≤ next') : Ok next' t :=
  { h with
    fresh := fun r hr => Nat.lt_of_lt_of_le (h.fresh r hr) hle
    claimed_known := fun id hid => Nat.lt_of_lt_of_le (h.claimed_known id hid) hle
    aborted_known := fun id hid => Nat.lt_of_lt_of_le (h.aborted_known id hid) hle }

theorem Ok.insert (h : Ok next t) (data : D) (outcome : O) (now : Time) :
    Ok (next + 1) (t.insert next data outcome now) := by
  have hold := h.mono (Nat.le_succ next)
  refine { hold with nodup := ?_, fresh := ?_, claimed_left := ?_, aborted_left := ?_ }
  · simp only [RunTable.insert, List.map_append, List.map_cons, List.map_nil]
    refine List.nodup_append.2 ⟨h.nodup, List.nodup_singleton _, fun a ha b hb hab => ?_⟩
    obtain ⟨r, hr, rfl⟩ := List.mem_map.1 ha
    exact (h.fresh r hr).ne (hab.trans (List.mem_singleton.1 hb))
  · exact List.forall_mem_append.2 ⟨hold.fresh, List.forall_mem_singleton.2 (Nat.lt_succ_self next)⟩
  · exact List.forall_mem_append.2 ⟨h.claimed_left, List.forall_mem_singleton.2 fun hid =>
      absurd (h.claimed_known _ hid) (Nat.lt_irrefl next)⟩
  · exact List.forall_mem_append.2 ⟨h.aborted_left, List.forall_mem_singleton.2 fun hid =>
      absurd (h.aborted_known _ hid) (Nat.lt_irrefl next)⟩

theorem insert_legal (t : RunTable D O) (id : Uuid) (data : D) (outcome : O) (now : Time) :
    t.Legal (t.insert id data outcome now) := by
  refine ⟨fun k r hr => ⟨r, ?_, .refl r⟩, fun k r' hnone hsome => ?_⟩
  · simp only [RunTable.insert, find, List.find?_append]
    rw [show t.rows.find? (·.id = k) = some r from hr]
    rfl
  · simp only [RunTable.insert, find, List.find?_append] at hsome
    rw [show t.rows.find? (·.id = k) = none from hnone, Option.none_or] at hsome
    obtain rfl := List.mem_singleton.1 (List.mem_of_find?_eq_some hsome)
    rfl

theorem nextQueued_some {locked : List Uuid} {r : RunRow D O} (h : t.nextQueued locked = some r) :
    r ∈ t.rows ∧ r.status = .queued := by
  have hmem := List.mem_of_find?_eq_some h
  simp only [List.mem_filter, Bool.and_eq_true, decide_eq_true_eq] at hmem
  exact ⟨hmem.1, hmem.2.1⟩

theorem Ok.claimNext (h : Ok next t) (workerId : String) (locked : List Uuid) (now : Time) :
    Ok next (t.claimNext workerId locked now) ∧ t.Legal (t.claimNext workerId locked now) := by
  unfold RunTable.claimNext
  cases hq : t.nextQueued locked with
  | none => exact ⟨h, .refl t⟩
  | some r₀ =>
    obtain ⟨hmem, hst⟩ := nextQueued_some hq
    have hnew : r₀.id ∉ t.claimed := fun hid => h.claimed_left r₀ hmem hid hst
    have hnot : r₀.id ∉ t.aborted := fun hid => h.aborted_left r₀ hmem hid hst
    have hup := h.update (p := (·.id = r₀.id)) (f := fun r =>
      { r with status := .preflight, workerId := some workerId, heartbeatAt := some now })
      (fun _ => rfl) fun _ _ _ hpre => nomatch hpre
    refine ⟨{ hup with claimed_known := ?_, claimed_once := ?_, claimed_left := ?_, never_claimed := ?_ }, ?_⟩
    · exact List.forall_mem_append.2 ⟨h.claimed_known, List.forall_mem_singleton.2 (h.fresh r₀ hmem)⟩
    · exact List.nodup_append.2 ⟨h.claimed_once, List.nodup_singleton _, fun a ha b hb hab =>
        hnew (List.mem_singleton.1 hb ▸ hab ▸ ha)⟩
    · intro r' hr' hid hpre
      obtain ⟨r, hr, ⟨-, rfl⟩ | ⟨hne, rfl⟩⟩ := mem_update hr'
      · cases hpre
      · rcases List.mem_append.1 hid with hid | hid
        · exact h.claimed_left _ hr hid hpre
        · exact of_decide_eq_false hne (List.mem_singleton.1 hid)
    · intro id hid hcl
      rcases List.mem_append.1 hcl with hcl | hcl
      · exact h.never_claimed id hid hcl
      · exact hnot (List.mem_singleton.1 hcl ▸ hid)
    · refine Legal.of_rows (p := (·.id = r₀.id)) (f := fun r =>
        { r with status := .preflight, workerId := some workerId, heartbeatAt := some now })
        rfl (fun _ => rfl) fun r hr hp => ?_
      obtain rfl := h.eq_of_id hr hmem (of_decide_eq_true hp)
      exact .of_open (by rw [hst]; rfl) (by rw [hst]; exact .inr (.inl rfl))

theorem Ok.heartbeat (h : Ok next t) (id : Uuid) (now : Time) :
    Ok next (t.heartbeat id now) ∧ t.Legal (t.heartbeat id now) :=
  ⟨h.update (fun _ => rfl) fun _ _ _ hq => hq,
    Legal.update (fun _ => rfl) fun _ _ _ => ⟨.refl _, fun _ => ⟨rfl, rfl⟩⟩⟩

theorem Ok.markRunning (h : Ok next t) (id : Uuid) (set : D → D) (now : Time) : Ok next (t.markRunning id set now) :=
  h.update (fun _ => rfl) fun _ _ _ hq => nomatch hq

theorem Ok.finish (h : Ok next t) (id : Uuid) (status : FinalStatus) (outcome : O) (now : Time) :
    Ok next (t.finish id status outcome now) := by
  refine h.update (fun _ => rfl) fun _ _ _ hq => ?_
  have hfinal := status.2
  rw [show status.1 = .queued from hq] at hfinal
  cases hfinal

theorem Ok.recoverStale (h : Ok next t) (secs : Nat) (set : O → O) (now : Time) :
    Ok next (t.recoverStale secs set now) ∧ t.Legal (t.recoverStale secs set now) := by
  refine ⟨h.update (fun _ => rfl) fun _ _ _ hq => (nomatch hq), Legal.update (fun _ => rfl) fun r _ hp => ?_⟩
  simp only [isStale, Bool.and_eq_true, Bool.or_eq_true, decide_eq_true_eq] at hp
  rcases hp.1 with hs | hs
  · exact .of_open (by rw [hs]; rfl) (by rw [hs]; exact .inr (.inr rfl))
  · exact .of_open (by rw [hs]; rfl) (by rw [hs]; exact .inr rfl)

theorem Ok.requestAbort (h : Ok next t) (id : Uuid) (set : D → D) (close : O → O) (now : Time) :
    Ok next (t.requestAbort id set close now) ∧ t.Legal (t.requestAbort id set close now) := by
  have hf : ∀ r : RunRow D O, (if r.status = LoadRunStatus.queued then
      { r with data := set r.data, status := .aborted, outcome := close r.outcome, finishedAt := some now }
      else { r with data := set r.data }).id = r.id := by
    intro r
    split <;> rfl
  have hup := h.update (p := fun r => r.id = id && !r.status.isFinal) hf fun r _ _ hq => by
    by_contra hs
    rw [if_neg hs] at hq
    exact hs hq
  have hqueued : ∀ k ∈ (t.rows.filter fun r => r.id = id && r.status = .queued).map (·.id),
      k = id ∧ ∃ r ∈ t.rows, r.id = k ∧ r.status = .queued := by
    intro k hk
    obtain ⟨r, hr, rfl⟩ := List.mem_map.1 hk
    simp only [List.mem_filter, Bool.and_eq_true, decide_eq_true_eq] at hr
    exact ⟨hr.2.1, r, hr.1, rfl, hr.2.2⟩
  refine ⟨{ hup with aborted_known := ?_, aborted_left := ?_, never_claimed := ?_ }, Legal.of_rows rfl hf ?_⟩
  · intro k hk
    rcases List.mem_append.1 hk with hk | hk
    · exact h.aborted_known k hk
    · obtain ⟨-, r, hr, rfl, -⟩ := hqueued k hk
      exact h.fresh r hr
  · intro r' hr' hk hst
    rcases List.mem_append.1 hk with hk | hk
    · exact hup.aborted_left r' hr' hk hst
    · obtain ⟨hid, -⟩ := hqueued _ hk
      obtain ⟨r, hr, ⟨hp, rfl⟩ | ⟨hp, rfl⟩⟩ := mem_update hr'
      · split at hst
        · cases hst
        · exact absurd hst ‹_›
      · simp [hid, hst, LoadRunStatus.isFinal] at hp
  · intro k hk hcl
    rcases List.mem_append.1 hk with hk | hk
    · exact h.never_claimed k hk hcl
    · obtain ⟨-, r, hr, rfl, hs⟩ := hqueued k hk
      exact h.claimed_left r hr hcl hs
  · intro r _ hp
    simp only [Bool.and_eq_true, Bool.not_eq_true'] at hp
    refine .of_open hp.2 ?_
    split
    · rename_i hs
      rw [hs]
      exact .inr (.inr rfl)
    · exact .refl _

/-- What the worker of a run finds it in, unless it has been finished for it. -/
theorem Ok.under_way (h : Ok next t) {id : Uuid} (hid : id ∈ t.claimed) (hopen : ∀ r ∈ t.find id, r.status.isFinal = false)
    {r : RunRow D O} (hr : r ∈ t.rows) (hrid : r.id = id) : r.status = .preflight ∨ r.status = .running := by
  subst hrid
  have hleft := h.claimed_left r hr hid
  have hfound : t.find r.id = some r := by
    cases hf : t.find r.id with
    | none => exact absurd (List.find?_eq_none.1 hf r hr) (by simp)
    | some r' => rw [h.eq_of_id hr (find_mem hf).1 (find_mem hf).2.symm]
  have hfinal := hopen r hfound
  cases hs : r.status with
  | queued => exact absurd hs hleft
  | preflight => exact .inl rfl
  | running => exact .inr rfl
  | completed | aborted | failed => rw [hs] at hfinal; cases hfinal

section Worker

variable {id : Uuid} (h : Ok next t) (hid : id ∈ t.claimed) (hopen : ∀ r ∈ t.find id, r.status.isFinal = false)
include h hid hopen

theorem markRunning_legal (set : D → D) (now : Time) : t.Legal (t.markRunning id set now) := by
  refine Legal.update (fun _ => rfl) fun r hr hp => ?_
  rcases h.under_way hid hopen hr (of_decide_eq_true hp) with hs | hs
  · exact .of_open (by rw [hs]; rfl) (by rw [hs]; exact .inr (.inl rfl))
  · exact .of_open (by rw [hs]; rfl) (by rw [hs]; exact .inl rfl)

theorem finish_legal (status : FinalStatus) (outcome : O) (now : Time) : t.Legal (t.finish id status outcome now) := by
  refine Legal.update (fun _ => rfl) fun r hr hp => ?_
  rcases h.under_way hid hopen hr (of_decide_eq_true hp) with hs | hs
  · exact .of_open (by rw [hs]; rfl) (by rw [hs]; exact .inr (.inr status.2))
  · exact .of_open (by rw [hs]; rfl) (by rw [hs]; exact .inr status.2)

end Worker

end RunTable

/-! ### Runs -/

namespace RunStore

/-- No worker marks or finishes a run that has already been finished. -/
def OnActive (s : RunStore) (l : Nat × Statement) : Prop :=
  match l.2 with
  | .markRunning id _ _ | .finishRun id _ _ _ _ => ∀ r ∈ s.runs.find id, r.status.isFinal = false
  | .markCorrectnessRunning id _ | .finishCorrectnessRun id _ _ _ _ => ∀ r ∈ s.suites.find id, r.status.isFinal = false
  | _ => True

instance (s : RunStore) (l : Nat × Statement) : Decidable (s.OnActive l) := by
  unfold OnActive
  split <;> infer_instance

def Legal (s s' : RunStore) : Prop := s.runs.Legal s'.runs ∧ s.suites.Legal s'.suites

structure Ok (s : RunStore) : Prop where
  runs : s.runs.Ok s.nextUuid
  suites : s.suites.Ok s.nextUuid

variable {s s' : RunStore} {l : Nat × Statement} {tr : List (Nat × Statement)}

theorem Ok.of_tables {runs : LoadRuns} {suites : CorrectnessRuns} {next : Uuid} {now : Time} (hr : runs.Ok next)
    (hc : suites.Ok next) : Ok ⟨runs, suites, next, now⟩ :=
  ⟨hr, hc⟩

theorem Ok.init : Ok init := by
  constructor <;> constructor <;> simp [RunStore.init]

theorem Ok.step (h : Ok s) (hs : step s l = some s') : Ok s' ∧ (s.OnActive l → s.Legal s') := by
  obtain ⟨elapsed, stmt⟩ := l
  obtain ⟨hen, hexec⟩ := Option.ite_none_right_eq_some.1 hs
  cases hexec
  obtain ⟨hr, hc⟩ := h
  cases stmt with
  | createRun planId apiId snapshot cls requestedBy =>
    exact ⟨⟨hr.insert _ _ _, hc.mono (Nat.le_succ _)⟩, fun _ => ⟨RunTable.insert_legal .., .refl _⟩⟩
  | claimNextRun workerId locked =>
    exact ⟨⟨(hr.claimNext ..).1, hc⟩, fun _ => ⟨(hr.claimNext ..).2, .refl _⟩⟩
  | markRunning id version window =>
    simp only [exec, LoadRuns.markRunning, RunStore.Legal]
    exact ⟨.of_tables (hr.markRunning ..) hc, fun ho => ⟨RunTable.markRunning_legal hr (of_decide_eq_true hen) ho _ _, .refl _⟩⟩
  | heartbeat id =>
    exact ⟨⟨(hr.heartbeat ..).1, hc⟩, fun _ => ⟨(hr.heartbeat ..).2, .refl _⟩⟩
  | finishRun id status reason summary error =>
    exact ⟨⟨hr.finish .., hc⟩, fun ho => ⟨RunTable.finish_legal hr (of_decide_eq_true hen) ho _ _ _, .refl _⟩⟩
  | requestAbort id reason =>
    simp only [exec, LoadRuns.requestAbort, RunStore.Legal]
    exact ⟨.of_tables (hr.requestAbort ..).1 hc, fun _ => ⟨(hr.requestAbort ..).2, .refl _⟩⟩
  | recoverStaleRuns secs =>
    simp only [exec, LoadRuns.recoverStaleRuns, RunStore.Legal]
    exact ⟨.of_tables (hr.recoverStale ..).1 hc, fun _ => ⟨(hr.recoverStale ..).2, .refl _⟩⟩
  | createCorrectnessRun apiId checks cls requestedBy suite =>
    exact ⟨⟨hr.mono (Nat.le_succ _), hc.insert _ _ _⟩, fun _ => ⟨.refl _, RunTable.insert_legal ..⟩⟩
  | claimNextCorrectnessRun workerId locked =>
    exact ⟨⟨hr, (hc.claimNext ..).1⟩, fun _ => ⟨.refl _, (hc.claimNext ..).2⟩⟩
  | markCorrectnessRunning id mode =>
    simp only [exec, CorrectnessRuns.markCorrectnessRunning, RunStore.Legal]
    exact ⟨.of_tables hr (hc.markRunning ..), fun ho => ⟨.refl _, RunTable.markRunning_legal hc (of_decide_eq_true hen) ho _ _⟩⟩
  | correctnessHeartbeat id =>
    exact ⟨⟨hr, (hc.heartbeat ..).1⟩, fun _ => ⟨.refl _, (hc.heartbeat ..).2⟩⟩
  | finishCorrectnessRun id status results summary error =>
    exact ⟨⟨hr, hc.finish ..⟩, fun ho => ⟨.refl _, RunTable.finish_legal hc (of_decide_eq_true hen) ho _ _ _⟩⟩
  | recoverStaleCorrectnessRuns secs =>
    simp only [exec, CorrectnessRuns.recoverStaleCorrectnessRuns, RunStore.Legal]
    exact ⟨.of_tables hr (hc.recoverStale ..).1, fun _ => ⟨.refl _, (hc.recoverStale ..).2⟩⟩

/-- However the statements interleave, no run is claimed twice and none that was aborted while QUEUED is claimed. Its
status only advances, and a finished run stays as it is, as long as no worker marks or finishes one that is finished. -/
theorem run_life_cycle (hr : run step init tr = some s) :
    s.runs.claimed.Nodup ∧ s.suites.claimed.Nodup ∧ (∀ id ∈ s.runs.aborted, id ∉ s.runs.claimed) ∧
      (Along step (fun s l _ => s.OnActive l) init tr → Along step (fun s _ s' => s.Legal s') init tr) := by
  have hok : Ok s := inv_run Ok.init (fun _ _ _ h hs => (h.step hs).1) hr
  refine ⟨hok.runs.claimed_once, hok.suites.claimed_once, hok.runs.never_claimed, fun hactive => ?_⟩
  exact hactive.under_inv Ok.init fun s l s' h hs ho => ⟨(h.step hs).1, (h.step hs).2 ho⟩

def smokeSnapshot : PlanSnapshot where
  config := .smallest
  target := ⟨"api", "https://api.test/", false, .sandbox⟩
  peakRps := 1

/-- A worker claims a run and starts it. -/
def startedRun : List (Nat × Statement) :=
  [(0, .createRun 7 8 smokeSnapshot (some .sandbox) none), (1000, .claimNextRun "w1" []), (500, .markRunning 0 "k6" none)]

theorem run_life_cycle_started : ∃ s, run step init startedRun = some s ∧ s.runs.claimed = [0] ∧
    Along step (fun s _ s' => s.Legal s') init startedRun := by
  obtain ⟨s, hr, hs⟩ := Option.map_eq_some_iff.1
    (show (run step init startedRun).map (·.runs.claimed) = some [0] by decide +kernel)
  exact ⟨s, hr, hs, (run_life_cycle hr).2.2.2 (by decide +kernel)⟩

/-- The worker is slow, a second one recovers the run as stale, and then the first one finishes it. -/
theorem recovered_run_finished : ∃ s s', run step init (startedRun ++ [(61000, .recoverStaleRuns 60)]) = some s ∧
    step s (100, .finishRun 0 ⟨.completed, rfl⟩ "completed" none none) = some s' ∧
    (s.runs.find 0).map (·.status) = some .failed ∧ (s'.runs.find 0).map (·.status) = some .completed ∧
    ¬ s.Legal s' := by
  have hrun : (run step init (startedRun ++ [(61000, .recoverStaleRuns 60)])).bind (fun s =>
      (step s (100, .finishRun 0 ⟨.completed, rfl⟩ "completed" none none)).map fun s' =>
        ((s.runs.find 0).map (·.status), (s'.runs.find 0).map (·.status))) =
      some (some .failed, some .completed) := by decide +kernel
  obtain ⟨s, hr, hs⟩ := Option.bind_eq_some_iff.1 hrun
  obtain ⟨s', hs', heq⟩ := Option.map_eq_some_iff.1 hs
  obtain ⟨hfailed, hcompleted⟩ := Prod.mk.inj heq
  refine ⟨s, s', hr, hs', hfailed, hcompleted, fun hlegal => ?_⟩
  obtain ⟨r, hfind, hstatus⟩ := Option.map_eq_some_iff.1 hfailed
  obtain ⟨r', hfind', hmoves, -⟩ := hlegal.1.kept 0 r hfind
  rw [hfind', Option.map_some, Option.some_inj] at hcompleted
  rw [hstatus, hcompleted] at hmoves
  cases hmoves

end RunStore
end CronMonitor.LoadTest
