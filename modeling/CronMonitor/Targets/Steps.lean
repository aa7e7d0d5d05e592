import CronMonitor.Lib.Runs
import CronMonitor.Targets.Service

/-!
# What a step of a configuration call does

`Advances` lists what a statement can do to the requests and to the committed writes. `TargetPc.Known` is what a
suspended call knows: that the model it is about to write was merged from a patch and needs no approval, or that
the request it is applying was approved by somebody else than the proposer.
-/

namespace CronMonitor.Targets

open Runs

variable {env : TargetEnv} {st : TargetStore} {pc : TargetPc}

/-- The model is the payload of the patch merged with what was read. -/
def TargetPatch.Merges (env : TargetEnv) (p : TargetPatch) (model : TargetWriteModel) : Prop :=
  ∃ nonce, model = mergeUpdateModel env nonce p.existing p.existingEnvelope p.payload

/-- Approved, whatever became of the apply, by a user other than the proposer. -/
def ConfigChangeRequest.Approved (r : ConfigChangeRequest) : Prop :=
  r.status ∈ [.approved, .applied, .failed] ∧ ∃ reviewer, r.reviewedBy = some reviewer ∧ reviewer ≠ r.proposedBy

/-- The request that a call holds is a row of the table, approved. -/
def ConfigChangeRequest.InReview (requests : List ConfigChangeRequest) (reviewed : ConfigChangeRequest) : Prop :=
  ∃ r ∈ requests, r.id = reviewed.id ∧ r.kind = reviewed.kind ∧ r.payload = reviewed.payload ∧
    r.patch = reviewed.patch ∧ r.Approved

/-- A proposal carries the model merged from its patch, and a proposal to update has one. -/
def ConfigChangeRequest.Merged (env : TargetEnv) (r : ConfigChangeRequest) : Prop :=
  (∀ p, r.patch = some p → p.Merges env r.payload) ∧ (r.kind = .targetUpdate → r.patch ≠ none)

/-- The request that a call has approved and is applying or has applied. -/
def TargetPc.review : TargetPc → Option ConfigChangeRequest
  | .auditReview reviewed .approved _ _ => some reviewed
  | .applyCreate reviewed _ | .findExisting reviewed _ _ | .applyUpdate reviewed _ _ => some reviewed
  | .markApplied reviewed _ | .rereadApplied reviewed _ => some reviewed
  | .markFailed reviewed _ _ | .auditFailed reviewed _ _ => some reviewed
  | _ => none

/-- The request that a call may still write. -/
def TargetPc.applying : TargetPc → Option Uuid
  | .auditReview reviewed .approved _ _ => some reviewed.id
  | .applyCreate reviewed _ | .findExisting reviewed _ _ | .applyUpdate reviewed _ _ => some reviewed.id
  | _ => none

/-- What a call knows about the model it is about to write or to propose. -/
def TargetPc.Sound (env : TargetEnv) : TargetPc → Prop
  | .persistCreate model _ => env.authEnabled → model.isMoneyMoving = false
  | .persistUpdate _ model patch _ => patch.Merges env model ∧ (env.authEnabled → model.isMoneyMoving = false)
  | .createConfigRequest input _ => (∀ p, input.patch = some p → p.Merges env input.payload) ∧
    (input.kind = .targetUpdate → input.patch ≠ none)
  | .findExisting reviewed _ _ | .applyUpdate reviewed _ _ => reviewed.kind = .targetUpdate
  | _ => True

def TargetPc.Known (env : TargetEnv) (st : TargetStore) (pc : TargetPc) : Prop :=
  pc.Sound env ∧ ∀ reviewed, pc.review = some reviewed → reviewed.InReview st.requests

/-- The row that a proposal inserts. -/
def ConfigRequestInput.row (i : ConfigRequestInput) (id : Uuid) : ConfigChangeRequest where
  id := id
  kind := i.kind
  targetId := i.targetId
  status := .pending
  payload := i.payload
  summary := i.summary
  proposedBy := i.proposedBy
  reviewedBy := none
  reviewNote := none
  reviewedAt := none
  appliedAt := none
  error := none
  patch := i.patch

/-- A statement of a call, by what it does to the requests and the writes. -/
inductive Advances (env : TargetEnv) (st : TargetStore) : TargetPc → TargetStore → TargetPc → Prop
  | quiet {pc st' pc'} (hreqs : st'.requests = st.requests) (hwrites : st'.writes = st.writes)
      (hnext : st.nextUuid ≤ st'.nextUuid) (hsound : pc'.Sound env) (hreview : pc'.review = none)
      (happ : pc'.applying = none) : Advances env st pc st' pc'
  | proposes {input actor st' pc'} (hreqs : st'.requests = st.requests ++ [input.row st.nextUuid])
      (hwrites : st'.writes = st.writes) (hnext : st'.nextUuid = st.nextUuid + 1)
      (hpc : pc' = .auditProposed (input.row st.nextUuid) actor) :
      Advances env st (.createConfigRequest input actor) st' pc'
  | creates {model actor st' result} (hreqs : st'.requests = st.requests)
      (hwrites : st'.writes = st.writes ++ [⟨st.nextUuid, none, model, ⟨none, none⟩⟩])
      (hnext : st.nextUuid ≤ st'.nextUuid) : Advances env st (.persistCreate model actor) st' (.returned result)
  | updates {existing model patch actor row st' result} (hrow : st.findRow existing.id = some row)
      (hreqs : st'.requests = st.requests)
      (hwrites : st'.writes = st.writes ++ [⟨row.id, some row.columns, model, ⟨none, some patch⟩⟩])
      (hnext : st'.nextUuid = st.nextUuid) :
      Advances env st (.persistUpdate existing model patch actor) st' (.returned result)
  | enables {id isActive actor row st' result} (hrow : st.findRow id = some row) (hreqs : st'.requests = st.requests)
      (hwrites : st'.writes = st.writes ++
        [⟨row.id, some row.columns, { row.columns with isActive := isActive }, ⟨none, none⟩⟩])
      (hnext : st'.nextUuid = st.nextUuid) : Advances env st (.setEnabled id isActive actor) st' (.returned result)
  | reviews {id reviewer decision note actor r st'} (hfind : st.getConfigRequest id = some r)
      (hpending : r.status = .pending) (hother : r.proposedBy ≠ reviewer)
      (hst : st' = st.mapRequest id (TargetStore.reviewedRow reviewer decision.status note st.now)) :
      Advances env st (.markReviewed id reviewer decision note actor) st'
        (.auditReview (TargetStore.reviewedRow reviewer decision.status note st.now r) decision note actor)
  | continues {pc st' pc' reviewed} (hreqs : st'.requests = st.requests) (hwrites : st'.writes = st.writes)
      (hnext : st'.nextUuid = st.nextUuid) (hpc : pc.review = some reviewed) (hpc' : pc'.review = some reviewed)
      (hsound : pc.Sound env → pc'.Sound env) (happ : ∀ k, pc'.applying = some k → pc.applying = some k) :
      Advances env st pc st' pc'
  | applies {pc reviewed actor before st' targetId} (hpc : pc.applying = some reviewed.id)
      (hreview : pc.review = some reviewed)
      (hrow : before = none ∨ ∃ row existing, pc = .applyUpdate reviewed existing actor ∧
        st.findRow existing.id = some row ∧ before = some row.columns)
      (hreqs : st'.requests = st.requests)
      (hwrites : st'.writes = st.writes ++ [⟨targetId, before, reviewed.payload, ⟨some reviewed.id, reviewed.patch⟩⟩])
      (hnext : st.nextUuid ≤ st'.nextUuid) : Advances env st pc st' (.markApplied reviewed actor)
  | marks {pc reviewed st' pc' f} (hpc : pc.review = some reviewed) (hpc' : pc'.review = some reviewed)
      (happ : pc'.applying = none) (hsound : pc'.Sound env) (hst : st' = st.mapRequest reviewed.id f)
      (hf : ∀ r, (f r).id = r.id ∧ (f r).kind = r.kind ∧ (f r).payload = r.payload ∧ (f r).patch = r.patch ∧
        (f r).status ∈ [.applied, .failed] ∧ (f r).reviewedBy = r.reviewedBy ∧ (f r).proposedBy = r.proposedBy) :
      Advances env st pc st' pc'

/-! ### The inversion -/

/-- A call that throws goes on in its `catch` block with the same request, or ends. -/
theorem Advances.throws (e : TargetError) : Advances env st pc st (pc.onThrow e) := by
  cases pc with
  | applyCreate reviewed actor | findExisting reviewed targetId actor | applyUpdate reviewed existing actor
  | markApplied reviewed actor | rereadApplied reviewed actor =>
    exact .continues rfl rfl rfl rfl rfl (fun _ => trivial) fun _ h => nomatch h
  | _ => exact .quiet rfl rfl le_rfl trivial rfl rfl

theorem afterReads_sound (env : TargetEnv) (nonce : Nat) (existing : MonitoredApi) (envelope : Option CredentialEnvelope)
    (payload : UpdateTargetPayload) (actor : AuditActor) :
    (afterReads env nonce existing envelope payload actor).Sound env ∧
      (afterReads env nonce existing envelope payload actor).review = none ∧
      (afterReads env nonce existing envelope payload actor).applying = none := by
  simp only [afterReads]
  split
  · exact ⟨trivial, rfl, rfl⟩
  split
  · split
    · exact ⟨trivial, rfl, rfl⟩
    · refine ⟨⟨?_, fun _ => Option.some_ne_none _⟩, rfl, rfl⟩
      rintro _ ⟨⟩
      exact ⟨nonce, rfl⟩
  · rename_i hfour
    refine ⟨⟨⟨nonce, rfl⟩, fun hauth => ?_⟩, rfl, rfl⟩
    simp only [fourEyesRequired, hauth, Bool.and_true, Bool.or_eq_true, not_or, Bool.not_eq_true] at hfour
    exact hfour.2

theorem startCreate_sound (nonce : Nat) (payload : CreateTargetPayload) (actor : AuditActor) :
    (startCreate env nonce payload actor).Sound env ∧ (startCreate env nonce payload actor).review = none ∧
      (startCreate env nonce payload actor).applying = none := by
  simp only [startCreate]
  split
  · exact ⟨trivial, rfl, rfl⟩
  split
  · split
    · exact ⟨trivial, rfl, rfl⟩
    · exact ⟨⟨fun _ h => (nomatch h), fun h => (nomatch h)⟩, rfl, rfl⟩
  · rename_i hfour
    refine ⟨fun hauth => ?_, rfl, rfl⟩
    simpa [fourEyesRequired, hauth] using hfour

theorem afterReview_cases (env : TargetEnv) (reviewed : ConfigChangeRequest) (decision : Decision) (actor : AuditActor) :
    (afterReview reviewed decision actor).Sound env ∧
      (decision = .rejected ∧ (afterReview reviewed decision actor).review = none ∧
          (afterReview reviewed decision actor).applying = none ∨
        decision = .approved ∧ (afterReview reviewed decision actor).review = some reviewed ∧
          ∀ k, (afterReview reviewed decision actor).applying = some k → reviewed.id = k) := by
  cases decision with
  | rejected => exact ⟨trivial, .inl ⟨rfl, rfl, rfl⟩⟩
  | approved =>
    simp only [afterReview]
    split <;> rename_i h
    · cases h
    · exact ⟨trivial, .inr ⟨trivial, rfl, fun _ h => Option.some.inj h⟩⟩
    · exact ⟨‹_›, .inr ⟨trivial, rfl, fun _ h => Option.some.inj h⟩⟩
    · exact ⟨trivial, .inr ⟨trivial, rfl, fun _ h => (nomatch h)⟩⟩

theorem checkRequest_sound (env : TargetEnv) {request : ConfigChangeRequest} {decision : Decision} {note : Option String}
    {actor : AuditActor} {pc' : TargetPc} (h : checkRequest request decision note actor = .ok pc') :
    pc'.Sound env ∧ pc'.review = none ∧ pc'.applying = none := by
  simp only [checkRequest] at h
  split at h
  · cases h
  split at h
  · cases h
  split at h
  · cases h
  · cases h
    exact ⟨trivial, rfl, rfl⟩

theorem exec_cases {st' : TargetStore} {pc' : TargetPc} (hpc : pc.isDone = false) (h : exec env st pc = .ok (st', pc')) :
    Advances env st pc st' pc' := by
  cases pc with
  | createConfigRequest input actor =>
    cases h
    exact .proposes rfl rfl rfl rfl
  | auditProposed request actor =>
    cases h
    exact .quiet rfl rfl le_rfl trivial rfl rfl
  | persistCreate model actor =>
    cases h
    exact .creates rfl rfl (Nat.le_succ _)
  | findTarget id payload actor =>
    simp only [exec] at h
    split at h
    · cases h
      exact .quiet rfl rfl le_rfl trivial rfl rfl
    · cases h
  | findEnvelope existing payload actor =>
    cases h
    obtain ⟨hsound, hreview, happ⟩ := afterReads_sound env st.nextUuid existing
      (st.findTargetCredentialEnvelope existing.id) payload actor
    exact .quiet rfl rfl (Nat.le_succ _) hsound hreview happ
  | persistUpdate existing model patch actor =>
    simp only [exec, persistTargetUpdate, TargetStore.updateTarget] at h
    cases hrow : st.findRow existing.id with
    | none =>
      rw [hrow] at h
      cases h
    | some row =>
      rw [hrow] at h
      cases h
      exact .updates hrow rfl rfl rfl
  | setEnabled id isActive actor =>
    simp only [exec, setTargetEnabled, TargetStore.setTargetActive] at h
    cases hrow : st.findRow id with
    | none =>
      rw [hrow] at h
      cases h
    | some row =>
      rw [hrow] at h
      cases h
      exact .enables hrow rfl rfl rfl
  | getRequest id decision note actor =>
    simp only [exec] at h
    split at h
    · rename_i request hreq
      cases hc : checkRequest request decision note actor with
      | error e =>
        rw [hc] at h
        cases h
      | ok pc₁ =>
        rw [hc] at h
        cases h
        obtain ⟨hsound, hreview, happ⟩ := checkRequest_sound env hc
        exact .quiet rfl rfl le_rfl hsound hreview happ
    · cases h
  | markReviewed id reviewer decision note actor =>
    simp only [exec, TargetStore.markReviewed] at h
    cases hfind : st.getConfigRequest id with
    | none => simp [hfind] at h
    | some r =>
      by_cases hpending : r.status = .pending
      · by_cases hother : r.proposedBy = reviewer
        · simp [hfind, hpending, hother] at h
        · simp only [hfind, hpending, hother, ne_eq, not_true_eq_false, if_false, Except.ok.injEq, Prod.mk.injEq] at h
          obtain ⟨rfl, rfl⟩ := h
          exact .reviews hfind hpending hother rfl
      · simp [hfind, hpending] at h
  | auditReview reviewed decision note actor =>
    cases h
    obtain ⟨hsound, ⟨rfl, hreview, happ⟩ | ⟨rfl, hreview, happ⟩⟩ := afterReview_cases env reviewed decision actor
    · exact .quiet rfl rfl le_rfl hsound hreview happ
    · exact .continues rfl rfl rfl rfl hreview (fun _ => hsound) fun k hk => congrArg some (happ k hk)
  | applyCreate reviewed actor =>
    cases h
    exact .applies rfl rfl (.inl rfl) rfl rfl (Nat.le_succ _)
  | findExisting reviewed targetId actor =>
    simp only [exec] at h
    split at h
    · cases h
      exact .continues rfl rfl rfl rfl rfl (fun h => h) fun _ h => h
    · cases h
  | applyUpdate reviewed existing actor =>
    simp only [exec, persistTargetUpdate, TargetStore.updateTarget] at h
    cases hrow : st.findRow existing.id with
    | none =>
      rw [hrow] at h
      cases h
    | some row =>
      rw [hrow] at h
      cases h
      exact .applies rfl rfl (.inr ⟨row, existing, rfl, hrow, rfl⟩) rfl rfl le_rfl
  | markApplied reviewed actor =>
    cases h
    exact .marks rfl rfl rfl trivial rfl fun r => ⟨rfl, rfl, rfl, rfl, by simp, rfl, rfl⟩
  | rereadApplied reviewed actor =>
    cases h
    exact .quiet rfl rfl le_rfl trivial rfl rfl
  | markFailed reviewed message actor =>
    cases h
    exact .marks rfl rfl rfl trivial rfl fun r => ⟨rfl, rfl, rfl, rfl, by simp, rfl, rfl⟩
  | auditFailed reviewed message actor =>
    cases h
    exact .quiet rfl rfl le_rfl trivial rfl rfl
  | rereadFailed id =>
    cases h
    exact .quiet rfl rfl le_rfl trivial rfl rfl
  | returned result => cases hpc
  | thrown error => cases hpc

theorem advance_cases (hpc : pc.isDone = false) :
    Advances env st pc (advance env st pc).1 (advance env st pc).2 := by
  simp only [advance]
  split
  · rename_i next h
    exact exec_cases hpc h
  · exact .throws _

/-! ### Writes -/

/-- The write that the statement of a call is about to commit. -/
def TargetPc.write (st : TargetStore) : TargetPc → Option TargetWrite
  | .persistCreate model _ => some ⟨st.nextUuid, none, model, ⟨none, none⟩⟩
  | .persistUpdate existing model patch _ =>
    (st.findRow existing.id).map fun row => ⟨row.id, some row.columns, model, ⟨none, some patch⟩⟩
  | .setEnabled id isActive _ =>
    (st.findRow id).map fun row => ⟨row.id, some row.columns, { row.columns with isActive := isActive }, ⟨none, none⟩⟩
  | .applyCreate reviewed _ => some ⟨st.nextUuid, none, reviewed.payload, ⟨some reviewed.id, reviewed.patch⟩⟩
  | .applyUpdate reviewed existing _ => (st.findRow existing.id).map fun row =>
    ⟨row.id, some row.columns, reviewed.payload, ⟨some reviewed.id, reviewed.patch⟩⟩
  | _ => none

/-- The write that a step is about to commit. -/
def TargetSys.write (s : TargetSys) : TargetLabel → Option TargetWrite
  | .advance i => s.calls[i]?.bind (·.write s.store)
  | _ => none

theorem advance_writes (pc : TargetPc) : (advance env st pc).1.writes = st.writes ++ (pc.write st).toList := by
  cases pc with
  | persistUpdate existing model patch actor =>
    simp only [advance, exec, persistTargetUpdate, TargetStore.updateTarget, TargetPc.write]
    cases st.findRow existing.id <;> simp [TargetStore.writeRow, TargetStore.recordAudit, bind, Except.bind, pure, Except.pure]
  | setEnabled id isActive actor =>
    simp only [advance, exec, setTargetEnabled, TargetStore.setTargetActive, TargetPc.write]
    cases st.findRow id <;> simp [TargetStore.writeRow, TargetStore.recordAudit, bind, Except.bind, pure, Except.pure]
  | applyUpdate reviewed existing actor =>
    simp only [advance, exec, persistTargetUpdate, TargetStore.updateTarget, TargetPc.write]
    cases st.findRow existing.id <;> simp [TargetStore.writeRow, TargetStore.recordAudit, bind, Except.bind, pure, Except.pure]
  | persistCreate | applyCreate => rfl
  | findTarget id payload actor =>
    simp only [advance, exec, TargetPc.write]
    cases st.findTargetById id <;> simp
  | findExisting reviewed targetId actor =>
    simp only [advance, exec, TargetPc.write]
    cases st.findTargetById targetId <;> simp
  | getRequest id decision note actor =>
    simp only [advance, exec, TargetPc.write]
    cases st.getConfigRequest id with
    | none => simp
    | some request =>
      cases hc : checkRequest request decision note actor <;> simp [hc, bind, Except.bind, pure, Except.pure]
  | markReviewed id reviewer decision note actor =>
    simp only [advance, exec, TargetStore.markReviewed, TargetPc.write]
    cases st.getConfigRequest id with
    | none => simp
    | some r =>
      simp only []
      split_ifs <;> simp [TargetStore.mapRequest]
  | _ => simp [advance, exec, TargetPc.write, TargetStore.createConfigRequest, TargetStore.recordAudit,
      TargetStore.markApplied, TargetStore.markFailed, TargetStore.mapRequest]

/-- A step commits the write it is about to commit, and no other. -/
theorem TargetSys.step_writes {s s' : TargetSys} {l : TargetLabel} (h : step env s l = some s') :
    s'.store.writes = s.store.writes ++ (s.write l).toList := by
  cases l with
  | advance i =>
    simp only [step] at h
    split at h
    · rename_i pc hpc
      split at h
      · cases h
      · cases h
        rw [TargetSys.write, hpc]
        exact advance_writes pc
    · cases h
  | fail i message =>
    simp only [step] at h
    split at h
    · split at h
      · cases h
      · cases h
        exact (List.append_nil _).symm
    · cases h
  | request | elapse =>
    cases h
    exact (List.append_nil _).symm

end CronMonitor.Targets
