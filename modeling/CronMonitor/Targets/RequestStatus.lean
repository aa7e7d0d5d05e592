import CronMonitor.Lib.Rows
import CronMonitor.Targets.Requests

/-!
# What the status of a change request tells

The review, its audit entry, the apply and the mark are commits of their own, and the `try` block spans the last
two. `Stage` says how far a call has come with its request by the statement it is suspended at; `OnTrack` says that
the status the call will leave behind is going to be true.
-/

namespace CronMonitor.Targets

open Runs

variable {env : TargetEnv} {st : TargetStore} {pc : TargetPc} {k : Uuid}

namespace TargetStore

def statusOf (k : Uuid) (st : TargetStore) : Option ConfigRequestStatus := (st.getConfigRequest k).map (·.status)

/-- The change of the request is in `monitored_apis`. -/
def Committed (k : Uuid) (st : TargetStore) : Prop := ∃ w ∈ st.writes, w.origin.request = some k

/-- The status of the request is the outcome of its apply. -/
def TellsTruth (st : TargetStore) (k : Uuid) : Prop :=
  ∀ status, st.statusOf k = some status → (status = .applied ↔ st.Committed k) ∧
    (status = .failed → ¬ st.Committed k) ∧ status ≠ .approved

theorem getConfigRequest_mapRequest {id : Uuid} {f : ConfigChangeRequest → ConfigChangeRequest}
    (hf : ∀ r, (f r).id = r.id) : (st.mapRequest id f).getConfigRequest k =
      (st.getConfigRequest k).map fun r => if r.id = id then f r else r :=
  @List.find?_map_of_key _ _ _ (fun r : ConfigChangeRequest => r.id) _ (fun r => by split <;> simp [hf]) _ k

theorem statusOf_mapRequest {f : ConfigChangeRequest → ConfigChangeRequest} {status status' : ConfigRequestStatus}
    (hf : ∀ r, (f r).id = r.id ∧ (f r).status = status') (h : st.statusOf k = some status) :
    (st.mapRequest k f).statusOf k = some status' := by
  obtain ⟨r, hr, rfl⟩ := Option.map_eq_some_iff.1 h
  rw [statusOf, getConfigRequest_mapRequest fun r => (hf r).1, hr]
  simp [(getConfigRequest_some hr).2, (hf r).2]

theorem statusOf_mapRequest_ne {id : Uuid} {f : ConfigChangeRequest → ConfigChangeRequest}
    (hf : ∀ r, (f r).id = r.id) (hne : id ≠ k) : (st.mapRequest id f).statusOf k = st.statusOf k := by
  rw [statusOf, statusOf, getConfigRequest_mapRequest hf]
  cases hr : st.getConfigRequest k with
  | none => rfl
  | some r => simp [(getConfigRequest_some hr).2, hne.symm]

theorem tellsTruth_failed (h : st.statusOf k = some .failed) : st.TellsTruth k ↔ ¬ st.Committed k := by
  simp [TellsTruth, h]

theorem tellsTruth_applied (h : st.statusOf k = some .applied) : st.TellsTruth k ↔ st.Committed k := by
  simp [TellsTruth, h]

end TargetStore

/-- The request that a call is reviewing, has approved and may still mark. -/
def TargetPc.reviews (pc : TargetPc) : Option Uuid := pc.review.map (·.id)

/-- What is committed of a request while a call is reviewing it. After a fault, `markFailed` may follow a change that
is committed. -/
def TargetPc.Stage (k : Uuid) (st : TargetStore) (faulted : Prop) : TargetPc → Prop
  | .auditReview _ _ _ _ | .applyCreate _ _ | .findExisting _ _ _ | .applyUpdate _ _ _ =>
    st.statusOf k = some .approved ∧ ¬ st.Committed k
  | .markApplied _ _ => st.statusOf k = some .approved ∧ st.Committed k
  | .rereadApplied _ _ => st.statusOf k = some .applied ∧ st.Committed k
  | .markFailed _ _ _ => (st.Committed k → faulted) ∧
    (st.statusOf k = some .approved ∨ st.statusOf k = some .applied ∧ st.Committed k)
  | .auditFailed _ _ _ => st.statusOf k = some .failed
  | _ => True

/-- The call is not about to mark a request as failed, or has not marked it, whose change is committed. -/
def TargetPc.OnTrack (k : Uuid) (st : TargetStore) : TargetPc → Prop
  | .markFailed _ _ _ | .auditFailed _ _ _ => ¬ st.Committed k
  | _ => True

/-- The statements of an approval whose failure the code does not cover. -/
def TargetPc.uncovered : TargetPc → Bool
  | .auditReview _ _ _ _ | .markApplied _ _ | .rereadApplied _ _ | .markFailed _ _ _ => true
  | _ => false

/-- Where a statement has brought the request: to another statement of the review, or to its end. -/
def Brought (k : Uuid) (st' : TargetStore) (faulted : Prop) (pc' : TargetPc) (track : Prop) : Prop :=
  pc'.reviews = some k ∧ pc'.Stage k st' faulted ∧ (pc'.OnTrack k st' ↔ track) ∨
    pc'.reviews = none ∧ (st'.TellsTruth k ↔ track)

theorem advance_brought (hk : pc.reviews = some k) {faulted : Prop} (h : pc.Stage k st faulted) :
    Brought k (advance env st pc).1 faulted (advance env st pc).2 (pc.OnTrack k st) := by
  have hid : ∀ reviewed : ConfigChangeRequest, some reviewed.id = some k → reviewed.id = k := fun _ => Option.some.inj
  cases pc with
  | auditReview reviewed decision note actor =>
    cases decision with
    | rejected => cases hk
    | approved =>
      -- nothing is committed yet, whatever comes next
      have hmark : ∀ message, Brought k (st.recordAudit (configRequestEntry actor "config_request.approved" reviewed.id
          (reviewSummary reviewed .approved note))) faulted (.markFailed reviewed message actor) True := fun _ =>
        .inl ⟨hk, ⟨fun hc => absurd hc h.2, .inl h.1⟩, iff_of_true h.2 trivial⟩
      simp only [advance, exec, afterReview]
      split
      · cases ‹Decision.approved = .rejected›
      · exact .inl ⟨hk, h, Iff.rfl⟩
      · exact .inl ⟨hk, h, Iff.rfl⟩
      · exact hmark _
  | applyCreate reviewed actor =>
    have hwritten : (advance env st (.applyCreate reviewed actor)).1.Committed k :=
      ⟨_, List.mem_append_right _ List.mem_cons_self, hk⟩
    exact .inl ⟨hk, ⟨h.1, hwritten⟩, Iff.rfl⟩
  | findExisting reviewed targetId actor =>
    simp only [advance, exec]
    cases st.findTargetById targetId with
    | some existing => exact .inl ⟨hk, h, Iff.rfl⟩
    | none => exact .inl ⟨hk, ⟨fun hc => absurd hc h.2, .inl h.1⟩, iff_of_true h.2 trivial⟩
  | applyUpdate reviewed existing actor =>
    simp only [advance, exec, persistTargetUpdate, TargetStore.updateTarget]
    cases st.findRow existing.id with
    | some row =>
      exact .inl ⟨hk, ⟨h.1, _, List.mem_append_right _ List.mem_cons_self, hk⟩, Iff.rfl⟩
    | none => exact .inl ⟨hk, ⟨fun hc => absurd hc h.2, .inl h.1⟩, iff_of_true h.2 trivial⟩
  | markApplied reviewed actor =>
    have hstatus : (st.markApplied reviewed.id).statusOf k = some .applied := by
      rw [hid reviewed hk]
      exact TargetStore.statusOf_mapRequest (fun r => ⟨rfl, rfl⟩) h.1
    exact .inl ⟨hk, ⟨hstatus, h.2⟩, Iff.rfl⟩
  | rereadApplied reviewed actor =>
    exact .inr ⟨rfl, (TargetStore.tellsTruth_applied h.1).trans (iff_true_intro h.2)⟩
  | markFailed reviewed message actor =>
    have hstatus : (st.markFailed reviewed.id message).statusOf k = some .failed := by
      rw [hid reviewed hk]
      rcases h.2 with happ | ⟨happ, -⟩ <;> exact TargetStore.statusOf_mapRequest (fun r => ⟨rfl, rfl⟩) happ
    exact .inl ⟨hk, hstatus, Iff.rfl⟩
  | auditFailed reviewed message actor => exact .inr ⟨rfl, TargetStore.tellsTruth_failed h⟩
  | _ => cases hk

theorem fail_brought (hk : pc.reviews = some k) {faulted : Prop} (h : pc.Stage k st faulted) (hnew : ¬ faulted)
    (e : TargetError) : Brought k st True (pc.onThrow e) (pc.OnTrack k st ∧ pc.uncovered = false) := by
  cases pc with
  | auditReview reviewed decision note actor =>
    refine .inr ⟨rfl, iff_of_false (fun htruth => (htruth _ h.1).2.2 rfl) fun hsafe => Bool.noConfusion hsafe.2⟩
  | applyCreate reviewed actor | findExisting reviewed targetId actor | applyUpdate reviewed existing actor =>
    exact .inl ⟨hk, ⟨fun _ => trivial, .inl h.1⟩, iff_of_true h.2 ⟨trivial, rfl⟩⟩
  | markApplied reviewed actor =>
    exact .inl ⟨hk, ⟨fun _ => trivial, .inl h.1⟩, iff_of_false (· h.2) fun hsafe => Bool.noConfusion hsafe.2⟩
  | rereadApplied reviewed actor =>
    exact .inl ⟨hk, ⟨fun _ => trivial, .inr h⟩, iff_of_false (· h.2) fun hsafe => Bool.noConfusion hsafe.2⟩
  | markFailed reviewed message actor =>
    obtain ⟨hfault, hstatus⟩ := h
    have hnot : ¬ st.Committed k := fun hc => hnew (hfault hc)
    have hleft : st.statusOf k = some .approved := hstatus.resolve_right fun hap => hnot hap.2
    exact .inr ⟨rfl, iff_of_false (fun htruth => (htruth _ hleft).2.2 rfl) fun hsafe => Bool.noConfusion hsafe.2⟩
  | auditFailed reviewed message actor =>
    exact .inr ⟨rfl, (TargetStore.tellsTruth_failed h).trans (and_iff_left rfl).symm⟩
  | _ => cases hk

/-! ### Calls that review another request -/

theorem committed_append {st' : TargetStore} {w : TargetWrite} (hwrites : st'.writes = st.writes ++ [w])
    (hw : w.origin.request ≠ some k) : st'.Committed k ↔ st.Committed k := by
  simp [TargetStore.Committed, hwrites, or_and_right, exists_or, hw]

/-- The call has approved the request and not yet audited it. -/
def TargetPc.IsApproving (k : Uuid) (pc : TargetPc) : Prop :=
  ∃ reviewed note actor, pc = .auditReview reviewed .approved note actor ∧ reviewed.id = k

/-- What a call that does not review the request does to it: nothing, or it proposes, rejects or approves it. -/
inductive Aside (k : Uuid) (st st' : TargetStore) (pc' : TargetPc) : Prop
  | same (hpc : pc'.reviews ≠ some k) (hstatus : st'.statusOf k = st.statusOf k)
  | open (hpc : pc'.reviews ≠ some k) (hold : st.statusOf k ∈ [none, some .pending])
      (hnew : st'.statusOf k ∈ [some .pending, some .rejected])
  | approves (hpc : pc'.IsApproving k) (hold : st.statusOf k = some .pending) (hnew : st'.statusOf k = some .approved)

theorem Advances.aside {st' : TargetStore} {pc' : TargetPc} (h : Advances env st pc st' pc') (hk : pc.reviews ≠ some k) :
    (st'.Committed k ↔ st.Committed k) ∧ Aside k st st' pc' := by
  have hsame : st'.requests = st.requests → st'.statusOf k = st.statusOf k := fun hreqs => by
    rw [TargetStore.statusOf, TargetStore.getConfigRequest, hreqs]
    rfl
  have hcommit : st'.writes = st.writes → (st'.Committed k ↔ st.Committed k) := fun hwrites => by
    rw [TargetStore.Committed, hwrites]
    rfl
  have hreview : ∀ {q : TargetPc}, q.review = none → q.reviews ≠ some k := fun hq => by simp [TargetPc.reviews, hq]
  have hmoved : ∀ {reviewed : ConfigChangeRequest}, pc.review = some reviewed →
      reviewed.id ≠ k ∧ ∀ q : TargetPc, q.review = some reviewed → q.reviews ≠ some k := by
    intro reviewed hpc
    have hne : reviewed.id ≠ k := by simpa [TargetPc.reviews, hpc] using hk
    exact ⟨hne, fun q hq => by simpa [TargetPc.reviews, hq] using hne⟩
  cases h with
  | quiet hreqs hwrites _ _ hnone => exact ⟨hcommit hwrites, .same (hreview hnone) (hsame hreqs)⟩
  | @proposes input _ _ _ hreqs hwrites _ hpc =>
    subst hpc
    refine ⟨hcommit hwrites, ?_⟩
    cases hold : st.getConfigRequest k with
    | some r =>
      refine .same (hreview rfl) ?_
      rw [TargetStore.statusOf, TargetStore.statusOf, hold]
      rw [TargetStore.getConfigRequest] at hold ⊢
      rw [hreqs, List.find?_append, hold]
      rfl
    | none =>
      have hnew : st'.getConfigRequest k = [input.row st.nextUuid].find? (·.id = k) := by
        rw [TargetStore.getConfigRequest] at hold ⊢
        rw [hreqs, List.find?_append, hold]
        rfl
      by_cases hid : st.nextUuid = k
      · refine .open (hreview rfl) (by simp [TargetStore.statusOf, hold]) ?_
        simp [TargetStore.statusOf, hnew, ConfigRequestInput.row, hid]
      · refine .same (hreview rfl) ?_
        simp [TargetStore.statusOf, hnew, hold, ConfigRequestInput.row, hid]
  | creates hreqs hwrites =>
    exact ⟨committed_append hwrites (by simp), .same (hreview rfl) (hsame hreqs)⟩
  | updates _ hreqs hwrites | enables _ hreqs hwrites =>
    exact ⟨committed_append hwrites (by simp), .same (hreview rfl) (hsame hreqs)⟩
  | @reviews id reviewer decision note actor r _ hfind hpending _ hst =>
    subst hst
    refine ⟨Iff.rfl, ?_⟩
    by_cases hid : id = k
    · subst hid
      have hold : st.statusOf id = some .pending := by simp [TargetStore.statusOf, hfind, hpending]
      have hnew := TargetStore.statusOf_mapRequest
        (f := TargetStore.reviewedRow reviewer decision.status note st.now) (fun _ => ⟨rfl, rfl⟩) hold
      cases decision with
      | rejected =>
        refine .open (hreview rfl) (by simp [hold]) ?_
        rw [hnew]
        exact List.mem_cons_of_mem _ List.mem_cons_self
      | approved => exact .approves ⟨_, _, _, rfl, (getConfigRequest_some hfind).2⟩ hold hnew
    · refine .same ?_ (TargetStore.statusOf_mapRequest_ne (fun _ => rfl) hid)
      cases decision with
      | rejected => exact hreview rfl
      | approved => simp [TargetPc.reviews, TargetPc.review, TargetStore.reviewedRow, (getConfigRequest_some hfind).2, hid]
  | continues hreqs hwrites _ hpc hpc' => exact ⟨hcommit hwrites, .same ((hmoved hpc).2 _ hpc') (hsame hreqs)⟩
  | applies _ hpc _ hreqs hwrites =>
    exact ⟨committed_append hwrites (by simpa using (hmoved hpc).1), .same ((hmoved hpc).2 _ rfl) (hsame hreqs)⟩
  | marks hpc hpc' _ _ hst hf =>
    subst hst
    exact ⟨Iff.rfl, .same ((hmoved hpc).2 _ hpc')
      (TargetStore.statusOf_mapRequest_ne (fun r => (hf r).1) (hmoved hpc).1)⟩

theorem TargetPc.IsApproving.reviews (h : pc.IsApproving k) : pc.reviews = some k := by
  obtain ⟨reviewed, note, actor, rfl, rfl⟩ := h
  rfl

/-- A request that a call reviews is neither missing nor open. -/
theorem TargetPc.Stage.not_open (hk : pc.reviews = some k) {faulted : Prop} (h : pc.Stage k st faulted) :
    st.statusOf k ∉ [none, some .pending] := by
  cases pc with
  | auditReview | applyCreate | findExisting | applyUpdate | markApplied | rereadApplied => simp [h.1]
  | markFailed => rcases h.2 with happ | ⟨happ, -⟩ <;> simp [happ]
  | auditFailed => simp [show st.statusOf k = some .failed from h]
  | _ => cases hk

theorem TargetPc.Stage.congr {st' : TargetStore} {faulted faulted' : Prop} (h : pc.Stage k st faulted)
    (hstatus : st'.statusOf k = st.statusOf k) (hcommit : st'.Committed k ↔ st.Committed k) (hf : faulted → faulted') :
    pc.Stage k st' faulted' := by
  cases pc <;> simp only [Stage, hstatus, hcommit] at h ⊢ <;> try exact h
  exact ⟨fun hc => hf (h.1 hc), h.2⟩

namespace TargetSys

variable {s s' : TargetSys} {l : TargetLabel} {tr : List TargetLabel}

/-- The status of the request is true, or will be once the call that reviews it is done. -/
def OnTrack (k : Uuid) (s : TargetSys) : Prop :=
  (∀ pc ∈ s.calls, pc.reviews = some k → pc.OnTrack k s.store) ∧
    ((∀ pc ∈ s.calls, pc.reviews ≠ some k) → s.store.TellsTruth k)

structure OnRequest (env : TargetEnv) (k : Uuid) (s : TargetSys) (failed : List Nat) : Prop where
  ok : s.Ok env
  one : s.calls.AtMostOne (·.reviews = some k)
  stage : ∀ (i : Nat) pc, s.calls[i]? = some pc → pc.reviews = some k → pc.Stage k s.store (i ∈ failed)

/-- No statement of an approval of the request fails that the code does not cover. -/
def Covered (k : Uuid) (s : TargetSys) : TargetLabel → Prop
  | .fail i _ => ∀ pc ∈ s.calls[i]?, pc.reviews = some k → pc.uncovered = false
  | _ => True

instance (k : Uuid) (s : TargetSys) : ∀ l, Decidable (Covered k s l)
  | .fail i _ => inferInstanceAs (Decidable (∀ pc ∈ s.calls[i]?, pc.reviews = some k → pc.uncovered = false))
  | .request _ | .advance _ | .elapse _ => isTrue trivial

/-- A request whose change is committed was approved. -/
theorem Ok.not_committed (h : Ok env s) (hopen : s.store.statusOf k ∈ [none, some .pending]) :
    ¬ s.store.Committed k := by
  rintro ⟨w, hw, hk⟩
  obtain ⟨r, hr, hid, -, -, happ, -⟩ := h.approved w hw k hk
  have hfind : s.store.getConfigRequest k = some r := by
    cases hq : s.store.getConfigRequest k with
    | none => exact absurd hid (by simpa using List.find?_eq_none.1 hq r hr)
    | some q =>
      obtain ⟨hmem, hqid⟩ := getConfigRequest_some hq
      rw [List.inj_on_of_nodup_map h.ids hmem hr (hqid.trans hid.symm)]
  simp only [TargetStore.statusOf, hfind, Option.map_some, List.mem_cons, List.not_mem_nil, reduceCtorEq,
    Option.some.injEq, false_or, or_false] at hopen
  rw [hopen] at happ
  simp at happ

/-- The call that reviews the request decides. -/
theorem OnRequest.onTrack_iff {failed : List Nat} (h : OnRequest env k s failed) {pc : TargetPc} (hpc : pc ∈ s.calls)
    (hk : pc.reviews = some k) : OnTrack k s ↔ pc.OnTrack k s.store := by
  refine ⟨fun htrack => htrack.1 pc hpc hk, fun hpcTrack => ⟨fun q hq hqk => ?_, fun hnone => absurd hk (hnone pc hpc)⟩⟩
  obtain ⟨i, hi⟩ := List.mem_iff_getElem?.1 hpc
  obtain ⟨j, hj⟩ := List.mem_iff_getElem?.1 hq
  obtain rfl := h.one i j pc q hi hj hk hqk
  obtain rfl := Option.some.inj (hi.symm.trans hj)
  exact hpcTrack

theorem onTrack_iff_of_none (h : ∀ pc ∈ s.calls, pc.reviews ≠ some k) : OnTrack k s ↔ s.store.TellsTruth k :=
  ⟨fun htrack => htrack.2 h, fun htruth => ⟨fun pc hpc hk => absurd hk (h pc hpc), fun _ => htruth⟩⟩

/-- The statement of the call that reviews the request. -/
theorem OnRequest.brought {failed failed' : List Nat} (h : OnRequest env k s failed) (hok : s'.Ok env) {i : Nat}
    {pc pc' : TargetPc} (hi : s.calls[i]? = some pc) (hcalls : s'.calls = s.calls.set i pc') (hk : pc.reviews = some k)
    {track : Prop} (hb : Brought k s'.store (i ∈ failed') pc' track) :
    OnRequest env k s' failed' ∧ (OnTrack k s' ↔ track) := by
  have hone : s'.calls.AtMostOne (·.reviews = some k) := hcalls ▸ h.one.set hi fun _ => .inl hk
  have hthis : ∀ q ∈ s'.calls, q.reviews = some k → q = pc' := fun q hq hqk =>
    h.one.eq_of_mem_set hi hk (hcalls ▸ hq) hqk
  have hlt := (List.getElem?_eq_some_iff.1 hi).1
  have hi' : s'.calls[i]? = some pc' := by rw [hcalls, List.getElem?_set_self hlt]
  rcases hb with ⟨hk', hstage, htrack⟩ | ⟨hnone, htruth⟩
  · have hon : OnRequest env k s' failed' := by
      refine ⟨hok, hone, fun j q hj hqk => ?_⟩
      obtain rfl := hone j i q pc' hj hi' hqk hk'
      obtain rfl := Option.some.inj (hj.symm.trans hi')
      exact hstage
    exact ⟨hon, (hon.onTrack_iff (List.mem_of_getElem? hi') hk').trans htrack⟩
  · have hleft : ∀ q ∈ s'.calls, q.reviews ≠ some k := by
      intro q hq hqk
      rw [hthis q hq hqk, hnone] at hqk
      cases hqk
    refine ⟨⟨hok, hone, fun j q hj hqk => absurd hqk (hleft q (List.mem_of_getElem? hj))⟩, ?_⟩
    exact (onTrack_iff_of_none hleft).trans htruth

/-- Calls that do not review the request leave it as it is. -/
theorem OnRequest.keeps {failed failed' : List Nat} (h : OnRequest env k s failed) (hok : s'.Ok env)
    (hone : s'.calls.AtMostOne (·.reviews = some k))
    (hheld : ∀ (i : Nat) (q : TargetPc), q.reviews = some k → (s'.calls[i]? = some q ↔ s.calls[i]? = some q))
    (hstatus : s'.store.statusOf k = s.store.statusOf k) (hcommit : s'.store.Committed k ↔ s.store.Committed k)
    (hf : ∀ i ∈ failed, i ∈ failed') : OnRequest env k s' failed' ∧ (OnTrack k s' ↔ OnTrack k s) := by
  have hmem : ∀ q, q.reviews = some k → (q ∈ s'.calls ↔ q ∈ s.calls) := by
    intro q hq
    simp only [List.mem_iff_getElem?, hheld _ q hq]
  refine ⟨⟨hok, hone, fun i q hi hq => ?_⟩, ?_⟩
  · exact (h.stage i q ((hheld i q hq).1 hi) hq).congr hstatus hcommit (hf i)
  · have htruth : s'.store.TellsTruth k ↔ s.store.TellsTruth k := by
      simp only [TargetStore.TellsTruth, hstatus, hcommit]
    have htrack : ∀ q : TargetPc, q.OnTrack k s'.store ↔ q.OnTrack k s.store := by
      intro q
      cases q <;> simp only [TargetPc.OnTrack, hcommit]
    refine and_congr ?_ (imp_congr ?_ htruth)
    · exact forall_congr' fun q => ⟨fun hall hq hk => (htrack q).1 (hall ((hmem q hk).2 hq) hk),
        fun hall hq hk => (htrack q).2 (hall ((hmem q hk).1 hq) hk)⟩
    · exact forall_congr' fun q => ⟨fun hall hq hk => hall ((hmem q hk).2 hq) hk,
        fun hall hq hk => hall ((hmem q hk).1 hq) hk⟩

theorem OnRequest.aside {failed failed' : List Nat} (h : OnRequest env k s failed) (hok : s'.Ok env) {i : Nat}
    {pc pc' : TargetPc} (hi : s.calls[i]? = some pc) (hcalls : s'.calls = s.calls.set i pc') (hk : pc.reviews ≠ some k)
    (hadv : Advances env s.store pc s'.store pc') (hf : ∀ i ∈ failed, i ∈ failed') :
    OnRequest env k s' failed' ∧ (OnTrack k s' ↔ OnTrack k s) := by
  have hopen : s.store.statusOf k ∈ [none, some .pending] → ∀ q ∈ s.calls, q.reviews ≠ some k := by
    intro hold q hq hqk
    obtain ⟨j, hj⟩ := List.mem_iff_getElem?.1 hq
    exact (h.stage j q hj hqk).not_open hqk hold
  obtain ⟨hcommit, hstep⟩ := hadv.aside hk
  cases hstep with
  | same hpc hstatus =>
    refine h.keeps hok (hcalls ▸ h.one.set hi fun hk' => absurd hk' hpc) (fun j q hq => ?_) hstatus hcommit hf
    rw [hcalls, List.getElem?_set]
    split
    · subst i
      constructor
      · intro hj
        split at hj
        · exact absurd (Option.some.inj hj ▸ hq) hpc
        · cases hj
      · intro hj
        exact absurd (Option.some.inj (hi.symm.trans hj) ▸ hq) hk
    · rfl
  | «open» hpc hold hnew =>
    have hnone := hopen hold
    have hnone' : ∀ q ∈ s'.calls, q.reviews ≠ some k := by
      rw [hcalls]
      exact List.forall_mem_set hnone (fun _ h => h) hpc
    have hnot := h.ok.not_committed hold
    refine ⟨⟨hok, hcalls ▸ h.one.set hi fun hk' => absurd hk' hpc, fun j q hj hq =>
      absurd hq (hnone' q (List.mem_of_getElem? hj))⟩, ?_⟩
    rw [onTrack_iff_of_none hnone, onTrack_iff_of_none hnone']
    refine iff_of_true ?_ ?_
    · intro status hs
      rw [hs] at hnew
      simp at hnew
      rcases hnew with rfl | rfl <;> simp [hcommit, hnot]
    · intro status hs
      rw [hs] at hold
      simp at hold
      simp [hold, hnot]
  | approves hpc hold hnew =>
    have hnone := hopen (by simp [hold])
    have hnot := h.ok.not_committed (k := k) (by simp [hold])
    have hlt := (List.getElem?_eq_some_iff.1 hi).1
    have hi' : s'.calls[i]? = some pc' := by rw [hcalls, List.getElem?_set_self hlt]
    have hone : s'.calls.AtMostOne (·.reviews = some k) := hcalls ▸ h.one.set hi fun _ => .inr hnone
    obtain ⟨reviewed, note, actor, rfl, hid⟩ := id hpc
    have hon : OnRequest env k s' failed' := by
      refine ⟨hok, hone, fun j q hj hq => ?_⟩
      obtain rfl := hone j i q _ hj hi' hq hpc.reviews
      obtain rfl := Option.some.inj (hj.symm.trans hi')
      exact ⟨hnew, fun hc => hnot (hcommit.1 hc)⟩
    refine ⟨hon, ?_⟩
    rw [hon.onTrack_iff (List.mem_of_getElem? hi') hpc.reviews, onTrack_iff_of_none hnone]
    exact iff_of_true trivial fun status hs => by
      rw [hold] at hs
      simp [← Option.some.inj hs, hnot]

theorem OnRequest.step {failed failed' : List Nat} (h : OnRequest env k s failed)
    (hs : TargetSys.step env s l = some s') (hfailed : failed' = l.fault.toList ++ failed)
    (hnew : ∀ i, l.fault = some i → i ∉ failed) :
    OnRequest env k s' failed' ∧ (OnTrack k s' ↔ OnTrack k s ∧ Covered k s l) := by
  have hok := h.ok.step hs
  have hf : ∀ i ∈ failed, i ∈ failed' := fun i hi => hfailed ▸ List.mem_append_right _ hi
  cases l with
  | request r =>
    cases hs
    rw [and_iff_left (show Covered k s (.request r) from trivial)]
    have hstart : (r.start env s.store.nextUuid).reviews ≠ some k := by
      simp [TargetPc.reviews, (start_known env r s.store.nextUuid).2.1]
    refine h.keeps hok (h.one.append hstart) (fun i q hq => ?_) rfl Iff.rfl hf
    exact List.getElem?_concat_iff fun hqs => hstart (hqs ▸ hq)
  | elapse ms =>
    cases hs
    rw [and_iff_left (show Covered k s (.elapse ms) from trivial)]
    exact h.keeps hok h.one (fun _ _ _ => Iff.rfl) rfl Iff.rfl hf
  | advance i =>
    rw [and_iff_left (show Covered k s (.advance i) from trivial)]
    obtain rfl : failed' = failed := hfailed
    simp only [TargetSys.step] at hs
    split at hs
    · rename_i pc hi
      split at hs
      · cases hs
      · rename_i hdone
        cases hs
        by_cases hk : pc.reviews = some k
        · rw [h.onTrack_iff (List.mem_of_getElem? hi) hk]
          exact h.brought hok hi rfl hk (advance_brought hk (h.stage i pc hi hk))
        · exact h.aside hok hi rfl hk (advance_cases (by simpa using hdone)) hf
    · cases hs
  | fail i message =>
    simp only [TargetSys.step] at hs
    split at hs
    · rename_i pc hi
      split at hs
      · cases hs
      · cases hs
        by_cases hk : pc.reviews = some k
        · have hcov : Covered k s (.fail i message) ↔ pc.uncovered = false := by simp [Covered, hi, hk]
          have hi' : i ∈ failed' := hfailed ▸ List.mem_append_left _ (List.mem_singleton_self i)
          rw [h.onTrack_iff (List.mem_of_getElem? hi) hk, hcov]
          refine h.brought hok hi rfl hk ?_
          rw [eq_true hi']
          exact fail_brought hk (h.stage i pc hi hk) (hnew i rfl) _
        · have hcov : Covered k s (.fail i message) := by simp [Covered, hi, hk]
          rw [and_iff_left hcov]
          exact h.aside hok hi rfl hk (.throws _) hf
    · cases hs

/-- The system in which at most one statement of each call fails. -/
def oneFault (env : TargetEnv) : TargetSys × List Nat → TargetLabel → Option (TargetSys × List Nat) :=
  once TargetLabel.fault (step env)

/-- When no call is reviewing a request any more, its status is true exactly when the statement that failed, if one
did, was covered. -/
theorem request_status_iff {rows : List TargetRow} {nextUuid : Uuid} {now : Time} {failed : List Nat}
    (hr : run (oneFault env) (init rows nextUuid now, []) tr = some (s, failed))
    (hidle : ∀ pc ∈ s.calls, pc.reviews ≠ some k) :
    s.store.TellsTruth k ↔ Along (oneFault env) (fun t l _ => Covered k t.1 l) (init rows nextUuid now, []) tr := by
  have hstart : OnRequest env k (init rows nextUuid now) [] :=
    ⟨ok_init rows nextUuid now, by simp [init, List.AtMostOne], by simp [init]⟩
  have htrack : OnTrack k (init rows nextUuid now) := by
    simp [OnTrack, init, TargetStore.TellsTruth, TargetStore.statusOf, TargetStore.getConfigRequest]
  have hlast := last_iff_along (I := fun t => OnRequest env k t.1 t.2) (P := fun t => OnTrack k t.1)
    (C := fun t l _ => Covered k t.1 l) hstart (fun t l t' hI hs => ?_) hr
  · rw [← onTrack_iff_of_none hidle]
    exact hlast.trans (and_iff_right htrack)
  · obtain ⟨hs, hfailed, hnew⟩ := once_some hs
    exact hI.step hs hfailed hnew

/-- A money-moving target is proposed; another user approves it, up to the apply. -/
def approvedCreate : List TargetLabel :=
  [.request (.createTarget ⟨"Payouts", .paymentInitiation, "https://api.test/payouts", "* * * * *",
    { UpdateTargetPayload.empty with isMoneyMoving := some true }⟩ (.user 7)), .advance 0, .advance 0,
    .request (.reviewChangeRequest 11 .approved none (.user 8)), .advance 1, .advance 1, .advance 1]

theorem request_status_apply_fails : ∃ s failed,
    run (oneFault .plain) (init [] 10 0, []) (approvedCreate ++ [.fail 1 "deadlock detected", .advance 1, .advance 1,
      .advance 1]) = some (s, failed) ∧ s.store.statusOf 11 = some .failed ∧ s.store.TellsTruth 11 := by
  obtain ⟨⟨s, failed⟩, hr, hs⟩ := Option.map_eq_some_iff.1 (show
    (run (oneFault .plain) (init [] 10 0, []) (approvedCreate ++ [.fail 1 "deadlock detected", .advance 1, .advance 1,
      .advance 1])).map (fun t => (t.1.store.statusOf 11, t.1.calls.all (·.reviews ≠ some 11))) =
        some (some .failed, true) by decide +kernel)
  obtain ⟨hstatus, hidle⟩ := Prod.mk.inj hs
  exact ⟨s, failed, hr, hstatus,
    (request_status_iff hr fun pc hpc => of_decide_eq_true (List.all_eq_true.1 hidle pc hpc)).2 (by decide +kernel)⟩

/-- `markApplied` throws: the target is registered, and the request is marked failed. -/
theorem request_status_mark_fails : ¬ ∀ (env : TargetEnv) (rows : List TargetRow) (nextUuid : Uuid) (now : Time)
    (tr : List TargetLabel) (s : TargetSys) (failed : List Nat) (k : Uuid),
    run (oneFault env) (init rows nextUuid now, []) tr = some (s, failed) → (∀ pc ∈ s.calls, pc.isDone) →
      s.store.TellsTruth k := by
  intro h
  obtain ⟨⟨s, failed⟩, hr, hs⟩ := Option.map_eq_some_iff.1 (show
    (run (oneFault .plain) (init [] 10 0, []) (approvedCreate ++ [.advance 1, .fail 1 "connection terminated", .advance 1,
      .advance 1, .advance 1])).map (fun t => (t.1.store.statusOf 11, t.1.calls.all (·.isDone),
        t.1.store.writes.map (·.origin.request))) = some (some .failed, true, [some 11]) by decide +kernel)
  obtain ⟨hstatus, hrest⟩ := Prod.mk.inj hs
  obtain ⟨hdone, hwrites⟩ := Prod.mk.inj hrest
  have hcommitted : s.store.Committed 11 := by
    obtain ⟨w, hw, hk⟩ := List.mem_map.1 (show some 11 ∈ s.store.writes.map (·.origin.request) by simp [hwrites])
    exact ⟨w, hw, hk⟩
  have htruth := h .plain _ _ _ _ s failed 11 hr (List.all_eq_true.1 hdone)
  exact (htruth _ hstatus).2.1 rfl hcommitted

end TargetSys

end CronMonitor.Targets
