import CronMonitor.Lib.Calls
import CronMonitor.Targets.Steps

/-!
# Requests and the writes that apply them

`TargetSys.Ok` holds in every run. The calls that may still apply a request and the writes that have applied it
are never more than one, and none while the request is pending: the `UPDATE` that reviews it finds it pending once.
-/

namespace CronMonitor.Targets

open Runs

variable {env : TargetEnv} {st st' : TargetStore} {pc pc' : TargetPc}

/-- How often the request was applied or is about to be. -/
def applications (st : TargetStore) (calls : List TargetPc) (k : Uuid) : Nat :=
  st.writes.countP (fun w => w.origin.request = some k) + calls.countP (fun pc => pc.applying = some k)

/-- The request was approved or rejected. -/
def Actioned (requests : List ConfigChangeRequest) (k : Uuid) : Prop := ∃ r ∈ requests, r.id = k ∧ r.status ≠ .pending

/-- What one statement does to the table of requests: rows are added pending, a pending row may be reviewed, and
of a reviewed row only the outcome changes. -/
structure Later (requests requests' : List ConfigChangeRequest) : Prop where
  kept : ∀ r ∈ requests, ∃ r' ∈ requests', r'.id = r.id ∧ r'.kind = r.kind ∧ r'.payload = r.payload ∧
    r'.patch = r.patch ∧ (r.Approved → r'.Approved) ∧ (r.status ≠ .pending → r'.status ≠ .pending)

theorem Later.of_eq {requests requests' : List ConfigChangeRequest} (h : requests' = requests) :
    Later requests requests' :=
  ⟨fun r hr => ⟨r, h ▸ hr, rfl, rfl, rfl, rfl, id, id⟩⟩

theorem Later.append {requests new : List ConfigChangeRequest} : Later requests (requests ++ new) :=
  ⟨fun r hr => ⟨r, List.mem_append_left _ hr, rfl, rfl, rfl, rfl, id, id⟩⟩

theorem Later.inReview {requests requests' : List ConfigChangeRequest} {reviewed : ConfigChangeRequest}
    (h : Later requests requests') (hr : reviewed.InReview requests) : reviewed.InReview requests' := by
  obtain ⟨r, hmem, hid, hkind, hpay, hpatch, happ⟩ := hr
  obtain ⟨r', hmem', hid', hkind', hpay', hpatch', happ', -⟩ := h.kept r hmem
  exact ⟨r', hmem', hid'.trans hid, hkind'.trans hkind, hpay'.trans hpay, hpatch'.trans hpatch, happ' happ⟩

theorem Later.actioned {requests requests' : List ConfigChangeRequest} {k : Uuid} (h : Later requests requests')
    (hk : Actioned requests k) : Actioned requests' k := by
  obtain ⟨r, hmem, hid, hst⟩ := hk
  obtain ⟨r', hmem', hid', -, -, -, -, hst'⟩ := h.kept r hmem
  exact ⟨r', hmem', hid'.trans hid, hst' hst⟩

/-- Rewriting the rows with one id. -/
theorem Later.mapRequest {id : Uuid} {f : ConfigChangeRequest → ConfigChangeRequest}
    (hf : ∀ r ∈ st.requests, r.id = id → (f r).id = r.id ∧ (f r).kind = r.kind ∧ (f r).payload = r.payload ∧
      (f r).patch = r.patch ∧ (r.Approved → (f r).Approved) ∧ (r.status ≠ .pending → (f r).status ≠ .pending)) :
    Later st.requests (st.mapRequest id f).requests := by
  refine ⟨fun r hr => ⟨_, List.mem_map_of_mem hr, ?_⟩⟩
  split
  · exact hf r hr ‹_›
  · exact ⟨rfl, rfl, rfl, rfl, fun h => h, fun h => h⟩

theorem Approved.not_pending {r : ConfigChangeRequest} (h : r.Approved) : r.status ≠ .pending := by
  intro hp
  simpa [hp] using h.1

/-! ### One statement -/

theorem mapRequest_ids {id : Uuid} {f : ConfigChangeRequest → ConfigChangeRequest} (hf : ∀ r, (f r).id = r.id) :
    (st.mapRequest id f).requests.map (·.id) = st.requests.map (·.id) := by
  rw [TargetStore.mapRequest, List.map_map]
  refine List.map_congr_left fun r _ => ?_
  show (if r.id = id then f r else r).id = r.id
  split
  · exact hf r
  · rfl

theorem getConfigRequest_some {id : Uuid} {r : ConfigChangeRequest} (h : st.getConfigRequest id = some r) :
    r ∈ st.requests ∧ r.id = id :=
  ⟨List.mem_of_find?_eq_some h, by simpa using List.find?_some h⟩

/-- What another call knows stays true. -/
theorem TargetPc.Known.mono {q : TargetPc} (h : q.Known env st)
    (hlater : Later st.requests st'.requests) : q.Known env st' :=
  ⟨h.1, fun reviewed hr => hlater.inReview (h.2 reviewed hr)⟩

namespace Advances

/-- Identifiers of requests stay distinct and below the next one. -/
theorem ids (h : Advances env st pc st' pc') (hids : (st.requests.map (·.id)).Nodup)
    (hdrawn : ∀ r ∈ st.requests, r.id < st.nextUuid) :
    (st'.requests.map (·.id)).Nodup ∧ (∀ r ∈ st'.requests, r.id < st'.nextUuid) ∧ st.nextUuid ≤ st'.nextUuid := by
  have hsame : st'.requests.map (·.id) = st.requests.map (·.id) → st.nextUuid ≤ st'.nextUuid →
      (st'.requests.map (·.id)).Nodup ∧ (∀ r ∈ st'.requests, r.id < st'.nextUuid) ∧ st.nextUuid ≤ st'.nextUuid := by
    intro hmap hnext
    refine ⟨hmap ▸ hids, fun r hr => ?_, hnext⟩
    have hmem : r.id ∈ st.requests.map (·.id) := hmap ▸ List.mem_map_of_mem hr
    obtain ⟨q, hq, hid⟩ := List.mem_map.1 hmem
    exact hid ▸ Nat.lt_of_lt_of_le (hdrawn q hq) hnext
  cases h with
  | quiet hreqs _ hnext => exact hsame (by rw [hreqs]) hnext
  | @proposes input _ _ _ hreqs _ hnext =>
    refine ⟨?_, ?_, hnext ▸ Nat.le_succ _⟩ <;> rw [hreqs]
    · rw [List.map_append, List.map_singleton]
      refine List.nodup_append.2 ⟨hids, List.nodup_singleton _, fun a ha b hb => ?_⟩
      obtain ⟨q, hq, rfl⟩ := List.mem_map.1 ha
      rw [List.mem_singleton.1 hb]
      exact Nat.ne_of_lt (hdrawn q hq)
    · rw [hnext]
      exact List.forall_mem_concat hdrawn (fun _ h => Nat.lt_succ_of_lt h) (Nat.lt_succ_self _)
  | creates hreqs _ hnext => exact hsame (by rw [hreqs]) hnext
  | updates _ hreqs _ hnext | enables _ hreqs _ hnext | continues hreqs _ hnext => exact hsame (by rw [hreqs]) hnext.ge
  | reviews _ _ _ hst =>
    subst hst
    exact hsame (mapRequest_ids fun _ => rfl) le_rfl
  | applies _ _ _ hreqs _ hnext => exact hsame (by rw [hreqs]) hnext
  | marks _ _ _ _ hst hf =>
    subst hst
    exact hsame (mapRequest_ids fun r => (hf r).1) le_rfl

theorem later (h : Advances env st pc st' pc') (hids : (st.requests.map (·.id)).Nodup) :
    Later st.requests st'.requests := by
  cases h with
  | quiet hreqs | creates hreqs | continues hreqs => exact .of_eq hreqs
  | updates _ hreqs | enables _ hreqs => exact .of_eq hreqs
  | applies _ _ _ hreqs => exact .of_eq hreqs
  | proposes hreqs =>
    rw [hreqs]
    exact .append
  | @reviews id reviewer decision note actor r _ hfind hpending _ hst =>
    subst hst
    refine .mapRequest fun q hq hid => ⟨rfl, rfl, rfl, rfl, fun happ => ?_, fun hst => ?_⟩
    all_goals
      -- the only row with this id is pending
      obtain ⟨hr, hrid⟩ := getConfigRequest_some hfind
      obtain rfl := List.inj_on_of_nodup_map hids hq hr (hid.trans hrid.symm)
    · exact absurd hpending (Approved.not_pending happ)
    · exact absurd hpending hst
  | marks _ _ _ _ hst hf =>
    subst hst
    refine .mapRequest fun r _ _ => ⟨(hf r).1, (hf r).2.1, (hf r).2.2.1, (hf r).2.2.2.1, fun happ => ?_, fun _ => ?_⟩
    · obtain ⟨-, -, -, -, hstatus, hby, hprop⟩ := hf r
      rw [ConfigChangeRequest.Approved, hby, hprop]
      exact ⟨List.mem_cons_of_mem _ hstatus, happ.2⟩
    · have hstatus := (hf r).2.2.2.2.1
      intro hp
      simp [hp] at hstatus

/-- What the call itself knows when it is suspended again. -/
theorem known (h : Advances env st pc st' pc') (hk : pc.Known env st) (hids : (st.requests.map (·.id)).Nodup) :
    pc'.Known env st' := by
  have hlater := h.later hids
  have hnone : pc'.Sound env → pc'.review = none → pc'.Known env st' := fun hs hr =>
    ⟨hs, fun _ h => by rw [hr] at h; cases h⟩
  have hsome : ∀ reviewed, pc.review = some reviewed → pc'.Sound env → pc'.review = some reviewed →
      pc'.Known env st' := by
    intro reviewed hr hs hr'
    refine ⟨hs, fun q hq => ?_⟩
    obtain rfl : reviewed = q := Option.some.inj (hr'.symm.trans hq)
    exact hlater.inReview (hk.2 reviewed hr)
  cases h with
  | quiet _ _ _ hsound hreview => exact hnone hsound hreview
  | proposes _ _ _ hpc =>
    subst hpc
    exact hnone trivial rfl
  | creates | updates | enables => exact hnone trivial rfl
  | @reviews id reviewer decision note actor r _ hfind hpending hother hst =>
    cases decision with
    | rejected => exact hnone trivial rfl
    | approved =>
      refine ⟨trivial, ?_⟩
      rintro _ ⟨⟩
      obtain ⟨hr, hid⟩ := getConfigRequest_some hfind
      subst hst
      refine ⟨_, List.mem_map_of_mem hr, ?_⟩
      rw [if_pos hid]
      exact ⟨rfl, rfl, rfl, rfl, by simp [TargetStore.reviewedRow, Decision.status], reviewer, rfl, hother.symm⟩
  | continues _ _ _ hpc hpc' hsound => exact hsome _ hpc (hsound hk.1) hpc'
  | applies _ hreview => exact hsome _ hreview trivial rfl
  | marks hpc hpc' _ hsound => exact hsome _ hpc hsound hpc'

/-- A statement makes no application of a request, but for the one that finds it pending. -/
theorem applications (h : Advances env st pc st' pc') (hids : (st.requests.map (·.id)).Nodup) (k : Uuid) :
    st'.writes.countP (fun w => w.origin.request = some k) + (if pc'.applying = some k then 1 else 0) ≤
        st.writes.countP (fun w => w.origin.request = some k) + (if pc.applying = some k then 1 else 0) ∨
      ¬ Actioned st.requests k ∧ Actioned st'.requests k ∧ st'.writes = st.writes := by
  have hdirect : ∀ w : TargetWrite, w.origin.request = none → st'.writes = st.writes ++ [w] → pc'.applying = none →
      st'.writes.countP (fun w => w.origin.request = some k) + (if pc'.applying = some k then 1 else 0) ≤
        st.writes.countP (fun w => w.origin.request = some k) + (if pc.applying = some k then 1 else 0) := by
    intro w hw hwrites happ
    rw [hwrites, List.countP_append, happ]
    simp [hw]
  cases h with
  | quiet _ hwrites _ _ _ happ =>
    rw [hwrites, happ]
    exact .inl (by simp)
  | proposes _ hwrites _ hpc =>
    subst hpc
    rw [hwrites]
    exact .inl (by simp [TargetPc.applying])
  | creates _ hwrites => exact .inl (hdirect _ rfl hwrites rfl)
  | updates _ _ hwrites | enables _ _ hwrites => exact .inl (hdirect _ rfl hwrites rfl)
  | @reviews id reviewer decision note actor r _ hfind hpending _ hst =>
    obtain ⟨hr, hid⟩ := getConfigRequest_some hfind
    subst hst
    by_cases hk : id = k
    · subst hk
      refine .inr ⟨?_, ⟨_, List.mem_map_of_mem hr, ?_⟩, rfl⟩
      · rintro ⟨q, hq, hqid, hst⟩
        obtain rfl := List.inj_on_of_nodup_map hids hq hr (hqid.trans hid.symm)
        exact hst hpending
      · rw [if_pos hid]
        exact ⟨hid, by cases decision <;> simp [TargetStore.reviewedRow, Decision.status]⟩
    · refine .inl ?_
      cases decision with
      | rejected => simp [TargetPc.applying, TargetStore.mapRequest]
      | approved => simp [TargetPc.applying, TargetStore.mapRequest, TargetStore.reviewedRow, hid, hk]
  | continues _ hwrites _ _ _ _ happ =>
    rw [hwrites]
    refine .inl (Nat.add_le_add_left ?_ _)
    by_cases hk : pc'.applying = some k
    · rw [if_pos hk, if_pos (happ k hk)]
    · rw [if_neg hk]
      exact Nat.zero_le _
  | applies hpc _ _ _ hwrites =>
    rw [hwrites, List.countP_append, hpc]
    simp [TargetPc.applying]
  | marks _ _ happ _ hst =>
    subst hst
    rw [happ]
    exact .inl (by simp [TargetStore.mapRequest])

/-- A write under a request is its payload, and the request is approved. -/
theorem approved (h : Advances env st pc st' pc') (hk : pc.Known env st) :
    ∀ w ∈ st'.writes, w ∈ st.writes ∨ ∀ k, w.origin.request = some k →
      ∃ r ∈ st'.requests, r.id = k ∧ r.payload = w.after ∧ r.patch = w.origin.patch ∧ r.Approved := by
  intro w hw
  cases h with
  | quiet _ hwrites => exact .inl (hwrites ▸ hw)
  | proposes _ hwrites => exact .inl (hwrites ▸ hw)
  | reviews _ _ _ hst | marks _ _ _ _ hst =>
    subst hst
    exact .inl hw
  | continues _ hwrites => exact .inl (hwrites ▸ hw)
  | creates _ hwrites | updates _ _ hwrites | enables _ _ hwrites =>
    rw [hwrites] at hw
    rcases List.mem_append.1 hw with hw | hw
    · exact .inl hw
    · rw [List.mem_singleton.1 hw]
      exact .inr fun k h => nomatch h
  | @applies _ reviewed _ _ _ _ _ hreview _ hreqs hwrites =>
    rw [hwrites] at hw
    rcases List.mem_append.1 hw with hw | hw
    · exact .inl hw
    · rw [List.mem_singleton.1 hw]
      refine .inr fun k hreq => ?_
      obtain rfl : reviewed.id = k := Option.some.inj hreq
      rw [hreqs]
      obtain ⟨r, hr, hid, -, hrest⟩ := hk.2 reviewed hreview
      exact ⟨r, hr, hid, hrest⟩

theorem merged (h : Advances env st pc st' pc') (hk : pc.Known env st) (hm : ∀ r ∈ st.requests, r.Merged env) :
    ∀ r ∈ st'.requests, r.Merged env := by
  have hmap : ∀ (id : Uuid) (f : ConfigChangeRequest → ConfigChangeRequest),
      (∀ r, (f r).kind = r.kind ∧ (f r).payload = r.payload ∧ (f r).patch = r.patch) →
        ∀ r ∈ (st.mapRequest id f).requests, r.Merged env := by
    intro id f hf r hr
    obtain ⟨q, hq, rfl⟩ := List.mem_map.1 hr
    split
    · obtain ⟨hkind, hpay, hpatch⟩ := hf q
      rw [ConfigChangeRequest.Merged, hkind, hpay, hpatch]
      exact hm q hq
    · exact hm q hq
  cases h with
  | quiet hreqs | creates hreqs | continues hreqs => exact hreqs ▸ hm
  | updates _ hreqs | enables _ hreqs => exact hreqs ▸ hm
  | applies _ _ _ hreqs => exact hreqs ▸ hm
  | proposes hreqs =>
    rw [hreqs]
    exact List.forall_mem_concat hm (fun _ h => h) hk.1
  | reviews _ _ _ hst =>
    subst hst
    exact hmap _ _ fun r => ⟨rfl, rfl, rfl⟩
  | marks _ _ _ _ hst hf =>
    subst hst
    exact hmap _ _ fun r => ⟨(hf r).2.1, (hf r).2.2.1, (hf r).2.2.2.1⟩

end Advances

namespace TargetSys

variable {s s' : TargetSys} {l : TargetLabel}

structure Ok (env : TargetEnv) (s : TargetSys) : Prop where
  ids : (s.store.requests.map (·.id)).Nodup
  drawn : ∀ r ∈ s.store.requests, r.id < s.store.nextUuid
  merged : ∀ r ∈ s.store.requests, r.Merged env
  known : ∀ pc ∈ s.calls, pc.Known env s.store
  applied : ∀ k, applications s.store s.calls k ≤ 1 ∧ (¬ Actioned s.store.requests k → applications s.store s.calls k = 0)
  approved : ∀ w ∈ s.store.writes, ∀ k, w.origin.request = some k →
    ∃ r ∈ s.store.requests, r.id = k ∧ r.payload = w.after ∧ r.patch = w.origin.patch ∧ r.Approved

/-- Either no call ran a statement, or the `i`-th one did. -/
theorem step_cases (h : step env s l = some s') :
    (s'.store.requests = s.store.requests ∧ s'.store.writes = s.store.writes ∧ s.store.nextUuid ≤ s'.store.nextUuid ∧
      s'.store.targets = s.store.targets ∧ (s'.calls = s.calls ∨
        ∃ r : TargetRequest, l = .request r ∧ s'.calls = s.calls ++ [r.start env s.store.nextUuid])) ∨
    ∃ i pc pc', s.calls[i]? = some pc ∧ Advances env s.store pc s'.store pc' ∧ s'.calls = s.calls.set i pc' ∧
      (l = .advance i ∨ ∃ message, l = .fail i message ∧ s'.store = s.store) := by
  cases l with
  | request r =>
    cases h
    exact .inl ⟨rfl, rfl, Nat.le_succ _, rfl, .inr ⟨r, rfl, rfl⟩⟩
  | advance i =>
    simp only [step] at h
    split at h
    · rename_i pc hpc
      split at h
      · cases h
      · rename_i hdone
        cases h
        exact .inr ⟨i, pc, _, hpc, advance_cases (by simpa using hdone), rfl, .inl rfl⟩
    · cases h
  | fail i message =>
    simp only [step] at h
    split at h
    · rename_i pc hpc
      split at h
      · cases h
      · cases h
        exact .inr ⟨i, pc, _, hpc, .throws _, rfl, .inr ⟨message, rfl, rfl⟩⟩
    · cases h
  | elapse ms =>
    cases h
    exact .inl ⟨rfl, rfl, le_rfl, rfl, .inl rfl⟩

theorem ok_init (rows : List TargetRow) (nextUuid : Uuid) (now : Time) : Ok env (init rows nextUuid now) :=
  ⟨List.nodup_nil, by simp [init], by simp [init], by simp [init], by simp [init, applications], by simp [init]⟩

theorem start_known (env : TargetEnv) (r : TargetRequest) (nonce : Nat) :
    (r.start env nonce).Sound env ∧ (r.start env nonce).review = none ∧ (r.start env nonce).applying = none := by
  cases r with
  | createTarget payload actor => exact startCreate_sound nonce payload actor
  | _ => exact ⟨trivial, rfl, rfl⟩

theorem Ok.step (h : Ok env s) (hs : TargetSys.step env s l = some s') : Ok env s' := by
  rcases step_cases hs with ⟨hreqs, hwrites, hnext, -, hcalls⟩ | ⟨i, pc, pc', hi, hadv, hcalls, -⟩
  · have hlater : Later s.store.requests s'.store.requests := .of_eq hreqs
    have hcount : ∀ k, applications s'.store s'.calls k = applications s.store s.calls k := by
      intro k
      rcases hcalls with hcalls | ⟨r, -, hcalls⟩ <;> rw [applications, applications, hwrites, hcalls]
      rw [List.countP_append]
      simp [(start_known env r s.store.nextUuid).2.2]
    refine ⟨hreqs ▸ h.ids, fun r hr => Nat.lt_of_lt_of_le (h.drawn r (hreqs ▸ hr)) hnext, hreqs ▸ h.merged, ?_,
      fun k => ?_, ?_⟩
    · rcases hcalls with hcalls | ⟨r, -, hcalls⟩ <;> rw [hcalls]
      · exact fun pc hpc => (h.known pc hpc).mono hlater
      · refine List.forall_mem_concat h.known (fun _ hk => hk.mono hlater) ?_
        obtain ⟨hsound, hreview, -⟩ := start_known env r s.store.nextUuid
        exact ⟨hsound, fun _ hr => by rw [hreview] at hr; cases hr⟩
    · rw [hcount, hreqs]
      exact h.applied k
    · rw [hwrites, hreqs]
      exact h.approved
  have hpc := h.known pc (List.mem_of_getElem? hi)
  have hlater := hadv.later h.ids
  obtain ⟨hids, hdrawn, -⟩ := hadv.ids h.ids h.drawn
  refine ⟨hids, hdrawn, ?_, ?_, fun k => ?_, ?_⟩
  · exact hadv.merged hpc h.merged
  · rw [hcalls]
    exact List.forall_mem_set h.known (fun _ hk => hk.mono hlater) (hadv.known hpc h.ids)
  · obtain ⟨hone, hzero⟩ := h.applied k
    have hset := List.countP_set_add (b := pc') (fun pc => decide (pc.applying = some k)) hi
    simp only [decide_eq_true_eq] at hset
    rw [applications] at hone hzero ⊢
    rw [hcalls]
    rcases hadv.applications h.ids k with hle | ⟨hnot, hnow, hwrites⟩
    · refine ⟨by omega, fun hna => ?_⟩
      have hbefore := hzero fun hact => hna (hlater.actioned hact)
      omega
    · -- the request was pending, so nothing had applied it
      have hbefore := hzero hnot
      refine ⟨?_, fun hna => absurd hnow hna⟩
      rw [hwrites]
      have hle : (if pc'.applying = some k then 1 else 0) ≤ 1 := by split <;> omega
      omega
  · intro w hw k hk
    rcases hadv.approved hpc w hw with hold | hnew
    · obtain ⟨r, hr, hid, hpay, hpatch, happ⟩ := h.approved w hold k hk
      obtain ⟨r', hr', hid', -, hpay', hpatch', happ', -⟩ := hlater.kept r hr
      exact ⟨r', hr', hid'.trans hid, hpay'.trans hpay, hpatch'.trans hpatch, happ' happ⟩
    · exact hnew k hk

theorem write_some {w : TargetWrite} (hw : s.write l = some w) : ∃ pc ∈ s.calls, pc.write s.store = some w := by
  cases l with
  | advance i =>
    obtain ⟨pc, hi, hpc⟩ := Option.bind_eq_some_iff.1 hw
    exact ⟨pc, List.mem_of_getElem? hi, hpc⟩
  | _ => cases hw

end TargetSys

end CronMonitor.Targets
