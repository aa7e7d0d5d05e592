import CronMonitor.Targets.Requests

/-!
# What a patch leaves alone

A write carries the row as it was merged when the target was read, an approved one as it was merged when it was
proposed. A column that the payload does not set therefore gets the value that was read then: it keeps the value it
has exactly when that is still the same. A `request_body` that is SQL `NULL` never is: it reads as `null`, and is
written back as the JSON value.
-/

namespace CronMonitor.Targets

open Runs

/-- The columns that a write carries. -/
inductive TargetColumn
  | name | description | environment | endpointClass | severityDefault | isMoneyMoving | url | method
  | authenticationType | credentials | headers | requestBody | expectedStatus | expectedResponse | timeoutMs
  | frequencyCron | retryCount | retryBaseDelayMs | retryBackoffMultiplier | retryMaxDelayMs | slaTargetPercent
  | ownerId | teamId | escalationPolicyId | tags | isActive | allowPrivateNetwork | bypassMinIntervalFloor
deriving DecidableEq, Repr

variable {env : TargetEnv} {st : TargetStore} {pc : TargetPc}

namespace TargetColumn

def all : List TargetColumn :=
  [name, description, environment, endpointClass, severityDefault, isMoneyMoving, url, method, authenticationType,
    credentials, headers, requestBody, expectedStatus, expectedResponse, timeoutMs, frequencyCron, retryCount,
    retryBaseDelayMs, retryBackoffMultiplier, retryMaxDelayMs, slaTargetPercent, ownerId, teamId, escalationPolicyId,
    tags, isActive, allowPrivateNetwork, bypassMinIntervalFloor]

theorem mem_all (c : TargetColumn) : c ∈ all := by cases c <;> decide

instance {p : TargetColumn → Prop} [DecidablePred p] : Decidable (∀ c, p c) :=
  decidable_of_iff (∀ c ∈ all, p c) ⟨fun h c => h c (mem_all c), fun h c _ => h c⟩

abbrev Value : TargetColumn → Type
  | name | url | frequencyCron => String
  | description => Option String
  | environment => Environment
  | endpointClass => EndpointClass
  | severityDefault => Severity
  | method => HttpMethod
  | authenticationType => AuthType
  | credentials => Option CredentialEnvelope
  | headers => List (String × String)
  | requestBody | expectedResponse => Option Json
  | expectedStatus => Option Nat
  | timeoutMs | retryCount | retryBaseDelayMs | retryMaxDelayMs => Nat
  | retryBackoffMultiplier | slaTargetPercent => ℚ
  | ownerId | teamId | escalationPolicyId => Option Uuid
  | tags => List String
  | isMoneyMoving | isActive | allowPrivateNetwork | bypassMinIntervalFloor => Bool

instance : ∀ c : TargetColumn, DecidableEq c.Value
  | name | url | frequencyCron => inferInstanceAs (DecidableEq String)
  | description => inferInstanceAs (DecidableEq (Option String))
  | environment => inferInstanceAs (DecidableEq Environment)
  | endpointClass => inferInstanceAs (DecidableEq EndpointClass)
  | severityDefault => inferInstanceAs (DecidableEq Severity)
  | method => inferInstanceAs (DecidableEq HttpMethod)
  | authenticationType => inferInstanceAs (DecidableEq AuthType)
  | credentials => inferInstanceAs (DecidableEq (Option CredentialEnvelope))
  | headers => inferInstanceAs (DecidableEq (List (String × String)))
  | requestBody | expectedResponse => inferInstanceAs (DecidableEq (Option Json))
  | expectedStatus => inferInstanceAs (DecidableEq (Option Nat))
  | timeoutMs | retryCount | retryBaseDelayMs | retryMaxDelayMs => inferInstanceAs (DecidableEq Nat)
  | retryBackoffMultiplier | slaTargetPercent => inferInstanceAs (DecidableEq ℚ)
  | ownerId | teamId | escalationPolicyId => inferInstanceAs (DecidableEq (Option Uuid))
  | tags => inferInstanceAs (DecidableEq (List String))
  | isMoneyMoving | isActive | allowPrivateNetwork | bypassMinIntervalFloor => inferInstanceAs (DecidableEq Bool)

def get : (c : TargetColumn) → TargetWriteModel → c.Value
  | name, m => m.name
  | description, m => m.description
  | environment, m => m.environment
  | endpointClass, m => m.endpointClass
  | severityDefault, m => m.severityDefault
  | isMoneyMoving, m => m.isMoneyMoving
  | url, m => m.url
  | method, m => m.method
  | authenticationType, m => m.authenticationType
  | credentials, m => m.encryptedCredentials
  | headers, m => m.headers
  | requestBody, m => m.requestBody
  | expectedStatus, m => m.expectedStatus
  | expectedResponse, m => m.expectedResponse
  | timeoutMs, m => m.timeoutMs
  | frequencyCron, m => m.frequencyCron
  | retryCount, m => m.retry.count
  | retryBaseDelayMs, m => m.retry.baseDelayMs
  | retryBackoffMultiplier, m => m.retry.backoffMultiplier
  | retryMaxDelayMs, m => m.retry.maxDelayMs
  | slaTargetPercent, m => m.slaTargetPercent
  | ownerId, m => m.ownerId
  | teamId, m => m.teamId
  | escalationPolicyId, m => m.escalationPolicyId
  | tags, m => m.tags
  | isActive, m => m.isActive
  | allowPrivateNetwork, m => m.allowPrivateNetwork
  | bypassMinIntervalFloor, m => m.bypassMinIntervalFloor

end TargetColumn

/-- The payload has the field. -/
def UpdateTargetPayload.sets (p : UpdateTargetPayload) : TargetColumn → Bool
  | .name => p.name.isSome
  | .description => p.description.isSome
  | .environment => p.environment.isSome
  | .endpointClass => p.endpointClass.isSome
  | .severityDefault => p.severityDefault.isSome
  | .isMoneyMoving => p.isMoneyMoving.isSome
  | .url => p.url.isSome
  | .method => p.method.isSome
  | .authenticationType => p.authenticationType.isSome
  | .credentials => p.credentials.isSome
  | .headers => p.headers.isSome
  | .requestBody => p.requestBody.isSome
  | .expectedStatus => p.expectedStatus.isSome
  | .expectedResponse => p.expectedResponse.isSome
  | .timeoutMs => p.timeoutMs.isSome
  | .frequencyCron => p.frequencyCron.isSome
  | .retryCount => (p.retry.bind (·.count)).isSome
  | .retryBaseDelayMs => (p.retry.bind (·.baseDelayMs)).isSome
  | .retryBackoffMultiplier => (p.retry.bind (·.backoffMultiplier)).isSome
  | .retryMaxDelayMs => (p.retry.bind (·.maxDelayMs)).isSome
  | .slaTargetPercent => p.slaTargetPercent.isSome
  | .ownerId => p.ownerId.isSome
  | .teamId => p.teamId.isSome
  | .escalationPolicyId => p.escalationPolicyId.isSome
  | .tags => p.tags.isSome
  | .isActive => p.isActive.isSome
  | .allowPrivateNetwork => p.allowPrivateNetwork.isSome
  | .bypassMinIntervalFloor => p.bypassMinIntervalFloor.isSome

/-- A column that the payload does not set has the value that was read. -/
theorem TargetPatch.Merges.get {p : TargetPatch} {model : TargetWriteModel} {c : TargetColumn} (h : p.Merges env model)
    (hc : p.payload.sets c = false) : c.get model = c.get p.read := by
  obtain ⟨nonce, rfl⟩ := h
  have hnone : ∀ {α : Type} {o : Option α}, o.isSome = false → o = none := Option.not_isSome_iff_eq_none.1 ∘ by simp
  cases c <;> have hc := hnone hc <;> 
    simp [TargetColumn.get, TargetPatch.read, mergeUpdateModel, mergeRetry, resolveCredentials, hc]

/-- The columns that the write is to change: those of its payload, or `is_active`. -/
def TargetWrite.sets (w : TargetWrite) (c : TargetColumn) : Bool :=
  match w.origin.patch with
  | some p => p.payload.sets c
  | none => c = .isActive

/-- The write leaves the other columns of the row as it finds them. -/
def TargetWrite.KeepsUnset (w : TargetWrite) : Prop := ∀ row ∈ w.before, ∀ c, w.sets c = false → c.get w.after = c.get row

/-- The write was merged with a target that reads as the row is, in the columns it is not to change. -/
def TargetWrite.ReadCurrent (w : TargetWrite) : Prop :=
  ∀ p ∈ w.origin.patch, ∀ row ∈ w.before, ∀ c, p.payload.sets c = false → c.get p.read = c.get row

instance (w : TargetWrite) : Decidable w.ReadCurrent :=
  inferInstanceAs (Decidable (∀ p ∈ w.origin.patch, ∀ row ∈ w.before, ∀ c, p.payload.sets c = false →
    c.get p.read = c.get row))

theorem TargetWrite.keepsUnset_of_patch {w : TargetWrite} {p : TargetPatch} (hp : w.origin.patch = some p)
    (hm : p.Merges env w.after) : w.KeepsUnset ↔ w.ReadCurrent := by
  have hread : ∀ c, p.payload.sets c = false → c.get w.after = c.get p.read := fun c hc => hm.get hc
  simp only [KeepsUnset, ReadCurrent, sets, hp, Option.mem_def, Option.some.injEq, forall_eq']
  refine forall₃_congr fun row _ c => forall_congr' fun hc => ?_
  rw [hread c hc]

/-- What the write of a call is merged with, if it has a patch. -/
theorem TargetPc.Known.keepsUnset_iff {w : TargetWrite} (h : pc.Known env st) (hm : ∀ r ∈ st.requests, r.Merged env)
    (hw : pc.write st = some w) : w.KeepsUnset ↔ w.ReadCurrent := by
  cases pc with
  | persistCreate model actor =>
    cases hw
    exact iff_of_true (fun _ h => nomatch h) (fun _ h => nomatch h)
  | persistUpdate existing model patch actor =>
    obtain ⟨row, -, rfl⟩ := Option.map_eq_some_iff.1 hw
    exact TargetWrite.keepsUnset_of_patch rfl h.1.1
  | setEnabled id isActive actor =>
    obtain ⟨row, -, rfl⟩ := Option.map_eq_some_iff.1 hw
    refine iff_of_true ?_ fun _ h => nomatch h
    rintro _ ⟨⟩ c hc
    cases c <;> first | rfl | cases hc
  | applyCreate reviewed actor =>
    cases hw
    exact iff_of_true (fun _ h => nomatch h) (fun _ _ _ h => nomatch h)
  | applyUpdate reviewed existing actor =>
    obtain ⟨row, -, rfl⟩ := Option.map_eq_some_iff.1 hw
    obtain ⟨r, hr, -, hkind, hpay, hpatch, -⟩ := h.2 reviewed rfl
    obtain ⟨hmerges, hsome⟩ := hm r hr
    obtain ⟨p, hp⟩ := Option.ne_none_iff_exists'.1 (hsome (hkind.trans h.1))
    exact TargetWrite.keepsUnset_of_patch (hpatch ▸ hp) (hpay ▸ hmerges p hp)
  | _ => cases hw

def NoLostUpdate (st : TargetStore) : Prop := ∀ w ∈ st.writes, w.KeepsUnset

/-- A write finds the columns that its payload does not set as they were when it was merged. -/
def ReadsCurrent (s : TargetSys) (l : TargetLabel) : Prop := ∀ w ∈ s.write l, w.ReadCurrent

instance (s : TargetSys) (l : TargetLabel) : Decidable (ReadsCurrent s l) :=
  inferInstanceAs (Decidable (∀ w ∈ s.write l, w.ReadCurrent))

namespace TargetSys

variable {s s' : TargetSys} {l : TargetLabel} {tr : List TargetLabel}

theorem Ok.noLostUpdate_step (h : Ok env s) (hs : TargetSys.step env s l = some s') :
    NoLostUpdate s'.store ↔ NoLostUpdate s.store ∧ ReadsCurrent s l := by
  have hnew : (∀ w ∈ s.write l, w.KeepsUnset) ↔ ReadsCurrent s l := by
    refine forall₂_congr fun w hw => ?_
    obtain ⟨pc, hmem, hpc⟩ := write_some hw
    exact (h.known pc hmem).keepsUnset_iff h.merged hpc
  rw [← hnew, NoLostUpdate, NoLostUpdate, step_writes hs]
  simp [or_imp, forall_and]

/-- No update is lost in a run exactly when every write of it found the row as it was merged. -/
theorem no_lost_update_iff {rows : List TargetRow} {nextUuid : Uuid} {now : Time}
    (hr : run (step env) (init rows nextUuid now) tr = some s) :
    NoLostUpdate s.store ↔ Along (step env) (fun s l _ => ReadsCurrent s l) (init rows nextUuid now) tr := by
  have hstart : NoLostUpdate (init rows nextUuid now).store := by simp [NoLostUpdate, init]
  have hlast := last_iff_along (P := fun s => NoLostUpdate s.store) (C := fun s l _ => ReadsCurrent s l)
    (ok_init rows nextUuid now) (fun s l s' hok hs => ⟨hok.step hs, hok.noLostUpdate_step hs⟩) hr
  rw [hlast]
  exact and_iff_right hstart

/-- A new name for a money-moving target. -/
def proposal : List TargetLabel :=
  [.request (.updateTarget 1 { UpdateTargetPayload.empty with name := some "Payouts v2" } (.user 7)), .advance 0,
    .advance 0, .advance 0, .advance 0]

/-- The same for a target that is not money-moving. A body that it does not have becomes `null`. -/
example : (run (step .plain) (init [⟨1, .payouts false⟩] 10 0) (proposal.take 4)).map
    (fun s => s.store.targets.map fun t => (t.columns.name, t.columns.requestBody)) =
      some [("Payouts v2", some Json.null)] := by decide +kernel

/-- A payouts endpoint that is sent a body. -/
def payoutsRow : TargetRow := ⟨1, { TargetWriteModel.payouts true with requestBody := some "[\"A-1\"]" }⟩

def approval (i : Nat) : List TargetLabel :=
  .request (.reviewChangeRequest 12 .approved none (.user 8)) :: List.replicate 7 (.advance i)

def disabling (i : Nat) : List TargetLabel := [.request (.setTargetEnabled 1 false (.user 7)), .advance i]

theorem no_lost_update_approved : ∃ s,
    run (step .plain) (init [payoutsRow] 10 0) (proposal ++ approval 1 ++ disabling 2) = some s ∧
      s.store.targets.map (fun t => (t.columns.name, t.columns.isActive)) = [("Payouts v2", false)] ∧
      NoLostUpdate s.store := by
  obtain ⟨s, hr, hs⟩ := Option.map_eq_some_iff.1 (show
    (run (step .plain) (init [payoutsRow] 10 0) (proposal ++ approval 1 ++ disabling 2)).map
      (fun s => s.store.targets.map fun t => (t.columns.name, t.columns.isActive)) = some [("Payouts v2", false)] by
        decide +kernel)
  exact ⟨s, hr, hs, (no_lost_update_iff hr).2 (by decide +kernel)⟩

/-- Disabled between proposal and approval, the target is enabled again by the approval. -/
theorem no_lost_update_reenabled : ¬ ∀ (env : TargetEnv) (rows : List TargetRow) (nextUuid : Uuid) (now : Time)
    (tr : List TargetLabel) (s : TargetSys), run (step env) (init rows nextUuid now) tr = some s →
      NoLostUpdate s.store := by
  intro h
  obtain ⟨s, hr, hs⟩ := Option.map_eq_some_iff.1 (show
    (run (step .plain) (init [payoutsRow] 10 0) (proposal ++ disabling 1 ++ approval 2)).map
      (fun s => s.store.writes.map fun w => (w.before.map (·.isActive), w.after.isActive, w.sets .isActive)) =
        some [(some true, false, true), (some false, true, false)] by decide +kernel)
  have hmem : (some false, true, false) ∈
      s.store.writes.map fun w => (w.before.map (·.isActive), w.after.isActive, w.sets .isActive) := by simp [hs]
  obtain ⟨w, hw, heq⟩ := List.mem_map.1 hmem
  obtain ⟨hbefore, hrest⟩ := Prod.mk.inj heq
  obtain ⟨hafter, hsets⟩ := Prod.mk.inj hrest
  obtain ⟨row, hrow, hfalse⟩ := Option.map_eq_some_iff.1 hbefore
  have hkept := h .plain _ _ _ _ s hr w hw row hrow .isActive hsets
  simp [TargetColumn.get, hafter, hfalse] at hkept

end TargetSys

end CronMonitor.Targets
