import CronMonitor.Targets.Repo

/-!
# `target.service.ts` and `config-request.service.ts`

`TargetPc` is the statement at which a call is suspended, with what the call has read so far; a transaction is
one statement. `exec` runs it and the code up to the next one, and what it throws goes to `onThrow`, which is
the `catch` block of `reviewChangeRequest` or the caller.
-/

namespace CronMonitor.Targets

/-- Configuration, and the checks that lie outside: the cron parser, the resolver behind `assertUrlAllowed`, the
cipher, and the JSON text of a target in the audit trail. -/
structure TargetEnv where
  authEnabled : Bool
  defaultCheckTimeoutMs : Nat
  cronError : String → Option String
  intervalSeconds : String → Int
  urlBlocked : String → Bool → Option String
  encryptCredentials : List (String × String) → Nat → CredentialEnvelope
  redact : MonitoredApi → Json

inductive TargetError
  | notFound (message : String)
  | validation (message : String) (hint : Option String)
  | forbidden (message : String)
  | database (message : String)
deriving DecidableEq, Repr

def TargetError.message : TargetError → String
  | .notFound m | .validation m _ | .forbidden m | .database m => m

def Environment.label : Environment → String
  | .production => "production"
  | .staging => "staging"
  | .sandbox => "sandbox"

def defaultSeverityByClass : EndpointClass → Severity
  | .paymentInitiation | .paymentStatus | .ledger | .settlement | .pspGateway => .critical
  | .kyc | .auth | .utilityVending => .high
  | .notification => .medium
  | .reporting | .internal => .low

def moneyMovingMinIntervalSeconds : Nat := 300

def defaultSlaTargetPercent : ℚ := 9995 / 100

def defaultRetry : RetryConfig := { count := 2, baseDelayMs := 1000, backoffMultiplier := 2, maxDelayMs := 5000 }

def mergeRetry (base : RetryConfig) (patch : Option PartialRetry) : RetryConfig where
  count := (patch.bind (·.count)).getD base.count
  baseDelayMs := (patch.bind (·.baseDelayMs)).getD base.baseDelayMs
  backoffMultiplier := (patch.bind (·.backoffMultiplier)).getD base.backoffMultiplier
  maxDelayMs := (patch.bind (·.maxDelayMs)).getD base.maxDelayMs

/-- `none` leaves the credentials as they are, `some none` clears them. -/
def resolveCredentials (env : TargetEnv) (nonce : Nat) :
    Option (Option (List (String × String))) → Option (Option CredentialEnvelope)
  | none => none
  | some none => some none
  | some (some []) => some none
  | some (some credentials) => some (some (env.encryptCredentials credentials nonce))

def assertScheduleAllowed (env : TargetEnv) (frequencyCron : String) (isMoneyMoving bypassFloor : Bool) :
    Except TargetError Unit := do
  if let some cause := env.cronError frequencyCron then
    throw (.validation s!"Invalid cron expression \"{frequencyCron}\": {cause}" none)
  if isMoneyMoving && !bypassFloor then
    let seconds := env.intervalSeconds frequencyCron
    if seconds > moneyMovingMinIntervalSeconds then
      throw (.validation
        (s!"Money-moving targets must be checked at least every {moneyMovingMinIntervalSeconds}s " ++
          s!"(spec Rule 16); \"{frequencyCron}\" runs every {seconds}s. Set bypassMinIntervalFloor " ++
          "to override (audited, still requires four-eyes approval for money-moving targets).") none)

def assertUrlAllowedOrThrow (env : TargetEnv) (url : String) (allowPrivateNetwork : Bool) : Except TargetError Unit :=
  match env.urlBlocked url allowPrivateNetwork with
  | some message => throw (.validation message (some "set allowPrivateNetwork=true to override (audited)"))
  | none => pure ()

/-- The two checks of a model before it is written or proposed. -/
def assertAllowed (env : TargetEnv) (model : TargetWriteModel) : Except TargetError Unit := do
  assertScheduleAllowed env model.frequencyCron model.isMoneyMoving model.bypassMinIntervalFloor
  assertUrlAllowedOrThrow env model.url model.allowPrivateNetwork

def fourEyesRequired (env : TargetEnv) (isMoneyMoving : Bool) : Bool := isMoneyMoving && env.authEnabled

def buildCreateModel (env : TargetEnv) (nonce : Nat) (payload : CreateTargetPayload) : TargetWriteModel where
  name := payload.name
  description := payload.optional.description.join
  environment := payload.optional.environment.getD .production
  endpointClass := payload.endpointClass
  severityDefault := payload.optional.severityDefault.getD (defaultSeverityByClass payload.endpointClass)
  isMoneyMoving := payload.optional.isMoneyMoving.getD false
  url := payload.url
  method := payload.optional.method.getD .get
  authenticationType := payload.optional.authenticationType.getD .none
  encryptedCredentials := (resolveCredentials env nonce payload.optional.credentials).join
  headers := payload.optional.headers.getD []
  requestBody := payload.optional.requestBody
  expectedStatus := payload.optional.expectedStatus.join
  expectedResponse := payload.optional.expectedResponse.join
  timeoutMs := payload.optional.timeoutMs.getD env.defaultCheckTimeoutMs
  frequencyCron := payload.frequencyCron
  retry := mergeRetry defaultRetry payload.optional.retry
  slaTargetPercent := payload.optional.slaTargetPercent.getD defaultSlaTargetPercent
  ownerId := payload.optional.ownerId.join
  teamId := payload.optional.teamId.join
  escalationPolicyId := payload.optional.escalationPolicyId.join
  tags := payload.optional.tags.getD []
  isActive := payload.optional.isActive.getD true
  allowPrivateNetwork := payload.optional.allowPrivateNetwork.getD false
  bypassMinIntervalFloor := payload.optional.bypassMinIntervalFloor.getD false

def mergeUpdateModel (env : TargetEnv) (nonce : Nat) (existing : TargetConfig)
    (existingEnvelope : Option CredentialEnvelope) (payload : UpdateTargetPayload) : TargetWriteModel where
  name := payload.name.getD existing.name
  description := payload.description.getD existing.description
  environment := payload.environment.getD existing.environment
  endpointClass := payload.endpointClass.getD existing.endpointClass
  severityDefault := payload.severityDefault.getD existing.severityDefault
  isMoneyMoving := payload.isMoneyMoving.getD existing.isMoneyMoving
  url := payload.url.getD existing.url
  method := payload.method.getD existing.method
  authenticationType := payload.authenticationType.getD existing.authenticationType
  encryptedCredentials := (resolveCredentials env nonce payload.credentials).getD existingEnvelope
  headers := payload.headers.getD existing.headers
  requestBody := some (payload.requestBody.getD existing.requestBody)
  expectedStatus := payload.expectedStatus.getD existing.expectedStatus
  expectedResponse := payload.expectedResponse.getD existing.expectedResponse
  timeoutMs := payload.timeoutMs.getD existing.timeoutMs
  frequencyCron := payload.frequencyCron.getD existing.frequencyCron
  retry := mergeRetry existing.retry payload.retry
  slaTargetPercent := payload.slaTargetPercent.getD existing.slaTargetPercent
  ownerId := payload.ownerId.getD existing.ownerId
  teamId := payload.teamId.getD existing.teamId
  escalationPolicyId := payload.escalationPolicyId.getD existing.escalationPolicyId
  tags := payload.tags.getD existing.tags
  isActive := payload.isActive.getD existing.isActive
  allowPrivateNetwork := payload.allowPrivateNetwork.getD existing.allowPrivateNetwork
  bypassMinIntervalFloor := payload.bypassMinIntervalFloor.getD existing.bypassMinIntervalFloor

/-! ### Audit entries -/

def targetCreatedEntry (env : TargetEnv) (created : MonitoredApi) (actor : AuditActor) (note : Option String) :
    AuditEntry where
  actor := actor
  action := "target.created"
  entityType := "monitored_api"
  entityId := some created.id
  summary := some (s!"Registered target \"{created.name}\" ({created.endpointClass.label}, {created.environment.label})" ++
    (note.map (" — " ++ ·)).getD "")
  changes := some s!"\x7b\"after\":{env.redact created}\x7d"

def targetUpdatedEntry (env : TargetEnv) (existing updated : MonitoredApi) (actor : AuditActor) (note : Option String) :
    AuditEntry where
  actor := actor
  action := "target.updated"
  entityType := "monitored_api"
  entityId := some updated.id
  summary := some (s!"Updated target \"{updated.name}\"" ++ (note.map (" — " ++ ·)).getD "")
  changes := some s!"\x7b\"before\":{env.redact existing},\"after\":{env.redact updated}\x7d"

def targetEnabledEntry (updated : MonitoredApi) (isActive : Bool) (actor : AuditActor) : AuditEntry where
  actor := actor
  action := if isActive then "target.enabled" else "target.disabled"
  entityType := "monitored_api"
  entityId := some updated.id
  summary := some ((if isActive then "Enabled" else "Disabled") ++ s!" monitoring for \"{updated.name}\"")
  changes := none

def configRequestEntry (actor : AuditActor) (action : String) (id : Uuid) (summary : String) : AuditEntry where
  actor := actor
  action := action
  entityType := "config_change_request"
  entityId := some id
  summary := some summary
  changes := none

/-! ### Transactions -/

def persistTargetCreate (env : TargetEnv) (model : TargetWriteModel) (actor : AuditActor) (note : Option String)
    (origin : WriteOrigin) (st : TargetStore) : MonitoredApi × TargetStore :=
  let (created, st) := st.createTarget model origin
  (created, st.recordAudit (targetCreatedEntry env created actor note))

def persistTargetUpdate (env : TargetEnv) (id : Uuid) (model : TargetWriteModel) (existing : MonitoredApi)
    (actor : AuditActor) (note : Option String) (origin : WriteOrigin) (st : TargetStore) :
    Except TargetError (MonitoredApi × TargetStore) :=
  match st.updateTarget id model origin with
  | some (updated, st) => .ok (updated, st.recordAudit (targetUpdatedEntry env existing updated actor note))
  | none => .error (.notFound s!"Target {id} not found")

def setTargetEnabled (id : Uuid) (isActive : Bool) (actor : AuditActor) (st : TargetStore) :
    Except TargetError (MonitoredApi × TargetStore) :=
  match st.setTargetActive id isActive with
  | some (updated, st) => .ok (updated, st.recordAudit (targetEnabledEntry updated isActive actor))
  | none => .error (.notFound s!"Target {id} not found")

/-! ### Calls -/

inductive Decision
  | approved | rejected
deriving DecidableEq, Repr

def Decision.status : Decision → ConfigRequestStatus
  | .approved => .approved
  | .rejected => .rejected

inductive TargetRequest
  | createTarget (payload : CreateTargetPayload) (actor : AuditActor)
  | updateTarget (id : Uuid) (payload : UpdateTargetPayload) (actor : AuditActor)
  | setTargetEnabled (id : Uuid) (isActive : Bool) (actor : AuditActor)
  | reviewChangeRequest (id : Uuid) (decision : Decision) (note : Option String) (actor : AuditActor)
deriving DecidableEq, Repr

inductive TargetResult
  | target (target : MonitoredApi)
  | pendingApproval (request : ConfigChangeRequest)
  | reviewed (request : Option ConfigChangeRequest)
deriving DecidableEq, Repr

inductive TargetPc
  | createConfigRequest (input : ConfigRequestInput) (actor : AuditActor)
  | auditProposed (request : ConfigChangeRequest) (actor : AuditActor)
  | persistCreate (model : TargetWriteModel) (actor : AuditActor)
  | findTarget (id : Uuid) (payload : UpdateTargetPayload) (actor : AuditActor)
  | findEnvelope (existing : MonitoredApi) (payload : UpdateTargetPayload) (actor : AuditActor)
  | persistUpdate (existing : MonitoredApi) (model : TargetWriteModel) (patch : TargetPatch) (actor : AuditActor)
  | setEnabled (id : Uuid) (isActive : Bool) (actor : AuditActor)
  | getRequest (id : Uuid) (decision : Decision) (note : Option String) (actor : AuditActor)
  | markReviewed (id reviewer : Uuid) (decision : Decision) (note : Option String) (actor : AuditActor)
  | auditReview (reviewed : ConfigChangeRequest) (decision : Decision) (note : Option String) (actor : AuditActor)
  | applyCreate (reviewed : ConfigChangeRequest) (actor : AuditActor)
  | findExisting (reviewed : ConfigChangeRequest) (targetId : Uuid) (actor : AuditActor)
  | applyUpdate (reviewed : ConfigChangeRequest) (existing : MonitoredApi) (actor : AuditActor)
  | markApplied (reviewed : ConfigChangeRequest) (actor : AuditActor)
  | rereadApplied (reviewed : ConfigChangeRequest) (actor : AuditActor)
  | markFailed (reviewed : ConfigChangeRequest) (message : String) (actor : AuditActor)
  | auditFailed (reviewed : ConfigChangeRequest) (message : String) (actor : AuditActor)
  | rereadFailed (id : Uuid)
  | returned (result : TargetResult)
  | thrown (error : TargetError)
deriving DecidableEq, Repr

def TargetPc.isDone : TargetPc → Bool
  | .returned _ | .thrown _ => true
  | _ => false

/-- Where control goes when the statement throws: the `try` block of an approval begins with the apply. -/
def TargetPc.onThrow (e : TargetError) : TargetPc → TargetPc
  | .applyCreate reviewed actor => .markFailed reviewed e.message actor
  | .findExisting reviewed _ actor => .markFailed reviewed e.message actor
  | .applyUpdate reviewed _ actor => .markFailed reviewed e.message actor
  | .markApplied reviewed actor => .markFailed reviewed e.message actor
  | .rereadApplied reviewed actor => .markFailed reviewed e.message actor
  | _ => .thrown e

/-- The code of `createTarget` up to its first statement. -/
def startCreate (env : TargetEnv) (nonce : Nat) (payload : CreateTargetPayload) (actor : AuditActor) : TargetPc :=
  let model := buildCreateModel env nonce payload
  match assertAllowed env model with
  | .error e => .thrown e
  | .ok _ =>
    if fourEyesRequired env model.isMoneyMoving then
      match actor.userId with
      | none => .thrown (.validation "A named user is required to propose this change" none)
      | some userId => .createConfigRequest {
          kind := .targetCreate, targetId := none, payload := model
          summary := s!"Register money-moving target \"{model.name}\" ({model.endpointClass.label})"
          proposedBy := userId, patch := none } actor
    else .persistCreate model actor

/-- The code of `updateTarget` after its two reads. -/
def afterReads (env : TargetEnv) (nonce : Nat) (existing : MonitoredApi) (envelope : Option CredentialEnvelope)
    (payload : UpdateTargetPayload) (actor : AuditActor) : TargetPc :=
  let model := mergeUpdateModel env nonce existing.toTargetConfig envelope payload
  let patch : TargetPatch := ⟨payload, existing.toTargetConfig, envelope⟩
  match assertAllowed env model with
  | .error e => .thrown e
  | .ok _ =>
    -- the target is money-moving now, or would become so
    if fourEyesRequired env (existing.isMoneyMoving || model.isMoneyMoving) then
      match actor.userId with
      | none => .thrown (.validation "A named user is required to propose this change" none)
      | some userId => .createConfigRequest {
          kind := .targetUpdate, targetId := some existing.id, payload := model
          summary := s!"Change money-moving target \"{existing.name}\""
          proposedBy := userId, patch := some patch } actor
    else .persistUpdate existing model patch actor

/-- The checks of `reviewChangeRequest` on the request it read. -/
def checkRequest (request : ConfigChangeRequest) (decision : Decision) (note : Option String) (actor : AuditActor) :
    Except TargetError TargetPc := do
  if request.status ≠ .pending then throw (.validation s!"Request is already {request.status.label}" none)
  match actor.userId with
  | none => throw (.validation "A named reviewer is required" none)
  | some reviewer =>
    if reviewer = request.proposedBy then
      throw (.forbidden "The proposer cannot approve their own change (four-eyes)")
    return .markReviewed request.id reviewer decision note actor

/-- The code after the review was audited. -/
def afterReview (reviewed : ConfigChangeRequest) (decision : Decision) (actor : AuditActor) : TargetPc :=
  match decision, reviewed.kind, reviewed.targetId with
  | .rejected, _, _ => .returned (.reviewed (some reviewed))
  | .approved, .targetCreate, _ => .applyCreate reviewed actor
  | .approved, .targetUpdate, some targetId => .findExisting reviewed targetId actor
  | .approved, .targetUpdate, none => .markFailed reviewed "Target no longer exists" actor

def applyNote (reviewed : ConfigChangeRequest) : String :=
  s!"via approval {reviewed.id} (proposed by {reviewed.proposedBy})"

def reviewSummary (reviewed : ConfigChangeRequest) (decision : Decision) (note : Option String) : String :=
  s!"{decision.status.label} — {reviewed.summary}" ++ ((note.filter (· ≠ "")).map fun n => s!" ({n})").getD ""

/-- Run the statement of a call, and the code up to its next one. -/
def exec (env : TargetEnv) (st : TargetStore) : TargetPc → Except TargetError (TargetStore × TargetPc)
  | .createConfigRequest input actor =>
    let (request, st) := st.createConfigRequest input
    .ok (st, .auditProposed request actor)
  | .auditProposed request actor =>
    .ok (st.recordAudit (configRequestEntry actor "config_request.proposed" request.id request.summary),
      .returned (.pendingApproval request))
  | .persistCreate model actor =>
    let (created, st) := persistTargetCreate env model actor none ⟨none, none⟩ st
    .ok (st, .returned (.target created))
  | .findTarget id payload actor =>
    match st.findTargetById id with
    | some existing => .ok (st, .findEnvelope existing payload actor)
    | none => .error (.notFound s!"Target {id} not found")
  | .findEnvelope existing payload actor =>
    .ok ({ st with nextUuid := st.nextUuid + 1 },
      afterReads env st.nextUuid existing (st.findTargetCredentialEnvelope existing.id) payload actor)
  | .persistUpdate existing model patch actor => do
    let (updated, st) ← persistTargetUpdate env existing.id model existing actor none ⟨none, some patch⟩ st
    return (st, .returned (.target updated))
  | .setEnabled id isActive actor => do
    let (updated, st) ← setTargetEnabled id isActive actor st
    return (st, .returned (.target updated))
  | .getRequest id decision note actor =>
    match st.getConfigRequest id with
    | some request => do return (st, ← checkRequest request decision note actor)
    | none => .error (.notFound s!"Config change request {id} not found")
  | .markReviewed id reviewer decision note actor =>
    match st.markReviewed id reviewer decision.status note with
    | .ok (some reviewed, st) => .ok (st, .auditReview reviewed decision note actor)
    | .ok (none, _) => .error (.validation "Request could not be reviewed (already actioned?)" none)
    | .error message => .error (.database message)
  | .auditReview reviewed decision note actor =>
    .ok (st.recordAudit (configRequestEntry actor
        (match decision with | .approved => "config_request.approved" | .rejected => "config_request.rejected")
        reviewed.id (reviewSummary reviewed decision note)),
      afterReview reviewed decision actor)
  | .applyCreate reviewed actor =>
    let (_, st) := persistTargetCreate env reviewed.payload actor (some (applyNote reviewed))
      ⟨some reviewed.id, reviewed.patch⟩ st
    .ok (st, .markApplied reviewed actor)
  | .findExisting reviewed targetId actor =>
    match st.findTargetById targetId with
    | some existing => .ok (st, .applyUpdate reviewed existing actor)
    | none => .error (.notFound "Target no longer exists")
  | .applyUpdate reviewed existing actor => do
    let (_, st) ← persistTargetUpdate env existing.id reviewed.payload existing actor (some (applyNote reviewed))
      ⟨some reviewed.id, reviewed.patch⟩ st
    return (st, .markApplied reviewed actor)
  | .markApplied reviewed actor => .ok (st.markApplied reviewed.id, .rereadApplied reviewed actor)
  | .rereadApplied reviewed _ => .ok (st, .returned (.reviewed (st.getConfigRequest reviewed.id)))
  | .markFailed reviewed message actor => .ok (st.markFailed reviewed.id message, .auditFailed reviewed message actor)
  | .auditFailed reviewed message actor =>
    .ok (st.recordAudit (configRequestEntry actor "config_request.apply_failed" reviewed.id
      s!"Failed to apply: {message}"), .rereadFailed reviewed.id)
  | .rereadFailed id => .ok (st, .returned (.reviewed (st.getConfigRequest id)))
  | .returned result => .ok (st, .returned result)
  | .thrown error => .ok (st, .thrown error)

/-- A statement that throws leaves the store as it was. -/
def advance (env : TargetEnv) (st : TargetStore) (pc : TargetPc) : TargetStore × TargetPc :=
  match exec env st pc with
  | .ok next => next
  | .error e => (st, pc.onThrow e)

def TargetRequest.start (env : TargetEnv) (nonce : Nat) : TargetRequest → TargetPc
  | .createTarget payload actor => startCreate env nonce payload actor
  | .updateTarget id payload actor => .findTarget id payload actor
  | .setTargetEnabled id isActive actor => .setEnabled id isActive actor
  | .reviewChangeRequest id decision note actor => .getRequest id decision note actor

/-! ### Interleaved calls -/

structure TargetSys where
  store : TargetStore
  calls : List TargetPc
deriving DecidableEq, Repr

inductive TargetLabel
  | request (r : TargetRequest)
  /-- the statement of the `i`-th call runs -/
  | advance (i : Nat)
  /-- the statement of the `i`-th call throws -/
  | fail (i : Nat) (message : String)
  | elapse (ms : Nat)
deriving DecidableEq, Repr

/-- The call whose statement throws. -/
def TargetLabel.fault : TargetLabel → Option Nat
  | .fail i _ => some i
  | _ => none

namespace TargetSys

/-- A server with the targets `rows` and no change requests. Identifiers are drawn from `nextUuid` on. -/
def init (rows : List TargetRow) (nextUuid : Uuid) (now : Time) : TargetSys := ⟨⟨rows, [], [], nextUuid, now, []⟩, []⟩

def step (env : TargetEnv) (s : TargetSys) : TargetLabel → Option TargetSys
  | .request r => some ⟨{ s.store with nextUuid := s.store.nextUuid + 1 }, s.calls ++ [r.start env s.store.nextUuid]⟩
  | .advance i =>
    match s.calls[i]? with
    | some pc => if pc.isDone then none else some ⟨(advance env s.store pc).1, s.calls.set i (advance env s.store pc).2⟩
    | none => none
  | .fail i message =>
    match s.calls[i]? with
    | some pc => if pc.isDone then none else some ⟨s.store, s.calls.set i (pc.onThrow (.database message))⟩
    | none => none
  | .elapse ms => some { s with store := { s.store with now := s.store.now + ms } }

end TargetSys

/-! ### A server with one target -/

def TargetEnv.plain : TargetEnv where
  authEnabled := true
  defaultCheckTimeoutMs := 10000
  cronError := fun _ => none
  intervalSeconds := fun _ => 60
  urlBlocked := fun _ _ => none
  encryptCredentials := fun _ nonce => s!"envelope {nonce}"
  redact := fun target => s!"\x7b\"name\":\"{target.name}\"\x7d"

/-- An update with an empty body. -/
def UpdateTargetPayload.empty : UpdateTargetPayload :=
  ⟨none, none, none, none, none, none, none, none, none, none, none, none, none, none, none, none, none, none, none,
    none, none, none, none, none, none⟩

/-- A payouts endpoint, money-moving or not. -/
def TargetWriteModel.payouts (isMoneyMoving : Bool) : TargetWriteModel :=
  buildCreateModel .plain 0 ⟨"Payouts", .paymentInitiation, "https://api.test/payouts", "* * * * *",
    { UpdateTargetPayload.empty with isMoneyMoving := some isMoneyMoving }⟩

end CronMonitor.Targets
