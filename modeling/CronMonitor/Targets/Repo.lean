import CronMonitor.Repo.Audit

/-!
# Targets and change requests

The tables of `monitored-apis.repo.ts` and `config-requests.repo.ts`. A target is the 28 columns that a write
carries, in the type `TargetWriteModel`; what a reader of the row gets (`MonitoredApi`) has no credentials in
it. JSON columns are the text that is stored, and `numeric` columns are rationals. `request_body` is the only one
in which SQL `NULL` and the JSON value `null` both occur: a reader gets the same for the two, and a write that has a
body stores JSON. Constraints other than the four-eyes check are left to the statements that may throw.

`TargetStore.writes` and `ConfigChangeRequest.patch` are observations: no statement reads them.
-/

namespace CronMonitor

def EndpointClass.label : EndpointClass → String
  | .paymentInitiation => "payment_initiation"
  | .paymentStatus => "payment_status"
  | .ledger => "ledger"
  | .settlement => "settlement"
  | .pspGateway => "psp_gateway"
  | .kyc => "kyc"
  | .auth => "auth"
  | .notification => "notification"
  | .reporting => "reporting"
  | .internal => "internal"
  | .utilityVending => "utility_vending"

namespace Targets

inductive Environment
  | production | staging | sandbox
deriving DecidableEq, Repr

inductive HttpMethod
  | get | post | put | patch | delete | head
deriving DecidableEq, Repr

inductive AuthType
  | none | apiKey | bearer | basic | customHeader | oauth2
deriving DecidableEq, Repr

abbrev Json := String

/-- Encrypted credentials, as the JSON text that is stored. -/
abbrev CredentialEnvelope := Json

structure RetryConfig where
  count : Nat
  baseDelayMs : Nat
  backoffMultiplier : ℚ
  maxDelayMs : Nat
deriving DecidableEq, Repr

/-- What a target has apart from its credentials and its request body. -/
structure TargetSettings where
  name : String
  description : Option String
  environment : Environment
  endpointClass : EndpointClass
  severityDefault : Severity
  isMoneyMoving : Bool
  url : String
  method : HttpMethod
  authenticationType : AuthType
  headers : List (String × String)
  expectedStatus : Option Nat
  expectedResponse : Option Json
  timeoutMs : Nat
  frequencyCron : String
  retry : RetryConfig
  slaTargetPercent : ℚ
  ownerId : Option Uuid
  teamId : Option Uuid
  escalationPolicyId : Option Uuid
  tags : List String
  isActive : Bool
  allowPrivateNetwork : Bool
  bypassMinIntervalFloor : Bool
deriving DecidableEq, Repr

/-- A target as its readers get it, without its credentials. -/
structure TargetConfig extends TargetSettings where
  requestBody : Json
deriving DecidableEq, Repr

/-- A target ready to persist: a request body that is `undefined` is stored as SQL `NULL`. -/
structure TargetWriteModel extends TargetSettings where
  encryptedCredentials : Option CredentialEnvelope
  requestBody : Option Json
deriving DecidableEq, Repr

structure MonitoredApi extends TargetConfig where
  id : Uuid
  hasCredentials : Bool
deriving DecidableEq, Repr

/-- A row of `monitored_apis`. -/
structure TargetRow where
  id : Uuid
  columns : TargetWriteModel
deriving DecidableEq, Repr

def Json.null : Json := "null"

/-- `null` is what the driver gives for SQL `NULL` and for the JSON value `null`. -/
def TargetRow.toDomain (r : TargetRow) : MonitoredApi where
  toTargetSettings := r.columns.toTargetSettings
  requestBody := r.columns.requestBody.getD Json.null
  id := r.id
  hasCredentials := r.columns.encryptedCredentials.isSome

structure PartialRetry where
  count : Option Nat
  baseDelayMs : Option Nat
  backoffMultiplier : Option ℚ
  maxDelayMs : Option Nat
deriving DecidableEq, Repr

/-- `updateTargetSchema`: a field is `none` when the body does not have it, `some none` when it is `null`; the
request body is any JSON value. -/
structure UpdateTargetPayload where
  name : Option String
  description : Option (Option String)
  environment : Option Environment
  endpointClass : Option EndpointClass
  severityDefault : Option Severity
  isMoneyMoving : Option Bool
  url : Option String
  method : Option HttpMethod
  authenticationType : Option AuthType
  credentials : Option (Option (List (String × String)))
  headers : Option (List (String × String))
  requestBody : Option Json
  expectedStatus : Option (Option Nat)
  expectedResponse : Option (Option Json)
  timeoutMs : Option Nat
  frequencyCron : Option String
  retry : Option PartialRetry
  slaTargetPercent : Option ℚ
  ownerId : Option (Option Uuid)
  teamId : Option (Option Uuid)
  escalationPolicyId : Option (Option Uuid)
  tags : Option (List String)
  isActive : Option Bool
  allowPrivateNetwork : Option Bool
  bypassMinIntervalFloor : Option Bool
deriving DecidableEq, Repr

/-- `createTargetSchema`: four fields are required. -/
structure CreateTargetPayload where
  name : String
  endpointClass : EndpointClass
  url : String
  frequencyCron : String
  optional : UpdateTargetPayload
deriving DecidableEq, Repr

inductive ConfigRequestKind
  | targetCreate | targetUpdate
deriving DecidableEq, Repr

inductive ConfigRequestStatus
  | pending | approved | rejected | applied | failed
deriving DecidableEq, Repr

def ConfigRequestStatus.label : ConfigRequestStatus → String
  | .pending => "PENDING"
  | .approved => "APPROVED"
  | .rejected => "REJECTED"
  | .applied => "APPLIED"
  | .failed => "FAILED"

/-- The payload of an update, and the target and credentials it was merged with. -/
structure TargetPatch where
  payload : UpdateTargetPayload
  existing : TargetConfig
  existingEnvelope : Option CredentialEnvelope
deriving DecidableEq, Repr

/-- The columns that hold what was read. -/
def TargetPatch.read (p : TargetPatch) : TargetWriteModel where
  toTargetSettings := p.existing.toTargetSettings
  encryptedCredentials := p.existingEnvelope
  requestBody := some p.existing.requestBody

/-- A row of `config_change_requests`. -/
structure ConfigChangeRequest where
  id : Uuid
  kind : ConfigRequestKind
  targetId : Option Uuid
  status : ConfigRequestStatus
  payload : TargetWriteModel
  summary : String
  proposedBy : Uuid
  reviewedBy : Option Uuid
  reviewNote : Option String
  reviewedAt : Option Time
  appliedAt : Option Time
  error : Option String
  patch : Option TargetPatch
deriving DecidableEq, Repr

structure ConfigRequestInput where
  kind : ConfigRequestKind
  targetId : Option Uuid
  payload : TargetWriteModel
  summary : String
  proposedBy : Uuid
  patch : Option TargetPatch
deriving DecidableEq, Repr

/-- Where a write comes from: the request it applies, and the patch. -/
structure WriteOrigin where
  request : Option Uuid
  patch : Option TargetPatch
deriving DecidableEq, Repr

/-- A committed write of a row of `monitored_apis`. -/
structure TargetWrite where
  targetId : Uuid
  before : Option TargetWriteModel
  after : TargetWriteModel
  origin : WriteOrigin
deriving DecidableEq, Repr

structure TargetStore where
  targets : List TargetRow
  requests : List ConfigChangeRequest
  auditLogs : List AuditLog
  nextUuid : Uuid
  now : Time
  writes : List TargetWrite
deriving DecidableEq, Repr

namespace TargetStore

def findRow (id : Uuid) (st : TargetStore) : Option TargetRow := st.targets.find? (·.id = id)

def findTargetById (id : Uuid) (st : TargetStore) : Option MonitoredApi := (st.findRow id).map TargetRow.toDomain

def findTargetCredentialEnvelope (id : Uuid) (st : TargetStore) : Option CredentialEnvelope :=
  (st.findRow id).bind (·.columns.encryptedCredentials)

def createTarget (model : TargetWriteModel) (origin : WriteOrigin) (st : TargetStore) : MonitoredApi × TargetStore :=
  ((TargetRow.mk st.nextUuid model).toDomain,
    { st with
      targets := st.targets ++ [⟨st.nextUuid, model⟩]
      nextUuid := st.nextUuid + 1
      writes := st.writes ++ [⟨st.nextUuid, none, model, origin⟩] })

/-- The row `r` gets the columns `model`. -/
def writeRow (r : TargetRow) (model : TargetWriteModel) (origin : WriteOrigin) (st : TargetStore) :
    MonitoredApi × TargetStore :=
  ((TargetRow.mk r.id model).toDomain,
    { st with
      targets := st.targets.map fun t => if t.id = r.id then ⟨t.id, model⟩ else t
      writes := st.writes ++ [⟨r.id, some r.columns, model, origin⟩] })

/-- `UPDATE monitored_apis SET` all columns of the model. -/
def updateTarget (id : Uuid) (model : TargetWriteModel) (origin : WriteOrigin) (st : TargetStore) :
    Option (MonitoredApi × TargetStore) := (st.findRow id).map fun r => st.writeRow r model origin

/-- `UPDATE monitored_apis SET is_active = $1`. -/
def setTargetActive (id : Uuid) (isActive : Bool) (st : TargetStore) : Option (MonitoredApi × TargetStore) :=
  (st.findRow id).map fun r => st.writeRow r { r.columns with isActive := isActive } ⟨none, none⟩

def recordAudit (e : AuditEntry) (st : TargetStore) : TargetStore := { st with auditLogs := st.auditLogs ++ [e.toLog] }

def createConfigRequest (i : ConfigRequestInput) (st : TargetStore) : ConfigChangeRequest × TargetStore :=
  let request : ConfigChangeRequest := {
    id := st.nextUuid, kind := i.kind, targetId := i.targetId, status := .pending, payload := i.payload
    summary := i.summary, proposedBy := i.proposedBy, reviewedBy := none, reviewNote := none, reviewedAt := none
    appliedAt := none, error := none, patch := i.patch }
  (request, { st with nextUuid := st.nextUuid + 1, requests := st.requests ++ [request] })

def getConfigRequest (id : Uuid) (st : TargetStore) : Option ConfigChangeRequest := st.requests.find? (·.id = id)

/-- The row with the given id is rewritten by `f`. -/
def mapRequest (id : Uuid) (f : ConfigChangeRequest → ConfigChangeRequest) (st : TargetStore) : TargetStore :=
  { st with requests := st.requests.map fun r => if r.id = id then f r else r }

def reviewedRow (reviewedBy : Uuid) (status : ConfigRequestStatus) (note : Option String) (now : Time)
    (r : ConfigChangeRequest) : ConfigChangeRequest :=
  { r with status := status, reviewedBy := some reviewedBy, reviewNote := note, reviewedAt := some now }

/-- `… WHERE id = $1 AND status = 'PENDING'`; the constraint `config_change_requests_four_eyes` makes it throw. -/
def markReviewed (id reviewedBy : Uuid) (status : ConfigRequestStatus) (note : Option String) (st : TargetStore) :
    Except String (Option ConfigChangeRequest × TargetStore) :=
  match st.getConfigRequest id with
  | some r =>
    if r.status ≠ .pending then .ok (none, st)
    else if r.proposedBy = reviewedBy then
      .error "new row for relation \"config_change_requests\" violates check constraint \"config_change_requests_four_eyes\""
    else .ok (some (reviewedRow reviewedBy status note st.now r),
      st.mapRequest id (reviewedRow reviewedBy status note st.now))
  | none => .ok (none, st)

def markApplied (id : Uuid) (st : TargetStore) : TargetStore :=
  st.mapRequest id fun r => { r with status := .applied, appliedAt := some st.now }

def markFailed (id : Uuid) (error : String) (st : TargetStore) : TargetStore :=
  st.mapRequest id fun r => { r with status := .failed, error := some error }

end TargetStore

end Targets

end CronMonitor
