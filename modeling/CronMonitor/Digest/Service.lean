import CronMonitor.Alerts.Service

/-!
# Health digests

`health-digests.repo.ts` and `health-digest.service.ts`. The status board is kept as its query returns it. How a time is
written, the texts of the email and of the routine SMS, and what the channels answer come from outside; the texts go
to the channels alone.
-/

namespace CronMonitor.Digest

open Alerts
open Text (trim)

inductive SystemHealthLevel
  | healthy | degraded | critical
deriving DecidableEq, Repr

def SystemHealthLevel.label : SystemHealthLevel → String
  | .healthy => "HEALTHY"
  | .degraded => "DEGRADED"
  | .critical => "CRITICAL"

/-- A row of the status board. -/
structure TargetStatusRow where
  name : String
  endpointClass : EndpointClass
  environment : String
  isMoneyMoving : Bool
  isActive : Bool
  status : Option HealthStatus
  lastActualRunAt : Option Time
  lastResponseMs : Option Nat
  uptime24h : Option ℚ
  openIncidentId : Option Uuid
deriving DecidableEq

structure AffectedService where
  name : String
  status : HealthStatus
  endpointClass : EndpointClass
  isMoneyMoving : Bool
deriving DecidableEq, Repr

structure HealthDigest where
  id : Uuid
  generatedAt : Time
  overallLevel : SystemHealthLevel
  previousLevel : Option SystemHealthLevel
  totalServices : Nat
  healthyServices : Nat
  degradedServices : Nat
  downServices : Nat
  affected : List AffectedService
  smsSent : Bool
  smsRecipients : Nat
  emailSent : Bool
  emailRecipients : Nat
  reason : String
  nextCheckAt : Option Time
deriving DecidableEq, Repr

/-- A row of `notification_contacts`, as digests read it. -/
structure DigestContact where
  channel : AlertChannel
  address : String
  digest : Bool
  digestEveryRun : Bool
  isActive : Bool
deriving DecidableEq, Repr

structure DigestStore where
  board : List TargetStatusRow
  contacts : List DigestContact
  /-- `health_digests`, in insertion order -/
  digests : List HealthDigest
  nextUuid : Uuid
  now : Time

structure DigestEnv where
  smsDigestEnabled : Bool
  smsStatusBroadcastEnabled : Bool
  smsDigestRecipients : Option String
  smsDigestIntervalMinutes : Nat
  smsStatusIntervalMinutes : Nat
  smsDigestLabel : String
  formatTime : Time → String

/-- What the channels answer for an address. -/
structure DigestWorld where
  sms : String → Channels.DeliveryResult
  email : String → Channels.DeliveryResult

namespace DigestStore

/-- `… ORDER BY generated_at DESC LIMIT 1`. -/
def latestDigest (st : DigestStore) : Option HealthDigest :=
  st.digests.foldl (fun best d =>
    match best with
    | none => some d
    | some b => if b.generatedAt ≤ d.generatedAt then some d else some b) none

def digestContacts (channel : AlertChannel) (st : DigestStore) : List DigestContact :=
  (st.contacts.filter fun c => c.isActive && c.digest && c.channel = channel).insertionSort fun a b => a.address ≤ b.address

/-- The row that `saveDigest` inserts, for an input with the identifier and the time still open. -/
def saveDigest (input : HealthDigest) (st : DigestStore) : HealthDigest × DigestStore :=
  let row := { input with id := st.nextUuid, generatedAt := st.now }
  (row, { st with digests := st.digests ++ [row], nextUuid := st.nextUuid + 1 })

end DigestStore

/-! ### The level -/

def isHealthy (status : Option HealthStatus) : Bool := status = some .up

def rollUp (services : List TargetStatusRow) : SystemHealthLevel :=
  let anyCriticalDown := services.any fun s =>
    s.status = some .down && (s.isMoneyMoving || s.endpointClass = .paymentStatus)
  if anyCriticalDown then .critical
  else if services.any fun s => !isHealthy s.status then .degraded
  else .healthy

/-- Rule A: `decide`, whether to send and why. -/
def decideSend (current : SystemHealthLevel) (previous : Option SystemHealthLevel) : Bool × String :=
  match previous with
  | none =>
    if current = .healthy then (false, "first digest — system HEALTHY, no routine SMS")
    else (true, s!"first digest — system is {current.label}")
  | some previous =>
    if previous = current then (false, s!"no change (still {current.label})")
    else (true, s!"{previous.label} → {current.label}")

/-! ### The digest -/

structure DigestSnapshot where
  overallLevel : SystemHealthLevel
  previousLevel : Option SystemHealthLevel
  totalServices : Nat
  healthyServices : Nat
  degradedServices : Nat
  downServices : Nat
  affected : List AffectedService
  services : List TargetStatusRow
  shouldSend : Bool
  reason : String
  message : String
  nextCheckAt : Time

/-- Money-moving services first, `DOWN` before the others. -/
def affectedBefore (a b : AffectedService) : Bool :=
  if a.isMoneyMoving ≠ b.isMoneyMoving then a.isMoneyMoving else a.status = .down || b.status ≠ .down

def affectedServices (services : List TargetStatusRow) : List AffectedService :=
  ((services.filter fun s => !isHealthy s.status).map fun s =>
    ⟨s.name, s.status.getD .unknown, s.endpointClass, s.isMoneyMoving⟩).insertionSort (affectedBefore · ·)

def levelText : SystemHealthLevel → String
  | .healthy => "✅ HEALTHY"
  | .degraded => "⚠️ DEGRADED"
  | .critical => "🔴 CRITICAL"

def commaList (names : List String) : String := ", ".intercalate names

/-- The line on the services that need attention. -/
def attentionLines (level : SystemHealthLevel) (affected : List AffectedService) : List String :=
  let down := (affected.filter (·.status = .down)).map (·.name)
  let other := (affected.filter (·.status ≠ .down)).map (·.name)
  if level = .critical ∧ down ≠ [] then
    s!"Critical: {commaList down} DOWN." :: if other = [] then [] else [s!"Also degraded: {commaList other}."]
  else
    let names := down ++ other
    let n := names.length
    let plural := if n = 1 then "" else "s"
    let verb := if n = 1 then "needs" else "need"
    [s!"{n} service{plural} {verb} attention: {commaList names}."]

def composeMessage (env : DigestEnv) (now nextCheckAt : Time) (overallLevel : SystemHealthLevel)
    (previousLevel : Option SystemHealthLevel) (totalServices healthyServices : Nat) (affected : List AffectedService) :
    String :=
  let body :=
    if overallLevel = .healthy then
      s!"All {totalServices} services healthy." ::
        match previousLevel with
        | some .degraded => ["Recovered from DEGRADED."]
        | some .critical => ["Recovered from CRITICAL."]
        | _ => []
    else s!"{healthyServices}/{totalServices} services healthy." :: attentionLines overallLevel affected
  "\n".intercalate ([s!"{env.smsDigestLabel} – {env.formatTime now}", s!"Status: {levelText overallLevel}"] ++ body ++
    [s!"Next check: {env.formatTime nextCheckAt}."])

def buildDigest (env : DigestEnv) (now : Time) (st : DigestStore) : DigestSnapshot :=
  let services := st.board.filter fun t => t.isActive && t.status.isSome
  let overallLevel := rollUp services
  let previousLevel := st.latestDigest.map (·.overallLevel)
  let healthyServices := services.countP fun s => isHealthy s.status
  let affected := affectedServices services
  let nextCheckAt := now + env.smsDigestIntervalMinutes * 60000
  { overallLevel, previousLevel, healthyServices, affected, services, nextCheckAt
    totalServices := services.length
    degradedServices := services.countP fun s => s.status = some .degraded || s.status = some .unknown
    downServices := services.countP fun s => s.status = some .down
    shouldSend := (decideSend overallLevel previousLevel).1
    reason := (decideSend overallLevel previousLevel).2
    message := composeMessage env now nextCheckAt overallLevel previousLevel services.length healthyServices affected }

/-! ### Recipients -/

structure SmsRecipient where
  address : String
  everyRun : Bool
deriving DecidableEq, Repr

/-- One recipient for each number, the first. -/
def dedupByDigits : List String → List SmsRecipient → List SmsRecipient
  | _, [] => []
  | seen, r :: rest =>
    let key := String.ofList (r.address.toList.filter Char.isDigit)
    if key ∈ seen then dedupByDigits seen rest else r :: dedupByDigits (key :: seen) rest

def smsRecipientList (env : DigestEnv) (st : DigestStore) : List SmsRecipient :=
  let envList := (((env.smsDigestRecipients.getD "").splitOn ",").map trim).filter (· ≠ "")
  dedupByDigits [] ((st.digestContacts .sms).map (fun c => ⟨c.address, c.digestEveryRun⟩) ++ envList.map (⟨·, false⟩))

/-! ### The runs -/

/-- How many sends succeeded, and the text on all of them. -/
def sendAll (name : String) (send : String → Channels.DeliveryResult) (addresses : List String) : Nat × String :=
  let outcomes := addresses.map send
  let ok := outcomes.countP (·.ok)
  let details := "; ".intercalate (outcomes.map (·.detail))
  (ok, s!"{name} → {ok}/{addresses.length}: {details}")

/-- The SMS of a digest: how many were sent, and what is recorded about it. -/
def digestSms (env : DigestEnv) (w : DigestWorld) (snap : DigestSnapshot) (st : DigestStore) : Nat × List String :=
  let smsList := smsRecipientList env st
  let targets := smsList.filter fun r => snap.shouldSend || r.everyRun
  if targets = [] then (0, [if smsList = [] then "no SMS recipients" else "SMS: nothing to send this run"])
  else
    let sent := sendAll "SMS" w.sms (targets.map (·.address))
    (sent.1, [sent.2])

/-- The emails of a digest. -/
def digestEmail (w : DigestWorld) (snap : DigestSnapshot) (st : DigestStore) : Nat × List String :=
  let targets := (st.digestContacts .email).filter fun c => snap.shouldSend || c.digestEveryRun
  if targets = [] then (0, [])
  else
    let sent := sendAll "Email" w.email (targets.map (·.address))
    (sent.1, [sent.2])

def evaluateDigest (env : DigestEnv) (w : DigestWorld) (now : Time) (st : DigestStore) : HealthDigest × DigestStore :=
  let snap := buildDigest env now st
  let sms := if env.smsDigestEnabled then digestSms env w snap st else (0, [])
  let email := if env.smsDigestEnabled then digestEmail w snap st else (0, [])
  st.saveDigest {
    id := 0
    generatedAt := 0
    overallLevel := snap.overallLevel
    previousLevel := snap.previousLevel
    totalServices := snap.totalServices
    healthyServices := snap.healthyServices
    degradedServices := snap.degradedServices
    downServices := snap.downServices
    affected := snap.affected
    smsSent := 0 < sms.1
    smsRecipients := sms.1
    emailSent := 0 < email.1
    emailRecipients := email.1
    reason := " | ".intercalate (snap.reason :: sms.2 ++ email.2)
    nextCheckAt := some snap.nextCheckAt }

/-- The SMS of a routine broadcast. -/
def broadcastSms (env : DigestEnv) (w : DigestWorld) (st : DigestStore) : Nat × List String :=
  if env.smsStatusBroadcastEnabled && env.smsDigestEnabled then
    let recipients := smsRecipientList env st
    if recipients = [] then (0, ["no SMS recipients"])
    else
      let sent := sendAll "SMS" w.sms (recipients.map (·.address))
      (sent.1, [sent.2])
  else (0, ["broadcast disabled"])

def broadcastStatusSms (env : DigestEnv) (w : DigestWorld) (now : Time) (st : DigestStore) : HealthDigest × DigestStore :=
  let snap := buildDigest env now st
  let sms := broadcastSms env w st
  st.saveDigest {
    id := 0
    generatedAt := 0
    overallLevel := snap.overallLevel
    previousLevel := some snap.overallLevel
    totalServices := snap.totalServices
    healthyServices := snap.healthyServices
    degradedServices := snap.degradedServices
    downServices := snap.downServices
    affected := snap.affected
    smsSent := 0 < sms.1
    smsRecipients := sms.1
    emailSent := false
    emailRecipients := 0
    reason := " | ".intercalate ("routine SMS status broadcast" :: sms.2)
    nextCheckAt := some (now + env.smsStatusIntervalMinutes * 60000) }

end CronMonitor.Digest
