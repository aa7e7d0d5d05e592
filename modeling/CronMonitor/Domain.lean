import Mathlib.Tactic

/-!
# The domain vocabulary

The enumerations of `src/domain/enums.ts` and the records that the scheduler, the job runner and the
incident state machine read. Identifiers drawn with `gen_random_uuid` are natural numbers, instants are
milliseconds since the epoch. A record keeps the fields that some modelled function reads or writes.
-/

namespace CronMonitor

abbrev Uuid := Nat

/-- Milliseconds since the epoch. -/
abbrev Time := Int

inductive HealthStatus
  | up | down | degraded | unknown
deriving DecidableEq, Repr

def HealthStatus.label : HealthStatus → String
  | .up => "UP"
  | .down => "DOWN"
  | .degraded => "DEGRADED"
  | .unknown => "UNKNOWN"

/-- `DOWN` or `DEGRADED`. -/
def HealthStatus.isFailing : HealthStatus → Bool
  | .down | .degraded => true
  | .up | .unknown => false

inductive CheckFailureType
  | timeout | dnsError | connectionError | tlsError | http4xx | http5xx | authenticationError
  | validationError | settlementMismatch | reconciliationFailure | rateLimited | partialDegradation | unknown
deriving DecidableEq, Repr

def CheckFailureType.label : CheckFailureType → String
  | .timeout => "TIMEOUT"
  | .dnsError => "DNS_ERROR"
  | .connectionError => "CONNECTION_ERROR"
  | .tlsError => "TLS_ERROR"
  | .http4xx => "HTTP_4XX"
  | .http5xx => "HTTP_5XX"
  | .authenticationError => "AUTHENTICATION_ERROR"
  | .validationError => "VALIDATION_ERROR"
  | .settlementMismatch => "SETTLEMENT_MISMATCH"
  | .reconciliationFailure => "RECONCILIATION_FAILURE"
  | .rateLimited => "RATE_LIMITED"
  | .partialDegradation => "PARTIAL_DEGRADATION"
  | .unknown => "UNKNOWN"

inductive CronRunStatus
  | running | success | failed | skippedLockContended | deadLettered
deriving DecidableEq, Repr

inductive IncidentStatus
  | opened | acknowledged | resolved
deriving DecidableEq, Repr

inductive IncidentType
  | outage | degradation | flapping
deriving DecidableEq, Repr

inductive Severity
  | critical | high | medium | low
deriving DecidableEq, Repr

def Severity.label : Severity → String
  | .critical => "CRITICAL"
  | .high => "HIGH"
  | .medium => "MEDIUM"
  | .low => "LOW"

inductive EndpointClass
  | paymentInitiation | paymentStatus | ledger | settlement | pspGateway | kyc | auth | notification
  | reporting | internal | utilityVending
deriving DecidableEq, Repr

inductive AlertType
  | apiDown | apiRecovered | apiDegraded | highLatency | authenticationFailure | repeatedFailure
  | flappingDetected | escalationTriggered | slaBreachWarning | schedulerHeartbeatMissed | jobExecutionFailure
deriving DecidableEq, Repr

inductive AlertChannel
  | email | sms | webhook | slack | teams | push | phone
deriving DecidableEq, Repr

/-- The position of a channel in the database enum, which orders it. -/
def AlertChannel.rank : AlertChannel → Nat
  | .email => 0
  | .sms => 1
  | .webhook => 2
  | .slack => 3
  | .teams => 4
  | .push => 5
  | .phone => 6

inductive AlertStatus
  | pending | sent | failed | suppressed
deriving DecidableEq, Repr

structure RetryConfig where
  count : Nat
  baseDelayMs : Nat
  backoffMultiplier : Nat
  maxDelayMs : Nat
deriving DecidableEq, Repr

/-- A monitored target (`MonitoredApi`). -/
structure MonitoredApi where
  id : Uuid
  name : String
  endpointClass : EndpointClass
  severityDefault : Severity
  isMoneyMoving : Bool
  timeoutMs : Nat
  frequencyCron : String
  retry : RetryConfig
deriving DecidableEq, Repr

/-- The request and response captured for one check; `raw` is what is stored encrypted. -/
structure RequestResponseTrace where
  requestMethod : String
  requestUrlMasked : String
  requestHeadersMasked : List (String × String)
  requestBodyMasked : Option String
  responseStatus : Option Nat
  responseHeadersMasked : List (String × String)
  responseBodyMasked : Option String
  responseBytes : Option Nat
  responseContentType : Option String
  responseTimeMs : Option Nat
  raw : String
deriving DecidableEq, Repr

structure HealthCheckOutcome where
  status : HealthStatus
  httpStatus : Option Nat
  responseTimeMs : Option Nat
  failureType : Option CheckFailureType
  errorMessage : Option String
  /-- The validation results, as the JSON text that is stored. -/
  validation : Option String
  attempts : Nat
  trace : Option RequestResponseTrace
  checkedAt : Time
deriving DecidableEq, Repr

/-- The environment variables the modelled functions read; the bounds are those of `EnvSchema`. -/
structure Env where
  schedulerLockTtlMs : Nat
  incidentRecoveryStreak : Nat
  flappingThreshold : Nat
  flappingWindowMinutes : Nat
  alertDefaultChannels : List AlertChannel
  alertDefaultRecipient : String
  lockTtl_pos : 0 < schedulerLockTtlMs
  recoveryStreak_pos : 1 ≤ incidentRecoveryStreak
  flappingThreshold_ge : 2 ≤ flappingThreshold
  flappingWindow_pos : 1 ≤ flappingWindowMinutes
  defaultChannels_ne : alertDefaultChannels ≠ []

/-- The defaults of `EnvSchema`. -/
def Env.default : Env where
  schedulerLockTtlMs := 15000
  incidentRecoveryStreak := 2
  flappingThreshold := 4
  flappingWindowMinutes := 10
  alertDefaultChannels := [.webhook]
  alertDefaultRecipient := "ops"
  lockTtl_pos := by decide
  recoveryStreak_pos := by decide
  flappingThreshold_ge := by decide
  flappingWindow_pos := by decide
  defaultChannels_ne := by decide

/-- `makeMonitoredApi()`, the target of the repository's own tests. -/
def makeMonitoredApi : MonitoredApi where
  id := 1
  name := "test target"
  endpointClass := .internal
  severityDefault := .low
  isMoneyMoving := false
  timeoutMs := 2000
  frequencyCron := "*/1 * * * *"
  retry := { count := 2, baseDelayMs := 10, backoffMultiplier := 2, maxDelayMs := 50 }

end CronMonitor
