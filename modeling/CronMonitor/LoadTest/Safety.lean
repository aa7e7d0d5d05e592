import CronMonitor.LoadTest.Runs
import CronMonitor.Lib.Text
import CronMonitor.Repo.Audit

/-!
# The load-test safety gate

`load-safety.ts`, the tables of `load-test-safety.repo.ts` and the calls of `safety.service.ts`. Of a monitored target
the columns are kept that load tests read. The text of a number and `new URL`, on the http and https URLs that
`assertUrlAllowed` lets a target have, are parameters; the audit trail is left out.
-/

namespace CronMonitor.LoadTest
open Targets (Environment)

structure Url where
  origin : String
  hostname : String
deriving DecidableEq, Repr

structure LoadCeiling where
  maxRps : ℚ
  maxVus : ℚ
  maxDurationSeconds : ℚ

structure HostLists where
  production : List String
  sandbox : List String
  mock : List String

structure LoadEnv where
  enabled : Bool
  hosts : HostLists
  ceilings : LoadEnvironmentClass → LoadCeiling
  realSideEffectMaxRps : ℚ
  maxWindowDays : Nat
  parseUrl : String → Option Url
  numberText : ℚ → String

structure SafetyTarget where
  url : String
  isMoneyMoving : Bool
  environment : Environment
deriving DecidableEq

structure SafetyConfig where
  environmentClass : LoadEnvironmentClass
  hasRealSideEffects : Bool
deriving DecidableEq

structure SafetyViolation where
  code : String
  message : String
deriving DecidableEq, Repr

structure SafetyDecision where
  allowed : Bool
  effectiveClass : Option LoadEnvironmentClass
  violations : List SafetyViolation

/-! ### The gate -/

def strictness : LoadEnvironmentClass → Nat
  | .mock => 0
  | .sandbox => 1
  | .staging => 2
  | .production => 3

def classFromEnvironment : Environment → LoadEnvironmentClass
  | .production => .production
  | .staging => .staging
  | .sandbox => .sandbox

/-- The stricter of the configured class and the monitor's own environment. -/
def effectiveOf (environment : Environment) (configured : LoadEnvironmentClass) : LoadEnvironmentClass :=
  let envClass := classFromEnvironment environment
  if configured ≠ .mock ∧ strictness envClass > strictness configured then envClass else configured

/-- The host without the brackets of an IPv6 literal. -/
def stripBrackets (host : String) : String :=
  let rest := if host.startsWith "[" then (host.drop 1).toString else host
  if rest.endsWith "]" then (rest.dropEnd 1).toString else rest

def hostOf (env : LoadEnv) (url : String) : Option String :=
  (env.parseUrl url).map fun u => stripBrackets u.hostname.toLower

/-- A violation if `bad`. -/
def violationIf (bad : Bool) (code message : String) : List SafetyViolation := if bad then [⟨code, message⟩] else []

@[simp] theorem violationIf_eq_nil {bad : Bool} {code message : String} :
    violationIf bad code message = [] ↔ bad = false := by
  cases bad <;> simp [violationIf]

def gateViolations (env : LoadEnv) (killSwitch : Bool) : List SafetyViolation :=
  violationIf (!env.enabled) "LOAD_TESTING_DISABLED" "Load testing is disabled (LOAD_TEST_ENABLED=false)." ++
    violationIf killSwitch "KILL_SWITCH" "The load-test kill switch is engaged."

def hostViolations (env : LoadEnv) (url : String) (effective : LoadEnvironmentClass) : List SafetyViolation :=
  let host := (hostOf env url).getD ""
  if host = "" then violationIf true "BAD_URL" "Target URL could not be parsed."
  else
    let isProdHost := host ∈ env.hosts.production
    let isSandboxHost := host ∈ env.hosts.sandbox
    violationIf (isProdHost && effective ≠ .production) "HOST_IS_PRODUCTION"
        s!"Host {host} is a production host but the class is {effective.label}." ++
      violationIf (effective = .mock && host ∉ env.hosts.mock) "HOST_NOT_MOCK"
        s!"Host {host} is not an allow-listed simulator host." ++
      violationIf ((effective = .sandbox || effective = .staging) && !isSandboxHost) "HOST_NOT_ALLOWLISTED"
        s!"Host {host} is not on the sandbox/staging allow-list." ++
      violationIf (effective = .production && !isProdHost && !isSandboxHost) "HOST_UNKNOWN"
        s!"Host {host} is not a known production host."

/-! Plan and caps are any finite numbers here. -/

namespace Gate

structure Plan where
  rps : ℚ
  vus : ℚ
  durationSeconds : ℚ
  mutating : Bool
  realSideEffects : Option Bool

structure Authorization where
  status : LoadAuthorizationStatus
  windowStart : Time
  windowEnd : Time
  maxRps : ℚ
  maxVus : ℚ
  maxDurationSeconds : ℚ
  allowRealSideEffects : Bool

/-- The hosts, ceilings and switches of the input are those of `LoadEnv`. -/
structure Input where
  now : Time
  killSwitch : Bool
  target : SafetyTarget
  config : Option SafetyConfig
  authorization : Option Authorization
  plan : Plan

def ceilingViolations (env : LoadEnv) (plan : Plan) (effective : LoadEnvironmentClass) : List SafetyViolation :=
  let ceiling := env.ceilings effective
  let rps := env.numberText plan.rps
  let vus := env.numberText plan.vus
  let duration := env.numberText plan.durationSeconds
  let maxRps := env.numberText ceiling.maxRps
  let maxVus := env.numberText ceiling.maxVus
  let maxDuration := env.numberText ceiling.maxDurationSeconds
  violationIf (plan.rps > ceiling.maxRps) "CEILING_RPS"
      s!"Plan rps {rps} exceeds the {effective.label} ceiling {maxRps}." ++
    violationIf (plan.vus > ceiling.maxVus) "CEILING_VUS"
      s!"Plan vus {vus} exceeds the {effective.label} ceiling {maxVus}." ++
    violationIf (plan.durationSeconds > ceiling.maxDurationSeconds) "CEILING_DURATION"
      s!"Plan duration {duration}s exceeds the {effective.label} ceiling {maxDuration}s."

/-- The checks of one authorization against the plan. -/
def authorizationViolations (env : LoadEnv) (now : Time) (plan : Plan) (a : Authorization) : List SafetyViolation :=
  let maxRps := env.numberText a.maxRps
  let maxVus := env.numberText a.maxVus
  let maxDuration := env.numberText a.maxDurationSeconds
  violationIf (a.status ≠ .approved) "AUTH_NOT_APPROVED" s!"Authorization is {a.status.label}, not APPROVED." ++
    violationIf (now < a.windowStart || (now : ℚ) + plan.durationSeconds * 1000 > a.windowEnd) "AUTH_OUTSIDE_WINDOW"
      "The run does not fit inside the authorized window." ++
    violationIf (plan.rps > a.maxRps) "AUTH_CAP_RPS" s!"Plan rps exceeds authorized {maxRps}." ++
    violationIf (plan.vus > a.maxVus) "AUTH_CAP_VUS" s!"Plan vus exceeds authorized {maxVus}." ++
    violationIf (plan.durationSeconds > a.maxDurationSeconds) "AUTH_CAP_DURATION"
      s!"Plan duration exceeds authorized {maxDuration}s."

def sideEffectViolations (env : LoadEnv) (plan : Plan) (a : Option Authorization) : List SafetyViolation :=
  let maxRps := env.numberText env.realSideEffectMaxRps
  violationIf (!a.any (·.allowRealSideEffects)) "REAL_SIDE_EFFECTS"
      ("This endpoint has real-world side effects even outside production; " ++
        "the authorization must explicitly allow them.") ++
    violationIf (plan.rps > env.realSideEffectMaxRps) "REAL_SIDE_EFFECTS_RPS"
      s!"Real-side-effect endpoints are capped at {maxRps} rps."

def evaluateLoadSafety (env : LoadEnv) (i : Input) : SafetyDecision :=
  match i.config with
  | none =>
    ⟨false, none, gateViolations env i.killSwitch ++
      [⟨"NO_CONFIG", "Target has no load-test environment classification (deny by default)."⟩]⟩
  | some config =>
    let configured := config.environmentClass
    let effective := effectiveOf i.target.environment configured
    let violations :=
      gateViolations env i.killSwitch ++
        violationIf (i.target.environment = .production && configured ≠ .production) "CLASS_DOWNGRADE"
          s!"Target environment is production but its load class is {configured.label}. Fix the classification." ++
        hostViolations env i.target.url effective ++
        violationIf (effective = .production && (i.target.isMoneyMoving || i.plan.mutating)) "PRODUCTION_STATE_CHANGING"
          "State-changing / money-moving load on PRODUCTION is never permitted." ++
        ceilingViolations env i.plan effective ++
        (if effective ≠ .mock then
          match i.authorization with
          | none => violationIf true "AUTH_REQUIRED" "No load-test authorization exists for this target."
          | some a => authorizationViolations env i.now i.plan a
        else []) ++
        (if (config.hasRealSideEffects || i.plan.realSideEffects = some true) && effective ≠ .mock then
          sideEffectViolations env i.plan i.authorization
        else [])
    ⟨violations.isEmpty, some effective, violations⟩

end Gate

/-! ### What its callers pass -/

structure SafetyAuthorization where
  status : LoadAuthorizationStatus
  windowStart : Time
  windowEnd : Time
  maxRps : Nat
  maxVus : Nat
  maxDurationSeconds : Nat
  allowRealSideEffects : Bool
deriving DecidableEq

structure PreflightPlan where
  rps : ℚ
  vus : Nat
  durationSeconds : Nat
  mutating : Bool
  realSideEffects : Bool
  durationSeconds_pos : 0 < durationSeconds

structure SafetyInput where
  now : Time
  killSwitch : Bool
  target : SafetyTarget
  config : Option SafetyConfig
  authorization : Option SafetyAuthorization
  plan : PreflightPlan

def Gate.Plan.ofPreflight (p : PreflightPlan) : Gate.Plan :=
  ⟨p.rps, p.vus, p.durationSeconds, p.mutating, some p.realSideEffects⟩

def Gate.Authorization.ofRow (a : SafetyAuthorization) : Gate.Authorization :=
  ⟨a.status, a.windowStart, a.windowEnd, a.maxRps, a.maxVus, a.maxDurationSeconds, a.allowRealSideEffects⟩

def Gate.Input.ofPreflight (i : SafetyInput) : Gate.Input :=
  ⟨i.now, i.killSwitch, i.target, i.config, i.authorization.map .ofRow, .ofPreflight i.plan⟩

def evaluateLoadSafety (env : LoadEnv) (i : SafetyInput) : SafetyDecision := Gate.evaluateLoadSafety env (.ofPreflight i)

/-! ### The tables -/

structure LoadTarget extends SafetyTarget where
  id : Uuid
  name : String
deriving DecidableEq

structure LoadTargetConfig extends SafetyConfig where
  apiId : Uuid
  updatedBy : Option Uuid
deriving DecidableEq

structure LoadAuthorization extends SafetyAuthorization where
  id : Uuid
  apiId : Uuid
  reference : String
  scope : String
  proposedBy : Uuid
  reviewedBy : Option Uuid
  reviewNote : Option String
  reviewedAt : Option Time
  revokedAt : Option Time
  revokedReason : Option String
  createdAt : Time
deriving DecidableEq

structure KillSwitchState where
  engaged : Bool
  reason : Option String
  setBy : Option Uuid
deriving DecidableEq

structure SafetyStore where
  targets : List LoadTarget
  configs : List LoadTargetConfig
  authorizations : List LoadAuthorization
  control : Option KillSwitchState
  nextUuid : Uuid
  now : Time
deriving DecidableEq

namespace SafetyStore

def findTargetById (st : SafetyStore) (id : Uuid) : Option LoadTarget := st.targets.find? (·.id = id)

def getTargetConfig (st : SafetyStore) (apiId : Uuid) : Option LoadTargetConfig := st.configs.find? (·.apiId = apiId)

def upsertTargetConfig (st : SafetyStore) (apiId : Uuid) (environmentClass : LoadEnvironmentClass)
    (hasRealSideEffects : Bool) (updatedBy : Option Uuid) : SafetyStore :=
  let row : LoadTargetConfig := ⟨⟨environmentClass, hasRealSideEffects⟩, apiId, updatedBy⟩
  if (st.getTargetConfig apiId).isSome then
    { st with configs := st.configs.map fun c => if c.apiId = apiId then row else c }
  else { st with configs := st.configs ++ [row] }

def getAuthorization (st : SafetyStore) (id : Uuid) : Option LoadAuthorization := st.authorizations.find? (·.id = id)

/-- `ORDER BY created_at DESC LIMIT 1`. -/
def newest (as : List LoadAuthorization) : Option LoadAuthorization :=
  as.find? fun a => as.all (·.createdAt ≤ a.createdAt)

/-- `status = 'APPROVED' AND window_start <= now AND window_end > now`. -/
def isInForce (now : Time) (a : LoadAuthorization) : Bool :=
  a.status = .approved && a.windowStart ≤ now && a.windowEnd > now

def authorizationsOf (st : SafetyStore) (apiId : Uuid) : List LoadAuthorization :=
  st.authorizations.filter (·.apiId = apiId)

def findRelevantAuthorization (st : SafetyStore) (apiId : Uuid) (now : Time) : Option LoadAuthorization :=
  let mine := st.authorizationsOf apiId
  let inForce := mine.filter (isInForce now)
  newest (if inForce = [] then mine else inForce)

def updateAuthorization (st : SafetyStore) (p : LoadAuthorization → Bool) (f : LoadAuthorization → LoadAuthorization) :
    SafetyStore :=
  { st with authorizations := st.authorizations.map fun a => if p a then f a else a }

def reviewAuthorization (st : SafetyStore) (id : Uuid) (status : LoadAuthorizationStatus) (reviewedBy : Uuid)
    (note : Option String) : SafetyStore :=
  st.updateAuthorization (fun a => a.id = id && a.status = .pending) fun a =>
    { a with status := status, reviewedBy := some reviewedBy, reviewNote := note, reviewedAt := some st.now }

def revokeAuthorization (st : SafetyStore) (id : Uuid) (reason : String) : SafetyStore :=
  st.updateAuthorization (fun a => a.id = id && (a.status = .pending || a.status = .approved)) fun a =>
    { a with status := .revoked, revokedAt := some st.now, revokedReason := some reason }

/-- A missing control row counts as engaged. -/
def getKillSwitch (st : SafetyStore) : KillSwitchState := st.control.getD ⟨true, some "control row missing", none⟩

def setKillSwitch (st : SafetyStore) (engaged : Bool) (reason : Option String) (setBy : Option Uuid) : SafetyStore :=
  { st with control := st.control.map fun _ => ⟨engaged, reason, setBy⟩ }

end SafetyStore

/-! ### The service -/

inductive SafetyError
  | notFound (message : String)
  | validation (message : String)
  | forbidden (message : String)
  | conflict (message : String)
deriving DecidableEq, Repr

/-- What `runPreflight` has read when it judges. -/
def SafetyStore.preflightInput (st : SafetyStore) (target : LoadTarget) (plan : PreflightPlan) (now : Time) :
    SafetyInput where
  now := now
  killSwitch := st.getKillSwitch.engaged
  target := target.toSafetyTarget
  config := (st.getTargetConfig target.id).map (·.toSafetyConfig)
  authorization := (st.findRelevantAuthorization target.id now).map (·.toSafetyAuthorization)
  plan := plan

def runPreflight (env : LoadEnv) (st : SafetyStore) (apiId : Uuid) (plan : PreflightPlan) (now : Time) :
    Except SafetyError SafetyDecision :=
  match st.findTargetById apiId with
  | none => throw (.notFound "Target not found")
  | some target => pure (evaluateLoadSafety env (st.preflightInput target plan now))

def setTargetConfig (env : LoadEnv) (st : SafetyStore) (apiId : Uuid) (environmentClass : LoadEnvironmentClass)
    (hasRealSideEffects : Bool) (actor : AuditActor) : Except SafetyError SafetyStore := do
  let some target := st.findTargetById apiId | throw (.notFound "Target not found")
  let host := hostOf env target.url
  let productionLike := target.environment = .production || host.any (· ∈ env.hosts.production)
  if productionLike && environmentClass ≠ .production then
    throw (.validation "This target is production (by environment or host); it can only be classified PRODUCTION.")
  if environmentClass = .mock && !host.any (· ∈ env.hosts.mock) then
    throw (.validation "MOCK is only valid for allow-listed simulator hosts.")
  return st.upsertTargetConfig apiId environmentClass hasRealSideEffects actor.userId

structure ProposeInput where
  apiId : Uuid
  reference : String
  scope : String
  windowStart : Time
  windowEnd : Time
  maxRps : Nat
  maxVus : Nat
  maxDurationSeconds : Nat
  allowRealSideEffects : Bool

def SafetyStore.createAuthorization (st : SafetyStore) (a : ProposeInput) (proposedBy : Uuid) : SafetyStore :=
  { st with
    authorizations := st.authorizations ++
      [{ status := .pending, windowStart := a.windowStart, windowEnd := a.windowEnd, maxRps := a.maxRps,
         maxVus := a.maxVus, maxDurationSeconds := a.maxDurationSeconds,
         allowRealSideEffects := a.allowRealSideEffects, id := st.nextUuid, apiId := a.apiId,
         reference := a.reference, scope := a.scope, proposedBy := proposedBy, reviewedBy := none,
         reviewNote := none, reviewedAt := none, revokedAt := none, revokedReason := none, createdAt := st.now }]
    nextUuid := st.nextUuid + 1 }

def proposeAuthorization (env : LoadEnv) (st : SafetyStore) (input : ProposeInput) (actor : AuditActor) :
    Except SafetyError SafetyStore := do
  let some userId := actor.userId
    | throw (.forbidden "Load-test authorizations require an authenticated user.")
  let some target := st.findTargetById input.apiId | throw (.notFound "Target not found")
  let some config := st.getTargetConfig input.apiId
    | throw (.validation "Classify the target (PUT …/config) before requesting authorization.")
  if config.environmentClass = .mock then throw (.validation "The simulator needs no authorization.")
  if config.environmentClass = .production && target.isMoneyMoving then
    throw (.validation "Money-moving load on PRODUCTION can never be authorized.")
  if input.windowEnd ≤ st.now then throw (.validation "Authorization window is already over.")
  if input.windowEnd - input.windowStart > env.maxWindowDays * 86400000 then
    throw (.validation s!"Window may not exceed {env.maxWindowDays} days.")
  if input.allowRealSideEffects && !config.hasRealSideEffects then
    throw (.validation "Target is not flagged as having real side effects.")
  let ceiling := env.ceilings config.environmentClass
  if input.maxRps > ceiling.maxRps ∨ input.maxVus > ceiling.maxVus ∨
      input.maxDurationSeconds > ceiling.maxDurationSeconds then
    let rps := env.numberText ceiling.maxRps
    let vus := env.numberText ceiling.maxVus
    let duration := env.numberText ceiling.maxDurationSeconds
    throw (.validation
      s!"Requested caps exceed the {config.environmentClass.label} ceiling ({rps} rps / {vus} vus / {duration}s).")
  return st.createAuthorization input userId

inductive ReviewDecision
  | approved | rejected
deriving DecidableEq, Repr

def ReviewDecision.status : ReviewDecision → LoadAuthorizationStatus
  | .approved => .approved
  | .rejected => .rejected

def reviewProposal (st : SafetyStore) (id : Uuid) (decision : ReviewDecision) (note : Option String)
    (actor : AuditActor) : Except SafetyError SafetyStore := do
  let some userId := actor.userId | throw (.forbidden "Reviewing requires an authenticated user.")
  let some current := st.getAuthorization id | throw (.notFound "Authorization not found")
  if current.proposedBy = userId then
    throw (.forbidden "Four-eyes: a different ADMIN must review this authorization.")
  if current.status ≠ .pending then throw (.conflict "Authorization is no longer pending.")
  return st.reviewAuthorization id decision.status userId note

def revoke (st : SafetyStore) (id : Uuid) (reason : String) : Except SafetyError SafetyStore :=
  if (st.getAuthorization id).any fun a => a.status = .pending || a.status = .approved then
    pure (st.revokeAuthorization id reason)
  else throw (.conflict "Authorization not found or already closed.")

/-! ### The control check of a run -/

/-- Why a running run must stop right now. `hb` is the abort flag and reason that the heartbeat read back. -/
def controlReason (run : LoadRun) (now : Time) (hb : Bool × Option String) (kill : KillSwitchState)
    (authorization : Option LoadAuthorization) : Option String :=
  if hb.1 then
    let reason := hb.2.getD "no reason given"
    some s!"abort requested: {reason}"
  else if kill.engaged then
    let reason := kill.reason.getD ""
    some (Text.trim s!"kill switch engaged: {reason}")
  else if run.data.effectiveClass ≠ some .mock then
    match authorization with
    | none => some "authorization is no longer approved"
    | some a =>
      if a.status ≠ .approved then some "authorization is no longer approved"
      else if a.windowEnd ≤ now then some "authorization window ended"
      else none
  else none

/-! ### The calls that change what the gate reads -/

inductive SafetyCall
  | propose (input : ProposeInput) (actor : AuditActor)
  | review (id : Uuid) (decision : ReviewDecision) (note : Option String) (actor : AuditActor)
  | revoke (id : Uuid) (reason : String)
  | setTargetConfig (apiId : Uuid) (environmentClass : LoadEnvironmentClass) (hasRealSideEffects : Bool)
      (actor : AuditActor)
  | editTarget (id : Uuid) (name : String) (row : SafetyTarget)
  | engageKillSwitch (engaged : Bool) (reason : Option String) (actor : AuditActor)

/-- A call that throws changes nothing. -/
def SafetyStore.call (env : LoadEnv) (st : SafetyStore) : SafetyCall → SafetyStore
  | .propose input actor => (proposeAuthorization env st input actor).toOption.getD st
  | .review id decision note actor => (reviewProposal st id decision note actor).toOption.getD st
  | .revoke id reason => (LoadTest.revoke st id reason).toOption.getD st
  | .setTargetConfig apiId cls sideEffects actor =>
    (LoadTest.setTargetConfig env st apiId cls sideEffects actor).toOption.getD st
  | .editTarget id name row =>
    { st with targets := st.targets.map fun t => if t.id = id then ⟨row, id, name⟩ else t }
  | .engageKillSwitch engaged reason actor => st.setKillSwitch engaged reason actor.userId

/-- The state after the calls, each some time after the one before. -/
def SafetyStore.after (env : LoadEnv) (st : SafetyStore) (calls : List (Nat × SafetyCall)) : SafetyStore :=
  calls.foldl (fun st c => { st with now := st.now + c.1 }.call env c.2) st

end CronMonitor.LoadTest
