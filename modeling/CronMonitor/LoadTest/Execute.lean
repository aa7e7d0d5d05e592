import CronMonitor.LoadTest.Safety
import CronMonitor.Lib.Prog

/-!
# Queueing and executing a run

`queueRun` and `executeRun` of `run.service.ts`, and the worker that claims a run, as programs over statements: between
two of them targets are edited, reclassified and authorized. What happens on the worker's host (k6, credentials, the
data set, maintenance windows) is an answer of the world. `launches` is an observation: what was handed to k6, and what
the gate had judged for it.
-/

namespace CronMonitor.LoadTest
open Prog

structure LoadPlan where
  id : Uuid
  apiId : Uuid
  config : PlanConfig

/-- A run handed to k6: the URL of its script, what the gate was given when it allowed it, and the run that the control
checks go by. -/
structure Launch where
  run : LoadRun
  url : String
  judged : SafetyInput

structure ExecStore where
  safety : SafetyStore
  plans : List LoadPlan
  runs : LoadRuns
  launches : List Launch

/-- How a run of k6 ended. -/
structure RunResult where
  status : FinalStatus
  finishedReason : String
  summary : Option RunSummary
  error : Option String

/-- What the world answers: the time that passes, whether preparing the run succeeds, and how k6 ends. -/
structure ExecWorld where
  elapsed : Nat
  prepared : Bool
  k6Version : String
  windowId : Uuid
  result : RunResult

inductive ExecCmd
  | now
  | getPlan (id : Uuid)
  | findTargetById (id : Uuid)
  | getTargetConfig (apiId : Uuid)
  | findRelevantAuthorization (apiId : Uuid) (time : Time)
  | getKillSwitch
  | createRun (plan : LoadPlan) (snapshot : PlanSnapshot) (effectiveClass : Option LoadEnvironmentClass)
      (requestedBy : Option Uuid)
  | claimNextRun (workerId : String) (locked : List Uuid)
  | prepare (run : LoadRun) (effectiveClass : Option LoadEnvironmentClass)
  | markRunning (id : Uuid)
  | startK6 (l : Launch)
  | heartbeat (id : Uuid)
  | k6Done
  | finishRun (id : Uuid) (r : RunResult)
  | safety (c : SafetyCall)

namespace ExecCmd

def Ans : ExecCmd → Type
  | now => Time
  | getPlan _ => Option LoadPlan
  | findTargetById _ => Option LoadTarget
  | getTargetConfig _ => Option LoadTargetConfig
  | findRelevantAuthorization _ _ => Option LoadAuthorization
  | getKillSwitch => KillSwitchState
  | claimNextRun _ _ => Option LoadRun
  | prepare _ _ => Bool
  | heartbeat _ => Bool × Option String
  | k6Done => RunResult
  | createRun _ _ _ _ | markRunning _ | startK6 _ | finishRun _ _ | safety _ => Unit

def exec (env : LoadEnv) (w : ExecWorld) : (c : ExecCmd) → ExecStore → c.Ans × ExecStore
  | now, st => (st.safety.now, st)
  | getPlan id, st => (st.plans.find? (·.id = id), st)
  | findTargetById id, st => (st.safety.findTargetById id, st)
  | getTargetConfig apiId, st => (st.safety.getTargetConfig apiId, st)
  | findRelevantAuthorization apiId time, st => (st.safety.findRelevantAuthorization apiId time, st)
  | getKillSwitch, st => (st.safety.getKillSwitch, st)
  | createRun plan snapshot effectiveClass requestedBy, st =>
    ((), { st with
      runs := st.runs.createRun st.safety.nextUuid plan.id plan.apiId snapshot effectiveClass requestedBy st.safety.now
      safety := { st.safety with nextUuid := st.safety.nextUuid + 1 } })
  | claimNextRun workerId locked, st =>
    let runs := st.runs.claimNextRun workerId locked st.safety.now
    ((st.runs.nextQueued locked).bind fun r => runs.find r.id, { st with runs := runs })
  | prepare _ _, st => (w.prepared, st)
  | markRunning id, st =>
    ((), { st with runs := LoadRuns.markRunning st.runs id w.k6Version (some w.windowId) st.safety.now })
  | startK6 l, st => ((), { st with launches := st.launches ++ [l] })
  | heartbeat id, st =>
    let hb := LoadRuns.heartbeat st.runs id st.safety.now
    (hb.2, { st with runs := hb.1 })
  | k6Done, st => (w.result, st)
  | finishRun id r, st =>
    ((), { st with runs := st.runs.finishRun id r.status r.finishedReason r.summary r.error st.safety.now })
  | safety c, st => ((), { st with safety := st.safety.call env c })

end ExecCmd

abbrev ExecProg := Prog ExecCmd ExecCmd.Ans

def issue (c : ExecCmd) : ExecProg c.Ans := Prog.cmd c

def runPlan (cfg : PlanConfig) (moneyMoving : Bool) : PreflightPlan where
  rps := effectiveRps cfg
  vus := cfg.maxVus
  durationSeconds := cfg.durationSeconds
  mutating := isStateChanging cfg || moneyMoving
  realSideEffects := cfg.realSideEffects
  durationSeconds_pos := Nat.lt_of_lt_of_le (by decide) cfg.durationSeconds_min

/-- A decision of the gate, with what it was given. -/
structure Verdict (env : LoadEnv) where
  input : SafetyInput
  decision : SafetyDecision
  decided : decision = evaluateLoadSafety env input

/-- `runPreflight`, one statement at a time. -/
def preflight (env : LoadEnv) (apiId : Uuid) (plan : PreflightPlan) : ExecProg (Option (Verdict env)) := do
  let now ← issue .now
  let found ← issue (.findTargetById apiId)
  match found with
  | none => return none
  | some target =>
    let config ← issue (.getTargetConfig apiId)
    let authorization ← issue (.findRelevantAuthorization apiId now)
    let kill ← issue .getKillSwitch
    let input : SafetyInput :=
      { now := now, killSwitch := kill.engaged, target := target.toSafetyTarget, plan := plan
        config := config.map (·.toSafetyConfig), authorization := authorization.map (·.toSafetyAuthorization) }
    return some ⟨input, evaluateLoadSafety env input, rfl⟩

def queueRun (env : LoadEnv) (planId : Uuid) (requestedBy : Option Uuid) : ExecProg Unit := do
  let plan ← issue (.getPlan planId)
  match plan with
  | none => return ()
  | some plan =>
    let target ← issue (.findTargetById plan.apiId)
    match target with
    | none => return ()
    | some target =>
      let verdict ← preflight env plan.apiId (runPlan plan.config target.isMoneyMoving)
      match verdict with
      | none => return ()
      | some ⟨_, decision, _⟩ =>
        if decision.allowed then
          issue (.createRun plan
            ⟨plan.config, ⟨target.name, target.url, target.isMoneyMoving, target.environment⟩, peakRps plan.config⟩
            decision.effectiveClass requestedBy)
        else return ()

/-- The URL of the script: the origin of the snapshot's URL with the plan's path, or that URL itself. -/
def requestUrl (env : LoadEnv) (run : LoadRun) : Option String :=
  (env.parseUrl run.data.snapshot.target.url).map fun u =>
    match run.data.snapshot.config.path with
    | some path => u.origin ++ path
    | none => run.data.snapshot.target.url

def controlCheck (run : LoadRun) : ExecProg (Option String) := do
  let now ← issue .now
  let hb ← issue (.heartbeat run.id)
  let kill ← issue .getKillSwitch
  let authorization ← issue (.findRelevantAuthorization run.data.apiId now)
  return controlReason run now hb kill authorization

/-- The control checks made before k6 ends by itself, up to the first that stops it. -/
def controlLoop (run : LoadRun) : Nat → ExecProg (Option String)
  | 0 => return none
  | n + 1 => do
    let reason ← controlCheck run
    match reason with
    | some reason => return some reason
    | none => controlLoop run n

def failed (run : LoadRun) (message : String) : ExecProg Unit :=
  issue (.finishRun run.id ⟨.failed, "runner error", none, some message⟩)

def executeRun (env : LoadEnv) (run : LoadRun) (checks : Nat) : ExecProg Unit := do
  let cfg := run.data.snapshot.config
  let target ← issue (.findTargetById run.data.apiId)
  match target with
  | none => failed run "Target no longer exists."
  | some target =>
    let verdict ← preflight env run.data.apiId (runPlan cfg target.isMoneyMoving)
    match verdict with
    | none => failed run "Target not found"
    | some ⟨judged, decision, _⟩ =>
      if decision.allowed then
        let prepared ← issue (.prepare run decision.effectiveClass)
        match prepared, requestUrl env run with
        | true, some url =>
          issue (.markRunning run.id)
          issue (.startK6 ⟨run, url, judged⟩)
          let stopReason ← controlLoop run checks
          let result ← issue .k6Done
          match stopReason with
          | some reason => issue (.finishRun run.id ⟨.aborted, reason, result.summary, none⟩)
          | none => issue (.finishRun run.id result)
        | _, _ => failed run "runner error"
      else
        let why := ", ".intercalate (decision.violations.map (·.code))
        issue (.finishRun run.id ⟨.aborted, s!"safety gate: {why}", none, none⟩)

/-- The worker claims a run and executes it. -/
def workRun (env : LoadEnv) (workerId : String) (locked : List Uuid) (checks : Nat) : ExecProg Unit := do
  let run ← issue (.claimNextRun workerId locked)
  match run with
  | some run => executeRun env run checks
  | none => return ()

inductive ExecRequest
  | queue (planId : Uuid) (requestedBy : Option Uuid)
  | work (workerId : String) (locked : List Uuid) (checks : Nat)
  | safety (c : SafetyCall)

def ExecRequest.program (env : LoadEnv) : ExecRequest → ExecProg Unit
  | queue planId requestedBy => queueRun env planId requestedBy
  | work workerId locked checks => workRun env workerId locked checks
  | safety c => issue (.safety c)

def execSemantics (env : LoadEnv) : Concurrent.Semantics ExecStore ExecCmd ExecCmd.Ans ExecRequest ExecWorld where
  program := ExecRequest.program env
  enabled _ _ := true
  exec w c st := c.exec env w { st with safety := { st.safety with now := st.safety.now + w.elapsed } }

abbrev ExecSys := Concurrent ExecStore ExecCmd ExecCmd.Ans

abbrev ExecLabel := Concurrent.Label ExecRequest ExecWorld

abbrev execStep (env : LoadEnv) : ExecSys → ExecLabel → Option ExecSys := Concurrent.step (execSemantics env)

end CronMonitor.LoadTest
