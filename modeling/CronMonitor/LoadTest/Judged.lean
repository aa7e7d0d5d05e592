import CronMonitor.LoadTest.Authorize
import CronMonitor.LoadTest.Execute
import CronMonitor.Lib.Runs

/-!
# The gate and the traffic

`executeRun` lets the gate judge the target as it is at execution, but renders the script from the snapshot that was
frozen when the run was queued, and its control checks go by the class of that time. What is sent is what was judged
exactly when neither has changed in between.
-/

namespace CronMonitor.LoadTest
open Prog Runs

variable {env : LoadEnv}

def origin (env : LoadEnv) (url : String) : Option String := (env.parseUrl url).map (·.origin)

/-- A plan's path behind an origin leaves the origin as it is. -/
def KeepsOrigin (env : LoadEnv) : Prop :=
  ∀ url u path, env.parseUrl url = some u → isPlanPath path = true → origin env (u.origin ++ path) = some u.origin

/-- The script's URL has the origin that the gate allowed, and the control checks go by the class of its decision. -/
def Launch.Judged (env : LoadEnv) (l : Launch) : Prop :=
  origin env l.url = origin env l.judged.target.url ∧
    l.run.data.effectiveClass = (evaluateLoadSafety env l.judged).effectiveClass

/-- The target row and its classification still give the origin and the class that the run was queued with. -/
def Launch.AsQueued (env : LoadEnv) (l : Launch) : Prop :=
  origin env l.run.data.snapshot.target.url = origin env l.judged.target.url ∧
    l.run.data.effectiveClass = l.judged.effectiveClass

instance (env : LoadEnv) (l : Launch) : Decidable (l.Judged env) := inferInstanceAs (Decidable (_ ∧ _))

instance (env : LoadEnv) (l : Launch) : Decidable (l.AsQueued env) := inferInstanceAs (Decidable (_ ∧ _))

/-- What is handed to k6 is the URL made from the snapshot, after the gate has allowed something. -/
def Launch.Scripted (env : LoadEnv) (l : Launch) : Prop :=
  requestUrl env l.run = some l.url ∧ (evaluateLoadSafety env l.judged).allowed = true

def ExecCmd.Scripted (env : LoadEnv) : ExecCmd → Prop
  | .startK6 l => l.Scripted env
  | _ => True

theorem evaluate_effectiveClass (i : SafetyInput) : (evaluateLoadSafety env i).effectiveClass = i.effectiveClass := by
  obtain ⟨now, killSwitch, target, config, authorization, plan⟩ := i
  cases config <;> rfl

theorem requestUrl_origin (hpath : KeepsOrigin env) {run : LoadRun} {url : String} (h : requestUrl env run = some url) :
    origin env url = origin env run.data.snapshot.target.url := by
  obtain ⟨u, hu, rfl⟩ := Option.map_eq_some_iff.1 h
  have hok := run.data.snapshot.config.path_ok
  cases hp : run.data.snapshot.config.path with
  | none => rfl
  | some path =>
    rw [hp] at hok
    rw [hpath _ u path hu hok, origin, hu]
    rfl

/-! ### What the programs issue -/

theorem preflight_issues (apiId : Uuid) (plan : PreflightPlan) :
    (preflight env apiId plan).Issues (ExecCmd.Scripted env) := by
  unfold preflight
  refine .bind (.cmd trivial) fun now => .bind (.cmd trivial) fun found => ?_
  cases found with
  | none => trivial
  | some target => exact .bind (.cmd trivial) fun _ => .bind (.cmd trivial) fun _ => .bind (.cmd trivial) fun _ => trivial

theorem queueRun_issues (planId : Uuid) (requestedBy : Option Uuid) :
    (queueRun env planId requestedBy).Issues (ExecCmd.Scripted env) := by
  unfold queueRun
  refine .bind (.cmd trivial) fun plan => ?_
  cases plan with
  | none => trivial
  | some plan =>
    refine .bind (.cmd trivial) fun target => ?_
    cases target with
    | none => trivial
    | some target =>
      refine .bind (preflight_issues _ _) fun verdict => ?_
      cases verdict with
      | none => trivial
      | some verdict => exact .ite (fun _ => .cmd trivial) fun _ => trivial

theorem controlLoop_issues (run : LoadRun) (checks : Nat) :
    (controlLoop run checks).Issues (ExecCmd.Scripted env) := by
  induction checks with
  | zero => trivial
  | succ n ih =>
    have hcheck : (controlCheck run).Issues (ExecCmd.Scripted env) :=
      .bind (.cmd trivial) fun _ => .bind (.cmd trivial) fun _ => .bind (.cmd trivial) fun _ =>
        .bind (.cmd trivial) fun _ => trivial
    refine .bind hcheck fun reason => ?_
    cases reason with
    | some reason => trivial
    | none => exact ih

theorem executeRun_issues (run : LoadRun) (checks : Nat) : (executeRun env run checks).Issues (ExecCmd.Scripted env) := by
  unfold executeRun
  refine .bind (.cmd trivial) fun target => ?_
  cases target with
  | none => exact .cmd trivial
  | some target =>
    refine .bind (preflight_issues _ _) fun verdict => ?_
    cases verdict with
    | none => exact .cmd trivial
    | some verdict =>
      refine .ite (fun hallowed => .bind (.cmd trivial) fun prepared => ?_) fun _ => .cmd trivial
      split
      · rename_i url hurl
        have hscripted : (ExecCmd.startK6 ⟨run, url, verdict.input⟩).Scripted env :=
          ⟨hurl, verdict.decided ▸ hallowed⟩
        refine .bind (.cmd trivial) fun _ => .bind (.cmd hscripted) fun _ => ?_
        refine .bind (controlLoop_issues run checks) fun stopReason => .bind (.cmd trivial) fun result => ?_
        cases stopReason with
        | some reason => exact .cmd trivial
        | none => exact .cmd trivial
      · exact .cmd trivial

theorem ExecRequest.issues (r : ExecRequest) : (r.program env).Issues (ExecCmd.Scripted env) := by
  cases r with
  | queue planId requestedBy => exact queueRun_issues planId requestedBy
  | work workerId locked checks =>
    refine .bind (.cmd trivial) fun run => ?_
    cases run with
    | none => trivial
    | some run => exact executeRun_issues run checks
  | safety c => exact .cmd trivial

/-! ### Runs -/

/-- Every launch so far has the URL of its snapshot, and the gate has allowed what it was given. -/
structure Scripted (env : LoadEnv) (s : ExecSys) : Prop where
  calls : ∀ p ∈ s.calls, p.Issues (ExecCmd.Scripted env)
  launches : ∀ l ∈ s.store.launches, l.Scripted env

theorem exec_launches {c : ExecCmd} (hc : c.Scripted env) (w : ExecWorld) {st : ExecStore}
    (h : ∀ l ∈ st.launches, l.Scripted env) : ∀ l ∈ (c.exec env w st).2.launches, l.Scripted env := by
  cases c with
  | startK6 l => exact List.forall_mem_append.2 ⟨h, List.forall_mem_singleton.2 hc⟩
  | _ => exact h

theorem Scripted.step {s s' : ExecSys} {l : ExecLabel} (h : Scripted env s) (hstep : execStep env s l = some s') :
    Scripted env s' := by
  obtain ⟨hcalls, hstore⟩ := Concurrent.issues_step ExecRequest.issues h.calls hstep
  refine ⟨hcalls, ?_⟩
  rcases hstore with hsame | ⟨w, c, hc, hexec⟩
  · rw [hsame]
    exact h.launches
  · rw [hexec]
    exact exec_launches hc w h.launches

/-- Whatever is edited between queueing and executing: what a run sends, and the class that its control checks go by,
are what the gate allowed if and only if the target's origin and class are those of the time it was queued. -/
theorem launches_judged_iff (env : LoadEnv) (hpath : KeepsOrigin env) (st : ExecStore) (hnew : st.launches = [])
    (tr : List ExecLabel) (s : ExecSys) (hr : run (execStep env) ⟨st, []⟩ tr = some s) :
    ∀ l ∈ s.store.launches, (evaluateLoadSafety env l.judged).allowed = true ∧ (l.Judged env ↔ l.AsQueued env) := by
  have h₀ : Scripted env ⟨st, []⟩ := ⟨by simp, by simp [hnew]⟩
  have hs : Scripted env s := inv_run h₀ (fun _ _ _ h hstep => h.step hstep) hr
  intro l hl
  obtain ⟨hurl, hallowed⟩ := hs.launches l hl
  rw [Launch.Judged, Launch.AsQueued, requestUrl_origin hpath hurl, evaluate_effectiveClass]
  exact ⟨hallowed, Iff.rfl⟩

/-! ### A target edited while its run waits -/

def twoHosts : List Url := [⟨"https://api.test", "api.test"⟩, ⟨"https://other.test", "other.test"⟩]

/-- The origin is in front of the first slash of the path. -/
def hasOrigin (url : String) (u : Url) : Bool := (u.origin.toList ++ ['/']).isPrefixOf url.toList

def hostsEnv : LoadEnv where
  enabled := true
  hosts := ⟨["api.prod"], ["api.test", "other.test"], ["localhost"]⟩
  ceilings := fun _ => ⟨200, 500, 3600⟩
  realSideEffectMaxRps := 1
  maxWindowDays := 7
  parseUrl := fun url => twoHosts.find? (hasOrigin url)
  numberText := fun q => toString q.num

theorem hostsEnv_keepsOrigin : KeepsOrigin hostsEnv := by
  intro url u path hurl hpath
  have hslash : ∃ rest, path.toList = '/' :: rest := by
    unfold isPlanPath at hpath
    split at hpath
    · exact ⟨_, ‹_›⟩
    · cases hpath
  obtain ⟨rest, hrest⟩ := hslash
  have hmem : u ∈ twoHosts := List.mem_of_find?_eq_some hurl
  simp only [twoHosts, List.mem_cons, List.not_mem_nil, or_false] at hmem
  rcases hmem with rfl | rfl <;>
    simp [origin, hostsEnv, twoHosts, hasOrigin, hrest, List.isPrefixOf]

def waitingPlan : LoadPlan where
  id := 30
  apiId := 1
  config := { fiftyRpsConfig with path := some "/v1", path_ok := by decide }

def waitingStore : ExecStore where
  safety :=
    { targets := [⟨⟨"https://api.test/v1", false, .sandbox⟩, 1, "payments"⟩]
      configs := [⟨⟨.sandbox, false⟩, 1, none⟩]
      authorizations := [⟨⟨.approved, 0, 86400000, 100, 100, 600, false⟩, 10, 1, "REF", "load", 5, some 6, none, some 0,
        none, none, 0⟩]
      control := some ⟨false, none, none⟩
      nextUuid := 20
      now := 0 }
  plans := [waitingPlan]
  runs := ⟨[], [], []⟩
  launches := []

def steadyWorld : ExecWorld := ⟨1000, true, "k6 v1", 40, ⟨.completed, "completed", none, none⟩⟩

/-- The run is queued, then the target is edited, then a worker executes the run. -/
def waitingTrace (edits : List SafetyCall) : List ExecLabel :=
  .start (.queue 30 none) :: List.replicate 8 (.advance 0 steadyWorld) ++
    edits.zipIdx.flatMap (fun e => [.start (.safety e.1), .advance (e.2 + 1) steadyWorld]) ++
    .start (.work "w1" [] 0) :: List.replicate 12 (.advance (edits.length + 1) steadyWorld)

theorem launches_judged_unedited : ∃ s, run (execStep hostsEnv) ⟨waitingStore, []⟩ (waitingTrace []) = some s ∧
    s.store.launches.length = 1 ∧ ∀ l ∈ s.store.launches, l.Judged hostsEnv := by
  obtain ⟨s, hr, hs⟩ := Option.map_eq_some_iff.1 (show (run (execStep hostsEnv) ⟨waitingStore, []⟩ (waitingTrace [])).map
    (fun s => (s.store.launches.length, s.store.launches.all fun l => l.AsQueued hostsEnv)) = some (1, true) by
      decide +kernel)
  obtain ⟨hlen, hall⟩ := Prod.ext_iff.1 hs
  refine ⟨s, hr, hlen, fun l hl => ?_⟩
  exact (launches_judged_iff hostsEnv hostsEnv_keepsOrigin waitingStore rfl _ s hr l hl).2.2
    (of_decide_eq_true (List.all_eq_true.1 hall l hl))

/-- The URL is moved to another allow-listed host: the gate allows the new host, and the old one is loaded. -/
theorem edited_target_not_judged : ∃ s, run (execStep hostsEnv) ⟨waitingStore, []⟩
      (waitingTrace [.editTarget 1 "payments" ⟨"https://other.test/v1", false, .sandbox⟩]) = some s ∧
    ∃ l ∈ s.store.launches, ¬ l.Judged hostsEnv := by
  obtain ⟨s, hr, hs⟩ := Option.map_eq_some_iff.1 (show (run (execStep hostsEnv) ⟨waitingStore, []⟩
      (waitingTrace [.editTarget 1 "payments" ⟨"https://other.test/v1", false, .sandbox⟩])).map
    (fun s => s.store.launches.any fun l => ¬ l.Judged hostsEnv) = some true by decide +kernel)
  obtain ⟨l, hl, hnot⟩ := List.any_eq_true.1 hs
  exact ⟨s, hr, l, hl, of_decide_eq_true hnot⟩

end CronMonitor.LoadTest
