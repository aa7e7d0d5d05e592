import CronMonitor.LoadTest.Safety

/-!
# What the safety gate allows

What `evaluateLoadSafety` allows meets every rule, and an input that asks for less, or of more, stays allowed: with any
finite numbers for plan and caps, where the callers of the gate only pass what their schemas admit.
-/

namespace CronMonitor.LoadTest.Gate

/-! ### What the gate lets through -/

/-- The list a host has to be on, for each class. -/
def HostListed (env : LoadEnv) (host : String) : LoadEnvironmentClass → Prop
  | .mock => host ∈ env.hosts.mock
  | .sandbox | .staging => host ∈ env.hosts.sandbox
  | .production => host ∈ env.hosts.production ∨ host ∈ env.hosts.sandbox

structure Plan.Within (p : Plan) (maxRps maxVus maxDurationSeconds : ℚ) : Prop where
  rps : p.rps ≤ maxRps
  vus : p.vus ≤ maxVus
  duration : p.durationSeconds ≤ maxDurationSeconds

/-- Approved, with caps over the plan and a window around `[now, now + duration]`. -/
structure Authorization.Covers (a : Authorization) (now : Time) (p : Plan) : Prop where
  approved : a.status = .approved
  start : a.windowStart ≤ now
  finish : (now : ℚ) + p.durationSeconds * 1000 ≤ a.windowEnd
  caps : p.Within a.maxRps a.maxVus a.maxDurationSeconds

def Input.DeclaresSideEffects (i : Input) (config : SafetyConfig) : Prop :=
  config.hasRealSideEffects = true ∨ i.plan.realSideEffects = some true

def Input.StateChanging (i : Input) : Prop := i.target.isMoneyMoving = true ∨ i.plan.mutating = true

/-- Every rule of the gate, for a target with this config and host that is judged as class `effective`. -/
structure Cleared (env : LoadEnv) (i : Input) (config : SafetyConfig) (host : String)
    (effective : LoadEnvironmentClass) : Prop where
  enabled : env.enabled = true
  killSwitch : i.killSwitch = false
  notDowngraded : i.target.environment = .production → config.environmentClass = .production
  notProductionHost : effective ≠ .production → host ∉ env.hosts.production
  listed : HostListed env host effective
  notChanging : effective = .production → ¬ i.StateChanging
  ceiling : i.plan.Within (env.ceilings effective).maxRps (env.ceilings effective).maxVus
    (env.ceilings effective).maxDurationSeconds
  authorized : effective ≠ .mock → ∃ a, i.authorization = some a ∧ a.Covers i.now i.plan ∧
    (i.DeclaresSideEffects config → a.allowRealSideEffects = true ∧ i.plan.rps ≤ env.realSideEffectMaxRps)

variable {env : LoadEnv} {i : Input}

theorem gateViolations_eq_nil {killSwitch : Bool} :
    gateViolations env killSwitch = [] ↔ env.enabled = true ∧ killSwitch = false := by
  simp [gateViolations, List.append_eq_nil_iff]

theorem hostViolations_eq_nil {url : String} {effective : LoadEnvironmentClass} :
    hostViolations env url effective = [] ↔
      ∃ host, hostOf env url = some host ∧ host ≠ "" ∧
        (effective ≠ .production → host ∉ env.hosts.production) ∧ HostListed env host effective := by
  unfold hostViolations
  cases hh : hostOf env url with
  | none => simp
  | some host =>
    by_cases he : host = ""
    · simp [he]
    · cases effective <;> simp [HostListed, he, or_iff_not_imp_left]

theorem ceilingViolations_eq_nil {effective : LoadEnvironmentClass} {p : Plan} :
    ceilingViolations env p effective = [] ↔ p.Within (env.ceilings effective).maxRps
      (env.ceilings effective).maxVus (env.ceilings effective).maxDurationSeconds := by
  simp only [ceilingViolations, List.append_eq_nil_iff, violationIf_eq_nil, decide_eq_false_iff_not, gt_iff_lt, not_lt]
  constructor
  · rintro ⟨⟨h1, h2⟩, h3⟩
    exact ⟨h1, h2, h3⟩
  · rintro ⟨h1, h2, h3⟩
    exact ⟨⟨h1, h2⟩, h3⟩

theorem authorizationViolations_eq_nil {now : Time} {p : Plan} {a : Authorization} :
    authorizationViolations env now p a = [] ↔ a.Covers now p := by
  simp only [authorizationViolations, List.append_eq_nil_iff, violationIf_eq_nil, decide_eq_false_iff_not, gt_iff_lt,
    not_lt, Bool.or_eq_false_iff, ne_eq, not_not]
  constructor
  · rintro ⟨⟨⟨⟨h1, h2, h3⟩, h4⟩, h5⟩, h6⟩
    exact ⟨h1, h2, h3, h4, h5, h6⟩
  · rintro ⟨h1, h2, h3, h4, h5, h6⟩
    exact ⟨⟨⟨⟨h1, h2, h3⟩, h4⟩, h5⟩, h6⟩

theorem sideEffectViolations_eq_nil {p : Plan} {a : Authorization} :
    sideEffectViolations env p (some a) = [] ↔
      a.allowRealSideEffects = true ∧ p.rps ≤ env.realSideEffectMaxRps := by
  simp [sideEffectViolations, List.append_eq_nil_iff]

/-- The gate allows an input if and only if it meets every rule. -/
theorem evaluate_allowed_iff : (evaluateLoadSafety env i).allowed = true ↔
    ∃ config host, i.config = some config ∧ hostOf env i.target.url = some host ∧ host ≠ "" ∧
      Cleared env i config host (effectiveOf i.target.environment config.environmentClass) := by
  unfold evaluateLoadSafety
  cases hc : i.config with
  | none => simp
  | some config =>
    simp only [List.isEmpty_iff, List.append_eq_nil_iff, gateViolations_eq_nil, hostViolations_eq_nil,
      ceilingViolations_eq_nil, violationIf_eq_nil]
    constructor
    · rintro ⟨⟨⟨⟨⟨⟨⟨h1, h2⟩, h3⟩, host, hhost, hne, h4, h5⟩, h6⟩, h7⟩, h8⟩, h9⟩
      refine ⟨config, host, rfl, hhost, hne, h1, h2, by simpa using h3, h4, h5, ?_, h7, ?_⟩
      · intro hp hchange
        simp only [hp, Input.StateChanging] at h6 hchange
        rcases hchange with h | h <;> simp [h] at h6
      · intro hmock
        rw [if_pos hmock] at h8
        cases ha : i.authorization with
        | none => simp [ha] at h8
        | some a =>
          simp only [ha, authorizationViolations_eq_nil] at h8
          refine ⟨a, rfl, h8, fun hdecl => ?_⟩
          have hif : ((config.hasRealSideEffects || i.plan.realSideEffects = some true) &&
              effectiveOf i.target.environment config.environmentClass ≠ .mock) = true := by
            rcases hdecl with h | h <;> simp [h, hmock]
          rw [if_pos hif, ha, sideEffectViolations_eq_nil] at h9
          exact h9
    · rintro ⟨config', host, hcfg, hhost, hne, h⟩
      obtain rfl := Option.some.inj hcfg
      refine ⟨⟨⟨⟨⟨⟨⟨h.enabled, h.killSwitch⟩, ?_⟩, host, hhost, hne, h.notProductionHost, h.listed⟩, ?_⟩,
        h.ceiling⟩, ?_⟩, ?_⟩
      · have hdown := h.notDowngraded
        simpa using hdown
      · by_cases hp : effectiveOf i.target.environment config.environmentClass = .production
        · have hchange := h.notChanging hp
          simp only [Input.StateChanging, not_or, Bool.not_eq_true] at hchange
          simp [hchange]
        · simp [hp]
      · split
        case isTrue hmock =>
          obtain ⟨a, ha, hcov, -⟩ := h.authorized hmock
          rw [ha]
          exact authorizationViolations_eq_nil.2 hcov
        case isFalse => rfl
      · split
        case isTrue hif =>
          simp only [ne_eq, Bool.and_eq_true, Bool.or_eq_true, decide_eq_true_eq] at hif
          obtain ⟨a, ha, -, hside⟩ := h.authorized hif.2
          rw [ha]
          exact sideEffectViolations_eq_nil.2 (hside hif.1)
        case isFalse => rfl

/-- What the callers rely on when an input is allowed. -/
structure Permitted (env : LoadEnv) (i : Input) (config : SafetyConfig) (host : String)
    (effective : LoadEnvironmentClass) : Prop where
  enabled : env.enabled = true
  killSwitch : i.killSwitch = false
  noProductionChange : i.StateChanging →
    host ∉ env.hosts.production ∧ effective ≠ .production ∧ i.target.environment ≠ .production
  listed : HostListed env host effective
  ceiling : i.plan.Within (env.ceilings effective).maxRps (env.ceilings effective).maxVus
    (env.ceilings effective).maxDurationSeconds
  authorized : effective ≠ .mock → ∃ a, i.authorization = some a ∧ a.Covers i.now i.plan ∧
    (i.DeclaresSideEffects config → a.allowRealSideEffects = true ∧ i.plan.rps ≤ env.realSideEffectMaxRps)

theorem Cleared.permitted {config : SafetyConfig} {host : String}
    (h : Cleared env i config host (effectiveOf i.target.environment config.environmentClass)) :
    Permitted env i config host (effectiveOf i.target.environment config.environmentClass) := by
  refine ⟨h.enabled, h.killSwitch, fun hchange => ?_, h.listed, h.ceiling, h.authorized⟩
  have hclass : effectiveOf i.target.environment config.environmentClass ≠ .production := fun hp =>
    h.notChanging hp hchange
  refine ⟨h.notProductionHost hclass, hclass, fun henv => hclass ?_⟩
  rw [henv, h.notDowngraded henv]
  rfl

/-! ### Asking for less -/

structure Plan.Lighter (p q : Plan) : Prop where
  within : q.Within p.rps p.vus p.durationSeconds
  mutating : q.mutating = true → p.mutating = true
  realSideEffects : q.realSideEffects = some true → p.realSideEffects = some true

structure Authorization.Wider (a b : Authorization) : Prop where
  status : b.status = a.status
  start : b.windowStart ≤ a.windowStart
  finish : a.windowEnd ≤ b.windowEnd
  rps : a.maxRps ≤ b.maxRps
  vus : a.maxVus ≤ b.maxVus
  duration : a.maxDurationSeconds ≤ b.maxDurationSeconds
  allowRealSideEffects : a.allowRealSideEffects = true → b.allowRealSideEffects = true

structure HigherCeiling (c d : LoadCeiling) : Prop where
  rps : c.maxRps ≤ d.maxRps
  vus : c.maxVus ≤ d.maxVus
  duration : c.maxDurationSeconds ≤ d.maxDurationSeconds

/-- The second input is the first one with a lighter plan, higher ceilings and a wider authorization. -/
structure Eases (env env' : LoadEnv) (i j : Input) : Prop where
  enabled : env'.enabled = env.enabled
  hosts : env'.hosts = env.hosts
  parseUrl : env'.parseUrl = env.parseUrl
  ceilings : ∀ c, HigherCeiling (env.ceilings c) (env'.ceilings c)
  realSideEffectMaxRps : env.realSideEffectMaxRps ≤ env'.realSideEffectMaxRps
  now : j.now = i.now
  killSwitch : j.killSwitch = i.killSwitch
  target : j.target = i.target
  config : j.config = i.config
  plan : i.plan.Lighter j.plan
  authorization : ∀ a, i.authorization = some a → ∃ b, j.authorization = some b ∧ a.Wider b

variable {env' : LoadEnv} {j : Input}

theorem Plan.Within.mono {p : Plan} {r v d r' v' d' : ℚ} (h : p.Within r v d) (hr : r ≤ r') (hv : v ≤ v')
    (hd : d ≤ d') : p.Within r' v' d' :=
  ⟨h.rps.trans hr, h.vus.trans hv, h.duration.trans hd⟩

theorem Plan.Within.lighter {p q : Plan} {r v d : ℚ} (h : p.Within r v d) (hq : p.Lighter q) : q.Within r v d :=
  hq.within.mono h.rps h.vus h.duration

/-- A shorter run of a lighter plan fits into a wider window. -/
theorem Authorization.Covers.mono {a b : Authorization} {now : Time} {p q : Plan} (h : a.Covers now p)
    (hw : a.Wider b) (hq : p.Lighter q) : b.Covers now q := by
  have hend : (now : ℚ) + q.durationSeconds * 1000 ≤ b.windowEnd := by
    have hshort : q.durationSeconds ≤ p.durationSeconds := hq.within.duration
    have hlate : (a.windowEnd : ℚ) ≤ b.windowEnd := by exact_mod_cast hw.finish
    linarith [h.finish]
  exact ⟨hw.status.trans h.approved, hw.start.trans h.start, hend,
    (h.caps.lighter hq).mono hw.rps hw.vus hw.duration⟩

theorem Eases.hostOf (h : Eases env env' i j) : hostOf env' j.target.url = LoadTest.hostOf env i.target.url := by
  unfold LoadTest.hostOf
  rw [h.parseUrl, h.target]

theorem HostListed.of_hosts {host : String} {c : LoadEnvironmentClass} (h : HostListed env host c)
    (hhosts : env'.hosts = env.hosts) : HostListed env' host c := by
  cases c <;> simp only [HostListed, hhosts] at h ⊢ <;> exact h

theorem Eases.stateChanging (h : Eases env env' i j) (hj : j.StateChanging) : i.StateChanging := by
  rcases hj with hj | hj
  · exact .inl (h.target ▸ hj)
  · exact .inr (h.plan.mutating hj)

theorem Eases.declares {config : SafetyConfig} (h : Eases env env' i j) (hj : j.DeclaresSideEffects config) :
    i.DeclaresSideEffects config := by
  rcases hj with hj | hj
  · exact .inl hj
  · exact .inr (h.plan.realSideEffects hj)

/-- Every rule that an input meets, an eased one meets too. -/
theorem Cleared.mono {config : SafetyConfig} {host : String} {effective : LoadEnvironmentClass}
    (hc : Cleared env i config host effective) (h : Eases env env' i j) : Cleared env' j config host effective := by
  refine ⟨h.enabled.trans hc.enabled, h.killSwitch.trans hc.killSwitch, ?_, ?_, hc.listed.of_hosts h.hosts, ?_, ?_, ?_⟩
  · rw [h.target]
    exact hc.notDowngraded
  · rw [h.hosts]
    exact hc.notProductionHost
  · intro hp hj
    exact hc.notChanging hp (h.stateChanging hj)
  · have hceil := h.ceilings effective
    exact (hc.ceiling.lighter h.plan).mono hceil.rps hceil.vus hceil.duration
  · intro hmock
    obtain ⟨a, ha, hcov, hside⟩ := hc.authorized hmock
    obtain ⟨b, hb, hw⟩ := h.authorization a ha
    refine ⟨b, hb, ?_, fun hdecl => ?_⟩
    · rw [h.now]
      exact hcov.mono hw h.plan
    · obtain ⟨hallow, hcap⟩ := hside (h.declares hdecl)
      exact ⟨hw.allowRealSideEffects hallow, (h.plan.within.rps.trans hcap).trans h.realSideEffectMaxRps⟩

/-- An allowed input meets every rule, and stays allowed when it is eased. -/
theorem evaluate_sound_mono (h : (evaluateLoadSafety env i).allowed = true) :
    (∃ config host, i.config = some config ∧ hostOf env i.target.url = some host ∧
      (evaluateLoadSafety env i).effectiveClass =
        some (effectiveOf i.target.environment config.environmentClass) ∧
      Permitted env i config host (effectiveOf i.target.environment config.environmentClass)) ∧
    ∀ env' j, Eases env env' i j → (evaluateLoadSafety env' j).allowed = true := by
  obtain ⟨config, host, hconfig, hhost, hne, hcleared⟩ := evaluate_allowed_iff.1 h
  constructor
  · refine ⟨config, host, hconfig, hhost, ?_, hcleared.permitted⟩
    simp only [evaluateLoadSafety, hconfig]
  · intro env' j hj
    refine evaluate_allowed_iff.2 ⟨config, host, hj.config.trans hconfig, hj.hostOf.trans hhost, hne, ?_⟩
    rw [hj.target]
    exact hcleared.mono hj

/-- A staging target that an authorization allows to be loaded for half a second, with real side effects. -/
theorem evaluate_sound_mono_staging :
    let env : LoadEnv := ⟨true, ⟨["api.bank"], ["uat.bank"], ["localhost"]⟩, fun _ => ⟨50, 20, 600⟩, 5, 7,
      fun _ => some ⟨"https://uat.bank", "uat.bank"⟩, fun _ => ""⟩
    let i : Input := ⟨1000, false, ⟨"https://uat.bank/pay", true, .staging⟩, some ⟨.sandbox, true⟩,
      some ⟨.approved, 0, 1500, 5, 2, 1, true⟩, ⟨9 / 2, 1, 1 / 2, true, none⟩⟩
    (evaluateLoadSafety env { i with plan.mutating := false }).allowed = true := by
  intro env i
  have h : (evaluateLoadSafety env i).allowed = true := by decide +kernel
  refine (evaluate_sound_mono h).2 env _ ⟨rfl, rfl, rfl, fun _ => ⟨le_rfl, le_rfl, le_rfl⟩, le_rfl, rfl, rfl, rfl, rfl,
    ⟨⟨le_rfl, le_rfl, le_rfl⟩, ?_, id⟩, fun a ha => ⟨a, ha, rfl, le_rfl, le_rfl, le_rfl, le_rfl, le_rfl, id⟩⟩
  intro hfalse
  cases hfalse

end CronMonitor.LoadTest.Gate
