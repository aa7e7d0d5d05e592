import CronMonitor.LoadTest.SafetyGate

/-!
# Authorization by existence

A plan ought to be allowed when some approved authorization, taken alone, allows it, and a run to go on only while one
admits it. `findRelevantAuthorization` picks one authorization before its caps are compared, and the control check does
not compare them at all; the theorem says in which states the outcome is the same.
-/

namespace CronMonitor.LoadTest
namespace SafetyStore

variable {env : LoadEnv} {st : SafetyStore} {apiId : Uuid} {now : Time}

theorem newest_mem {as : List LoadAuthorization} {a : LoadAuthorization} (h : newest as = some a) : a ∈ as :=
  List.mem_of_find?_eq_some h

theorem newest_isSome {as : List LoadAuthorization} (h : as ≠ []) : ∃ a, newest as = some a := by
  obtain ⟨a, ha, hmax⟩ := as.toFinset.exists_max_image (·.createdAt) (List.toFinset_nonempty_iff as |>.2 h)
  refine Option.isSome_iff_exists.1 (List.find?_isSome.2 ⟨a, List.mem_toFinset.1 ha, ?_⟩)
  exact List.all_eq_true.2 fun b hb => decide_eq_true (hmax b (List.mem_toFinset.2 hb))

/-- The authorization in force: the newest approved one of the target that covers `now`. -/
def inForce (st : SafetyStore) (apiId : Uuid) (now : Time) : Option LoadAuthorization :=
  newest ((st.authorizationsOf apiId).filter (isInForce now))

theorem inForce_mem {b : LoadAuthorization} (h : st.inForce apiId now = some b) :
    b ∈ st.authorizationsOf apiId ∧ isInForce now b = true :=
  List.mem_filter.1 (newest_mem h)

theorem findRelevant_of_inForce {b : LoadAuthorization} (h : st.inForce apiId now = some b) :
    st.findRelevantAuthorization apiId now = some b := by
  have hne : (st.authorizationsOf apiId).filter (isInForce now) ≠ [] := List.ne_nil_of_mem (newest_mem h)
  simp only [findRelevantAuthorization, if_neg hne]
  exact h

/-- The selected authorization is the one in force as soon as any is in force. -/
theorem findRelevant_cases (st : SafetyStore) (apiId : Uuid) (now : Time) :
    (∃ b, st.inForce apiId now = some b ∧ st.findRelevantAuthorization apiId now = some b) ∨
      (∀ a ∈ st.authorizationsOf apiId, isInForce now a = false) ∧
        st.findRelevantAuthorization apiId now = newest (st.authorizationsOf apiId) := by
  by_cases h : (st.authorizationsOf apiId).filter (isInForce now) = []
  · refine .inr ⟨fun a ha => ?_, by simp only [findRelevantAuthorization, if_pos h]⟩
    simpa using List.filter_eq_nil_iff.1 h a ha
  · obtain ⟨b, hb⟩ := newest_isSome h
    exact .inl ⟨b, hb, findRelevant_of_inForce hb⟩

end SafetyStore

/-! ### What the gate asks of an authorization -/

/-- The class a target is judged as. -/
def SafetyInput.effectiveClass (i : SafetyInput) : Option LoadEnvironmentClass :=
  i.config.map fun c => effectiveOf i.target.environment c.environmentClass

/-- What is allowed off the simulator is allowed by an approved authorization that covers the whole run. -/
theorem evaluate_authorized {env : LoadEnv} {i : SafetyInput} (hclass : i.effectiveClass ≠ some .mock)
    (h : (evaluateLoadSafety env i).allowed = true) : ∃ a, i.authorization = some a ∧ a.status = .approved ∧
      a.windowStart ≤ i.now ∧ i.now + i.plan.durationSeconds * 1000 ≤ a.windowEnd := by
  obtain ⟨config, host, hconfig, -, -, hcleared⟩ := Gate.evaluate_allowed_iff.1 h
  have hne : effectiveOf i.target.environment config.environmentClass ≠ .mock := fun heq =>
    hclass (by rw [SafetyInput.effectiveClass, show i.config = some config from hconfig, Option.map_some, heq])
  obtain ⟨b, hb, hcovers, -⟩ := hcleared.authorized hne
  obtain ⟨a, ha, rfl⟩ := Option.map_eq_some_iff.1 hb
  have hfinish : (i.now : ℚ) + i.plan.durationSeconds * 1000 ≤ a.windowEnd := hcovers.finish
  exact ⟨a, ha, hcovers.approved, hcovers.start, by exact_mod_cast hfinish⟩

/-- The authorization, taken alone, makes the gate allow the plan. -/
def AllowedAlone (env : LoadEnv) (i : SafetyInput) (a : LoadAuthorization) : Prop :=
  (evaluateLoadSafety env { i with authorization := some a.toSafetyAuthorization }).allowed = true

instance (env : LoadEnv) (i : SafetyInput) (a : LoadAuthorization) : Decidable (AllowedAlone env i a) :=
  inferInstanceAs (Decidable (_ = true))

/-- What is allowed alone, is approved and covers `now`. -/
theorem AllowedAlone.inForce {env : LoadEnv} {i : SafetyInput} {a : LoadAuthorization}
    (hclass : i.effectiveClass ≠ some .mock) (h : AllowedAlone env i a) : SafetyStore.isInForce i.now a = true := by
  obtain ⟨b, hb, hstatus, hstart, hend⟩ :=
    evaluate_authorized (i := { i with authorization := some a.toSafetyAuthorization }) hclass h
  obtain rfl := Option.some.inj hb
  have hpos : (0 : Int) < i.plan.durationSeconds := Int.natCast_pos.2 i.plan.durationSeconds_pos
  have hlate : i.now < a.windowEnd := lt_of_lt_of_le (lt_add_of_pos_right _ (Int.mul_pos hpos (by decide))) hend
  simp [SafetyStore.isInForce, hstatus, hstart, hlate]

/-! ### The preflight -/

section Preflight

variable (env : LoadEnv) (st : SafetyStore) (target : LoadTarget) (plan : PreflightPlan) (now : Time)

/-- The plan is allowed if and only if some approved authorization of the target, taken alone, allows it. -/
def PreflightByExistence : Prop :=
  (∃ d, runPreflight env st target.id plan now = .ok d ∧ d.allowed = true) ↔
    ∃ a ∈ st.authorizationsOf target.id, a.status = .approved ∧ AllowedAlone env (st.preflightInput target plan now) a

/-- The authorization in force allows the plan if any approved one does. -/
def InForceAllows : Prop :=
  (∃ a ∈ st.authorizationsOf target.id, a.status = .approved ∧ AllowedAlone env (st.preflightInput target plan now) a) →
    ∃ b, st.inForce target.id now = some b ∧ AllowedAlone env (st.preflightInput target plan now) b

variable {env st target plan now}

theorem preflight_by_existence_iff (htarget : st.findTargetById target.id = some target)
    (hclass : (st.preflightInput target plan now).effectiveClass ≠ some .mock) :
    PreflightByExistence env st target plan now ↔ InForceAllows env st target plan now := by
  have hrun : runPreflight env st target.id plan now =
      .ok (evaluateLoadSafety env (st.preflightInput target plan now)) := by
    rw [runPreflight, htarget]
    rfl
  have hsame : ∀ b, st.findRelevantAuthorization target.id now = some b →
      ((evaluateLoadSafety env (st.preflightInput target plan now)).allowed = true ↔
        AllowedAlone env (st.preflightInput target plan now) b) := by
    intro b hb
    simp only [AllowedAlone, SafetyStore.preflightInput, hb, Option.map_some]
  unfold PreflightByExistence InForceAllows
  rw [hrun]
  constructor
  · rintro hiff hexists
    obtain ⟨d, hd, hallowed⟩ := hiff.2 hexists
    cases hd
    obtain ⟨a, ha, hstatus, halone⟩ := hexists
    rcases st.findRelevant_cases target.id now with ⟨b, hb, hrel⟩ | ⟨hnone, -⟩
    · exact ⟨b, hb, (hsame b hrel).1 hallowed⟩
    · have hforce : SafetyStore.isInForce now a = true := halone.inForce hclass
      rw [hnone a ha] at hforce
      cases hforce
  · intro h
    constructor
    · rintro ⟨d, hd, hallowed⟩
      cases hd
      obtain ⟨s, hs, hstatus, -⟩ := evaluate_authorized hclass hallowed
      obtain ⟨b, hb, rfl⟩ := Option.map_eq_some_iff.1 hs
      refine ⟨b, ?_, hstatus, (hsame b hb).1 hallowed⟩
      rcases st.findRelevant_cases target.id now with ⟨b', hb', hrel⟩ | ⟨-, hrel⟩
      · rw [hb] at hrel
        cases hrel
        exact (SafetyStore.inForce_mem hb').1
      · rw [hb] at hrel
        exact SafetyStore.newest_mem hrel.symm
    · intro hexists
      obtain ⟨b, hb, halone⟩ := h hexists
      exact ⟨_, rfl, (hsame b (SafetyStore.findRelevant_of_inForce hb)).2 halone⟩

end Preflight

/-! ### The control check -/

section Control

variable (st : SafetyStore) (run : LoadRun) (now : Time) (hb : Bool × Option String)

/-- The authorization admits the run's rps, vus, duration and side-effect needs. -/
def Admits (a : LoadAuthorization) : Prop :=
  effectiveRps run.data.snapshot.config ≤ a.maxRps ∧ run.data.snapshot.config.maxVus ≤ a.maxVus ∧
    run.data.snapshot.config.durationSeconds ≤ a.maxDurationSeconds ∧
    ((st.getTargetConfig run.data.apiId).any (·.hasRealSideEffects) || run.data.snapshot.config.realSideEffects →
      a.allowRealSideEffects)

instance (a : LoadAuthorization) : Decidable (Admits st run a) := inferInstanceAs (Decidable (_ ∧ _ ∧ _ ∧ (_ → _)))

/-- The run goes on only while an approved authorization that covers `now` admits it. -/
def ControlByExistence : Prop :=
  controlReason run now hb st.getKillSwitch (st.findRelevantAuthorization run.data.apiId now) = none →
    ∃ a ∈ st.authorizationsOf run.data.apiId, SafetyStore.isInForce now a ∧ Admits st run a

/-- When no approved authorization that covers `now` admits a run that nothing else stops, none is in force at all, the
newest one is not approved or has ended, and the run was not queued as a MOCK run. -/
def NothingElseInForce : Prop :=
  hb.1 = false → st.getKillSwitch.engaged = false →
    (∀ a ∈ st.authorizationsOf run.data.apiId, SafetyStore.isInForce now a → ¬ Admits st run a) →
    run.data.effectiveClass ≠ some .mock ∧
      (∀ a ∈ st.authorizationsOf run.data.apiId, SafetyStore.isInForce now a = false) ∧
      ∀ n, SafetyStore.newest (st.authorizationsOf run.data.apiId) = some n → n.status = .approved → n.windowEnd ≤ now

variable {st run now hb}

theorem controlReason_none_iff {kill : KillSwitchState} {a : Option LoadAuthorization} :
    controlReason run now hb kill a = none ↔ hb.1 = false ∧ kill.engaged = false ∧
      (run.data.effectiveClass ≠ some .mock → ∃ b, a = some b ∧ b.status = .approved ∧ now < b.windowEnd) := by
  unfold controlReason
  cases hb.1 <;> cases kill.engaged <;> simp only [Bool.false_eq_true, if_true, if_false, reduceCtorEq, false_and,
    and_false, true_and]
  split_ifs with hclass
  · cases a with
    | none => simp [hclass]
    | some b =>
      simp only [Option.some.injEq, exists_eq_left']
      split_ifs with hs he <;> simp_all
  · simp [not_not.1 hclass]

theorem control_by_existence_iff : ControlByExistence st run now hb ↔ NothingElseInForce st run now hb := by
  unfold ControlByExistence NothingElseInForce
  rw [controlReason_none_iff]
  constructor
  · intro h hflag hkill hnot
    have hstop : ¬ (run.data.effectiveClass ≠ some .mock → ∃ b, st.findRelevantAuthorization run.data.apiId now = some b ∧
        b.status = .approved ∧ now < b.windowEnd) := by
      intro hgo
      obtain ⟨a, ha, hforce, hadm⟩ := h ⟨hflag, hkill, hgo⟩
      exact hnot a ha hforce hadm
    obtain ⟨hclass, hsel⟩ := Classical.not_imp.1 hstop
    refine ⟨hclass, ?_⟩
    rcases st.findRelevant_cases run.data.apiId now with ⟨b, hb', hrel⟩ | ⟨hnone, hrel⟩
    · obtain ⟨-, hforce⟩ := SafetyStore.inForce_mem hb'
      simp only [SafetyStore.isInForce, Bool.and_eq_true, decide_eq_true_eq] at hforce
      exact absurd ⟨b, hrel, hforce.1.1, hforce.2⟩ hsel
    · refine ⟨hnone, fun n hn hstatus => not_lt.1 fun hlt => hsel ⟨n, hrel.trans hn, hstatus, hlt⟩⟩
  · rintro h ⟨hflag, hkill, hgo⟩
    by_contra hnot
    have hnone : ∀ a ∈ st.authorizationsOf run.data.apiId, SafetyStore.isInForce now a → ¬ Admits st run a :=
      fun a ha hforce hadm => hnot ⟨a, ha, hforce, hadm⟩
    obtain ⟨hclass, hforce, hnewest⟩ := h hflag hkill hnone
    obtain ⟨b, hb', hstatus, hlt⟩ := hgo hclass
    rcases st.findRelevant_cases run.data.apiId now with ⟨b', hin, -⟩ | ⟨-, hrel⟩
    · obtain ⟨hmem, hyes⟩ := SafetyStore.inForce_mem hin
      rw [hforce b' hmem] at hyes
      cases hyes
    · exact absurd (hnewest b (hrel.symm.trans hb') hstatus) (not_le.2 hlt)

end Control

/-- When the gate and the control check go by the existence of an authorization, for every state of the tables. -/
theorem authorization_by_existence_iff (env : LoadEnv) (st : SafetyStore) (target : LoadTarget) (plan : PreflightPlan)
    (run : LoadRun) (now : Time) (hb : Bool × Option String) (htarget : st.findTargetById target.id = some target)
    (hclass : (st.preflightInput target plan now).effectiveClass ≠ some .mock) :
    (PreflightByExistence env st target plan now ↔ InForceAllows env st target plan now) ∧
      (ControlByExistence st run now hb ↔ NothingElseInForce st run now hb) :=
  ⟨preflight_by_existence_iff htarget hclass, control_by_existence_iff⟩

/-! ### A narrower authorization -/

def sandboxEnv : LoadEnv where
  enabled := true
  hosts := ⟨["api.prod"], ["api.test"], ["localhost"]⟩
  ceilings := fun _ => ⟨200, 500, 3600⟩
  realSideEffectMaxRps := 1
  maxWindowDays := 7
  parseUrl := fun url => if url = "https://api.test/v1" then some ⟨"https://api.test", "api.test"⟩ else none
  numberText := fun q => toString q.num

def sandboxTarget : LoadTarget := ⟨⟨"https://api.test/v1", false, .sandbox⟩, 1, "payments"⟩

def sandboxStore : SafetyStore := ⟨[sandboxTarget], [⟨⟨.sandbox, false⟩, 1, none⟩], [], some ⟨false, none, none⟩, 10, 0⟩

/-- An authorization of `maxRps` is proposed by one user and approved by another. -/
def authorized (maxRps : Nat) (id : Uuid) : List (Nat × SafetyCall) :=
  [(1000, .propose ⟨1, "REF", "load", 0, 86400000, maxRps, 100, 600, false⟩ (.user 5)),
   (1000, .review id .approved none (.user 6))]

def fiftyRps : PreflightPlan := ⟨50, 50, 60, false, false, by decide⟩

def fiftyRpsConfig : PlanConfig :=
  { PlanConfig.smallest with
    profile := .load
    targetRps := 50
    durationSeconds := 60
    maxVus := 50
    targetRps_pos := by decide
    durationSeconds_min := by decide }

def fiftyRpsRun : LoadRun :=
  ⟨20, .running, ⟨30, 1, ⟨fiftyRpsConfig, ⟨"payments", "https://api.test/v1", false, .sandbox⟩, 50⟩, some .sandbox, none,
    false, none, none, none⟩,
    ⟨none, none, none⟩, none, none, 0, none, none⟩

/-- A second, wider authorization is approved after the first. -/
def widened : SafetyStore := sandboxStore.after sandboxEnv (authorized 10 10 ++ authorized 100 11)

/-- A second, narrower authorization is approved after the first. -/
def twoAuthorizations : SafetyStore := sandboxStore.after sandboxEnv (authorized 100 10 ++ authorized 10 11)

def onlyTheNarrower : SafetyStore :=
  sandboxStore.after sandboxEnv (authorized 100 10 ++ authorized 10 11 ++ [(1, .revoke 10 "stop")])

/-- The wider authorization is selected: it allows the plan and admits the run. -/
theorem authorization_by_existence_one : (widened.authorizationsOf 1).length = 2 ∧
    PreflightByExistence sandboxEnv widened sandboxTarget fiftyRps 5000 ∧
      ControlByExistence widened fiftyRpsRun 5000 (false, none) := by
  have hlaw := authorization_by_existence_iff sandboxEnv widened sandboxTarget fiftyRps fiftyRpsRun 5000 (false, none)
    (by decide +kernel) (by decide +kernel)
  refine ⟨by decide +kernel, hlaw.1.2 fun _ => ?_, hlaw.2.2 fun _ _ hnone => ?_⟩
  · have hallowed : (widened.inForce 1 5000).any (fun b =>
        AllowedAlone sandboxEnv (widened.preflightInput sandboxTarget fiftyRps 5000) b) = true := by
      decide +kernel
    cases hb : widened.inForce 1 5000 with
    | none => simp [hb] at hallowed
    | some b =>
      rw [hb] at hallowed
      exact ⟨b, hb, of_decide_eq_true hallowed⟩
  · obtain ⟨a, ha, hforce, hadmits⟩ : ∃ a ∈ widened.authorizationsOf fiftyRpsRun.data.apiId,
        SafetyStore.isInForce 5000 a ∧ Admits widened fiftyRpsRun a := by
      decide +kernel
    exact absurd hadmits (hnone a ha hforce)

/-- The narrower authorization is selected: the plan that the first one allows is refused, and when the first one is
revoked, a run that only it admits goes on. -/
theorem narrower_authorization_selected :
    ¬ PreflightByExistence sandboxEnv twoAuthorizations sandboxTarget fiftyRps 5000 ∧
      ¬ ControlByExistence onlyTheNarrower fiftyRpsRun 5000 (false, none) := by
  constructor
  · intro h
    obtain ⟨d, hd, hallowed⟩ := h.2 (by decide +kernel)
    have hrefused : (runPreflight sandboxEnv twoAuthorizations 1 fiftyRps 5000).toOption.any (·.allowed) = false := by
      decide +kernel
    rw [show runPreflight sandboxEnv twoAuthorizations 1 fiftyRps 5000 = .ok d from hd] at hrefused
    rw [show (Except.ok d : Except SafetyError SafetyDecision).toOption.any (·.allowed) = d.allowed from rfl,
      hallowed] at hrefused
    cases hrefused
  · intro h
    obtain ⟨a, ha, hforce, hrps, -⟩ := h (by decide +kernel)
    have hcaps : ∀ a ∈ onlyTheNarrower.authorizationsOf 1, SafetyStore.isInForce 5000 a → a.maxRps < 50 := by
      decide +kernel
    have hfifty : effectiveRps fiftyRpsRun.data.snapshot.config = 50 := by decide +kernel
    have hlt := hcaps a ha hforce
    omega

end CronMonitor.LoadTest
