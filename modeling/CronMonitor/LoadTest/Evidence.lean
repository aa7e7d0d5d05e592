import CronMonitor.LoadTest.Compliance

/-!
# Evidence and simulator

What a control's status ought to be is told from results alone: those of a check in every suite and those of the load
runs of its profiles. A control is evidenced if every item's newest real result has passed, so that nothing the
simulator reports can make it so.
-/

namespace CronMonitor.LoadTest.Compliance
open History

/-- One result of a check or of a load run. -/
structure Result where
  finishedAt : Time
  environmentClass : Option LoadEnvironmentClass
  passed : Bool
deriving DecidableEq

/-- What an item is about. -/
inductive Subject
  | check (id : String)
  | load (profiles : List LoadProfile)
deriving DecidableEq, Repr

/-- The subjects of a rule, each under the label of its item. -/
def EvidenceRule.labelled : EvidenceRule → List (String × Subject)
  | .checks checkIds description => checkIds.map fun id => (s!"{description} ({id})", .check id)
  | .load profiles description => [(description, .load profiles)]

def Control.labelled (c : Control) : List (String × Subject) := c.evidence.flatMap (·.labelled)

def Control.subjects (c : Control) : List Subject := c.labelled.map (·.2)

def ControlStatus.all : List ControlStatus :=
  [.evidenced, .evidencedStale, .partly, .simulatorOnly, .notTested, .failing, .outOfScope]

/-- The results of a check that was not skipped. -/
def SuiteRunEvidence.results (id : String) (s : SuiteRunEvidence) : List Result :=
  (s.checks.filter fun c => c.id = id && c.status ≠ .skipped).map fun c =>
    ⟨s.finishedAt, s.environmentClass, c.status = .pass⟩

def LoadRunEvidence.result (l : LoadRunEvidence) : Result := ⟨l.finishedAt, l.environmentClass, l.verdict ≠ .fail⟩

namespace AssessInput

def results (i : AssessInput) : Subject → List Result
  | .check id => i.suites.flatMap (·.results id)
  | .load profiles =>
    (i.load.filter fun l => l.profile ∈ profiles && l.verdict ≠ .inconclusive).map (·.result)

/-- The newest result of a real environment. -/
def newestReal (i : AssessInput) (x : Subject) : Option Result :=
  newest Result.finishedAt ((i.results x).filter fun r => isReal r.environmentClass)

def fresh (i : AssessInput) (r : Result) : Prop := ((i.now - r.finishedAt : Int) : ℚ) ≤ i.maxAge

/-- A testable control whose every item has a newest real result, which has passed. -/
def Supported (i : AssessInput) (c : Control) : Prop :=
  c.scope ≠ .outOfScope ∧ c.subjects ≠ [] ∧ ∀ x ∈ c.subjects, ∃ r, i.newestReal x = some r ∧ r.passed

def FreshlySupported (i : AssessInput) (c : Control) : Prop :=
  c.scope ≠ .outOfScope ∧ c.subjects ≠ [] ∧ ∀ x ∈ c.subjects, ∃ r, i.newestReal x = some r ∧ r.passed ∧ i.fresh r

/-- The item made of a subject, but for its label. -/
def itemOf (i : AssessInput) : Subject → EvidenceItem
  | .check id => checkOutcome id i.suites i.now i.maxAge
  | .load profiles => loadOutcome profiles i.load i.now i.maxAge

/-- The real evidence alone. -/
def realOnly (i : AssessInput) : AssessInput :=
  { i with
    suites := i.suites.filter fun s => isReal s.environmentClass
    load := i.load.filter fun l => isReal l.environmentClass }

end AssessInput

/-- The inputs differ in MOCK suites and load runs at most. -/
structure SameButSimulator (i i' : AssessInput) : Prop where
  suites : i.suites.filter (·.environmentClass ≠ some .mock) = i'.suites.filter (·.environmentClass ≠ some .mock)
  load : i.load.filter (·.environmentClass ≠ some .mock) = i'.load.filter (·.environmentClass ≠ some .mock)
  rest : { i with suites := [], load := [] } = { i' with suites := [], load := [] }

variable {i i' : AssessInput}

/-! ### The outcome of an item -/

def hitResult (h : SuiteRunEvidence × SuiteCheckEvidence) : Result :=
  ⟨h.1.finishedAt, h.1.environmentClass, h.2.status = .pass⟩

/-- The newest real hit of a check. -/
def realHit (id : String) (suites : List SuiteRunEvidence) : Option (SuiteRunEvidence × SuiteCheckEvidence) :=
  newest (fun h => h.1.finishedAt) (hitsOf id (suites.filter fun s => isReal s.environmentClass))

/-- The newest real run of the profiles. -/
def realRun (profiles : List LoadProfile) (load : List LoadRunEvidence) : Option LoadRunEvidence :=
  newest LoadRunEvidence.finishedAt (meaningfulOf profiles (load.filter fun l => isReal l.environmentClass))

theorem hitsOf_real (id : String) (suites : List SuiteRunEvidence) :
    (hitsOf id suites).filter (fun h => isReal h.1.environmentClass) =
      hitsOf id (suites.filter fun s => isReal s.environmentClass) := by
  unfold hitsOf
  induction suites with
  | nil => rfl
  | cons s suites ih =>
    rw [List.filterMap_cons, List.filter_cons]
    cases hf : s.checks.find? fun x => x.id = id && x.status ≠ .skipped <;>
      cases hs : isReal s.environmentClass <;> simp_all

theorem meaningfulOf_real (profiles : List LoadProfile) (load : List LoadRunEvidence) :
    (meaningfulOf profiles load).filter (fun l => isReal l.environmentClass) =
      meaningfulOf profiles (load.filter fun l => isReal l.environmentClass) := by
  simp only [meaningfulOf, List.filter_filter, Bool.and_comm]

theorem results_real (id : String) (suites : List SuiteRunEvidence) :
    (suites.flatMap (·.results id)).filter (fun r => isReal r.environmentClass) =
      (suites.filter fun s => isReal s.environmentClass).flatMap (·.results id) := by
  have hone (s : SuiteRunEvidence) : (s.results id).filter (fun r => isReal r.environmentClass) =
      if isReal s.environmentClass then s.results id else [] := by
    rw [SuiteRunEvidence.results, List.filter_map, Function.comp_def]
    cases hs : isReal s.environmentClass <;> simp [hs]
  induction suites with
  | nil => rfl
  | cons s suites ih =>
    rw [List.flatMap_cons, List.filter_append, hone, ih]
    cases hs : isReal s.environmentClass <;> simp [hs]

/-- Of each suite the first result is enough: its results are all of one time. -/
theorem newestReal_check (id : String) : i.newestReal (.check id) = (realHit id i.suites).map hitResult := by
  have hgroup (s : SuiteRunEvidence) : ∀ r ∈ s.results id, r.finishedAt = s.finishedAt := by
    intro r hr
    obtain ⟨c, -, rfl⟩ := List.mem_map.1 hr
    rfl
  have hmap := newest_map Result.finishedAt hitResult
    (hitsOf id (i.suites.filter fun s => isReal s.environmentClass))
  rw [AssessInput.newestReal, AssessInput.results, results_real, newest_flatMap hgroup]
  refine Eq.trans ?_ hmap
  rw [hitsOf, List.map_filterMap]
  simp only [SuiteRunEvidence.results, List.head?_map, List.head?_filter, Option.map_map, Function.comp_def, hitResult]

theorem newestReal_load (profiles : List LoadProfile) :
    i.newestReal (.load profiles) = (realRun profiles i.load).map (·.result) := by
  rw [AssessInput.newestReal, AssessInput.results, ← meaningfulOf, List.filter_map, newest_map, realRun,
    ← meaningfulOf_real]
  rfl

section Outcome

variable (id : String) (suites : List SuiteRunEvidence) (profiles : List LoadProfile) (load : List LoadRunEvidence)
  (now : Time) (maxAge : ℚ)

/-- With a real hit the item goes by it. -/
theorem checkOutcome_real {h : SuiteRunEvidence × SuiteCheckEvidence} (hreal : realHit id suites = some h) :
    (checkOutcome id suites now maxAge).outcome =
      if h.2.status = .pass then if isStale now h.1.finishedAt maxAge then .stale else .pass else .fail := by
  unfold checkOutcome
  simp only [find?_byNewest, hitsOf_real]
  rw [← realHit, hreal]
  by_cases hpass : h.2.status = .pass <;> simp [hpass]

theorem checkOutcome_notReal (hreal : realHit id suites = none) :
    (checkOutcome id suites now maxAge).outcome ≠ .pass ∧ (checkOutcome id suites now maxAge).outcome ≠ .stale := by
  unfold checkOutcome
  simp only [find?_byNewest, hitsOf_real]
  rw [← realHit, hreal, Option.none_or]
  split
  · simp
  · split_ifs <;> simp_all

theorem checkOutcome_realOnly (hreal : realHit id suites ≠ none) :
    checkOutcome id (suites.filter fun s => isReal s.environmentClass) now maxAge = checkOutcome id suites now maxAge := by
  obtain ⟨h, hh⟩ := Option.ne_none_iff_exists'.1 hreal
  unfold checkOutcome
  simp only [find?_byNewest, hitsOf_real, List.filter_filter, Bool.and_self]
  rw [← realHit, hh, Option.some_or, Option.some_or]

theorem loadOutcome_real {l : LoadRunEvidence} (hreal : realRun profiles load = some l) :
    (loadOutcome profiles load now maxAge).outcome =
      if l.verdict = .fail then .fail else if isStale now l.finishedAt maxAge then .stale else .pass := by
  unfold loadOutcome
  simp only [find?_byNewest, meaningfulOf_real]
  rw [← realRun, hreal]
  by_cases hfail : l.verdict = .fail <;> simp [hfail]

theorem loadOutcome_notReal (hreal : realRun profiles load = none) :
    (loadOutcome profiles load now maxAge).outcome ≠ .pass ∧ (loadOutcome profiles load now maxAge).outcome ≠ .stale := by
  unfold loadOutcome
  simp only [find?_byNewest, meaningfulOf_real]
  rw [← realRun, hreal, Option.none_or]
  split
  · simp
  · split_ifs <;> simp_all

theorem loadOutcome_realOnly (hreal : realRun profiles load ≠ none) :
    loadOutcome profiles (load.filter fun l => isReal l.environmentClass) now maxAge =
      loadOutcome profiles load now maxAge := by
  obtain ⟨l, hl⟩ := Option.ne_none_iff_exists'.1 hreal
  unfold loadOutcome
  simp only [find?_byNewest, meaningfulOf_real, List.filter_filter, Bool.and_self]
  rw [← realRun, hl, Option.some_or, Option.some_or]

end Outcome

theorem outcome_of_real {x : Subject} {r : Result} (h : i.newestReal x = some r) :
    (i.itemOf x).outcome = if r.passed then if isStale i.now r.finishedAt i.maxAge then .stale else .pass else .fail := by
  cases x with
  | check id =>
    rw [newestReal_check] at h
    obtain ⟨hit, hhit, rfl⟩ := Option.map_eq_some_iff.1 h
    rw [AssessInput.itemOf, checkOutcome_real id _ _ _ hhit]
    by_cases hpass : hit.2.status = .pass <;> simp [hitResult, hpass]
  | load profiles =>
    rw [newestReal_load] at h
    obtain ⟨l, hl, rfl⟩ := Option.map_eq_some_iff.1 h
    rw [AssessInput.itemOf, loadOutcome_real profiles _ _ _ hl]
    by_cases hfail : l.verdict = .fail <;> simp [LoadRunEvidence.result, hfail]

theorem outcome_of_notReal {x : Subject} (h : i.newestReal x = none) :
    (i.itemOf x).outcome ≠ .pass ∧ (i.itemOf x).outcome ≠ .stale := by
  cases x with
  | check id =>
    rw [newestReal_check, Option.map_eq_none_iff] at h
    exact checkOutcome_notReal id _ _ _ h
  | load profiles =>
    rw [newestReal_load, Option.map_eq_none_iff] at h
    exact loadOutcome_notReal profiles _ _ _ h

/-- An item that has real evidence is what it would be without the simulator. -/
theorem itemOf_realOnly {x : Subject} (h : i.newestReal x ≠ none) : i.realOnly.itemOf x = i.itemOf x := by
  cases x with
  | check id =>
    rw [newestReal_check, ne_eq, Option.map_eq_none_iff] at h
    exact checkOutcome_realOnly id _ _ _ h
  | load profiles =>
    rw [newestReal_load, ne_eq, Option.map_eq_none_iff] at h
    exact loadOutcome_realOnly profiles _ _ _ h

theorem newestReal_realOnly (i : AssessInput) (x : Subject) : i.realOnly.newestReal x = i.newestReal x := by
  cases x with
  | check id => simp only [newestReal_check, realHit, AssessInput.realOnly, List.filter_filter, Bool.and_self]
  | load profiles => simp only [newestReal_load, realRun, AssessInput.realOnly, List.filter_filter, Bool.and_self]

theorem real_of_notMock {α : Type} (cls : α → Option LoadEnvironmentClass) {l l' : List α}
    (h : l.filter (fun a => cls a ≠ some .mock) = l'.filter fun a => cls a ≠ some .mock) :
    l.filter (fun a => isReal (cls a)) = l'.filter fun a => isReal (cls a) := by
  have hreal (a : α) : isReal (cls a) = (isReal (cls a) && decide (cls a ≠ some .mock)) := by
    cases cls a with
    | none => rfl
    | some c => cases c <;> rfl
  have hfilter := congrArg (List.filter fun a => isReal (cls a)) h
  simpa only [List.filter_filter, ← hreal] using hfilter

theorem SameButSimulator.realOnly (h : SameButSimulator i i') : i.realOnly = i'.realOnly := by
  have hsuites := real_of_notMock SuiteRunEvidence.environmentClass h.suites
  have hload := real_of_notMock LoadRunEvidence.environmentClass h.load
  have hrest := h.rest
  cases i
  cases i'
  simp_all [AssessInput.realOnly]

/-! ### The items and the status of a control -/

/-- The item of a labelled subject. -/
def AssessInput.labelledItem (i : AssessInput) (p : String × Subject) : EvidenceItem :=
  { i.itemOf p.2 with label := p.1 }

theorem ruleItems_eq (rule : EvidenceRule) :
    ruleItems i.suites i.load i.now i.maxAge rule = rule.labelled.map i.labelledItem := by
  cases rule with
  | checks checkIds description =>
    rw [ruleItems, EvidenceRule.labelled, List.map_map]
    rfl
  | load profiles description => rfl

theorem items_eq {c : Control} (hscope : c.scope ≠ .outOfScope) : i.items c = c.labelled.map i.labelledItem := by
  rw [AssessInput.items, if_neg hscope, Control.labelled, List.map_flatMap]
  exact congrArg c.evidence.flatMap (funext ruleItems_eq)

/-- The item at a position whose subject has real evidence is what it would be without the simulator. -/
theorem items_realOnly {c : Control} {k : Nat} {x : Subject} (hx : c.subjects[k]? = some x)
    (hreal : i.newestReal x ≠ none) : (i.realOnly.items c)[k]? = (i.items c)[k]? := by
  by_cases hscope : c.scope = .outOfScope
  · simp only [AssessInput.items, if_pos hscope]
  · rw [items_eq hscope, items_eq hscope, List.getElem?_map, List.getElem?_map]
    rw [Control.subjects, List.getElem?_map] at hx
    obtain ⟨p, hp, rfl⟩ := Option.map_eq_some_iff.1 hx
    rw [hp, Option.map_some, Option.map_some, AssessInput.labelledItem, itemOf_realOnly hreal]
    rfl

theorem not_any_fail {items : List EvidenceItem} (h : ∀ e ∈ items, e.outcome = .pass ∨ e.outcome = .stale) :
    ¬ items.any (·.outcome = .fail) := by
  intro hany
  obtain ⟨e, he, hfail⟩ := List.any_eq_true.1 hany
  rcases h e he with hpass | hstale <;> simp_all

theorem statusFromItems_evidenced {items : List EvidenceItem} :
    statusFromItems items = .evidenced ↔ items ≠ [] ∧ ∀ e ∈ items, e.outcome = .pass := by
  constructor
  · intro h
    unfold statusFromItems at h
    split_ifs at h with hempty hfail hpass
    exact ⟨by simpa using hempty, by simpa using hpass⟩
  · rintro ⟨hne, hall⟩
    rw [statusFromItems, if_neg (by simpa using hne), if_neg (not_any_fail fun e he => .inl (hall e he)),
      if_pos (by simpa using hall)]

theorem statusFromItems_supported {items : List EvidenceItem} :
    statusFromItems items = .evidenced ∨ statusFromItems items = .evidencedStale ↔
      items ≠ [] ∧ ∀ e ∈ items, e.outcome = .pass ∨ e.outcome = .stale := by
  constructor
  · rintro (h | h)
    · obtain ⟨hne, hall⟩ := statusFromItems_evidenced.1 h
      exact ⟨hne, fun e he => .inl (hall e he)⟩
    · unfold statusFromItems at h
      split_ifs at h with hempty hfail hpass hstale
      exact ⟨by simpa using hempty, by simpa using hstale⟩
  · rintro ⟨hne, hall⟩
    have hstale : items.all fun i => i.outcome = .pass || i.outcome = .stale := by simpa using hall
    rw [statusFromItems, if_neg (by simpa using hne), if_neg (not_any_fail hall), if_pos hstale]
    split_ifs
    · exact .inl rfl
    · exact .inr rfl

theorem outcome_supported {x : Subject} : (i.itemOf x).outcome = .pass ∨ (i.itemOf x).outcome = .stale ↔
    ∃ r, i.newestReal x = some r ∧ r.passed := by
  cases h : i.newestReal x with
  | none =>
    obtain ⟨hpass, hstale⟩ := outcome_of_notReal h
    simp [hpass, hstale]
  | some r =>
    rw [outcome_of_real h]
    cases hpassed : r.passed <;> cases hstale : isStale i.now r.finishedAt i.maxAge <;> simp [hpassed]

theorem outcome_pass {x : Subject} : (i.itemOf x).outcome = .pass ↔
    ∃ r, i.newestReal x = some r ∧ r.passed ∧ i.fresh r := by
  cases h : i.newestReal x with
  | none => simp [(outcome_of_notReal h).1]
  | some r =>
    have hfresh : i.fresh r ↔ isStale i.now r.finishedAt i.maxAge = false := by
      rw [AssessInput.fresh, isStale, decide_eq_false_iff_not, not_lt]
    rw [outcome_of_real h]
    cases hpassed : r.passed <;> cases hstale : isStale i.now r.finishedAt i.maxAge <;> simp [hpassed, hfresh, hstale]

theorem forall_labelledItem {c : Control} {P : ItemOutcome → Prop} :
    (∀ e ∈ c.labelled.map i.labelledItem, P e.outcome) ↔ ∀ x ∈ c.subjects, P (i.itemOf x).outcome := by
  simp only [Control.subjects, List.forall_mem_map, AssessInput.labelledItem]

theorem status_supported (c : Control) :
    i.status c = .evidenced ∨ i.status c = .evidencedStale ↔ i.Supported c := by
  unfold AssessInput.status AssessInput.Supported
  split_ifs with hscope
  · simp [hscope]
  · rw [statusFromItems_supported, items_eq hscope, forall_labelledItem (P := fun o => o = .pass ∨ o = .stale)]
    simp [hscope, outcome_supported, Control.subjects]

theorem status_evidenced (c : Control) : i.status c = .evidenced ↔ i.FreshlySupported c := by
  unfold AssessInput.status AssessInput.FreshlySupported
  split_ifs with hscope
  · simp [hscope]
  · rw [statusFromItems_evidenced, items_eq hscope, forall_labelledItem (P := fun o => o = .pass)]
    simp [hscope, outcome_pass, Control.subjects]

/-! ### The counts of a framework -/

theorem sum_countStatus (byStatus : ControlStatus → Nat) (a : ControlAssessment) :
    (ControlStatus.all.map (countStatus byStatus a)).sum = (ControlStatus.all.map byStatus).sum + 1 := by
  unfold countStatus
  cases a.status <;> simp [ControlStatus.all, Function.update] <;> omega

theorem sum_foldl_countStatus (assessed : List ControlAssessment) (byStatus : ControlStatus → Nat) :
    (ControlStatus.all.map (assessed.foldl countStatus byStatus)).sum =
      (ControlStatus.all.map byStatus).sum + assessed.length := by
  induction assessed generalizing byStatus with
  | nil => rfl
  | cons a assessed ih =>
    rw [List.foldl_cons, ih, sum_countStatus, List.length_cons]
    omega

/-! ### Two assessments -/

theorem SameButSimulator.newestReal (h : SameButSimulator i i') (x : Subject) : i'.newestReal x = i.newestReal x := by
  rw [← newestReal_realOnly i', ← h.realOnly, newestReal_realOnly]

theorem SameButSimulator.supported (h : SameButSimulator i i') (c : Control) : i'.Supported c ↔ i.Supported c := by
  simp only [AssessInput.Supported, h.newestReal]

theorem SameButSimulator.freshlySupported (h : SameButSimulator i i') (c : Control) :
    i'.FreshlySupported c ↔ i.FreshlySupported c := by
  have hnow : i'.now = i.now := (congrArg AssessInput.now h.rest).symm
  have hage : i'.maxAge = i.maxAge := (congrArg AssessInput.maxAge h.rest).symm
  simp only [AssessInput.FreshlySupported, h.newestReal, AssessInput.fresh, hnow, hage]

/-- The second assessment of a control has the same items where there is real evidence, and calls it evidenced exactly
when the first does. -/
structure SameVerdict (i : AssessInput) (a a' : ControlAssessment) : Prop where
  control : a'.control = a.control
  items : ∀ (k : Nat) (x : Subject), a.control.subjects[k]? = some x → i.newestReal x ≠ none → a'.items[k]? = a.items[k]?
  evidenced : a'.status = .evidenced ↔ a.status = .evidenced
  evidencedStale : a'.status = .evidencedStale ↔ a.status = .evidencedStale

theorem SameButSimulator.sameVerdict (h : SameButSimulator i i') (c : Control) :
    SameVerdict i (i.assess c) (i'.assess c) where
  control := rfl
  items := by
    intro k x hx hreal
    have hreal' : i'.newestReal x ≠ none := by rwa [h.newestReal]
    show (i'.items c)[k]? = (i.items c)[k]?
    rw [← items_realOnly (c := c) hx hreal, ← items_realOnly (c := c) hx hreal', h.realOnly]
  evidenced := by
    rw [AssessInput.assess, AssessInput.assess, status_evidenced, status_evidenced, h.freshlySupported]
  evidencedStale := by
    have heither : i'.status c = .evidenced ∨ i'.status c = .evidencedStale ↔
        i.status c = .evidenced ∨ i.status c = .evidencedStale := by
      rw [status_supported, status_supported, h.supported]
    have hfresh : i'.status c = .evidenced ↔ i.status c = .evidenced := by
      rw [status_evidenced, status_evidenced, h.freshlySupported]
    simp only [AssessInput.assess]
    grind

/-- One control with one check, which has passed on the sandbox. -/
def sandboxPassed : AssessInput where
  now := 86400000
  suites := [⟨"real", .security, 0, some .sandbox, [⟨"authz.permission-enforced", .pass, 5, 0⟩]⟩]
  load := []
  reviews := []
  maxAgeDays := none
  controls := [⟨"OWASP-API5", .owaspApi2023, true, .testable,
    [.checks ["authz.permission-enforced"] "A read-only credential is refused on money functions"]⟩]
  libraryVersion := none

/-- A later run of the check on the simulator has failed. -/
def simulatorFailed : AssessInput :=
  { sandboxPassed with
    suites := sandboxPassed.suites ++ [⟨"sim", .security, 1000, some .mock, [⟨"authz.permission-enforced", .fail, 5, 2⟩]⟩] }

end CronMonitor.LoadTest.Compliance
