import CronMonitor.LoadTest.AssessTarget
import CronMonitor.LoadTest.Evidence

/-!
# Evidence out of sight

An assessment should be that of a target's complete history. It is made of the last ten runs of each suite and the last
sixty load runs, whatever they are and wherever they ran, so that it is the right one just when the runs that the
complete history goes by are among these.
-/

namespace CronMonitor.LoadTest.Compliance
open History

namespace Tables

variable (t : Tables) (apiId : Uuid)

/-- Every suite run of the target that counts. -/
def suiteHistory : List CorrectnessRun :=
  completed (correctnessRunsOf t apiId (some .correctness) ++ correctnessRunsOf t apiId (some .security))

/-- Every load run of the target that counts. -/
def loadHistory : List LoadRun := ended (loadRunsOf t apiId)

/-- The suite runs in sight. -/
def suiteSlice : List CorrectnessRun :=
  completed (listCorrectnessRuns t apiId (some .correctness) (some 10) ++
    listCorrectnessRuns t apiId (some .security) (some 10))

/-- The load runs in sight. -/
def loadSlice : List LoadRun := ended (listRuns t apiId (some 60))

end Tables

/-- The result that a check goes by: the latest real one, the latest of the simulator when there is none. -/
def checkPick (id : String) (suites : List SuiteRunEvidence) : Option (SuiteRunEvidence × SuiteCheckEvidence) :=
  preferred (fun h => h.1.finishedAt) (fun h => isReal h.1.environmentClass) (fun h => h.1.environmentClass = some .mock)
    (hitsOf id suites)

/-- The run that profiles go by. -/
def loadPick (profiles : List LoadProfile) (load : List LoadRunEvidence) : Option LoadRunEvidence :=
  preferred LoadRunEvidence.finishedAt (fun l => isReal l.environmentClass) (fun l => l.environmentClass = some .mock)
    (meaningfulOf profiles load)

namespace AssessInput

def classes (i : AssessInput) : List (Option LoadEnvironmentClass) :=
  i.suites.map (·.environmentClass) ++ i.load.map (·.environmentClass)

/-- What an item goes by is in sight. -/
def InSight (i i' : AssessInput) : Subject → Prop
  | .check id => ∀ h ∈ checkPick id i.suites, h.1 ∈ i'.suites
  | .load profiles => ∀ l ∈ loadPick profiles i.load, l ∈ i'.load

/-- What the assessment goes by is in sight: the run of every item, a real run if there is one, and a simulator run. -/
structure Kept (i i' : AssessInput) : Prop where
  items : ∀ c ∈ i.controls, c.scope ≠ .outOfScope → ∀ x ∈ c.subjects, i.InSight i' x
  real : i.classes.any isReal = true → i'.classes.any isReal = true
  mock : some .mock ∈ i.classes → some .mock ∈ i'.classes

/-- `i'` is a part of `i`, whose runs have ids of their own. -/
structure Part (i i' : AssessInput) : Prop where
  suites : i'.suites.Sublist i.suites
  load : i'.load.Sublist i.load
  suites_key : (i.suites.map (·.runId)).Nodup
  load_key : (i.load.map (·.runId)).Nodup
  now : i'.now = i.now
  reviews : i'.reviews = i.reviews
  maxAgeDays : i'.maxAgeDays = i.maxAgeDays
  controls : i'.controls = i.controls
  libraryVersion : i'.libraryVersion = i.libraryVersion

end AssessInput

/-! ### Items and the runs they go by -/

section Pick

variable {α : Type} {key : α → Time} {p q : α → Bool} {l l' : List α}

/-- Whether there is an entry of the preferred kind is told from the entry taken. -/
theorem isSome_of_preferred (hpq : ∀ a, p a = true → q a = false) :
    (newest key (l.filter p)).isSome = (preferred key p q l).any p := by
  unfold preferred
  cases hp : newest key (l.filter p) with
  | some a =>
    have hpa : p a = true := (List.mem_filter.1 (mem_of_newest hp)).2
    simp [hpa]
  | none =>
    cases hq : newest key (l.filter q) with
    | none => rfl
    | some a =>
      have hqa : q a = true := (List.mem_filter.1 (mem_of_newest hq)).2
      have hpa : p a = false := by
        by_contra h
        have := hpq a (by simpa using h)
        rw [hqa] at this
        cases this
      simp [hpa]

theorem isSome_congr (hpq : ∀ a, p a = true → q a = false) (h : preferred key p q l' = preferred key p q l) :
    (newest key (l'.filter p)).isSome = (newest key (l.filter p)).isSome := by
  rw [isSome_of_preferred hpq, isSome_of_preferred hpq, h]

end Pick

theorem real_not_mock (c : Option LoadEnvironmentClass) (h : isReal c = true) : decide (c = some .mock) = false := by
  cases c with
  | none => cases h
  | some c => cases c <;> first | rfl | cases h

section Outcome

variable {id : String} {suites suites' : List SuiteRunEvidence} {profiles : List LoadProfile}
  {load load' : List LoadRunEvidence} {now : Time} {maxAge : ℚ}

def SuiteRunEvidence.itemRun (s : SuiteRunEvidence) : ItemRun := ⟨s.runId, s.suite.kind, s.finishedAt, s.environmentClass⟩

def LoadRunEvidence.itemRun (l : LoadRunEvidence) : ItemRun := ⟨l.runId, .load, l.finishedAt, l.environmentClass⟩

theorem checkOutcome_run : (checkOutcome id suites now maxAge).run = (checkPick id suites).map (·.1.itemRun) := by
  unfold checkOutcome checkPick preferred
  simp only [find?_byNewest]
  split
  · rename_i hnone
    rw [hnone]
    rfl
  · rename_i hsome
    rw [hsome]
    split_ifs <;> rfl

theorem loadOutcome_run : (loadOutcome profiles load now maxAge).run = (loadPick profiles load).map (·.itemRun) := by
  unfold loadOutcome loadPick preferred
  simp only [find?_byNewest]
  split
  · rename_i hnone
    rw [hnone]
    rfl
  · rename_i hsome
    rw [hsome]
    split_ifs <;> rfl

theorem checkOutcome_congr (h : checkPick id suites' = checkPick id suites) :
    checkOutcome id suites' now maxAge = checkOutcome id suites now maxAge := by
  have hreal := isSome_congr (p := fun a : SuiteRunEvidence × SuiteCheckEvidence => isReal a.1.environmentClass)
    (q := fun a => a.1.environmentClass = some .mock) (fun a => real_not_mock a.1.environmentClass) h
  unfold checkPick preferred at h
  unfold checkOutcome
  simp only [find?_byNewest, ← Option.not_isSome]
  simp only [h, hreal]

theorem loadOutcome_congr (h : loadPick profiles load' = loadPick profiles load) :
    loadOutcome profiles load' now maxAge = loadOutcome profiles load now maxAge := by
  have hreal := isSome_congr (p := fun a : LoadRunEvidence => isReal a.environmentClass)
    (q := fun a => a.environmentClass = some .mock) (fun a => real_not_mock a.environmentClass) h
  unfold loadPick preferred at h
  unfold loadOutcome
  simp only [find?_byNewest, ← Option.not_isSome]
  simp only [h, hreal]

end Outcome

section Part

variable {i i' : AssessInput}

theorem eq_of_runId {α β : Type} {f : α → β} {l : List α} (hl : (l.map f).Nodup) {a b : α} (ha : a ∈ l) (hb : b ∈ l)
    (h : f a = f b) : a = b := List.inj_on_of_nodup_map hl ha hb h

theorem mem_of_hit {id : String} {suites : List SuiteRunEvidence} {h : SuiteRunEvidence × SuiteCheckEvidence}
    (hh : h ∈ hitsOf id suites) :
    h.1 ∈ suites ∧ h.1.checks.find? (fun x => x.id = id && x.status ≠ .skipped) = some h.2 := by
  obtain ⟨s, hs, hmap⟩ := List.mem_filterMap.1 hh
  obtain ⟨c, hc, rfl⟩ := Option.map_eq_some_iff.1 hmap
  exact ⟨hs, hc⟩

theorem hitsOf_nodup {id : String} {suites : List SuiteRunEvidence} (h : (suites.map (·.runId)).Nodup) :
    (hitsOf id suites).Nodup := by
  refine List.Nodup.of_map (fun h => h.1.runId) (h.sublist ?_)
  have hfst : ((hitsOf id suites).map (·.1)).Sublist suites := by
    unfold hitsOf
    induction suites with
    | nil => exact List.Sublist.slnil
    | cons s suites ih =>
      have hs := ih (List.nodup_cons.1 h).2
      rw [List.filterMap_cons]
      cases s.checks.find? fun x => x.id = id && x.status ≠ .skipped with
      | none => exact hs.cons s
      | some c => exact hs.cons_cons s
  have hmap := hfst.map (·.runId)
  rwa [List.map_map] at hmap

theorem meaningfulOf_nodup {profiles : List LoadProfile} {load : List LoadRunEvidence} (h : (load.map (·.runId)).Nodup) :
    (meaningfulOf profiles load).Nodup := (List.Nodup.of_map _ h).filter _

/-- The run an item goes by is the same in a part of a history only where it is in sight there. -/
theorem inSight_of_run (h : i.Part i') {x : Subject} (hrun : (i'.itemOf x).run = (i.itemOf x).run) : i.InSight i' x := by
  cases x with
  | check id =>
    intro hit hhit
    rw [AssessInput.itemOf, AssessInput.itemOf, checkOutcome_run, checkOutcome_run, hhit] at hrun
    obtain ⟨hit', hhit', heq⟩ := Option.map_eq_some_iff.1 hrun
    have hmem' := (mem_of_hit (mem_of_preferred hhit')).1
    have hmem := (mem_of_hit (mem_of_preferred hhit)).1
    have hsame := eq_of_runId h.suites_key (h.suites.subset hmem') hmem (congrArg ItemRun.runId heq)
    rwa [hsame] at hmem'
  | load profiles =>
    intro l hl
    rw [AssessInput.itemOf, AssessInput.itemOf, loadOutcome_run, loadOutcome_run, hl] at hrun
    obtain ⟨l', hl', heq⟩ := Option.map_eq_some_iff.1 hrun
    have hmem' := List.mem_of_mem_filter (mem_of_preferred hl')
    have hmem := List.mem_of_mem_filter (mem_of_preferred hl)
    have hsame := eq_of_runId h.load_key (h.load.subset hmem') hmem (congrArg ItemRun.runId heq)
    rwa [hsame] at hmem'

theorem Part.maxAge (h : i.Part i') : i'.maxAge = i.maxAge := by
  rw [AssessInput.maxAge, AssessInput.maxAge, h.maxAgeDays]

theorem itemOf_congr (h : i.Part i') {x : Subject} (hx : i.InSight i' x) : i'.itemOf x = i.itemOf x := by
  cases x with
  | check id =>
    rw [AssessInput.itemOf, AssessInput.itemOf, h.now, Part.maxAge h]
    refine checkOutcome_congr ((preferred_sublist (h.suites.filterMap _) (hitsOf_nodup h.suites_key)).2 ?_)
    intro hit hhit
    refine List.mem_filterMap.2 ⟨hit.1, hx hit hhit, ?_⟩
    rw [(mem_of_hit (mem_of_preferred hhit)).2]
    rfl
  | load profiles =>
    rw [AssessInput.itemOf, AssessInput.itemOf, h.now, Part.maxAge h]
    refine loadOutcome_congr ((preferred_sublist (h.load.filter _) (meaningfulOf_nodup h.load_key)).2 ?_)
    intro l hl
    exact List.mem_filter.2 ⟨hx l hl, (List.mem_filter.1 (mem_of_preferred hl)).2⟩

theorem items_eq_iff (h : i.Part i') (c : Control) :
    i'.items c = i.items c ↔ (c.scope ≠ .outOfScope → ∀ x ∈ c.subjects, i.InSight i' x) := by
  by_cases hscope : c.scope = .outOfScope
  · simp [AssessInput.items, hscope]
  · rw [items_eq hscope, items_eq hscope, List.map_inj_left, Control.subjects, List.forall_mem_map]
    constructor
    · intro hitems _ p hp
      have hrun := congrArg EvidenceItem.run (hitems p hp)
      exact inSight_of_run h hrun
    · intro hkept p hp
      rw [AssessInput.labelledItem, itemOf_congr h (hkept hscope p hp)]
      rfl

theorem basis_eq_iff (h : i.Part i') : basisOf i'.classes = basisOf i.classes ↔
    (i.classes.any isReal = true → i'.classes.any isReal = true) ∧ (some .mock ∈ i.classes → some .mock ∈ i'.classes) := by
  have hsub : i'.classes ⊆ i.classes := ((h.suites.map _).append (h.load.map _)).subset
  have hreal : i'.classes.any isReal = true → i.classes.any isReal = true := by
    simp only [List.any_eq_true]
    rintro ⟨c, hc, hclass⟩
    exact ⟨c, hsub hc, hclass⟩
  have hmock : i'.classes.contains (some .mock) = true → i.classes.contains (some .mock) = true := by
    simp only [List.contains_iff_mem]
    exact fun hc => hsub hc
  rw [← List.contains_iff_mem, ← List.contains_iff_mem]
  unfold basisOf
  cases hr : i.classes.any isReal <;> cases hr' : i'.classes.any isReal <;>
    cases hm : i.classes.contains (some .mock) <;> cases hm' : i'.classes.contains (some .mock) <;> simp_all

theorem assess_eq_iff (h : i.Part i') (c : Control) : i'.assess c = i.assess c ↔ i'.items c = i.items c := by
  constructor
  · exact fun heq => congrArg ControlAssessment.items heq
  · intro heq
    have hversion : i'.version = i.version := by rw [AssessInput.version, AssessInput.version, h.libraryVersion]
    have hstatus : i'.status c = i.status c := by rw [AssessInput.status, AssessInput.status, heq]
    rw [AssessInput.assess, AssessInput.assess, heq, hstatus, h.reviews, hversion]

/-- The assessment of a part of a history is that of the history just when what it goes by is in sight. -/
theorem assessControls_eq_iff (h : i.Part i') : assessControls i' = assessControls i ↔ i.Kept i' := by
  have hbasis := basis_eq_iff h
  constructor
  · intro heq
    obtain ⟨hreal, hmock⟩ := hbasis.1 (congrArg Assessment.basis heq)
    refine ⟨fun c hc => ?_, hreal, hmock⟩
    have hcontrols : i'.controls.map i'.assess = i.controls.map i.assess := congrArg Assessment.controls heq
    rw [h.controls, List.map_inj_left] at hcontrols
    exact (items_eq_iff h c).1 ((assess_eq_iff h c).1 (hcontrols c hc))
  · intro hkept
    have hcontrols : i'.controls.map i'.assess = i.controls.map i.assess := by
      rw [h.controls, List.map_inj_left]
      exact fun c hc => (assess_eq_iff h c).2 ((items_eq_iff h c).2 (hkept.items c hc))
    have hb := hbasis.2 ⟨hkept.real, hkept.mock⟩
    have hversion : i'.version = i.version := by rw [AssessInput.version, AssessInput.version, h.libraryVersion]
    unfold AssessInput.classes at hb
    simp only [assessControls, hcontrols, hb, hversion, h.now, h.maxAgeDays]

end Part

/-! ### The target's history -/

section Target

variable {controls : List Control} {hostOf : String → String}
  {verdictOf : PlanConfig → Option RunSummary → LoadRunStatus → Option String → RunVerdict} {t : Tables} {apiId : Uuid}
  {now : Time} {maxAgeDays : Option ℚ}

/-- What the assessment of the complete history is made of. -/
def Tables.complete (t : Tables) (apiId : Uuid) (controls : List Control)
    (verdictOf : PlanConfig → Option RunSummary → LoadRunStatus → Option String → RunVerdict) (now : Time)
    (maxAgeDays : Option ℚ) : AssessInput :=
  evidenceOf controls verdictOf t.reviews (t.suiteHistory apiId) (t.loadHistory apiId) now maxAgeDays

/-- What the assessment is made of. -/
def Tables.inSight (t : Tables) (apiId : Uuid) (controls : List Control)
    (verdictOf : PlanConfig → Option RunSummary → LoadRunStatus → Option String → RunVerdict) (now : Time)
    (maxAgeDays : Option ℚ) : AssessInput :=
  evidenceOf controls verdictOf t.reviews (t.suiteSlice apiId) (t.loadSlice apiId) now maxAgeDays

theorem nodup_byNewest {α : Type} {key : α → Time} {p : α → Bool} {f : α → String} {l : List α} (h : (l.map f).Nodup) :
    ((byNewest key (l.filter p)).map f).Nodup :=
  ((perm_byNewest _).map f).nodup_iff.2 (h.sublist (List.filter_sublist.map f))

theorem mem_correctnessRunsOf {suite : Suite} {r : CorrectnessRun} (h : r ∈ correctnessRunsOf t apiId (some suite)) :
    r ∈ t.correctnessRuns ∧ r.suite = suite := by
  have hmem := (perm_byNewest _).mem_iff.1 h
  obtain ⟨hr, hcond⟩ := List.mem_filter.1 hmem
  simp only [Option.all_some, Bool.and_eq_true, decide_eq_true_eq] at hcond
  exact ⟨hr, hcond.2⟩

theorem suiteHistory_key (t : Tables) (apiId : Uuid) : ((t.suiteHistory apiId).map (·.id)).Nodup := by
  refine List.Nodup.sublist (List.filter_sublist.map _) ?_
  rw [List.map_append, List.nodup_append]
  refine ⟨nodup_byNewest t.correctness_key, nodup_byNewest t.correctness_key, ?_⟩
  intro a ha b hb hab
  obtain ⟨r, hr, rfl⟩ := List.mem_map.1 ha
  obtain ⟨r', hr', rfl⟩ := List.mem_map.1 hb
  obtain ⟨hmem, hsuite⟩ := mem_correctnessRunsOf hr
  obtain ⟨hmem', hsuite'⟩ := mem_correctnessRunsOf hr'
  have hsame := eq_of_runId t.correctness_key hmem hmem' hab
  rw [hsame, hsuite'] at hsuite
  cases hsuite

theorem part_inSight : (t.complete apiId controls verdictOf now maxAgeDays).Part
    (t.inSight apiId controls verdictOf now maxAgeDays) where
  suites := by
    refine List.Sublist.map _ (List.Sublist.filter _ ?_)
    exact (List.take_sublist _ _).append (List.take_sublist _ _)
  load := (List.Sublist.filter _ (List.take_sublist _ _)).map _
  suites_key := by
    have hkey := suiteHistory_key t apiId
    simpa only [Tables.complete, evidenceOf, List.map_map, Function.comp_def, toSuiteEvidence] using hkey
  load_key := by
    have hkey : ((t.loadHistory apiId).map (·.id)).Nodup :=
      (nodup_byNewest t.load_key).sublist (List.filter_sublist.map _)
    simpa only [Tables.complete, evidenceOf, List.map_map, Function.comp_def, toLoadEvidence] using hkey
  now := rfl
  reviews := rfl
  maxAgeDays := rfl
  controls := rfl
  libraryVersion := rfl

/-- The assessment is that of the complete history exactly when what the latter goes by is among the runs in sight. -/
theorem assessTarget_complete_iff {r : TargetAssessment}
    (h : assessTarget controls hostOf verdictOf t apiId now maxAgeDays = .ok r) :
    r.assessment = assessControls (t.complete apiId controls verdictOf now maxAgeDays) ↔
      (t.complete apiId controls verdictOf now maxAgeDays).Kept (t.inSight apiId controls verdictOf now maxAgeDays) := by
  have hassessment : r.assessment = assessControls (t.inSight apiId controls verdictOf now maxAgeDays) := by
    unfold assessTarget at h
    split at h
    · cases h
    · cases h
      rfl
  rw [hassessment]
  exact assessControls_eq_iff part_inSight

end Target

/-! ### A real failure out of sight -/

def errorHygiene : Control :=
  ⟨"PCI-3.3", .pciDss401, true, .partialScope,
    [.checks ["misconfig.error-hygiene"] "Error bodies leak no secrets or credentials"]⟩

def securityRun (id : String) (effectiveClass : LoadEnvironmentClass) (passed : Bool) (time : Time) : CorrectnessRun where
  id := id
  apiId := 1
  status := .completed
  suite := .security
  effectiveClass := some effectiveClass
  results := some [⟨"misconfig.error-hygiene", if passed then .pass else .fail, [⟨passed, false⟩]⟩]
  queuedAt := time
  finishedAt := some time

/-- A failure in the sandbox, and then ten runs against the simulator. -/
def shadowed : Tables where
  targets := [⟨1, "payments", "https://sandbox.example/pay"⟩]
  correctnessRuns := securityRun "real" .sandbox false 0 ::
    (["a", "b", "c", "d", "e", "f", "g", "h", "i", "j"].zipIdx.map fun p => securityRun p.1 .mock true (p.2 + 1))
  loadRuns := []
  reviews := []
  correctness_key := by decide +kernel
  load_key := by decide

def noVerdict : PlanConfig → Option RunSummary → LoadRunStatus → Option String → RunVerdict := fun _ _ _ _ => .inconclusive

/-- The failing control is reported as tested on the simulator only. -/
theorem real_failure_displaced : ∃ r, assessTarget [errorHygiene] id noVerdict shadowed 1 20 none = .ok r ∧
    r.assessment.controls.map (·.status) = [.simulatorOnly] ∧
      (assessControls (shadowed.complete 1 [errorHygiene] noVerdict 20 none)).controls.map (·.status) = [.failing] ∧
        r.assessment ≠ assessControls (shadowed.complete 1 [errorHygiene] noVerdict 20 none) := by
  have hsliced : (assessControls (shadowed.inSight 1 [errorHygiene] noVerdict 20 none)).controls.map (·.status) =
      [.simulatorOnly] := by decide +kernel
  have hcomplete : (assessControls (shadowed.complete 1 [errorHygiene] noVerdict 20 none)).controls.map (·.status) =
      [.failing] := by decide +kernel
  refine ⟨_, rfl, hsliced, hcomplete, ?_⟩
  intro heq
  have hstatus := congrArg (fun a : Assessment => a.controls.map (·.status)) heq
  exact absurd (hsliced.symm.trans (hstatus.trans hcomplete)) (by decide)

/-- A failure in the sandbox after nine runs against the simulator, and one before them that is out of sight. -/
def testedOnce : Tables where
  targets := [⟨1, "payments", "https://sandbox.example/pay"⟩]
  correctnessRuns := securityRun "old" .sandbox true 0 :: securityRun "real" .sandbox false 20 ::
    (["a", "b", "c", "d", "e", "f", "g", "h", "i"].zipIdx.map fun p => securityRun p.1 .mock true (p.2 + 1))
  loadRuns := []
  reviews := []
  correctness_key := by decide +kernel
  load_key := by decide

theorem testedOnce_complete : ∃ r, assessTarget [errorHygiene] id noVerdict testedOnce 1 30 none = .ok r ∧
    r.assessment.controls.map (·.status) = [.failing] ∧
      r.assessment = assessControls (testedOnce.complete 1 [errorHygiene] noVerdict 30 none) := by
  have hok : assessTarget [errorHygiene] id noVerdict testedOnce 1 30 none = .ok _ := rfl
  have hfailing : (assessControls (testedOnce.inSight 1 [errorHygiene] noVerdict 30 none)).controls.map (·.status) =
      [.failing] := by decide +kernel
  refine ⟨_, hok, hfailing, (assessTarget_complete_iff hok).2 ⟨fun c hc _ x hx => ?_, fun _ => ?_, fun _ => ?_⟩⟩
  · obtain rfl : c = errorHygiene := List.mem_singleton.1 hc
    obtain rfl : x = .check "misconfig.error-hygiene" := List.mem_singleton.1 hx
    show ∀ h ∈ checkPick _ _, _
    decide +kernel
  · decide +kernel
  · decide +kernel

end CronMonitor.LoadTest.Compliance
