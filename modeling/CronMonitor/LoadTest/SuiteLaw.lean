import CronMonitor.LoadTest.Suite
import Mathlib.Tactic

/-!
# A suite's results, its verdict and its findings

Two loops make the results, `summarize` and `findingsFromSuite` read them independently of each other. Every selected
check is judged once, and what the two make of a result is the same.
-/

namespace CronMonitor.LoadTest

variable {ε : Type} {simulator : Bool} {only : List String} {pool : List Check} {steps : Nat → SuiteStep ε}

/-! ### One result for each check -/

theorem checkResult_id (c : Check) (step : SuiteStep ε) : (checkResult c step).id = c.id := by
  unfold checkResult
  split
  · rfl
  · simp only
    split <;> rfl

/-- The checks that a suite has to judge: the selected ones, without those that only make sense live. -/
def toJudge (simulator : Bool) (only : List String) (pool : List Check) : List Check :=
  (pool.filter (isSelected only)).filter fun c => !(simulator && c.liveOnly)

theorem chosen_eq (simulator : Bool) (only : List String) (pool : List Check) : applicableChecks simulator only pool =
    (toJudge simulator only pool).filter fun c => simulator || c.requires.length = 0 := by
  unfold applicableChecks toJudge
  rw [List.filter_comm]

theorem suite_ids : ((suiteResults simulator only pool steps).map (·.id)).Perm
    ((toJudge simulator only pool).map (·.id)) := by
  have hloop : ((applicableChecks simulator only pool).zipIdx.map fun p => checkResult p.1 (steps p.2)).map (·.id) =
      (applicableChecks simulator only pool).map (·.id) := by
    rw [List.map_map]
    have hid : ((fun r : CheckResult ε => r.id) ∘ fun p : Check × Nat => checkResult p.1 (steps p.2)) =
        (fun c : Check => c.id) ∘ Prod.fst := funext fun p => checkResult_id p.1 (steps p.2)
    rw [hid, ← List.map_map, List.zipIdx_map_fst]
  have hskipped : ((pool.filter (isSelected only)).filter (· ∉ applicableChecks simulator only pool)).filter
      (fun c => !(simulator && c.liveOnly)) =
      (toJudge simulator only pool).filter fun c => !(simulator || c.requires.length = 0) := by
    rw [List.filter_comm, ← toJudge, chosen_eq]
    refine List.filter_congr fun c hc => ?_
    simp only [List.mem_filter, hc, true_and, decide_not, Bool.decide_eq_true]
  unfold suiteResults
  simp only
  rw [List.map_append, hloop, hskipped, List.map_map, chosen_eq]
  change (List.map (fun c : Check => c.id) _ ++ List.map (fun c : Check => c.id) _).Perm _
  rw [← List.map_append]
  exact (List.filter_append_perm _ _).map _

/-- Unless it is judged, a result carries no assertions. -/
structure CheckResult.Honest (r : CheckResult ε) : Prop where
  pass : r.status = .pass → failedAssertions r = []
  fail : r.status = .fail → failedAssertions r ≠ []
  error : r.status = .error → r.assertions = []
  skipped : r.status = .skipped → r.assertions = []
  warnings : r.warnings = (warnedAssertions r).length

theorem unjudged_honest {r : CheckResult ε} (hstatus : r.status = .error ∨ r.status = .skipped) (hnone : r.assertions = [])
    (hwarn : r.warnings = 0) : r.Honest := by
  refine ⟨?_, ?_, fun _ => hnone, fun _ => hnone, by simp [warnedAssertions, hnone, hwarn]⟩
  all_goals
    intro h
    rcases hstatus with h' | h' <;> simp [h'] at h

/-- Whether the required ones all pass is whether none of them counts as failed. -/
theorem required_pass_iff (list : List Assertion) : (list.filter fun a => !a.isAdvisory).all (·.pass) = true ↔
    (list.filter fun a => !a.pass && !a.isAdvisory) = [] := by
  simp only [List.all_eq_true, List.mem_filter, List.filter_eq_nil_iff]
  constructor
  · intro h a ha hfailed
    rw [Bool.and_eq_true, Bool.not_eq_true'] at hfailed
    simp [h a ⟨ha, hfailed.2⟩] at hfailed
  · intro h a ha
    by_contra hpass
    exact h a ha.1 (by simp [hpass, ha.2])

theorem judged_honest {r : CheckResult ε} {list : List Assertion} (hlist : r.assertions = list)
    (hstatus : r.status = if (list.filter fun a => !a.isAdvisory).all (·.pass) then .pass else .fail)
    (hwarn : r.warnings = (list.filter fun a => a.isAdvisory && !a.pass).length) : r.Honest := by
  have hfailed := required_pass_iff list
  rw [← hlist] at hfailed hstatus hwarn
  refine ⟨fun h => ?_, fun h => ?_, fun h => ?_, fun h => ?_, ?_⟩
  · by_contra hnil
    rw [hstatus, if_neg (mt hfailed.1 hnil)] at h
    cases h
  · intro hnil
    rw [hstatus, if_pos (hfailed.2 hnil)] at h
    cases h
  · rw [hstatus] at h
    split at h <;> cases h
  · rw [hstatus] at h
    split at h <;> cases h
  · rw [hwarn, warnedAssertions]
    simp only [Bool.and_comm]

theorem checkResult_honest (c : Check) (step : SuiteStep ε) : (checkResult c step).Honest := by
  unfold checkResult
  split
  · exact unjudged_honest (.inr rfl) rfl rfl
  · simp only
    split
    · exact unjudged_honest (.inr rfl) rfl rfl
    · exact judged_honest rfl rfl rfl
    · exact unjudged_honest (.inr rfl) rfl rfl
    · exact unjudged_honest (.inl rfl) rfl rfl

theorem suite_honest {r : CheckResult ε} (hr : r ∈ suiteResults simulator only pool steps) : r.Honest := by
  rcases List.mem_append.1 hr with hr | hr
  · obtain ⟨p, -, rfl⟩ := List.mem_map.1 hr
    exact checkResult_honest p.1 (steps p.2)
  · obtain ⟨c, -, rfl⟩ := List.mem_map.1 hr
    exact unjudged_honest (.inr rfl) rfl rfl

/-! ### The summary -/

theorem counts_total (results : List (CheckResult ε)) :
    (results.filter (·.status = .pass)).length + (results.filter (·.status = .fail)).length +
      (results.filter (·.status = .error)).length + (results.filter (·.status = .skipped)).length =
        results.length := by
  induction results with
  | nil => rfl
  | cons r rest ih =>
    simp only [List.filter_cons, List.length_cons]
    cases r.status <;> simp <;> omega

theorem summarize_total (results : List (CheckResult ε)) : (summarize results).passed + (summarize results).failed +
    (summarize results).errored + (summarize results).skipped = (summarize results).total :=
  counts_total results

/-- The warnings of the summary are the failing advisory assertions. -/
theorem warnings_count {results : List (CheckResult ε)} (h : ∀ r ∈ results, r.Honest) :
    (results.flatMap warnedAssertions).length = (summarize results).warnings := by
  change _ = (results.map (·.warnings)).sum
  induction results with
  | nil => rfl
  | cons r rest ih =>
    rw [List.flatMap_cons, List.length_append, ih fun r' hr' => h r' (List.mem_cons_of_mem _ hr'), List.map_cons,
      List.sum_cons, (h r List.mem_cons_self).warnings]

theorem verdict_pass {results : List (CheckResult ε)} (h : (summarize results).verdict = .pass) :
    (∀ r ∈ results, r.status ≠ .fail ∧ r.status ≠ .error ∧ r.blockedBy = none) ∧ ∃ r ∈ results, r.status = .pass := by
  simp only [summarize] at h
  split at h
  · cases h
  · rename_i hbad
    split at h
    · cases h
    · rename_i hblocked
      split at h
      · rename_i hsome
        have hfail : results.filter (·.status = .fail) = [] := List.eq_nil_of_length_eq_zero (by omega)
        have herror : results.filter (·.status = .error) = [] := List.eq_nil_of_length_eq_zero (by omega)
        have hfree : results.filter (·.blockedBy.isSome) = [] := List.eq_nil_of_length_eq_zero (by omega)
        rw [List.filter_eq_nil_iff] at hfail herror hfree
        refine ⟨fun r hr => ⟨?_, ?_, ?_⟩, ?_⟩
        · simpa using hfail r hr
        · simpa using herror r hr
        · simpa using hfree r hr
        · obtain ⟨r, hr⟩ := List.exists_mem_of_length_pos hsome
          rw [List.mem_filter, decide_eq_true_eq] at hr
          exact ⟨r, hr⟩
      · cases h

/-! ### The findings -/

section Findings
variable (controlInfo : String → Option ControlInfo) (localeCompare : String → String → Int) (source : FindingSource)

/-- A result that the summary counts as failed or errored. -/
def CheckResult.isFailure (r : CheckResult ε) : Bool := r.status = .fail || r.status = .error

def realFindings (r : CheckResult ε) : List Finding := (findingsOf controlInfo source r).filter fun f => !f.advisory

def advisoryFindings (r : CheckResult ε) : List Finding := (findingsOf controlInfo source r).filter (·.advisory)

theorem warning_advisory (r : CheckResult ε) : ∀ f ∈ (warnedAssertions r).zipIdx.map fun p =>
    warningFinding controlInfo source r p.2 p.1, f.advisory = true := by
  intro f hf
  obtain ⟨p, -, rfl⟩ := List.mem_map.1 hf
  rfl

theorem real_reference {r : CheckResult ε} (h : r.Honest) : (realFindings controlInfo source r).map (·.reference) =
    if r.isFailure then [r.id] else [] := by
  have hwarn := warning_advisory controlInfo source r
  have hnone : ((warnedAssertions r).zipIdx.map fun p => warningFinding controlInfo source r p.2 p.1).filter
      (fun f => !f.advisory) = [] := by
    rw [List.filter_eq_nil_iff]
    intro f hf
    simp [hwarn f hf]
  unfold realFindings findingsOf CheckResult.isFailure
  cases hstatus : r.status with
  | skipped => simp
  | error => simp [errorFinding]
  | pass => simp [h.pass hstatus, hnone]
  | fail =>
    have hlen := List.length_pos_of_ne_nil (h.fail hstatus)
    simp [hlen, hnone, failureFinding]

theorem advisory_titles {r : CheckResult ε} (h : r.Honest) :
    (advisoryFindings controlInfo source r).map (fun f => (f.reference, f.title)) =
      (warnedAssertions r).map fun a => (r.id, s!"Hardening: {a.name}") := by
  have hall : ((warnedAssertions r).zipIdx.map fun p => warningFinding controlInfo source r p.2 p.1).filter
      (·.advisory) = (warnedAssertions r).zipIdx.map fun p => warningFinding controlInfo source r p.2 p.1 :=
    List.filter_eq_self.2 (warning_advisory controlInfo source r)
  have htitles : ((warnedAssertions r).zipIdx.map fun p => warningFinding controlInfo source r p.2 p.1).map
      (fun f => (f.reference, f.title)) = (warnedAssertions r).map fun a => (r.id, s!"Hardening: {a.name}") := by
    rw [List.map_map]
    have hfun : ((fun f : Finding => (f.reference, f.title)) ∘ fun p : Assertion × Nat =>
        warningFinding controlInfo source r p.2 p.1) =
        (fun a : Assertion => (r.id, s!"Hardening: {a.name}")) ∘ Prod.fst := rfl
    rw [hfun, ← List.map_map, List.zipIdx_map_fst]
  unfold advisoryFindings findingsOf
  cases hstatus : r.status with
  | skipped => simp [warnedAssertions, h.skipped hstatus]
  | error => simp [errorFinding, warnedAssertions, h.error hstatus]
  | pass | fail =>
    simp only
    rw [List.filter_append, hall, List.map_append, htitles]
    split <;> simp [failureFinding]

theorem credential_plain (results : List (CheckResult ε)) :
    ∀ f ∈ credentialFindings source results, f.advisory = false := by
  intro f hf
  unfold credentialFindings at hf
  simp only at hf
  split at hf
  · rw [List.mem_singleton.1 hf]
  · cases hf

theorem credential_reference (results : List (CheckResult ε)) :
    ∀ f ∈ credentialFindings source results, f.reference = "credential-permissions" := by
  intro f hf
  unfold credentialFindings at hf
  simp only at hf
  split at hf
  · rw [List.mem_singleton.1 hf]
  · cases hf

theorem flatMap_map_length {α β γ : Type} (l : List α) (f : α → List β) (g : α → β → γ) :
    (l.flatMap fun a => (f a).map (g a)).length = (l.flatMap f).length := by
  rw [List.length_flatMap, List.length_flatMap]
  simp only [List.length_map]

theorem findings_perm (results : List (CheckResult ε)) : (findingsFromSuite controlInfo localeCompare source results).Perm
    (credentialFindings source results ++ results.flatMap (findingsOf controlInfo source)) :=
  List.perm_insertionSort _ _

theorem findings_plain (results : List (CheckResult ε)) :
    ((findingsFromSuite controlInfo localeCompare source results).filter fun f => !f.advisory).Perm
      (credentialFindings source results ++ results.flatMap (realFindings controlInfo source)) := by
  have hcred : (credentialFindings source results).filter (fun f => !f.advisory) = credentialFindings source results :=
    List.filter_eq_self.2 fun f hf => by simp [credential_plain source results f hf]
  have h := (findings_perm controlInfo localeCompare source results).filter fun f => !f.advisory
  rwa [List.filter_append, hcred, List.filter_flatMap] at h

theorem findings_advisory (results : List (CheckResult ε)) :
    ((findingsFromSuite controlInfo localeCompare source results).filter (·.advisory)).Perm
      (results.flatMap (advisoryFindings controlInfo source)) := by
  have hcred : (credentialFindings source results).filter (·.advisory) = [] :=
    List.filter_eq_nil_iff.2 fun f hf => by simp [credential_plain source results f hf]
  have h := (findings_perm controlInfo localeCompare source results).filter (·.advisory)
  rwa [List.filter_append, hcred, List.nil_append, List.filter_flatMap] at h

theorem real_references {results : List (CheckResult ε)} (h : ∀ r ∈ results, r.Honest) :
    (results.flatMap (realFindings controlInfo source)).map (·.reference) =
      (results.filter (·.isFailure)).map (·.id) := by
  induction results with
  | nil => rfl
  | cons r rest ih =>
    rw [List.flatMap_cons, List.map_append, ih fun r' hr' => h r' (List.mem_cons_of_mem _ hr'),
      real_reference controlInfo source (h r List.mem_cons_self), List.filter_cons]
    split <;> rfl

theorem advisory_references {results : List (CheckResult ε)} (h : ∀ r ∈ results, r.Honest) :
    (results.flatMap (advisoryFindings controlInfo source)).map (fun f => (f.reference, f.title)) =
      results.flatMap fun r => (warnedAssertions r).map fun a => (r.id, s!"Hardening: {a.name}") := by
  induction results with
  | nil => rfl
  | cons r rest ih =>
    rw [List.flatMap_cons, List.map_append, ih fun r' hr' => h r' (List.mem_cons_of_mem _ hr'),
      advisory_titles controlInfo source (h r List.mem_cons_self), List.flatMap_cons]

theorem failures_count (results : List (CheckResult ε)) :
    (results.filter (·.isFailure)).length = (summarize results).failed + (summarize results).errored := by
  change _ = (results.filter (·.status = .fail)).length + (results.filter (·.status = .error)).length
  induction results with
  | nil => rfl
  | cons r rest ih =>
    simp only [List.filter_cons, CheckResult.isFailure] at ih ⊢
    cases r.status <;> simp <;> omega

theorem credential_length (results : List (CheckResult ε)) : (credentialFindings source results).length =
    if results.any (·.blockedBy.isSome) then 1 else 0 := by
  cases hnil : results.filter (·.blockedBy.isSome) with
  | nil =>
    have hany : ¬results.any (·.blockedBy.isSome) = true := by
      simpa using List.filter_eq_nil_iff.1 hnil
    simp [credentialFindings, hnil, hany]
  | cons r rest =>
    have hr : r ∈ results.filter (·.blockedBy.isSome) := hnil ▸ List.mem_cons_self
    have hany : results.any (·.blockedBy.isSome) = true := List.any_eq_true.2 ⟨r, List.mem_filter.1 hr⟩
    rw [if_pos hany]
    simp [credentialFindings, hnil]

end Findings

/-- The results are one a check that the suite has to judge, the counts add up, the verdict PASS is earned, and the
findings name the failed and errored results and the failing advisory assertions, each once. -/
theorem suite_complete_honest (simulator : Bool) (only : List String) (pool : List Check) (steps : Nat → SuiteStep ε)
    (hdistinct : (pool.map (·.id)).Nodup) :
    let results := (runSuite simulator only pool steps).results
    let summary := (runSuite simulator only pool steps).summary
    ((results.map (·.id)).Perm ((toJudge simulator only pool).map (·.id)) ∧ (results.map (·.id)).Nodup) ∧
    (summary.passed + summary.failed + summary.errored + summary.skipped = summary.total ∧
      summary.total = results.length) ∧
    (summary.verdict = .pass →
      (∀ r ∈ results, r.status ≠ .fail ∧ r.status ≠ .error ∧ r.blockedBy = none) ∧ ∃ r ∈ results, r.status = .pass) ∧
    ∀ (controlInfo : String → Option ControlInfo) (localeCompare : String → String → Int) (source : FindingSource),
      let findings := findingsFromSuite controlInfo localeCompare source results
      (∃ credential real : List Finding,
        (findings.filter fun f => !f.advisory).Perm (credential ++ real) ∧
        credential.length = (if results.any (·.blockedBy.isSome) then 1 else 0) ∧
        (∀ f ∈ credential, f.reference = "credential-permissions") ∧
        real.map (·.reference) =
          (results.filter fun r => r.status = .fail || r.status = .error).map (·.id) ∧
        real.length = summary.failed + summary.errored) ∧
      ((findings.filter (·.advisory)).map fun f => (f.reference, f.title)).Perm
        (results.flatMap fun r => (r.assertions.filter fun a => !a.pass && a.isAdvisory).map fun a =>
          (r.id, s!"Hardening: {a.name}")) ∧
      (findings.filter (·.advisory)).length = summary.warnings := by
  have hhonest : ∀ r ∈ suiteResults simulator only pool steps, r.Honest := fun r hr => suite_honest hr
  refine ⟨⟨suite_ids, ?_⟩, ⟨summarize_total _, rfl⟩, verdict_pass,
    fun controlInfo localeCompare source => ⟨?_, ?_, ?_⟩⟩
  · refine suite_ids.nodup_iff.2 (hdistinct.sublist ?_)
    exact (List.filter_sublist.trans List.filter_sublist).map _
  · have hreal := real_references controlInfo source hhonest
    refine ⟨_, _, findings_plain controlInfo localeCompare source _, credential_length source _, ?_, hreal, ?_⟩
    · exact credential_reference source _
    · have hlen := congrArg List.length hreal
      rw [List.length_map, List.length_map, failures_count] at hlen
      exact hlen
  all_goals
    have hperm := findings_advisory controlInfo localeCompare source (suiteResults simulator only pool steps)
    have hrefs := advisory_references controlInfo source hhonest
  · have h := hperm.map fun f => (f.reference, f.title)
    rwa [hrefs] at h
  · have hlen := congrArg List.length hrefs
    rw [List.length_map, flatMap_map_length, warnings_count hhonest] at hlen
    exact hperm.length_eq.trans hlen

def samplePool : List Check :=
  [⟨"auth", "Authentication", ["API2"], [], false, none⟩, ⟨"limits", "Limits", [], [], false, none⟩,
    ⟨"faults", "Faults", [], ["sim"], false, none⟩]

def sampleSteps : Nat → SuiteStep Unit
  | 0 => ⟨none, .assertions [⟨"rejects", false, none, none⟩, ⟨"header", false, none, some true⟩], 5, []⟩
  | _ => ⟨none, .blocked "read" "read is missing", 3, []⟩

theorem suite_complete_honest_sample :
    let report := runSuite false [] samplePool sampleSteps
    (report.results.map (·.id)).Perm ["auth", "limits", "faults"] ∧
      (report.summary.failed, report.summary.skipped, report.summary.warnings) = (1, 2, 1) ∧
      report.summary.total = report.results.length :=
  have h := suite_complete_honest false [] samplePool sampleSteps (by decide +kernel)
  ⟨h.1.1, by decide +kernel, h.2.1.2⟩

end CronMonitor.LoadTest
