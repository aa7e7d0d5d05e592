import CronMonitor.LoadTest.Readiness

/-!
# Readiness and the simulator

A service should be called ready on passing evidence from the real service, and evidence from the simulator or of
unknown origin should not complete an assessment. The gates look at a result without asking where it was made, so that
both hold only where something stands in the way of readiness that no such evidence can cover up.
-/

namespace CronMonitor.LoadTest.LoadReadiness
open History Compliance

namespace ReadinessInput

variable {i i' : ReadinessInput}

/-- A result that is looked at is a failure. -/
structure NoFailure (i : ReadinessInput) : Prop where
  correctness : ∀ e ∈ i.correctness, e.verdict ≠ .fail
  security : ∀ e ∈ i.security, e.verdict ≠ .fail
  steady : ∀ e ∈ i.steady, e.verdict ≠ .fail
  spike : ∀ e ∈ i.spike, e.verdict ≠ .fail
  limit : ∀ e ∈ i.limit, e.verdict ≠ .fail

/-- The required gates have passing results, and not all evidence is the simulator's. -/
structure Complete (i : ReadinessInput) : Prop where
  correctness : ∃ e ∈ i.correctness, e.verdict = .pass
  security : ∃ e ∈ i.security, e.verdict = .pass
  steady : ∃ e ∈ i.steady, e.verdict = .pass ∨ e.verdict = .passWithWarnings
  environment : ∃ e ∈ i.evidence, e.2 ≠ some .mock

/-- The passing results of the required gates are from a known environment that is not the simulator. -/
structure RealPass (i : ReadinessInput) : Prop where
  correctness : ∃ e ∈ i.correctness, e.verdict = .pass ∧ isReal e.environmentClass = true
  security : ∃ e ∈ i.security, e.verdict = .pass ∧ isReal e.environmentClass = true
  steady : ∃ e ∈ i.steady, (e.verdict = .pass ∨ e.verdict = .passWithWarnings) ∧ isReal e.environmentClass = true

/-- The two differ in evidence of the simulator or of unknown origin only. -/
structure SameReal (i i' : ReadinessInput) : Prop where
  now : i'.now = i.now
  maxAgeDays : i'.maxAgeDays = i.maxAgeDays
  load : i'.load.filter (fun l => isReal l.environmentClass) = i.load.filter fun l => isReal l.environmentClass
  correctness : i'.correctness.filter (fun e => isReal e.environmentClass) =
    i.correctness.filter fun e => isReal e.environmentClass
  security : i'.security.filter (fun e => isReal e.environmentClass) = i.security.filter fun e => isReal e.environmentClass

/-- Something stands in the way of readiness that evidence of the simulator or of unknown origin does not cover up. -/
def Barred (i : ReadinessInput) : Prop :=
  ¬ i.NoFailure ∨ (∃ e ∈ i.correctness, isReal e.environmentClass = true ∧ e.verdict ≠ .pass) ∨
    ∃ e ∈ i.security, isReal e.environmentClass = true ∧ e.verdict ≠ .pass

end ReadinessInput

def Readiness.isReady (r : Readiness) : Prop := r.status = .ready ∨ r.status = .readyWithWarnings

instance (r : Readiness) : Decidable r.isReady := inferInstanceAs (Decidable (_ ∨ _))

/-- What a service is called, and what the evidence of the simulator and of unknown origin may change. -/
structure Honest (numberText : ℚ → String) (i : ReadinessInput) : Prop where
  ready : (assessReadiness numberText i).isReady →
    i.RealPass ∧ ∀ g ∈ (assessReadiness numberText i).gates, g.status ≠ .fail
  unreal : ∀ i', i.SameReal i' →
    ¬ ((assessReadiness numberText i).status = .incomplete ∧ (assessReadiness numberText i').isReady) ∧
      ¬ ((assessReadiness numberText i).isReady ∧ (assessReadiness numberText i').status = .incomplete)

/-! ### The status -/

section Gates

variable {id name missing : String}

theorem suiteGate_fail {ev : Option SuiteEvidence} :
    (suiteGate id name ev missing).status = .fail ↔ ∃ e ∈ ev, e.verdict = .fail := by
  cases ev with
  | none => simp [suiteGate]
  | some e =>
    cases hv : e.verdict with
    | pass =>
      simp only [suiteGate, hv, Option.mem_some_iff, exists_eq_left', reduceCtorEq, iff_false]
      split_ifs <;> decide
    | fail => simp [suiteGate, hv]
    | inconclusive => simp [suiteGate, hv]

theorem suiteGate_missing {ev : Option SuiteEvidence} : (suiteGate id name ev missing).required = true ∧
    ((suiteGate id name ev missing).status = .missing ↔ ∀ e ∈ ev, e.verdict = .inconclusive) := by
  cases ev with
  | none => simp [suiteGate]
  | some e =>
    cases hv : e.verdict with
    | pass =>
      simp only [suiteGate, hv, Option.mem_some_iff, forall_eq', reduceCtorEq, iff_false]
      split_ifs <;> simp
    | fail => simp [suiteGate, hv]
    | inconclusive => simp [suiteGate, hv]

theorem loadGate_fail {required : Bool} {ev : Option LoadEvidence} :
    (loadGate id name required ev missing).status = .fail ↔ ∃ e ∈ ev, e.verdict = .fail := by
  cases ev with
  | none => simp [loadGate]
  | some e => cases hv : e.verdict <;> simp [loadGate, hv]

theorem loadGate_missing {required : Bool} {ev : Option LoadEvidence} :
    (loadGate id name required ev missing).required = required ∧
      ((loadGate id name required ev missing).status = .missing ↔ ∀ e ∈ ev, e.verdict = .inconclusive) := by
  cases ev with
  | none => simp [loadGate]
  | some e => cases hv : e.verdict <;> simp [loadGate, hv]

theorem Gate.optional_fail (g : Gate) : g.optional.status = .fail ↔ g.status = .fail := by
  unfold Gate.optional
  split_ifs with h
  · simp_all
  · rfl

theorem Gate.optional_missing (g : Gate) :
    (g.optional.required = true ∧ g.optional.status = .missing) ↔ (g.required = true ∧ g.status = .missing) := by
  unfold Gate.optional
  split_ifs with h
  · simp_all
  · rfl

end Gates

namespace ReadinessInput

variable {numberText : ℚ → String} {i i' : ReadinessInput}

theorem any_fail_iff : (i.gates numberText).any (·.status = .fail) = true ↔ ¬ i.NoFailure := by
  have hrest : ∀ g ∈ [i.freshnessGate numberText, i.environmentGate], g.status ≠ .fail := by
    simp only [List.mem_cons, List.not_mem_nil, or_false, forall_eq_or_imp, forall_eq, freshnessGate, environmentGate]
    refine ⟨?_, ?_⟩
    · split_ifs <;> simp
    · cases i.basis <;> simp
  have hgates : (∃ g ∈ i.gates numberText, g.status = .fail) ↔ ∃ g ∈ i.resultGates, g.status = .fail := by
    simp only [gates, List.mem_append, List.mem_map]
    constructor
    · rintro ⟨g, ⟨g', hg', rfl⟩ | hg, hfail⟩
      · exact ⟨g', hg', g'.optional_fail.1 hfail⟩
      · exact absurd hfail (hrest g hg)
    · rintro ⟨g, hg, hfail⟩
      exact ⟨g.optional, .inl ⟨g, hg, rfl⟩, g.optional_fail.2 hfail⟩
  rw [List.any_eq_true]
  simp only [decide_eq_true_eq, hgates, resultGates, List.mem_cons, List.not_mem_nil, or_false, exists_eq_or_imp, exists_eq_left,
    suiteGate_fail, loadGate_fail]
  constructor
  · rintro (⟨e, he, hv⟩ | ⟨e, he, hv⟩ | ⟨e, he, hv⟩ | ⟨e, he, hv⟩ | ⟨e, he, hv⟩) h
    · exact h.correctness e he hv
    · exact h.security e he hv
    · exact h.steady e he hv
    · exact h.spike e he hv
    · exact h.limit e he hv
  · intro h
    by_contra hnone
    push Not at hnone
    exact h ⟨hnone.1, hnone.2.1, hnone.2.2.1, hnone.2.2.2.1, hnone.2.2.2.2⟩

/-- The environment gate is missing when there is no evidence, or all of it is the simulator's. -/
theorem environmentGate_missing : i.environmentGate.status = .missing ↔ ∀ e ∈ i.evidence, e.2 = some .mock := by
  unfold environmentGate basis
  simp only [List.isEmpty_map, List.isEmpty_iff]
  split_ifs with hempty hall hmixed hproduction
  · simp [hempty]
  · simpa using hall
  · simpa using hall
  · simpa using hall
  · simpa using hall

theorem suite_inconclusive {ev : Option SuiteEvidence} (hev : ∀ e ∈ ev, e.verdict ≠ .fail) :
    (∀ e ∈ ev, e.verdict = .inconclusive) ↔ ¬ ∃ e ∈ ev, e.verdict = .pass := by
  cases ev with
  | none => simp
  | some e =>
    have hfail := hev e rfl
    cases hv : e.verdict <;> simp_all

theorem load_inconclusive {ev : Option LoadEvidence} (hev : ∀ e ∈ ev, e.verdict ≠ .fail) :
    (∀ e ∈ ev, e.verdict = .inconclusive) ↔ ¬ ∃ e ∈ ev, e.verdict = .pass ∨ e.verdict = .passWithWarnings := by
  cases ev with
  | none => simp
  | some e =>
    have hfail := hev e rfl
    cases hv : e.verdict <;> simp_all

/-- The gates that can be missing. -/
theorem exists_missing_iff : (∃ g ∈ i.gates numberText, g.required = true ∧ g.status = .missing) ↔
    (∃ g ∈ i.resultGates, g.required = true ∧ g.status = .missing) ∨ i.environmentGate.status = .missing := by
  simp only [gates, List.mem_append, List.mem_map, List.mem_cons, List.not_mem_nil, or_false]
  constructor
  · rintro ⟨g, ⟨g', hg', rfl⟩ | rfl | rfl, hg⟩
    · exact .inl ⟨g', hg', g'.optional_missing.1 hg⟩
    · cases hg.1
    · exact .inr hg.2
  · rintro (⟨g, hg, hmissing⟩ | hmissing)
    · exact ⟨g.optional, .inl ⟨g, hg, rfl⟩, g.optional_missing.2 hmissing⟩
    · exact ⟨i.environmentGate, .inr (.inr rfl), rfl, hmissing⟩

theorem resultGates_missing : (∃ g ∈ i.resultGates, g.required = true ∧ g.status = .missing) ↔
    (∀ e ∈ i.correctness, e.verdict = .inconclusive) ∨ (∀ e ∈ i.security, e.verdict = .inconclusive) ∨
      ∀ e ∈ i.steady, e.verdict = .inconclusive := by
  simp only [resultGates, List.exists_mem_cons_iff, List.not_mem_nil, false_and, exists_false, or_false, suiteGate_missing,
    loadGate_missing, true_and, Bool.false_eq_true]

theorem any_missing_iff (h : i.NoFailure) :
    ((i.gates numberText).any fun g => g.required && g.status = .missing) = true ↔ ¬ i.Complete := by
  rw [List.any_eq_true]
  simp only [Bool.and_eq_true, decide_eq_true_eq]
  rw [exists_missing_iff, resultGates_missing, environmentGate_missing, suite_inconclusive h.correctness,
    suite_inconclusive h.security, load_inconclusive h.steady]
  constructor
  · rintro ((hc | hs | hl) | he) hcomplete
    · exact hc hcomplete.correctness
    · exact hs hcomplete.security
    · exact hl hcomplete.steady
    · obtain ⟨e, hmem, hreal⟩ := hcomplete.environment
      exact hreal (he e hmem)
  · intro hcomplete
    by_contra hnone
    rw [not_or, not_or, not_or, not_not, not_not, not_not] at hnone
    obtain ⟨⟨hc, hs, hl⟩, he⟩ := hnone
    push Not at he
    exact hcomplete ⟨hc, hs, hl, he⟩

theorem status_incomplete : (assessReadiness numberText i).status = .incomplete ↔ i.NoFailure ∧ ¬ i.Complete := by
  have hfail := @any_fail_iff numberText i
  simp only [assessReadiness, statusOf]
  by_cases h : i.NoFailure
  · rw [if_neg fun hany => hfail.1 hany h]
    by_cases hcomplete : i.Complete
    · rw [if_neg fun hany => (any_missing_iff h).1 hany hcomplete]
      simp only [hcomplete, not_true, and_false, iff_false]
      split_ifs <;> decide
    · rw [if_pos ((any_missing_iff h).2 hcomplete)]
      simp [h, hcomplete]
  · rw [if_pos (hfail.2 h)]
    simp [h]

theorem isReady_iff : (assessReadiness numberText i).isReady ↔ i.NoFailure ∧ i.Complete := by
  have hfail := @any_fail_iff numberText i
  simp only [Readiness.isReady, assessReadiness, statusOf]
  by_cases h : i.NoFailure
  · rw [if_neg fun hany => hfail.1 hany h]
    by_cases hcomplete : i.Complete
    · rw [if_neg fun hany => (any_missing_iff h).1 hany hcomplete]
      simp only [h, hcomplete, and_self, iff_true]
      split_ifs
      · exact .inr rfl
      · exact .inl rfl
    · rw [if_pos ((any_missing_iff h).2 hcomplete)]
      simp [hcomplete]
  · rw [if_pos (hfail.2 h)]
    simp [h]

/-! ### Newer results -/

/-- A time after all load evidence. -/
def later (i : ReadinessInput) : Time := (i.load.map (·.finishedAt)).foldr max 0 + 1

theorem lt_later {e : LoadEvidence} (he : e ∈ i.load) : e.finishedAt < i.later := by
  have hle (l : List Time) : ∀ t ∈ l, t ≤ l.foldr max 0 := by
    induction l with
    | nil => simp
    | cons t l ih =>
      intro t' ht'
      rcases List.mem_cons.1 ht' with rfl | ht'
      · exact le_max_left _ _
      · exact (ih t' ht').trans (le_max_right _ _)
  exact Int.lt_add_one_of_le (hle _ _ (List.mem_map_of_mem he))

theorem latest_append {l : List LoadEvidence} {a : LoadEvidence} (h : ∀ e ∈ l, e.finishedAt < a.finishedAt) :
    latest (l ++ [a]) = some a := by
  rw [latest, head?_byNewest, newest_append, newest_cons_of_le (a := a) (l := []) (by simp)]
  cases hl : newest LoadEvidence.finishedAt l with
  | none => rfl
  | some e =>
    have hlt := h e (mem_of_newest hl)
    exact if_neg (not_le.2 hlt)

def unknownPass : SuiteEvidence := ⟨"", .pass, 0, 0, 0, none, 1⟩

/-- The result of a suite where it is real, else a pass of unknown origin. -/
def coverSuite : Option SuiteEvidence → Option SuiteEvidence
  | none => some unknownPass
  | some e => if isReal e.environmentClass then some e else some unknownPass

def unknownRun (profile : LoadProfile) (verdict : RunVerdict) (finishedAt : Time) : LoadEvidence :=
  ⟨"", profile, verdict, finishedAt, none, 1⟩

/-- Newer load runs and suite results of unknown origin, the steady load run with the verdict given. -/
def cover (i : ReadinessInput) (steady : RunVerdict) : ReadinessInput where
  now := i.now
  load := i.load ++ [unknownRun .load steady i.later, unknownRun .spike .pass i.later, unknownRun .breakpoint .pass i.later]
  correctness := coverSuite i.correctness
  security := coverSuite i.security
  maxAgeDays := i.maxAgeDays

theorem coverSuite_real (ev : Option SuiteEvidence) :
    (coverSuite ev).filter (fun e => isReal e.environmentClass) = ev.filter fun e => isReal e.environmentClass := by
  cases ev with
  | none => rfl
  | some e =>
    cases h : isReal e.environmentClass with
    | false =>
      have hunknown : isReal unknownPass.environmentClass = false := rfl
      simp only [coverSuite, h, hunknown, Option.filter, Bool.false_eq_true, if_false]
    | true => simp only [coverSuite, h, if_true]

theorem coverSuite_pass {ev : Option SuiteEvidence}
    (h : ¬ ∃ e ∈ ev, isReal e.environmentClass = true ∧ e.verdict ≠ .pass) : ∃ e, coverSuite ev = some e ∧ e.verdict = .pass := by
  cases ev with
  | none => exact ⟨_, rfl, rfl⟩
  | some e =>
    cases hreal : isReal e.environmentClass with
    | false => exact ⟨unknownPass, by simp [coverSuite, hreal], rfl⟩
    | true =>
      refine ⟨e, by simp [coverSuite, hreal], ?_⟩
      by_contra hv
      exact h ⟨e, rfl, hreal, hv⟩

theorem sameReal_cover (i : ReadinessInput) (steady : RunVerdict) : i.SameReal (i.cover steady) where
  now := rfl
  maxAgeDays := rfl
  load := by simp [cover, unknownRun, isReal]
  correctness := coverSuite_real _
  security := coverSuite_real _

/-- The newer run is the one looked at. -/
theorem cover_picks (i : ReadinessInput) (steady : RunVerdict) :
    (i.cover steady).steady = some (unknownRun .load steady i.later) ∧
      (i.cover steady).spike = some (unknownRun .spike .pass i.later) ∧
        (i.cover steady).limit = some (unknownRun .breakpoint .pass i.later) := by
  have hlt {p : LoadEvidence → Bool} : ∀ e ∈ i.load.filter p, e.finishedAt < i.later :=
    fun e he => lt_later (List.mem_of_mem_filter he)
  refine ⟨?_, ?_, ?_⟩
  · rw [ReadinessInput.steady, cover, List.filter_append]
    exact latest_append hlt
  · rw [spike, cover, List.filter_append]
    exact latest_append hlt
  · rw [limit, cover, List.filter_append]
    exact latest_append hlt

theorem cover_noFailure {steady : RunVerdict} (hsteady : steady ≠ .fail) (h : ¬ i.Barred) : (i.cover steady).NoFailure := by
  obtain ⟨-, hcorrectness, hsecurity⟩ := not_or.1 h |>.imp_right not_or.1
  obtain ⟨c, hc, hcpass⟩ := coverSuite_pass hcorrectness
  obtain ⟨s, hs, hspass⟩ := coverSuite_pass hsecurity
  obtain ⟨hl, hsp, hli⟩ := i.cover_picks steady
  constructor
  · intro e he
    cases hc.symm.trans he
    simp [hcpass]
  · intro e he
    cases hs.symm.trans he
    simp [hspass]
  · intro e he
    cases hl.symm.trans he
    exact hsteady
  · intro e he
    cases hsp.symm.trans he
    simp [unknownRun]
  · intro e he
    cases hli.symm.trans he
    simp [unknownRun]

theorem cover_complete (h : ¬ i.Barred) : (i.cover .pass).Complete := by
  obtain ⟨-, hcorrectness, hsecurity⟩ := not_or.1 h |>.imp_right not_or.1
  obtain ⟨hl, -, -⟩ := i.cover_picks .pass
  refine ⟨coverSuite_pass hcorrectness, coverSuite_pass hsecurity, ⟨_, hl, .inl rfl⟩, ⟨(i.later, none), ?_, by simp⟩⟩
  simp [evidence, hl, unknownRun]

theorem cover_incomplete (i : ReadinessInput) : ¬ (i.cover .inconclusive).Complete := by
  intro h
  obtain ⟨e, he, hv⟩ := h.steady
  cases (i.cover_picks .inconclusive).1.symm.trans he
  simp [unknownRun] at hv

theorem SameReal.of_real {ev ev' : Option SuiteEvidence}
    (h : ev'.filter (fun e => isReal e.environmentClass) = ev.filter fun e => isReal e.environmentClass)
    (hbar : ∃ e ∈ ev, isReal e.environmentClass = true ∧ e.verdict ≠ .pass) : ¬ ∃ e ∈ ev', e.verdict = .pass := by
  obtain ⟨e, he, hreal, hv⟩ := hbar
  have hmem : ev'.filter (fun e => isReal e.environmentClass) = some e := h.trans (Option.filter_eq_some_iff.2 ⟨he, hreal⟩)
  rintro ⟨e', he', hpass⟩
  have heq : ev' = some e := (Option.filter_eq_some_iff.1 hmem).1
  cases heq.symm.trans he'
  exact hv hpass

theorem SameReal.refl (i : ReadinessInput) : i.SameReal i := ⟨rfl, rfl, rfl, rfl, rfl⟩

theorem Barred.not_complete (h : i.Barred) (hfail : i.NoFailure) (hsame : i.SameReal i') : ¬ i'.Complete := by
  intro hcomplete
  rcases h with h | h | h
  · exact h hfail
  · exact SameReal.of_real hsame.correctness h hcomplete.correctness
  · exact SameReal.of_real hsame.security h hcomplete.security

end ReadinessInput

/-- Readiness goes by real evidence, on the whole, exactly where something bars it. -/
theorem honest_iff (numberText : ℚ → String) (i : ReadinessInput) : Honest numberText i ↔ i.Barred := by
  constructor
  · intro h
    by_contra hbar
    have hfail : i.NoFailure := by
      by_contra hfail
      exact hbar (.inl hfail)
    by_cases hcomplete : i.Complete
    · refine (h.unreal _ (i.sameReal_cover .inconclusive)).2 ⟨ReadinessInput.isReady_iff.2 ⟨hfail, hcomplete⟩, ?_⟩
      exact ReadinessInput.status_incomplete.2 ⟨ReadinessInput.cover_noFailure (by decide) hbar, i.cover_incomplete⟩
    · refine (h.unreal _ (i.sameReal_cover .pass)).1 ⟨ReadinessInput.status_incomplete.2 ⟨hfail, hcomplete⟩, ?_⟩
      exact ReadinessInput.isReady_iff.2 ⟨ReadinessInput.cover_noFailure (by decide) hbar, ReadinessInput.cover_complete hbar⟩
  · intro hbar
    constructor
    · intro hready
      obtain ⟨hfail, hcomplete⟩ := ReadinessInput.isReady_iff.1 hready
      exact absurd hcomplete (hbar.not_complete hfail (.refl i))
    · refine fun i' hsame => ⟨?_, ?_⟩
      · rintro ⟨hincomplete, hready⟩
        exact hbar.not_complete (ReadinessInput.status_incomplete.1 hincomplete).1 hsame (ReadinessInput.isReady_iff.1 hready).2
      · rintro ⟨hready, -⟩
        obtain ⟨hfail, hcomplete⟩ := ReadinessInput.isReady_iff.1 hready
        exact hbar.not_complete hfail (.refl i) hcomplete

/-- Suites that passed on the simulator, and one load run in the sandbox. -/
def simulatedSuites : ReadinessInput where
  now := 1000
  load := [⟨"l1", .load, .pass, 900, some .sandbox, 1⟩]
  correctness := some ⟨"c1", .pass, 0, 0, 900, some .mock, 1⟩
  security := some ⟨"s1", .pass, 0, 0, 900, some .mock, 1⟩
  maxAgeDays := none

/-- The service is called ready though its correctness was only tested on the simulator. -/
theorem ready_on_simulator : (assessReadiness (fun _ => "30") simulatedSuites).isReady ∧ ¬ simulatedSuites.RealPass ∧
    ¬ Honest (fun _ => "30") simulatedSuites := by
  have hready : (assessReadiness (fun _ => "30") simulatedSuites).isReady := by
    refine ReadinessInput.isReady_iff.2 ⟨?_, ?_⟩
    · constructor <;> decide +kernel
    · constructor <;> decide +kernel
  have hreal : ¬ simulatedSuites.RealPass := by
    intro h
    obtain ⟨e, he, -, hclass⟩ := h.correctness
    cases he
    cases hclass
  exact ⟨hready, hreal, fun h => hreal (h.ready hready).1⟩

end CronMonitor.LoadTest.LoadReadiness
