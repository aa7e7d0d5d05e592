import Mathlib.Tactic

/-!
# Runs of a partial step function

`run step s tr` takes the labels `tr` in order from `s` and is `none` as soon as one of them is not
enabled. `Along C` says that every step taken satisfies `C`, which sees the state before, the label
and the state after; `Throughout P` says that `P` holds of every state passed, first and last
included. The rules at the end derive both from what one step does: an invariant may be preserved
only by the steps that satisfy a condition (`Along.inv`), and two conditions that agree wherever the
invariant holds agree along whole runs (`along_congr`).
-/

namespace Runs

variable {σ α : Type*} {step : σ → α → Option σ} {s s' : σ} {a : α} {tr : List α}

/-- The state after the labels `tr`, if each of them is enabled. -/
def run (step : σ → α → Option σ) : σ → List α → Option σ
  | s, [] => some s
  | s, a :: tr => (step s a).bind (run step · tr)

/-- Every step taken on the labels `tr` from `s` satisfies `C`. -/
def Along (step : σ → α → Option σ) (C : σ → α → σ → Prop) : σ → List α → Prop
  | _, [] => True
  | s, a :: tr => ∀ s', step s a = some s' → C s a s' ∧ Along step C s' tr

/-- Every state on the labels `tr` from `s` satisfies `P`. -/
def Throughout (step : σ → α → Option σ) (P : σ → Prop) (s : σ) (tr : List α) : Prop :=
  P s ∧ Along step (fun _ _ s' => P s') s tr

/-- A condition that can be tested is tested along a run by taking its steps. -/
instance Along.decidable {C : σ → α → σ → Prop} [∀ s a s', Decidable (C s a s')] :
    ∀ (s : σ) (tr : List α), Decidable (Along step C s tr)
  | _, [] => isTrue trivial
  | s, a :: tr =>
    match h : step s a with
    | none => isTrue fun s' hs => by rw [h] at hs; cases hs
    | some t =>
      have : Decidable (Along step C t tr) := Along.decidable t tr
      decidable_of_iff (C s a t ∧ Along step C t tr)
        ⟨fun hC s' hs => by rw [h] at hs; cases hs; exact hC, fun hA => hA t h⟩

instance Throughout.decidable {P : σ → Prop} [∀ s, Decidable (P s)] (s : σ) (tr : List α) :
    Decidable (Throughout step P s tr) :=
  inferInstanceAs (Decidable (_ ∧ _))

/-- What holds at the end of a run is tested there. -/
instance decidableReached {P : σ → Prop} [DecidablePred P] : ∀ r : Option σ, Decidable (∃ s, r = some s ∧ P s)
  | none => isFalse fun h => by simp at h
  | some s => decidable_of_iff (P s) (by simp)

@[simp] theorem run_nil : run step s [] = some s := rfl

theorem run_cons_iff {t : σ} :
    run step s (a :: tr) = some t ↔ ∃ s', step s a = some s' ∧ run step s' tr = some t := by
  simp [run, Option.bind_eq_some_iff]

theorem run_append_iff {tr' : List α} {t : σ} :
    run step s (tr ++ tr') = some t ↔ ∃ s', run step s tr = some s' ∧ run step s' tr' = some t := by
  induction tr generalizing s with
  | nil => simp
  | cons a tr ih =>
    simp only [List.cons_append, run_cons_iff, ih]
    constructor
    · rintro ⟨s₁, h₁, s₂, h₂, h₃⟩
      exact ⟨s₂, ⟨s₁, h₁, h₂⟩, h₃⟩
    · rintro ⟨s₂, ⟨s₁, h₁, h₂⟩, h₃⟩
      exact ⟨s₁, h₁, s₂, h₂, h₃⟩

theorem run_snoc {t : σ} (hr : run step s tr = some s') (hs : step s' a = some t) :
    run step s (tr ++ [a]) = some t :=
  run_append_iff.2 ⟨s', hr, run_cons_iff.2 ⟨t, hs, run_nil⟩⟩

section Rules

variable {C D : σ → α → σ → Prop} {I : σ → Prop}

theorem Along.mono (h : Along step C s tr) (hCD : ∀ s a s', step s a = some s' → C s a s' → D s a s') :
    Along step D s tr := by
  induction tr generalizing s with
  | nil => trivial
  | cons a tr ih =>
    intro s' hs
    obtain ⟨hC, hrest⟩ := h s' hs
    exact ⟨hCD s a s' hs hC, ih hrest⟩

/-- A condition that every step from an invariant state satisfies. -/
theorem Along.of_inv (hI : I s) (h : ∀ s a s', I s → step s a = some s' → I s' ∧ C s a s') :
    Along step C s tr := by
  induction tr generalizing s with
  | nil => trivial
  | cons a tr ih =>
    intro s' hs
    obtain ⟨hI', hC⟩ := h s a s' hI hs
    exact ⟨hC, ih hI'⟩

/-- The invariant rule: `I` is preserved by every step that satisfies `C`. -/
theorem Along.inv (h : Along step C s tr) (hI : I s)
    (hstep : ∀ s a s', I s → step s a = some s' → C s a s' → I s') (hr : run step s tr = some s') :
    I s' := by
  induction tr generalizing s with
  | nil =>
    cases hr
    exact hI
  | cons a tr ih =>
    obtain ⟨t, ht, hr⟩ := run_cons_iff.1 hr
    obtain ⟨hC, hrest⟩ := h t ht
    exact ih hrest (hstep s a t hI ht hC) hr

/-- What the steps that satisfy `C` from an invariant state satisfy. -/
theorem Along.under_inv (h : Along step C s tr) (hI : I s)
    (hstep : ∀ s a s', I s → step s a = some s' → C s a s' → I s' ∧ D s a s') : Along step D s tr := by
  induction tr generalizing s with
  | nil => trivial
  | cons a tr ih =>
    intro s' hs
    obtain ⟨hC, hrest⟩ := h s' hs
    obtain ⟨hI', hD⟩ := hstep s a s' hI hs hC
    exact ⟨hD, ih hrest hI'⟩

/-- The unconditional invariant rule. -/
theorem inv_run (hI : I s) (hstep : ∀ s a s', I s → step s a = some s' → I s')
    (hr : run step s tr = some s') : I s' :=
  Along.inv (C := fun _ _ _ => True) (Along.of_inv (I := fun _ => True) trivial fun _ _ _ _ _ => ⟨trivial, trivial⟩)
    hI (fun s a s' h hs _ => hstep s a s' h hs) hr

/-- Two conditions that agree on every step from an invariant state agree along the run; the
invariant needs to survive only the steps that satisfy them. -/
theorem along_congr (hI : I s)
    (h : ∀ s a s', I s → step s a = some s' → (C s a s' ↔ D s a s') ∧ (C s a s' → I s')) :
    Along step C s tr ↔ Along step D s tr := by
  induction tr generalizing s with
  | nil => exact Iff.rfl
  | cons a tr ih =>
    constructor
    · intro hC s' hs
      obtain ⟨hc, hrest⟩ := hC s' hs
      obtain ⟨hiff, hI'⟩ := h s a s' hI hs
      exact ⟨hiff.1 hc, (ih (hI' hc)).1 hrest⟩
    · intro hD s' hs
      obtain ⟨hd, hrest⟩ := hD s' hs
      obtain ⟨hiff, hI'⟩ := h s a s' hI hs
      exact ⟨hiff.2 hd, (ih (hI' (hiff.2 hd))).2 hrest⟩

/-- A property that each step keeps exactly when it satisfies `C` holds at the end of a run exactly when all its
steps do. -/
theorem last_iff_along {P : σ → Prop} (hI : I s)
    (h : ∀ s a s', I s → step s a = some s' → I s' ∧ (P s' ↔ P s ∧ C s a s')) (hr : run step s tr = some s') :
    P s' ↔ P s ∧ Along step C s tr := by
  induction tr generalizing s with
  | nil =>
    cases hr
    exact (and_iff_left trivial).symm
  | cons a tr ih =>
    obtain ⟨t, ht, hr⟩ := run_cons_iff.1 hr
    obtain ⟨hI', hiff⟩ := h s a t hI ht
    rw [ih hI' hr, hiff, and_assoc]
    refine and_congr_right fun _ => ⟨fun hC s₁ hs₁ => ?_, fun hA => hA t ht⟩
    obtain rfl := Option.some.inj (ht.symm.trans hs₁)
    exact hC

theorem Along.and (h : Along step C s tr) (h' : Along step D s tr) :
    Along step (fun s a s' => C s a s' ∧ D s a s') s tr := by
  induction tr generalizing s with
  | nil => trivial
  | cons a tr ih =>
    intro s' hs
    obtain ⟨hC, hrest⟩ := h s' hs
    obtain ⟨hD, hrest'⟩ := h' s' hs
    exact ⟨⟨hC, hD⟩, ih hrest hrest'⟩

/-- A condition on labels alone. -/
theorem Along.of_labels {p : α → Prop} (h : ∀ a ∈ tr, p a) : Along step (fun _ a _ => p a) s tr := by
  induction tr generalizing s with
  | nil => trivial
  | cons a tr ih =>
    intro s' _
    exact ⟨h a List.mem_cons_self, ih fun b hb => h b (List.mem_cons_of_mem _ hb)⟩

theorem Along.append {tr' : List α} (h : Along step C s (tr ++ tr')) (hr : run step s tr = some s') :
    Along step C s' tr' := by
  induction tr generalizing s with
  | nil =>
    cases hr
    exact h
  | cons a tr ih =>
    obtain ⟨t, ht, hr⟩ := run_cons_iff.1 hr
    exact ih (h t ht).2 hr

theorem Along.left {tr' : List α} (h : Along step C s (tr ++ tr')) : Along step C s tr := by
  induction tr generalizing s with
  | nil => trivial
  | cons a tr ih =>
    intro s' hs
    obtain ⟨hC, hrest⟩ := h s' hs
    exact ⟨hC, ih hrest⟩

/-- Every step of a run, by the labels before it. -/
theorem along_iff : Along step C s tr ↔
    ∀ pre a post s₁ s₂, tr = pre ++ a :: post → run step s pre = some s₁ → step s₁ a = some s₂ → C s₁ a s₂ := by
  constructor
  · rintro h pre a post s₁ s₂ rfl hr hs
    exact (h.append hr s₂ hs).1
  · intro h
    induction tr generalizing s with
    | nil => trivial
    | cons b tr ih =>
      intro s' hs
      refine ⟨h [] b tr s s' rfl rfl hs, ih fun pre a post s₁ s₂ htr hr => ?_⟩
      exact h (b :: pre) a post s₁ s₂ (by rw [htr]; rfl) (run_cons_iff.2 ⟨s', hs, hr⟩)

theorem Throughout.last {P : σ → Prop} (h : Throughout step P s tr) (hr : run step s tr = some s') : P s' :=
  h.2.inv h.1 (fun _ _ _ _ _ hP => hP) hr

end Rules

/-! ### Outputs -/

section Outputs

variable {β : Type*} {out : σ → α → List β} {M : σ → β → Prop} {I : σ → Prop}

/-- What the steps taken on the labels `tr` put out, in order. -/
def outputs (step : σ → α → Option σ) (out : σ → α → List β) : σ → List α → List β
  | _, [] => []
  | s, a :: tr =>
    match step s a with
    | none => []
    | some s' => out s a ++ outputs step out s' tr

theorem outputs_cons {s' : σ} (h : step s a = some s') :
    outputs step out s (a :: tr) = out s a ++ outputs step out s' tr := by
  rw [outputs, h]

theorem outputs_stuck (h : step s a = none) : outputs step out s (a :: tr) = [] := by
  rw [outputs, h]

end Outputs

/-! ### A budget -/

section Once

variable {κ : Type*} [DecidableEq κ] {key : α → Option κ} {t t' : σ × List κ}

/-- The labels that have a key occur at most once with it. -/
def once (key : α → Option κ) (step : σ → α → Option σ) (t : σ × List κ) (a : α) : Option (σ × List κ) :=
  if ∀ k ∈ key a, k ∉ t.2 then (step t.1 a).map fun s' => (s', (key a).toList ++ t.2) else none

theorem once_some (h : once key step t a = some t') :
    step t.1 a = some t'.1 ∧ t'.2 = (key a).toList ++ t.2 ∧ ∀ k, key a = some k → k ∉ t.2 := by
  rw [once] at h
  split at h
  · rename_i hfresh
    obtain ⟨s', hs, rfl⟩ := Option.map_eq_some_iff.1 h
    exact ⟨hs, rfl, hfresh⟩
  · cases h

end Once

end Runs
