import CronMonitor.Lib.Runs

/-!
# Outputs under a rule

The laws of `outputs` for the runs whose steps satisfy a condition `C`: what a step marks for good is put out once, and
what a step records for good is put out alike ever after.
-/

namespace Runs

variable {σ α β κ ν : Type*} {step : σ → α → Option σ} {C : σ → α → σ → Prop} {I : σ → Prop} {out : σ → α → List β}
  {s : σ} {tr : List α}

theorem Along.outputs_nodup {M : σ → β → Prop} (hC : Along step C s tr) (hI : I s)
    (h : ∀ s a s', I s → step s a = some s' → C s a s' →
      I s' ∧ (out s a).Nodup ∧ (∀ b ∈ out s a, ¬ M s b) ∧ ∀ b, M s b ∨ b ∈ out s a → M s' b) :
    (outputs step out s tr).Nodup ∧ ∀ b ∈ outputs step out s tr, ¬ M s b := by
  induction tr generalizing s with
  | nil => exact ⟨List.nodup_nil, List.forall_mem_nil _⟩
  | cons a tr ih =>
    cases hs : step s a with
    | none =>
      rw [outputs_stuck hs]
      exact ⟨List.nodup_nil, List.forall_mem_nil _⟩
    | some s' =>
      obtain ⟨hCa, hrest⟩ := hC s' hs
      obtain ⟨hI', hnodup, hnew, hmarks⟩ := h s a s' hI hs hCa
      obtain ⟨hlater, hunmarked⟩ := ih hrest hI'
      rw [outputs_cons hs]
      constructor
      · refine List.nodup_append.2 ⟨hnodup, hlater, fun b hb c hc hbc => ?_⟩
        exact hunmarked c hc (hmarks c (.inr (hbc ▸ hb)))
      · intro b hb
        rcases List.mem_append.1 hb with hb | hb
        · exact hnew b hb
        · exact fun hM => hunmarked b hb (hmarks b (.inl hM))

section Agreement

variable {key : β → κ} {val : β → ν} {R : σ → κ → ν → Prop}

/-- What is recorded is put out alike from here on. -/
theorem Along.outputs_recorded (hC : Along step C s tr) (hI : I s) (hR : ∀ s k v v', R s k v → R s k v' → v = v')
    (h : ∀ s a s', I s → step s a = some s' → C s a s' →
      I s' ∧ (∀ b ∈ out s a, R s' (key b) (val b)) ∧ ∀ k v, R s k v → R s' k v)
    {k : κ} {v : ν} (hk : R s k v) : ∀ b ∈ outputs step out s tr, key b = k → val b = v := by
  induction tr generalizing s with
  | nil => exact List.forall_mem_nil _
  | cons a tr ih =>
    cases hs : step s a with
    | none =>
      rw [outputs_stuck hs]
      exact List.forall_mem_nil _
    | some s' =>
      obtain ⟨hCa, hrest⟩ := hC s' hs
      obtain ⟨hI', hrecords, hkeeps⟩ := h s a s' hI hs hCa
      rw [outputs_cons hs]
      intro b hb hbk
      rcases List.mem_append.1 hb with hb | hb
      · exact hR s' k _ _ (hbk ▸ hrecords b hb) (hkeeps k v hk)
      · exact ih hrest hI' (hkeeps k v hk) b hb hbk

/-- Two outputs with one key agree. -/
theorem Along.outputs_agree (hC : Along step C s tr) (hI : I s) (hR : ∀ s k v v', R s k v → R s k v' → v = v')
    (h : ∀ s a s', I s → step s a = some s' → C s a s' →
      I s' ∧ (∀ b ∈ out s a, R s' (key b) (val b)) ∧ ∀ k v, R s k v → R s' k v) :
    ∀ b ∈ outputs step out s tr, ∀ b' ∈ outputs step out s tr, key b = key b' → val b = val b' := by
  induction tr generalizing s with
  | nil => exact List.forall_mem_nil _
  | cons a tr ih =>
    cases hs : step s a with
    | none =>
      rw [outputs_stuck hs]
      exact List.forall_mem_nil _
    | some s' =>
      obtain ⟨hCa, hrest⟩ := hC s' hs
      obtain ⟨hI', hrecords, -⟩ := h s a s' hI hs hCa
      have hlater (b : β) (hb : b ∈ out s a) := hrest.outputs_recorded hI' hR h (hrecords b hb)
      rw [outputs_cons hs]
      intro b hb b' hb' hkey
      rcases List.mem_append.1 hb with hb | hb <;> rcases List.mem_append.1 hb' with hb' | hb'
      · exact hR s' (key b) _ _ (hrecords b hb) (hkey ▸ hrecords b' hb')
      · exact (hlater b hb b' hb' hkey.symm).symm
      · exact hlater b' hb' b hb hkey
      · exact ih hrest hI' b hb b' hb' hkey

end Agreement

/-- What is kept of a state together with all that was put out before it. -/
theorem Along.outputs_inv {J : σ → List β → Prop} {s' : σ} {bs : List β} (hC : Along step C s tr) (hJ : J s bs)
    (h : ∀ s a s' bs, J s bs → step s a = some s' → C s a s' → J s' (bs ++ out s a)) (hr : run step s tr = some s') :
    J s' (bs ++ outputs step out s tr) := by
  induction tr generalizing s bs with
  | nil =>
    cases hr
    rw [outputs, List.append_nil]
    exact hJ
  | cons a tr ih =>
    obtain ⟨t, hs, hr⟩ := run_cons_iff.1 hr
    obtain ⟨hCa, hrest⟩ := hC t hs
    rw [outputs_cons hs, ← List.append_assoc]
    exact ih hrest (h s a t bs hJ hs hCa) hr

end Runs
