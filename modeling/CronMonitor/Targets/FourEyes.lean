import CronMonitor.Targets.Requests

/-!
# Four eyes on money-moving targets

A call of `updateTarget` decides on the row it read, and commits on the row it finds. A write needs no approval
only if both are plain: the merged model is (`TargetPc.Sound`), and whether the row still is depends on what was
committed in between.
-/

namespace CronMonitor.Targets

open Runs

variable {env : TargetEnv} {st : TargetStore} {pc : TargetPc}

/-- The row is money-moving before the write or after it. -/
def TargetWrite.MoneyMoving (w : TargetWrite) : Prop :=
  w.after.isMoneyMoving ∨ ∃ row ∈ w.before, row.isMoneyMoving = true

/-- The write applies a request that another user than the proposer approved. -/
def TargetWrite.AppliesApproved (requests : List ConfigChangeRequest) (w : TargetWrite) : Prop :=
  ∃ r ∈ requests, w.origin.request = some r.id ∧ w.after = r.payload ∧ r.Approved

structure FourEyes (st : TargetStore) : Prop where
  approved : ∀ w ∈ st.writes, w.MoneyMoving → w.AppliesApproved st.requests
  once : ∀ k, st.writes.countP (fun w => w.origin.request = some k) ≤ 1

/-- A write that applies no request finds a plain row, or none. -/
def PlainRow (s : TargetSys) (l : TargetLabel) : Prop :=
  ∀ w ∈ s.write l, w.origin.request = none → ∀ row ∈ w.before, row.isMoneyMoving = false

instance (s : TargetSys) (l : TargetLabel) : Decidable (PlainRow s l) :=
  inferInstanceAs (Decidable (∀ w ∈ s.write l, w.origin.request = none → ∀ row ∈ w.before, row.isMoneyMoving = false))

/-- What a call writes without a request is money-moving only if the row was. -/
theorem TargetPc.Sound.moneyMoving {w : TargetWrite} (h : pc.Sound env) (hauth : env.authEnabled = true)
    (hw : pc.write st = some w) (hreq : w.origin.request = none) :
    w.MoneyMoving ↔ ∃ row ∈ w.before, row.isMoneyMoving = true := by
  refine or_iff_right_of_imp fun hafter => ?_
  cases pc with
  | persistCreate model actor =>
    cases hw
    exact absurd hafter (by simp [h hauth])
  | persistUpdate existing model patch actor =>
    obtain ⟨row, -, rfl⟩ := Option.map_eq_some_iff.1 hw
    exact absurd hafter (by simp [h.2 hauth])
  | setEnabled id isActive actor =>
    obtain ⟨row, -, rfl⟩ := Option.map_eq_some_iff.1 hw
    exact ⟨row.columns, rfl, hafter⟩
  | applyCreate reviewed actor =>
    cases hw
    cases hreq
  | applyUpdate reviewed existing actor =>
    obtain ⟨row, -, rfl⟩ := Option.map_eq_some_iff.1 hw
    cases hreq
  | _ => cases hw

namespace TargetSys

variable {s s' : TargetSys} {l : TargetLabel} {tr : List TargetLabel}

/-- The only way to break the rule is a money-moving write without a request. -/
theorem Ok.fourEyes_iff (h : Ok env s) :
    FourEyes s.store ↔ ∀ w ∈ s.store.writes, w.MoneyMoving → w.origin.request ≠ none := by
  constructor
  · intro hf w hw hmm hnone
    obtain ⟨r, -, hreq, -⟩ := hf.approved w hw hmm
    rw [hnone] at hreq
    cases hreq
  · refine fun hall => ⟨fun w hw hmm => ?_, fun k => ?_⟩
    · obtain ⟨k, hk⟩ := Option.ne_none_iff_exists'.1 (hall w hw hmm)
      obtain ⟨r, hr, rfl, hpay, -, happ⟩ := h.approved w hw k hk
      exact ⟨r, hr, hk, hpay.symm, happ⟩
    · have hone := (h.applied k).1
      rw [applications] at hone
      omega

theorem Ok.plainRow_iff (h : Ok env s) (hauth : env.authEnabled = true) :
    PlainRow s l ↔ ∀ w ∈ s.write l, w.MoneyMoving → w.origin.request ≠ none := by
  refine forall₂_congr fun w hw => ?_
  obtain ⟨pc, hmem, hpc⟩ := write_some hw
  have hsound := (h.known pc hmem).1
  constructor
  · intro hplain hmm hnone
    obtain ⟨row, hrow, htrue⟩ := (hsound.moneyMoving hauth hpc hnone).1 hmm
    simp [hplain hnone row hrow] at htrue
  · intro hreq hnone row hrow
    by_contra hr
    exact hreq ((hsound.moneyMoving hauth hpc hnone).2 ⟨row, hrow, by simpa using hr⟩) hnone

theorem Ok.fourEyes_step (h : Ok env s) (hauth : env.authEnabled = true) (hs : TargetSys.step env s l = some s') :
    FourEyes s'.store ↔ FourEyes s.store ∧ PlainRow s l := by
  rw [(h.step hs).fourEyes_iff, h.fourEyes_iff, h.plainRow_iff hauth, step_writes hs]
  constructor
  · intro hall
    exact ⟨fun w hw => hall w (List.mem_append_left _ hw),
      fun w hw => hall w (List.mem_append_right _ (Option.mem_toList.2 hw))⟩
  · rintro ⟨hold, hnew⟩ w hw
    rcases List.mem_append.1 hw with hw | hw
    · exact hold w hw
    · exact hnew w (Option.mem_toList.1 hw)

/-- The rule holds at the end of a run exactly when every direct write of the run found a plain row. -/
theorem four_eyes_iff (hauth : env.authEnabled = true) {rows : List TargetRow} {nextUuid : Uuid} {now : Time}
    (hr : run (step env) (init rows nextUuid now) tr = some s) :
    FourEyes s.store ↔ Along (step env) (fun s l _ => PlainRow s l) (init rows nextUuid now) tr := by
  have hstart : FourEyes (init rows nextUuid now).store := ⟨by simp [init], by simp [init]⟩
  have hlast := last_iff_along (P := fun s => FourEyes s.store) (C := fun s l _ => PlainRow s l) (ok_init rows nextUuid now)
    (fun s l s' hok hs => ⟨hok.step hs, hok.fourEyes_step hauth hs⟩) hr
  rw [hlast]
  exact and_iff_right hstart

/-- One user proposes that the target become money-moving, and another one approves it. -/
def becomesMoneyMoving (i requestId : Nat) : List TargetLabel :=
  [.request (.updateTarget 1 { UpdateTargetPayload.empty with isMoneyMoving := some true } (.user 7)), .advance i,
    .advance i, .advance i, .advance i, .request (.reviewChangeRequest requestId .approved none (.user 8)),
    .advance (i + 1), .advance (i + 1), .advance (i + 1), .advance (i + 1), .advance (i + 1), .advance (i + 1),
    .advance (i + 1)]

/-- A plain update that commits before the target becomes money-moving. -/
theorem four_eyes_approved : ∃ s,
    run (step .plain) (init [⟨1, .payouts false⟩] 10 0) (.request (.updateTarget 1
      { UpdateTargetPayload.empty with name := some "Payouts v2" } (.user 7)) :: .advance 0 :: .advance 0 :: .advance 0 ::
        becomesMoneyMoving 1 14) = some s ∧ s.store.writes.length = 2 ∧ FourEyes s.store := by
  obtain ⟨s, hr, hs⟩ := Option.map_eq_some_iff.1 (show
    (run (step .plain) (init [⟨1, .payouts false⟩] 10 0) (.request (.updateTarget 1
      { UpdateTargetPayload.empty with name := some "Payouts v2" } (.user 7)) :: .advance 0 :: .advance 0 :: .advance 0 ::
        becomesMoneyMoving 1 14)).map (·.store.writes.length) = some 2 by decide +kernel)
  exact ⟨s, hr, hs, (four_eyes_iff rfl hr).2 (by decide +kernel)⟩

/-- The same update, committed after the target became money-moving: nobody approved it. -/
theorem four_eyes_bypassed : ¬ ∀ (env : TargetEnv) (rows : List TargetRow) (nextUuid : Uuid) (now : Time)
    (tr : List TargetLabel) (s : TargetSys), env.authEnabled = true →
    (∀ id isActive actor, .request (.setTargetEnabled id isActive actor) ∉ tr) →
    run (step env) (init rows nextUuid now) tr = some s → FourEyes s.store := by
  intro h
  obtain ⟨s, hr, hs⟩ := Option.map_eq_some_iff.1 (show
    (run (step .plain) (init [⟨1, .payouts false⟩] 10 0) (.request (.updateTarget 1
      { UpdateTargetPayload.empty with name := some "Payouts v2" } (.user 7)) :: .advance 0 :: .advance 0 ::
        (becomesMoneyMoving 1 14 ++ [.advance 0]))).map
      (fun s => s.store.writes.map fun w => (w.before.map (·.isMoneyMoving), w.origin.request)) =
        some [(some false, some 14), (some true, none)] by decide +kernel)
  have hfour := h .plain _ _ _ _ s rfl (by simp [becomesMoneyMoving]) hr
  have hmem : (some true, none) ∈ s.store.writes.map fun w => (w.before.map (·.isMoneyMoving), w.origin.request) := by
    simp [hs]
  obtain ⟨w, hw, heq⟩ := List.mem_map.1 hmem
  obtain ⟨hbefore, hreq⟩ := Prod.mk.inj heq
  obtain ⟨row, hrow, htrue⟩ := Option.map_eq_some_iff.1 hbefore
  obtain ⟨r, -, hr', -⟩ := hfour.approved w hw (.inr ⟨row, hrow, htrue⟩)
  rw [hreq] at hr'
  cases hr'

end TargetSys

end CronMonitor.Targets
