import CronMonitor.Observability.Spared

/-!
# What the programs are about to do

A recovery reads whom to notify of the incident it has locked, and commits that one. An escalation pass asks how far an
incident is escalated only if it has listed it, and queues alerts of the tier after that.
-/

namespace CronMonitor.Observability
open Alerts Prog

/-! ### Recoveries -/

/-- The incident whose row the open transaction of a program has updated. -/
def holding : Protocol AlertCmd AlertCmd.Ans (Option Uuid)
  | x, .resolveInTransaction _ => if x = none then some fun resolved => resolved.map Incident.id else none
  | x, .notifiedTargetsForIncident id => if x = some id then some fun _ => x else none
  | x, .commitRecovery id _ _ => if x = some id then some fun _ => none else none
  | _, .highestTierFired _ => none
  | x, _ => some fun _ => x

/-- A command of no recovery. -/
abbrev NoHold (c : AlertCmd) : Prop := holding none c = some fun _ => none

theorem deliver_noHold (result : DeliveryResult) (a : Alert) : (deliver result a).Issues NoHold := by
  unfold deliver
  refine .bind (readBy_issues fun _ => .cmd (P := NoHold) rfl) fun incident => ?_
  refine .bind (readBy_issues fun _ => .cmd (P := NoHold) rfl) fun target => ?_
  refine .bind (readBy_issues fun _ => .cmd (P := NoHold) rfl) fun window => ?_
  cases window with
  | some window => exact .bind (.cmd (P := NoHold) rfl) fun _ => trivial
  | none =>
    refine .bind (.cmd (P := NoHold) rfl) fun body => .bind (.cmd (P := NoHold) rfl) fun outcome => ?_
    split <;> exact .bind (.cmd (P := NoHold) rfl) fun _ => trivial

theorem resolveIncidentManually_noHold (id : Uuid) (resolution : String) (actor : AuditActor) :
    (resolveIncidentManually id resolution actor).Issues NoHold := by
  unfold resolveIncidentManually
  split
  · trivial
  · refine .bind (.cmd (P := NoHold) rfl) fun existing => ?_
    split
    · trivial
    · split
      · trivial
      · refine .bind (.cmd (P := NoHold) rfl) fun updated => ?_
        split
        · trivial
        · exact .bind (.cmd (P := NoHold) rfl) fun _ => trivial

theorem processCheck_holding (env : Env) (ctx : CheckContext) :
    Follows holding none (processCheck env ctx) fun _ _ => True := by
  unfold processCheck
  refine .bind (.cmd rfl fun active => ?_)
  split
  · trivial
  · trivial
  · unfold recover
    split
    · refine .bind (.cmd rfl fun resolved => ?_)
      cases resolved with
      | none => trivial
      | some resolved =>
        refine .bind (.cmd (if_pos rfl) fun notified => .bind (.cmd rfl fun contacts => ?_))
        exact .cmd (if_pos rfl) fun _ => trivial
    · trivial
  all_goals exact .cmd rfl fun _ => trivial

theorem RetentionRequest.holding_follows (env : Env) (r : RetentionRequest) :
    Follows holding none (r.program env) fun _ _ => True := by
  cases r with
  | deliver =>
    have hissues : runDeliveryCycle.Issues NoHold := .bind (.cmd (P := NoHold) rfl) fun _ => .foldlM deliver_noHold _ _
    exact .bind ((Follows.of_issues hissues fun _ h => h).mono fun _ _ _ => trivial)
  | check ctx => exact processCheck_holding env ctx
  | resolve id resolution actor =>
    refine .bind ((Follows.of_issues (resolveIncidentManually_noHold id resolution actor) fun _ h => h).mono ?_)
    exact fun _ _ _ => trivial

theorem RetentionRequest.batch_follows (env : Env) (r : RetentionRequest) :
    Follows Batch.next ⟨[], false⟩ (r.program env) fun _ _ => True := by
  cases r with
  | deliver => exact .bind (runDeliveryCycle_follows.mono fun _ _ _ => trivial)
  | check ctx => exact (Batch.quiet (processCheck_issues env ctx)).mono fun _ _ _ => trivial
  | resolve id resolution actor =>
    refine .bind ((Batch.quiet (resolveIncidentManually_issues (fun _ h => h.1) id resolution actor)).mono ?_)
    exact fun _ _ _ => trivial

/-! ### Escalation passes -/

/-- The incidents a pass has listed, and the last one it has asked for, with the answer. -/
structure Pass where
  work : List Uuid
  asked : Option (Uuid × Int)
deriving DecidableEq

def Pass.next : Protocol AlertCmd AlertCmd.Ans Pass
  | x, .listOpenIncidentsForEscalation =>
    if x = ⟨[], none⟩ then some fun work => ⟨work.map fun w => w.incident.id, none⟩ else none
  | x, .getEscalationPolicy _ => some fun _ => x
  | x, .highestTierFired id => if id ∈ x.work then some fun lastFired => ⟨x.work, some (id, lastFired)⟩ else none
  | x, .createAlert i tier =>
    if ∃ e ∈ x.asked, i.incidentId = some e.1 ∧ tier = some (e.2 + 1).toNat then some fun _ => x else none
  | x, .escalateIncident _ _ => some fun _ => x
  | _, _ => none

theorem Pass.policy_follows (x : Pass) (pass : EscalationPass) (id : Uuid) :
    Follows Pass.next x (pass.policy id) fun _ y => y = x := by
  unfold EscalationPass.policy
  split
  · rfl
  · exact .bind (.cmd rfl fun _ => rfl)

theorem Pass.escalate_follows (now : Time) (pass : EscalationPass) (work : EscalatableIncident) (x : Pass)
    (hwork : work.incident.id ∈ x.work) :
    Follows Pass.next x (escalate now pass work) fun _ y => y.work = x.work := by
  unfold escalate
  refine .bind ((Pass.policy_follows x pass _).mono fun ⟨policy, pass'⟩ y hy => ?_)
  obtain rfl : x = y := hy.symm
  cases policy with
  | none => rfl
  | some policy =>
    simp only []
    split
    · rfl
    · refine .bind (.cmd (if_pos hwork) fun lastFired => ?_)
      let y : Pass := ⟨x.work, some (work.incident.id, lastFired)⟩
      have hfire : ∀ tier, (fireTier work.incident tier (lastFired + 1).toNat).Issues fun c =>
          Pass.next y c = some fun _ => y := by
        intro tier
        unfold fireTier
        refine .forM (fun recipient => .cmd ?_) _
        exact if_pos ⟨_, rfl, rfl, rfl⟩
      split
      · rfl
      · rename_i tier _
        split
        · exact .bind (.cmd rfl fun _ => rfl)
        · split
          · rfl
          · refine .bind ((Follows.of_issues (hfire tier) fun _ h => h).mono ?_)
            rintro _ _ rfl
            exact .bind (.cmd rfl fun _ => rfl)

theorem Pass.next_list : Pass.next ⟨[], none⟩ .listOpenIncidentsForEscalation =
    some fun work : List EscalatableIncident => ⟨work.map fun w => w.incident.id, none⟩ := rfl

theorem Pass.runEscalationCycle_follows (now : Time) :
    Follows Pass.next ⟨[], none⟩ (runEscalationCycle now) fun _ _ => True := by
  unfold runEscalationCycle
  refine .bind (.cmd Pass.next_list fun work => .bind ?_)
  refine (Follows.foldlM (I := fun l y => ∀ w ∈ l, w.incident.id ∈ y.work) ?_ work _ _ ?_).mono fun _ _ _ => trivial
  · intro pass w l x hl
    refine (escalate_follows now pass w x (hl w List.mem_cons_self)).mono fun _ y hy w' hw' => ?_
    rw [hy]
    exact hl w' (List.mem_cons_of_mem _ hw')
  · exact fun w hw => List.mem_map.2 ⟨w, hw, rfl⟩

end CronMonitor.Observability
