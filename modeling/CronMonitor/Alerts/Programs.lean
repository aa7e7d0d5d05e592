import CronMonitor.Alerts.Service

/-!
# Which commands the programs issue

Only a delivery cycle lists, sends and marks alerts, and only a check that recovers reads whom to notify and commits a
recovery.
-/

namespace CronMonitor.Alerts

open Prog

/-- A command of a delivery cycle alone. -/
def AlertCmd.delivers : AlertCmd → Bool
  | listPendingAlerts _ | send _ _ _ | markAlert _ _ _ => true
  | _ => false

/-- A command of a recovery alone. -/
def AlertCmd.recovers : AlertCmd → Bool
  | notifiedTargetsForIncident _ | incidentAlertContacts | commitRecovery _ _ _ => true
  | _ => false

abbrev AlertCmd.NoDelivery (c : AlertCmd) : Prop := c.delivers = false

abbrev AlertCmd.NoRecovery (c : AlertCmd) : Prop := c.recovers = false

/-- A command of neither. -/
abbrev AlertCmd.Plain (c : AlertCmd) : Prop := c.NoDelivery ∧ c.NoRecovery

variable {P : AlertCmd → Prop}

theorem EscalationPass.policy_issues (hP : ∀ c : AlertCmd, c.Plain → P c) (pass : EscalationPass) (id : Uuid) :
    (pass.policy id).Issues P := by
  unfold policy
  split
  · trivial
  · exact .bind (.cmd (hP _ ⟨rfl, rfl⟩)) fun _ => trivial

theorem fireTier_issues (hP : ∀ c : AlertCmd, c.Plain → P c) (incident : Incident) (tier : EscalationTier) (index : Nat) :
    (fireTier incident tier index).Issues P :=
  .forM (fun _ => .cmd (hP _ ⟨rfl, rfl⟩)) _

theorem escalate_issues (hP : ∀ c : AlertCmd, c.Plain → P c) (now : Time) (pass : EscalationPass)
    (work : EscalatableIncident) : (escalate now pass work).Issues P := by
  unfold escalate
  refine .bind (EscalationPass.policy_issues hP pass _) fun ⟨policy, pass'⟩ => ?_
  cases policy with
  | none => trivial
  | some policy =>
    simp only []
    split
    · trivial
    · refine .bind (.cmd (hP _ ⟨rfl, rfl⟩)) fun lastFired => ?_
      split
      · trivial
      · split
        · exact .bind (.cmd (hP _ ⟨rfl, rfl⟩)) fun _ => trivial
        · split
          · trivial
          · refine .bind (fireTier_issues hP _ _ _) fun _ => ?_
            exact .bind (.cmd (hP _ ⟨rfl, rfl⟩)) fun _ => trivial

theorem runEscalationCycle_issues (hP : ∀ c : AlertCmd, c.Plain → P c) (now : Time) : (runEscalationCycle now).Issues P := by
  unfold runEscalationCycle
  refine .bind (.cmd (hP _ ⟨rfl, rfl⟩)) fun work => ?_
  exact .bind (.foldlM (fun pass w => escalate_issues hP now pass w) _ _) fun _ => trivial

theorem resolveIncidentManually_issues (hP : ∀ c : AlertCmd, c.Plain → P c) (id : Uuid) (resolution : String)
    (actor : AuditActor) : (resolveIncidentManually id resolution actor).Issues P := by
  unfold resolveIncidentManually
  split
  · trivial
  · refine .bind (.cmd (hP _ ⟨rfl, rfl⟩)) fun existing => ?_
    split
    · trivial
    · split
      · trivial
      · refine .bind (.cmd (hP _ ⟨rfl, rfl⟩)) fun updated => ?_
        split
        · trivial
        · exact .bind (.cmd (hP _ ⟨rfl, rfl⟩)) fun _ => trivial

/-- A read of the row a column refers to. -/
theorem readBy_issues {β : Type} {id : Option Uuid} {read : Uuid → AlertProg (Option β)} (h : ∀ id, (read id).Issues P) :
    (readBy id read).Issues P := by
  unfold readBy
  split
  · exact h _
  · trivial

end CronMonitor.Alerts
