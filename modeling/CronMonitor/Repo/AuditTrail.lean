import CronMonitor.Repo.Audit
import CronMonitor.Lib.AppendOnly
import CronMonitor.Lib.Runs
import CronMonitor.LoadTest.Compliance

/-!
# The append-only tables

`audit_logs` with the trigger `audit_logs_reject_mutation` (`migrations/1725000009000_audit-actor-detach.sql`), and
`compliance_reviews` and `compliance_evidence_packs` with `compliance_forbid_mutation`
(`migrations/1725000027000_compliance.sql`). A statement may be any `INSERT`, `UPDATE` or `DELETE` on them. Deleting a
user sets `actor_user_id` to null in the rows that name it, through the same trigger, and is refused while a change
request or an authorization names the user as its proposer; an update that takes away an id that is named is refused. Statements run in transactions, and one that fails rolls its
transaction back. What is no statement on rows (`TRUNCATE`, disabling a trigger) is left out.
-/

namespace CronMonitor
open AppendOnly Runs

/-- A row of `audit_logs`, with all its columns. -/
structure AuditRow where
  id : Uuid
  actorUserId : Option Uuid
  actorLabel : Option String
  action : String
  entityType : String
  entityId : Option Uuid
  summary : Option String
  changes : Option String
  ipAddress : Option String
  userAgent : Option String
  requestId : Option String
  createdAt : Time
deriving DecidableEq, Repr

namespace AuditRow

variable {a b c : AuditRow}

/-- `audit_logs_has_actor`. -/
def hasActor (r : AuditRow) : Bool := r.actorUserId.isSome || r.actorLabel.isSome

/-- What `ON DELETE SET NULL` makes of a row. -/
def detach (r : AuditRow) : AuditRow := { r with actorUserId := none }

/-- `audit_logs_reject_mutation` of an update. The id, the address, the agent and the request are not compared. -/
def mutationPasses (old new : AuditRow) : Bool :=
  old.actorUserId.isSome && new.actorUserId.isNone && new.actorLabel == old.actorLabel && new.action == old.action &&
    new.entityType == old.entityType && new.entityId == old.entityId && new.summary == old.summary &&
    new.changes == old.changes && new.createdAt == old.createdAt

/-- The same event: who acted, by the label, on what, how and when. -/
structure SameEvent (a b : AuditRow) : Prop where
  actorLabel : b.actorLabel = a.actorLabel
  action : b.action = a.action
  entityType : b.entityType = a.entityType
  entityId : b.entityId = a.entityId
  summary : b.summary = a.summary
  changes : b.changes = a.changes
  createdAt : b.createdAt = a.createdAt

/-- Unchanged, or changed once, when it lost its actor. -/
def Retained (a b : AuditRow) : Prop := b = a ∨ a.actorUserId.isSome ∧ b.actorUserId = none ∧ a.SameEvent b

theorem mutationPasses_iff : mutationPasses a b = true ↔ a.actorUserId.isSome ∧ b.actorUserId = none ∧ a.SameEvent b := by
  simp only [mutationPasses, Bool.and_eq_true, beq_iff_eq, Option.isNone_iff_eq_none, and_assoc]
  constructor
  · rintro ⟨hsome, hnone, h₁, h₂, h₃, h₄, h₅, h₆, h₇⟩
    exact ⟨hsome, hnone, h₁, h₂, h₃, h₄, h₅, h₆, h₇⟩
  · rintro ⟨hsome, hnone, h₁, h₂, h₃, h₄, h₅, h₆, h₇⟩
    exact ⟨hsome, hnone, h₁, h₂, h₃, h₄, h₅, h₆, h₇⟩

/-- A row that has lost its actor is never changed again. -/
theorem Retained.trans (h : Retained a b) (h' : Retained b c) : Retained a c := by
  rcases h' with rfl | ⟨hsome, hnone, hc⟩
  · exact h
  rcases h with rfl | ⟨-, hb, -⟩
  · exact .inr ⟨hsome, hnone, hc⟩
  · rw [hb] at hsome
    cases hsome

end AuditRow

/-- A row of `compliance_reviews`. -/
structure ReviewRow where
  id : Uuid
  record : LoadTest.Compliance.ReviewRecord
  reviewerId : Uuid
deriving DecidableEq

/-- A row of `compliance_evidence_packs`. -/
structure PackRow where
  id : Uuid
  apiId : Option Uuid
  targetName : String
  libraryVersion : String
  manifestSha256 : String
  zipSha256 : String
  sizeBytes : Int
  fileCount : Int
  basis : String
  summary : String
  zip : List UInt8
  createdBy : Option Uuid
  createdByLabel : String
  createdAt : Time
deriving DecidableEq

def auditTable : Table AuditRow where
  valid rows := (rows.map (·.id)).Nodup && rows.all (·.hasActor)
  update := AuditRow.mutationPasses
  delete _ := false

/-- `compliance_forbid_mutation` on reviews. -/
def reviewTable : Table ReviewRow where
  valid rows := (rows.map (·.id)).Nodup && rows.all (10 ≤ ·.record.note.length)
  update _ _ := false
  delete _ := false

/-- `compliance_forbid_mutation` on packs. -/
def packTable : Table PackRow where
  valid rows := (rows.map (·.id)).Nodup
  update _ _ := false
  delete _ := false

theorem auditTable_guards : auditTable.Guards AuditRow.Retained where
  refl _ := .inl rfl
  trans _ _ _ := AuditRow.Retained.trans
  update _ _ h := .inr (AuditRow.mutationPasses_iff.1 h)
  delete _ := rfl

theorem reviewTable_guards : reviewTable.Guards Eq where
  refl _ := rfl
  trans _ _ _ := Eq.trans
  update _ _ h := by cases h
  delete _ := rfl

theorem packTable_guards : packTable.Guards Eq where
  refl _ := rfl
  trans _ _ _ := Eq.trans
  update _ _ h := by cases h
  delete _ := rfl

/-- `proposers` are the `proposed_by` of the change requests and authorizations, which restrict. -/
structure Trail where
  users : List Uuid
  proposers : List Uuid
  auditLogs : List AuditRow
  reviews : List ReviewRow
  packs : List PackRow

inductive TrailStmt
  | createUser (id : Uuid)
  /-- an update that makes `f id` of the id of each user; one of the other columns leaves it -/
  | updateUsers (f : Uuid → Uuid)
  | deleteUsers (p : Uuid → Bool)
  | propose (user : Uuid)
  | dropProposals (p : Uuid → Bool)
  | audit (st : Statement AuditRow)
  | review (st : Statement ReviewRow)
  | pack (st : Statement PackRow)

namespace Trail

/-- `audit_logs.actor_user_id REFERENCES users`. -/
def referenced (users : List Uuid) (rows : List AuditRow) : Bool := rows.all fun r => r.actorUserId.all (· ∈ users)

def exec (t : Trail) : TrailStmt → Option Trail
  | .createUser id => if id ∈ t.users then none else some { t with users := t.users ++ [id] }
  -- Nothing is done `ON UPDATE`: who is named must be there under the old id.
  | .updateUsers f =>
    let users := t.users.map f
    if users.Nodup ∧ referenced users t.auditLogs ∧ t.proposers ⊆ users then some { t with users := users } else none
  | .deleteUsers p =>
    if t.proposers.any p then none
    else (auditTable.exec t.auditLogs (.update (·.actorUserId.any p) AuditRow.detach)).map fun rows =>
      { t with users := t.users.filter (!p ·), auditLogs := rows }
  | .propose user => if user ∈ t.users then some { t with proposers := t.proposers ++ [user] } else none
  | .dropProposals p => some { t with proposers := t.proposers.filter (!p ·) }
  | .audit st => ((auditTable.exec t.auditLogs st).filter (referenced t.users)).map ({ t with auditLogs := · })
  | .review st => (reviewTable.exec t.reviews st).map ({ t with reviews := · })
  | .pack st => (packTable.exec t.packs st).map ({ t with packs := · })

/-- A transaction leaves what its statements leave, or nothing when one of them fails. -/
def commit (t : Trail) (tx : List TrailStmt) : Trail := (run exec t tx).getD t

def after (t : Trail) (txs : List (List TrailStmt)) : Trail := txs.foldl commit t

variable {t t' : Trail} {st : TrailStmt}

/-- Nothing that `t` has recorded is lost or rewritten in `t'`. -/
structure Keeps (t t' : Trail) : Prop where
  auditLogs : Extends AuditRow.Retained t.auditLogs t'.auditLogs
  reviews : Extends Eq t.reviews t'.reviews
  packs : Extends Eq t.packs t'.packs

theorem Keeps.refl (t : Trail) : t.Keeps t :=
  ⟨.refl auditTable_guards.refl _, .refl reviewTable_guards.refl _, .refl packTable_guards.refl _⟩

theorem Keeps.trans {t'' : Trail} (h : t.Keeps t') (h' : t'.Keeps t'') : t.Keeps t'' :=
  ⟨h.auditLogs.trans auditTable_guards.trans h'.auditLogs, h.reviews.trans reviewTable_guards.trans h'.reviews,
    h.packs.trans packTable_guards.trans h'.packs⟩

theorem exec_keeps (h : t.exec st = some t') : t.Keeps t' := by
  unfold exec at h
  have hrefl := Keeps.refl t
  cases st with
  | createUser id =>
    obtain ⟨-, heq⟩ := Option.ite_none_left_eq_some.1 h
    obtain rfl := Option.some.inj heq
    exact ⟨hrefl.auditLogs, hrefl.reviews, hrefl.packs⟩
  | updateUsers f =>
    obtain ⟨-, heq⟩ := Option.ite_none_right_eq_some.1 h
    obtain rfl := Option.some.inj heq
    exact ⟨hrefl.auditLogs, hrefl.reviews, hrefl.packs⟩
  | deleteUsers p =>
    obtain ⟨-, hmap⟩ := Option.ite_none_left_eq_some.1 h
    obtain ⟨rows, hrows, rfl⟩ := Option.map_eq_some_iff.1 hmap
    exact ⟨auditTable_guards.exec hrows, hrefl.reviews, hrefl.packs⟩
  | propose user =>
    obtain ⟨-, heq⟩ := Option.ite_none_right_eq_some.1 h
    obtain rfl := Option.some.inj heq
    exact ⟨hrefl.auditLogs, hrefl.reviews, hrefl.packs⟩
  | dropProposals p =>
    obtain rfl := Option.some.inj h
    exact ⟨hrefl.auditLogs, hrefl.reviews, hrefl.packs⟩
  | audit st =>
    obtain ⟨rows, hrows, rfl⟩ := Option.map_eq_some_iff.1 h
    exact ⟨auditTable_guards.exec (Option.filter_eq_some_iff.1 hrows).1, hrefl.reviews, hrefl.packs⟩
  | review st =>
    obtain ⟨rows, hrows, rfl⟩ := Option.map_eq_some_iff.1 h
    exact ⟨hrefl.auditLogs, reviewTable_guards.exec hrows, hrefl.packs⟩
  | pack st =>
    obtain ⟨rows, hrows, rfl⟩ := Option.map_eq_some_iff.1 h
    exact ⟨hrefl.auditLogs, hrefl.reviews, packTable_guards.exec hrows⟩

theorem commit_keeps (t : Trail) (tx : List TrailStmt) : t.Keeps (t.commit tx) := by
  unfold commit
  cases hrun : run exec t tx with
  | none => exact .refl t
  | some t' => exact inv_run (I := t.Keeps) (.refl t) (fun _ _ _ h hs => h.trans (exec_keeps hs)) hrun

theorem after_keeps (t : Trail) (txs : List (List TrailStmt)) : t.Keeps (t.after txs) := by
  induction txs generalizing t with
  | nil => exact .refl t
  | cons tx txs ih => exact (commit_keeps t tx).trans (ih (t.commit tx))

/-- Whatever statements are tried on them, the audit rows stay in their places and change at most once, when they lose
the actor and perhaps the columns that the trigger does not compare; reviews and packs only gain rows. -/
theorem records_kept (t : Trail) (txs : List (List TrailStmt)) :
    (∀ (i : ℕ) (r : AuditRow), t.auditLogs[i]? = some r →
        ∃ r', (t.after txs).auditLogs[i]? = some r' ∧ r.Retained r') ∧
      t.reviews <+: (t.after txs).reviews ∧ t.packs <+: (t.after txs).packs :=
  have h := after_keeps t txs
  ⟨h.auditLogs, extends_eq_iff.1 h.reviews, extends_eq_iff.1 h.packs⟩

end Trail

/-- The row that `recordAudit` inserts. -/
def AuditEntry.row (e : AuditEntry) (id : Uuid) (requestId : Option String) (createdAt : Time) : AuditRow where
  id := id
  actorUserId := e.toLog.actorUserId
  actorLabel := some e.toLog.actorLabel
  action := e.toLog.action
  entityType := e.toLog.entityType
  entityId := e.toLog.entityId
  summary := e.toLog.summary
  changes := e.toLog.changes
  ipAddress := e.toLog.ipAddress
  userAgent := e.toLog.userAgent
  requestId := requestId
  createdAt := createdAt

/-- What the application does with users and the trail: it writes rows with `recordAudit` alone. -/
inductive TrailOp
  | createUser (id : Uuid)
  | deleteUsers (p : Uuid → Bool)
  | propose (user : Uuid)
  | dropProposals (p : Uuid → Bool)
  | recordAudit (id : Uuid) (entry : AuditEntry) (requestId : Option String) (createdAt : Time)

namespace TrailOp

def stmt : TrailOp → TrailStmt
  | createUser id => .createUser id
  | deleteUsers p => .deleteUsers p
  | propose user => .propose user
  | dropProposals p => .dropProposals p
  | recordAudit id entry requestId createdAt => .audit (.insert [entry.row id requestId createdAt])

/-- What it asks to be recorded. -/
def written : TrailOp → List AuditRow
  | recordAudit id entry requestId createdAt => [entry.row id requestId createdAt]
  | createUser _ | deleteUsers _ | propose _ | dropProposals _ => []

end TrailOp

namespace Trail

def empty : Trail := ⟨[], [], [], [], []⟩

/-- The rows of the transactions that were committed, in order. -/
def recorded (t : Trail) : List (List TrailOp) → List AuditRow
  | [] => []
  | tx :: txs =>
    (if (run exec t (tx.map TrailOp.stmt)).isSome then tx.flatMap TrailOp.written else []) ++
      (t.commit (tx.map TrailOp.stmt)).recorded txs

/-- As written, or without its actor's id. -/
def StillNames (w r : AuditRow) : Prop := r = w ∨ w.actorUserId.isSome ∧ r = w.detach

/-- The trail tells `ws`, row by row. -/
structure Tells (ws : List AuditRow) (t : Trail) : Prop where
  rows : List.Forall₂ StillNames ws t.auditLogs
  ids : (t.auditLogs.map (·.id)).Nodup
  labels : ∀ r ∈ t.auditLogs, r.actorLabel.isSome
  users : ∀ r ∈ t.auditLogs, ∀ u ∈ r.actorUserId, u ∈ t.users

variable {t t' : Trail} {ws : List AuditRow}

theorem Tells.empty : Tells [] .empty := ⟨.nil, .nil, by simp [Trail.empty], by simp [Trail.empty]⟩

theorem StillNames.detach {w r : AuditRow} (h : StillNames w r) (hr : r.actorUserId.isSome) :
    StillNames w r.detach := by
  rcases h with rfl | ⟨hw, rfl⟩
  · exact .inr ⟨hr, rfl⟩
  · cases hr

/-- Rows that all have a label let any of their actors go. -/
theorem Tells.detach_exec (h : Tells ws t) (p : Uuid → Bool) :
    auditTable.exec t.auditLogs (.update (·.actorUserId.any p) AuditRow.detach) =
      some (t.auditLogs.map fun r => if r.actorUserId.any p then r.detach else r) := by
  have hpass : ∀ r ∈ t.auditLogs, r.actorUserId.any p = true → auditTable.update r r.detach = true := by
    intro r _ hp
    obtain ⟨u, hu, -⟩ := (Option.any_eq_true _ _).1 hp
    exact AuditRow.mutationPasses_iff.2 ⟨by rw [hu]; rfl, rfl, .mk rfl rfl rfl rfl rfl rfl rfl⟩
  have hids : ((t.auditLogs.map fun r => if r.actorUserId.any p then r.detach else r).map (·.id)) =
      t.auditLogs.map (·.id) := by
    rw [List.map_map]
    refine List.map_congr_left fun r _ => ?_
    simp only [Function.comp_apply]
    split_ifs <;> rfl
  have hactor : (t.auditLogs.map fun r => if r.actorUserId.any p then r.detach else r).all (·.hasActor) = true := by
    rw [List.all_map, List.all_eq_true]
    intro r hr
    simp only [Function.comp_apply, AuditRow.hasActor]
    split_ifs <;> exact Bool.or_eq_true_iff.2 (.inr (h.labels r hr))
  refine Table.exec_update hpass ?_
  simp only [auditTable, hids, hactor, h.ids, decide_true, Bool.and_self]

theorem Tells.deleteUsers_iff (h : Tells ws t) (p : Uuid → Bool) :
    (t.exec (.deleteUsers p)).isSome ↔ ∀ u ∈ t.proposers, p u = false := by
  simp only [exec, h.detach_exec p]
  cases hp : t.proposers.any p with
  | false => simpa using hp
  | true =>
    simp only [if_true, Option.isSome_none]
    simp only [List.any_eq_true] at hp
    obtain ⟨u, hu, hpu⟩ := hp
    exact iff_of_false (by decide) fun hall => absurd (hall u hu) (by rw [hpu]; decide)

/-- What a statement of the application adds to the trail, it adds at the end; the rows before lose at most actors. -/
theorem Tells.step {a : TrailOp} (h : Tells ws t) (hexec : t.exec a.stmt = some t') : Tells (ws ++ a.written) t' := by
  cases a with
  | createUser id =>
    obtain ⟨-, heq⟩ := Option.ite_none_left_eq_some.1 hexec
    obtain rfl := Option.some.inj heq
    rw [TrailOp.written, List.append_nil]
    exact ⟨h.rows, h.ids, h.labels, fun r hr u hu => List.mem_append_left _ (h.users r hr u hu)⟩
  | propose user =>
    obtain ⟨-, heq⟩ := Option.ite_none_right_eq_some.1 hexec
    obtain rfl := Option.some.inj heq
    rw [TrailOp.written, List.append_nil]
    exact ⟨h.rows, h.ids, h.labels, h.users⟩
  | dropProposals p =>
    obtain rfl := Option.some.inj hexec
    rw [TrailOp.written, List.append_nil]
    exact ⟨h.rows, h.ids, h.labels, h.users⟩
  | deleteUsers p =>
    obtain ⟨-, hmap⟩ := Option.ite_none_left_eq_some.1 hexec
    obtain ⟨rows, hrows, rfl⟩ := Option.map_eq_some_iff.1 hmap
    rw [h.detach_exec p] at hrows
    obtain rfl := Option.some.inj hrows
    rw [TrailOp.written, List.append_nil]
    refine ⟨?_, ?_, ?_, ?_⟩
    · refine List.forall₂_map_right_iff.2 (h.rows.imp fun w r hwr => ?_)
      split_ifs with hp
      · obtain ⟨u, hu, -⟩ := (Option.any_eq_true _ _).1 hp
        exact hwr.detach (by rw [hu]; rfl)
      · exact hwr
    · have hids := h.ids
      rw [List.map_map]
      convert hids using 2
      funext r
      simp only [Function.comp_apply]
      split_ifs <;> rfl
    · intro r' hr'
      obtain ⟨r, hr, rfl⟩ := List.mem_map.1 hr'
      split_ifs <;> exact h.labels r hr
    · intro r' hr' u hu
      obtain ⟨r, hr, rfl⟩ := List.mem_map.1 hr'
      split_ifs at hu with hp
      · cases hu
      · refine List.mem_filter.2 ⟨h.users r hr u hu, ?_⟩
        rw [Option.mem_def.1 hu] at hp
        simpa using hp
  | recordAudit id entry requestId createdAt =>
    obtain ⟨rows, hrows, rfl⟩ := Option.map_eq_some_iff.1 hexec
    obtain ⟨hins, href⟩ := Option.filter_eq_some_iff.1 hrows
    have hvalid := Table.exec_valid hins
    unfold Table.exec at hins
    obtain rfl := Option.some.inj (Option.filter_eq_some_iff.1 hins).1
    simp only [auditTable, Bool.and_eq_true, decide_eq_true_eq] at hvalid
    refine ⟨?_, hvalid.1, ?_, ?_⟩
    · exact List.rel_append h.rows (.cons (.inl rfl) .nil)
    · intro r hr
      rcases List.mem_append.1 hr with hr | hr
      · exact h.labels r hr
      · obtain rfl := List.mem_singleton.1 hr
        rfl
    · intro r hr u hu
      have hall := List.all_eq_true.1 href r hr
      rw [Option.mem_def.1 hu] at hall
      simpa using hall

theorem Tells.run {tx : List TrailOp} (h : Tells ws t) (hrun : run exec t (tx.map TrailOp.stmt) = some t') :
    Tells (ws ++ tx.flatMap TrailOp.written) t' := by
  induction tx generalizing ws t with
  | nil =>
    obtain rfl := Option.some.inj hrun
    rw [List.flatMap_nil, List.append_nil]
    exact h
  | cons a tx ih =>
    obtain ⟨t₁, h₁, h₂⟩ := run_cons_iff.1 hrun
    rw [List.flatMap_cons, ← List.append_assoc]
    exact ih (h.step h₁) h₂

theorem Tells.after (h : Tells ws t) (txs : List (List TrailOp)) :
    Tells (ws ++ t.recorded txs) (t.after (txs.map (·.map TrailOp.stmt))) := by
  induction txs generalizing ws t with
  | nil =>
    rw [recorded, List.append_nil]
    exact h
  | cons tx txs ih =>
    rw [recorded, ← List.append_assoc]
    refine ih ?_
    unfold commit
    cases hrun : Runs.run exec t (tx.map TrailOp.stmt) with
    | none => simpa using h
    | some t' => simpa using h.run hrun

/-- After any history of the application the trail tells every committed record in order, each still under its label
and with its actor's id as long as the user is there; and only a proposal ever keeps a user from being deleted. -/
theorem actors_named (txs : List (List TrailOp)) :
    let t := empty.after (txs.map (·.map TrailOp.stmt))
    List.Forall₂ StillNames (empty.recorded txs) t.auditLogs ∧
      (∀ r ∈ t.auditLogs, r.actorLabel.isSome ∧ ∀ u ∈ r.actorUserId, u ∈ t.users) ∧
      ∀ p : Uuid → Bool, (t.exec (.deleteUsers p)).isSome ↔ ∀ u ∈ t.proposers, p u = false := by
  intro t
  have h : Tells ([] ++ empty.recorded txs) t := Tells.empty.after txs
  exact ⟨h.rows, fun r hr => ⟨h.labels r hr, h.users r hr⟩, h.deleteUsers_iff⟩

end Trail

end CronMonitor
