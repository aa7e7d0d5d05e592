import CronMonitor.IncidentEvents
import CronMonitor.Lib.Stories

/-!
# The timeline tells the incident

The row of an incident is overwritten by every failing check; what it was is only in `incident_events`. The entries
that the state machine writes there are a story (`Lib.Stories`) of what the row says of the failure: `Turns` is what one
entry says, and `failed_story` that the entries of a failing check tell what it does to the row. The check may have read
the incident earlier, when its row showed the same.
-/

namespace CronMonitor

open Stories

/-- What the row of an incident says of the failure. -/
structure Face where
  incidentType : IncidentType
  severity : Severity
  failureType : Option CheckFailureType
deriving DecidableEq, Repr

def Incident.face (i : Incident) : Face := ⟨i.incidentType, i.severity, i.failureType⟩

/-- What a failing check of `target` opens an incident with. -/
def openingFace (target : MonitoredApi) (status : HealthStatus) (failureType : Option CheckFailureType) : Face where
  incidentType := if status = .down then .outage else .degradation
  severity := if status = .down then target.severityDefault else degrade target.severityDefault
  failureType := failureType

/-- A failure type in an entry. -/
def failureText (f : Option CheckFailureType) : String := (f.map (·.label)).getD "null"

/-- The entry says that the failure it is about was `a` and is `b`. -/
inductive Turns : Face → IncidentEvent → Face → Prop
  | failure {a : Face} {e : IncidentEvent} {f : CheckFailureType} (hkind : e.kind = .failureChanged)
      (hnew : a.failureType ≠ some f) (hfrom : e.detail.lookup "from" = some (failureText a.failureType))
      (hto : e.detail.lookup "to" = some f.label) : Turns a e { a with failureType := some f }
  | promotion {a : Face} {e : IncidentEvent} {s : Severity} (hkind : e.kind = .severityEscalated)
      (htype : a.incidentType = .degradation) (hfrom : e.detail.lookup "from" = some a.severity.label)
      (hto : e.detail.lookup "to" = some s.label) : Turns a e { a with incidentType := .outage, severity := s }
  | flapping {a : Face} {e : IncidentEvent} (hkind : e.kind = .flappingDetected)
      (htype : a.incidentType ≠ .flapping) : Turns a e { a with incidentType := .flapping }

/-- The kinds of entries that only the state machine writes. -/
def IncidentEventKind.turns : IncidentEventKind → Bool
  | .failureChanged | .severityEscalated | .flappingDetected => true
  | .latencyElevated | .dependencyError | .databaseError | .rcaComputed => false

/-- The entries of the state machine about one incident. -/
def about (id : Uuid) (events : List IncidentEvent) : List IncidentEvent :=
  events.filter fun e => e.kind.turns && e.incidentId = id

def Store.timeline (st : Store) (id : Uuid) : List IncidentEvent := about id st.db.incidentEvents

theorem about_append (id : Uuid) (es fs : List IncidentEvent) : about id (es ++ fs) = about id es ++ about id fs :=
  List.filter_append ..

theorem about_self {id : Uuid} {es : List IncidentEvent} (h : ∀ e ∈ es, e.kind.turns ∧ e.incidentId = id) :
    about id es = es :=
  List.filter_eq_self.2 fun e he => by simp [h e he]

theorem about_other {id : Uuid} {es : List IncidentEvent} (h : ∀ e ∈ es, e.kind.turns → e.incidentId ≠ id) :
    about id es = [] :=
  List.filter_eq_nil_iff.2 fun e he => by simpa using h e he

/-! ### An entry says all it does -/

theorem CheckFailureType.label_injective : Function.Injective CheckFailureType.label := by
  intro f g h
  cases f <;> cases g <;> first | rfl | (exact absurd h (by decide))

theorem Severity.label_injective : Function.Injective Severity.label := by
  intro s t h
  cases s <;> cases t <;> first | rfl | (exact absurd h (by decide))

theorem Turns.unique (a : Face) (e : IncidentEvent) (b c : Face) (h : Turns a e b) (h' : Turns a e c) : b = c := by
  cases h with
  | failure hkind _ _ hto =>
    cases h' with
    | failure _ _ _ hto' =>
      rw [CheckFailureType.label_injective (Option.some.inj (hto.symm.trans hto'))]
    | promotion hkind' => exact absurd (hkind.symm.trans hkind') (by decide)
    | flapping hkind' => exact absurd (hkind.symm.trans hkind') (by decide)
  | promotion hkind _ _ hto =>
    cases h' with
    | failure hkind' => exact absurd (hkind.symm.trans hkind') (by decide)
    | promotion _ _ _ hto' => rw [Severity.label_injective (Option.some.inj (hto.symm.trans hto'))]
    | flapping hkind' => exact absurd (hkind.symm.trans hkind') (by decide)
  | flapping hkind _ =>
    cases h' with
    | failure hkind' => exact absurd (hkind.symm.trans hkind') (by decide)
    | promotion hkind' => exact absurd (hkind.symm.trans hkind') (by decide)
    | flapping => rfl

/-- How far an incident is from its promotion, and from flapping. -/
def Face.promotions (a : Face) : ℕ := if a.incidentType = .degradation then 0 else 1

def Face.flappings (a : Face) : ℕ := if a.incidentType = .flapping then 1 else 0

theorem Turns.promotions (a : Face) (e : IncidentEvent) (b : Face) (h : Turns a e b) :
    a.promotions + (if e.kind = .severityEscalated then 1 else 0) ≤ b.promotions := by
  cases h with
  | failure hkind => simp [Face.promotions, hkind]
  | promotion hkind htype => simp [Face.promotions, hkind, htype]
  | flapping hkind =>
    simp only [Face.promotions, hkind]
    split <;> simp

theorem Turns.flappings (a : Face) (e : IncidentEvent) (b : Face) (h : Turns a e b) :
    a.flappings + (if e.kind = .flappingDetected then 1 else 0) = b.flappings := by
  cases h with
  | failure hkind => simp [Face.flappings, hkind]
  | promotion hkind htype => simp [Face.flappings, hkind, htype]
  | flapping hkind htype => simp [Face.flappings, hkind, htype]

/-! ### The entries of one check -/

section Check

variable {env : Env} {ctx : CheckContext} {v : Store}

/-- The failure type on record after the check. -/
theorem failureEvents_story (known : Incident) (now : Time) : Story Turns known.face (failureEvents ctx known now)
    { known.face with failureType := ctx.failureType <|> known.failureType } := by
  unfold failureEvents newFailure
  cases ctx.failureType with
  | none => exact .nil _
  | some f =>
    by_cases hknown : known.failureType = some f
    · have hsame : ({ known.face with failureType := some f <|> known.failureType } : Face) = known.face := by
        simp [Incident.face, hknown]
      rw [hsame]
      simpa [Option.filter, hknown] using Story.nil known.face
    · have hturn : Turns known.face ((failureChange ctx known f).at_ now) { known.face with failureType := some f } :=
        .failure rfl hknown rfl rfl
      simpa [Option.filter, hknown] using Story.single hturn

/-- The promotion, whatever the failure type is by then. -/
theorem promotionEvents_story (known : Incident) (now : Time) (f : Option CheckFailureType) :
    Story Turns { known.face with failureType := f } (promotionEvents ctx known now)
      ⟨(promoted ctx known).incidentType, (promoted ctx known).severity, f⟩ := by
  unfold promotionEvents promoted
  split
  · rename_i hp
    exact .single (.promotion rfl hp.2 rfl rfl)
  · exact .nil _

theorem flappingEvents_story (known i : Incident) (hi : i.incidentType = known.incidentType) :
    Story Turns i.face (flappingEvents env ctx known v) (flapRow env ctx known v i).face := by
  unfold flappingEvents flapRow
  split
  · rename_i hflap
    exact .single (.flapping rfl fun h => hflap.2 (hi.symm.trans h))
  · exact .nil _

/-- All the entries of a failing check that has found the incident `a`, whose row is `i`. -/
theorem failed_story (a i : Incident) (hface : i.face = a.face) : Story Turns i.face
    (failureEvents ctx a v.now ++ promotionEvents ctx a v.now ++ flappingEvents env ctx (promoted ctx a) v)
    (flapRow env ctx (promoted ctx a) v (failedRow ctx a i)).face := by
  obtain ⟨htype, hseverity, hfailure⟩ : i.incidentType = a.incidentType ∧ i.severity = a.severity ∧
      i.failureType = a.failureType := by
    simpa [Incident.face] using hface
  have hfailed : (failedRow ctx a i).face = ⟨(promoted ctx a).incidentType, (promoted ctx a).severity,
      ctx.failureType <|> a.failureType⟩ := by
    unfold failedRow promoted
    split <;> simp [Incident.face, htype, hseverity, hfailure]
  have hafter : (failedRow ctx a i).incidentType = (promoted ctx a).incidentType := congrArg Face.incidentType hfailed
  rw [hface]
  refine ((failureEvents_story a v.now).append (promotionEvents_story a v.now _)).append ?_
  rw [← hfailed]
  exact flappingEvents_story (promoted ctx a) (failedRow ctx a i) hafter

/-- Each of them is about the incident, at the time of the check. -/
theorem failureEvents_about {known : Incident} {now : Time} :
    ∀ e ∈ failureEvents ctx known now, e.kind.turns ∧ e.incidentId = known.id ∧ e.occurredAt = now := by
  intro e he
  obtain ⟨f, -, rfl⟩ := Option.map_eq_some_iff.1 (Option.mem_toList.1 he)
  exact ⟨rfl, rfl, rfl⟩

theorem promotionEvents_about {known : Incident} {now : Time} :
    ∀ e ∈ promotionEvents ctx known now, e.kind.turns ∧ e.incidentId = known.id ∧ e.occurredAt = now := by
  intro e he
  unfold promotionEvents at he
  split at he
  · obtain rfl := List.mem_singleton.1 he
    exact ⟨rfl, rfl, rfl⟩
  · cases he

theorem flappingEvents_about {known : Incident} :
    ∀ e ∈ flappingEvents env ctx known v, e.kind.turns ∧ e.incidentId = known.id ∧ e.occurredAt = v.now := by
  intro e he
  unfold flappingEvents at he
  split at he
  · obtain rfl := List.mem_singleton.1 he
    exact ⟨rfl, rfl, rfl⟩
  · cases he

theorem failed_about (a : Incident) : ∀ e ∈ failureEvents ctx a v.now ++ promotionEvents ctx a v.now ++
    flappingEvents env ctx (promoted ctx a) v, e.kind.turns ∧ e.incidentId = a.id ∧ e.occurredAt = v.now := by
  intro e he
  rcases List.mem_append.1 he with he | he
  · rcases List.mem_append.1 he with he | he
    · exact failureEvents_about e he
    · exact promotionEvents_about e he
  · have hid : (promoted ctx a).id = a.id := promoted_id a
    rw [← hid]
    exact flappingEvents_about e he

end Check

end CronMonitor
