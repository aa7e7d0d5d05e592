import CronMonitor.HealthRuns.Service

/-!
# Every check in exactly one run

A roll-up reads its window three times, to find the services, to count the checks and to link them, and never looks
behind the end of the last window again. A check that is committed behind a window already read is missed by what was
read; the law holds in every run in which none is, and in which no two roll-ups overlap.
-/

namespace CronMonitor.HealthRuns
open History Runs

variable {intervalMs : Nat} {st : Store} {s s' : Sys}

def HealthCheckRun.covers (r : HealthCheckRun) (t : Time) : Prop := r.windowStart ≤ t ∧ t < r.windowEnd

instance (r : HealthCheckRun) (t : Time) : Decidable (r.covers t) := inferInstanceAs (Decidable (_ ∧ _))

/-- The number of targets among the checks. -/
def distinctApis (checks : List HealthCheckResult) : Nat := (checks.map (·.apiId)).dedup.length

def Store.window (st : Store) (start stop : Time) : List HealthCheckResult := st.checks.filter (inWindow start stop)

def Store.linkedTo (st : Store) (r : HealthCheckRun) : List HealthCheckResult :=
  st.checks.filter fun c => c.hcRunId = some r.id

/-- The counts of a run are those of the given checks. -/
structure HealthCheckRun.Counts (r : HealthCheckRun) (checks : List HealthCheckResult) : Prop where
  total : r.checksTotal = checks.length
  services : r.servicesTested = r.healthy + r.degraded + r.failed + r.unknown
  targets : r.servicesTested = distinctApis checks

/-- Every check from the first window's start on and before the last window's end is linked to exactly one run, and
every run counts the checks that are linked to it. -/
structure RolledUp (st : Store) : Prop where
  linked : ∀ c ∈ st.checks, (∃ r ∈ st.runs, r.windowStart ≤ c.checkedAt) → (∃ r ∈ st.runs, c.checkedAt < r.windowEnd) →
    ∃! r, r ∈ st.runs ∧ c.hcRunId = some r.id
  counts : ∀ r ∈ st.runs, r.Counts (st.linkedTo r)

/-! ### Checks that come too late -/

/-- The part of its window that a roll-up has read. -/
def RollUp.window : RollUp → Option (Time × Time)
  | .latestRunWindowEnd _ => none
  | .services start _ => some (start, start)
  | .totals start now _ | .nextHcId start now _ _ | .insertRun start now _ _ _ | .backfillRunLinks _ start now =>
    some (start, now)

def Sys.windows (s : Sys) : List (Time × Time) :=
  s.store.runs.map (fun r => (r.windowStart, r.windowEnd)) ++ s.rollUps.filterMap (·.window)

/-- The time lies behind the end of a window that has been read, and not before the first one. -/
def Sys.Late (s : Sys) (t : Time) : Prop := (∃ w ∈ s.windows, w.1 ≤ t) ∧ ∃ w ∈ s.windows, t < w.2

/-- No check lies between the end of the last window and the start of the next one. -/
def Store.NoGap (st : Store) (start : Time) : Prop :=
  st.runs ≠ [] → ∀ c ∈ st.checks, (∀ r ∈ st.runs, r.windowEnd ≤ c.checkedAt) → start ≤ c.checkedAt

/-- The time of a roll-up that is about to fix its window. -/
def RollUp.opening : RollUp → Option Time
  | .latestRunWindowEnd now => some now
  | _ => none

/-- No check is committed late, no roll-up starts beside another, and the six intervals reach back to every check that
no window covers. -/
def Timely (intervalMs : Nat) (s : Sys) : Label → Prop
  | .commitCheck _ _ checkedAt _ => ¬ s.Late checkedAt
  | .rollUpRun _ => s.rollUps = []
  | .advance i => ∀ now ∈ (s.rollUps[i]?).bind RollUp.opening,
    s.store.NoGap (windowStart intervalMs s.store.latestRunWindowEnd now)
  | .saveApi _ => True

instance (s : Sys) (t : Time) : Decidable (s.Late t) := inferInstanceAs (Decidable (_ ∧ _))

instance (st : Store) (start : Time) : Decidable (st.NoGap start) := inferInstanceAs (Decidable (_ → _))

instance (intervalMs : Nat) (s : Sys) : ∀ l, Decidable (Timely intervalMs s l)
  | .commitCheck _ _ checkedAt _ => inferInstanceAs (Decidable (¬ s.Late checkedAt))
  | .rollUpRun _ => inferInstanceAs (Decidable (s.rollUps = []))
  | .advance i => inferInstanceAs (Decidable (∀ now ∈ (s.rollUps[i]?).bind RollUp.opening,
    s.store.NoGap (windowStart intervalMs s.store.latestRunWindowEnd now)))
  | .saveApi _ => inferInstanceAs (Decidable True)

/-! ### The services of a window -/

theorem inWindow_iff {start stop : Time} {c : HealthCheckResult} :
    inWindow start stop c = true ↔ start ≤ c.checkedAt ∧ c.checkedAt < stop := by
  simp [inWindow]

theorem windowServices_apiIds (st : Store) (start stop : Time) :
    (st.windowServices start stop).map (·.apiId) =
      (st.apis.map (·.id)).filter fun id => (st.window start stop).any (·.apiId = id) := by
  unfold Store.windowServices
  induction st.apis with
  | nil => rfl
  | cons a apis ih =>
    rw [List.map_cons, List.filter_cons, ← ih, List.filterMap_cons]
    cases hn : newest HealthCheckResult.checkedAt
        (st.checks.filter fun c => c.apiId = a.id && inWindow start stop c) with
    | none =>
      have hnot : (st.window start stop).any (·.apiId = a.id) = false := by
        rw [newest_eq_none, List.filter_eq_nil_iff] at hn
        simpa [Store.window, and_comm] using hn
      simp [hnot]
    | some c =>
      have hany : (st.window start stop).any (·.apiId = a.id) = true := by
        obtain ⟨hc, hin⟩ := List.mem_filter.1 (mem_of_newest hn)
        rw [Bool.and_eq_true] at hin
        exact List.any_eq_true.2 ⟨c, List.mem_filter.2 ⟨hc, hin.2⟩, hin.1⟩
      simp [hany]

/-- There is one service for every target that has a check in the window. -/
theorem length_windowServices (hapis : (st.apis.map (·.id)).Nodup)
    (htargets : ∀ c ∈ st.checks, c.apiId ∈ st.apis.map (·.id)) (start stop : Time) :
    (st.windowServices start stop).length = distinctApis (st.window start stop) := by
  have hperm : ((st.windowServices start stop).map (·.apiId)).Perm ((st.window start stop).map (·.apiId)).dedup := by
    rw [windowServices_apiIds]
    refine (List.perm_ext_iff_of_nodup (hapis.filter _) (List.nodup_dedup _)).2 fun id => ?_
    rw [List.mem_filter, List.mem_dedup, List.any_eq_true]
    constructor
    · rintro ⟨-, c, hc, hid⟩
      exact List.mem_map.2 ⟨c, hc, of_decide_eq_true hid⟩
    · intro hid
      obtain ⟨c, hc, rfl⟩ := List.mem_map.1 hid
      exact ⟨htargets c (List.mem_of_mem_filter hc), c, hc, decide_eq_true rfl⟩
  rw [distinctApis, ← hperm.length_eq, List.length_map]

theorem countP_statuses (services : List WindowRow) : services.length =
    services.countP (·.status = .up) + services.countP (·.status = .degraded) + services.countP (·.status = .down) +
      services.countP (·.status = .unknown) := by
  induction services with
  | nil => rfl
  | cons s services ih =>
    rw [List.length_cons, ih]
    cases hs : s.status <;> simp [hs] <;> omega

/-! ### The tables between the statements -/

/-- What every statement keeps; `pending` is the run whose checks are still to be linked. -/
structure Store.Ok (st : Store) (pending : Option Uuid) : Prop where
  apis : (st.apis.map (·.id)).Nodup
  targets : ∀ c ∈ st.checks, c.apiId ∈ st.apis.map (·.id)
  fresh : ∀ r ∈ st.runs, r.id < st.nextUuid
  order : st.runs.Pairwise fun r r' => r.id < r'.id ∧ r.windowEnd ≤ r'.windowStart
  windows : ∀ r ∈ st.runs, r.windowStart < r.windowEnd
  links : ∀ c ∈ st.checks, ∀ id, c.hcRunId = some id → ∃ r ∈ st.runs, r.id = id ∧ r.covers c.checkedAt
  covered : ∀ c ∈ st.checks, (∃ r ∈ st.runs, r.windowStart ≤ c.checkedAt) →
    (∃ r ∈ st.runs, c.checkedAt < r.windowEnd) → ∃ r ∈ st.runs, r.covers c.checkedAt
  linked : ∀ c ∈ st.checks, ∀ r ∈ st.runs, r.covers c.checkedAt → some r.id ≠ pending → c.hcRunId = some r.id
  counts : ∀ r ∈ st.runs, r.Counts (st.window r.windowStart r.windowEnd)

/-- The window of a roll-up lies after all others, and no check in between. -/
structure Store.Opened (st : Store) (start now : Time) : Prop where
  lt : start < now
  after : ∀ r ∈ st.runs, r.windowEnd ≤ start
  noGap : st.NoGap start

def RollUp.Ok (st : Store) : RollUp → Prop
  | .latestRunWindowEnd _ => True
  | .services start now => st.Opened start now
  | .totals start now latest => st.Opened start now ∧ latest.length = distinctApis (st.window start now)
  | .nextHcId start now latest sums | .insertRun start now latest sums _ =>
    st.Opened start now ∧ latest.length = distinctApis (st.window start now) ∧ sums.1 = (st.window start now).length
  | .backfillRunLinks runId start now => ∃ r ∈ st.runs, r.id = runId ∧ r.windowStart = start ∧ r.windowEnd = now

/-- The run whose checks are still to be linked. -/
def RollUp.pending : RollUp → Option Uuid
  | .backfillRunLinks runId _ _ => some runId
  | _ => none

namespace Store.Ok

variable {pending : Option Uuid} (h : st.Ok pending)
include h

theorem rel_of_ne {r r' : HealthCheckRun} (hr : r ∈ st.runs) (hr' : r' ∈ st.runs) (hne : r ≠ r') :
    (r.id < r'.id ∧ r.windowEnd ≤ r'.windowStart) ∨ (r'.id < r.id ∧ r'.windowEnd ≤ r.windowStart) := by
  let R : HealthCheckRun → HealthCheckRun → Prop := fun r r' =>
    (r.id < r'.id ∧ r.windowEnd ≤ r'.windowStart) ∨ (r'.id < r.id ∧ r'.windowEnd ≤ r.windowStart)
  have hsymm : Std.Symm R := ⟨fun _ _ => Or.symm⟩
  have hpair : st.runs.Pairwise R := h.order.imp Or.inl
  exact hpair.forall hr hr' hne

theorem eq_of_id {r r' : HealthCheckRun} (hr : r ∈ st.runs) (hr' : r' ∈ st.runs) (hid : r.id = r'.id) : r = r' := by
  by_contra hne
  rcases h.rel_of_ne hr hr' hne with ⟨hlt, -⟩ | ⟨hlt, -⟩
  · exact absurd hid (Nat.ne_of_lt hlt)
  · exact absurd hid.symm (Nat.ne_of_lt hlt)

/-- Windows do not overlap. -/
theorem eq_of_covers {r r' : HealthCheckRun} {t : Time} (hr : r ∈ st.runs) (hr' : r' ∈ st.runs) (ht : r.covers t)
    (ht' : r'.covers t) : r = r' := by
  by_contra hne
  rcases h.rel_of_ne hr hr' hne with ⟨-, hle⟩ | ⟨-, hle⟩
  · exact absurd (lt_of_lt_of_le ht.2 (hle.trans ht'.1)) (lt_irrefl t)
  · exact absurd (lt_of_lt_of_le ht'.2 (hle.trans ht.1)) (lt_irrefl t)

theorem linked_iff {c : HealthCheckResult} {r : HealthCheckRun} (hc : c ∈ st.checks) (hr : r ∈ st.runs)
    (hpending : some r.id ≠ pending) : c.hcRunId = some r.id ↔ r.covers c.checkedAt := by
  constructor
  · intro hid
    obtain ⟨r', hr', hid', hcov⟩ := h.links c hc _ hid
    rwa [h.eq_of_id hr' hr hid'] at hcov
  · intro hcov
    exact h.linked c hc r hr hcov hpending

end Store.Ok

/-- Between two roll-ups the law holds. -/
theorem Store.Ok.rolledUp (h : st.Ok none) : RolledUp st where
  linked := by
    intro c hc hfirst hlast
    obtain ⟨r, hr, hcov⟩ := h.covered c hc hfirst hlast
    refine ⟨r, ⟨hr, h.linked c hc r hr hcov (by simp)⟩, ?_⟩
    rintro r' ⟨hr', hid⟩
    exact h.eq_of_covers hr' hr ((h.linked_iff hc hr' (by simp)).1 hid) hcov
  counts := by
    intro r hr
    have hlinked : st.linkedTo r = st.window r.windowStart r.windowEnd := by
      refine List.filter_congr fun c hc => ?_
      rw [Bool.eq_iff_iff, inWindow_iff, decide_eq_true_iff]
      exact h.linked_iff hc hr (by simp)
    rw [hlinked]
    exact h.counts r hr

/-! ### Edited targets and committed checks -/

theorem saveApi_ids (st : Store) (a : MonitoredApi) (h : (st.apis.map (·.id)).Nodup) :
    ((st.saveApi a).apis.map (·.id)).Nodup ∧ ∀ id ∈ st.apis.map (·.id), id ∈ (st.saveApi a).apis.map (·.id) := by
  unfold Store.saveApi
  split_ifs with hany
  · have hsame : (st.apis.map fun b => if b.id = a.id then a else b).map (·.id) = st.apis.map (·.id) := by
      rw [List.map_map]
      refine List.map_congr_left fun b _ => ?_
      show (if b.id = a.id then a else b).id = b.id
      split_ifs with hid
      · exact hid.symm
      · rfl
    rw [hsame]
    exact ⟨h, fun id hid => hid⟩
  · have hfresh : a.id ∉ st.apis.map (·.id) := by
      intro hmem
      obtain ⟨b, hb, hid⟩ := List.mem_map.1 hmem
      exact hany (List.any_eq_true.2 ⟨b, hb, decide_eq_true hid⟩)
    rw [List.map_append]
    refine ⟨List.nodup_append.2 ⟨h, List.nodup_singleton _, ?_⟩, fun id hid => List.mem_append_left _ hid⟩
    rintro id hid _ hid' rfl
    rw [List.map_singleton, List.mem_singleton] at hid'
    exact hfresh (hid' ▸ hid)

theorem saveApi_rest (st : Store) (a : MonitoredApi) : (st.saveApi a).checks = st.checks ∧
    (st.saveApi a).runs = st.runs ∧ (st.saveApi a).nextUuid = st.nextUuid := by
  unfold Store.saveApi
  split_ifs <;> exact ⟨rfl, rfl, rfl⟩

theorem RollUp.Ok.congr {st' : Store} {p : RollUp} (h : p.Ok st) (hchecks : st'.checks = st.checks)
    (hruns : st'.runs = st.runs) : p.Ok st' := by
  have hwindow (start stop : Time) : st'.window start stop = st.window start stop := by
    rw [Store.window, hchecks, Store.window]
  have hopened {start now : Time} (ho : st.Opened start now) : st'.Opened start now := by
    refine ⟨ho.lt, hruns ▸ ho.after, ?_⟩
    rw [Store.NoGap, hruns, hchecks]
    exact ho.noGap
  cases p with
  | latestRunWindowEnd now => trivial
  | services start now => exact hopened h
  | totals start now latest => exact ⟨hopened h.1, hwindow start now ▸ h.2⟩
  | nextHcId start now latest sums => exact ⟨hopened h.1, hwindow start now ▸ h.2⟩
  | insertRun start now latest sums hcId => exact ⟨hopened h.1, hwindow start now ▸ h.2⟩
  | backfillRunLinks runId start now =>
    rw [RollUp.Ok, hruns]
    exact h

theorem Store.Ok.saveApi {pending : Option Uuid} (h : st.Ok pending) (a : MonitoredApi) : (st.saveApi a).Ok pending := by
  obtain ⟨hnodup, hids⟩ := saveApi_ids st a h.apis
  obtain ⟨hchecks, hruns, hnext⟩ := saveApi_rest st a
  have hwindow (start stop : Time) : (st.saveApi a).window start stop = st.window start stop := by
    rw [Store.window, hchecks, Store.window]
  constructor
  case apis => exact hnodup
  case targets =>
    rw [hchecks]
    exact fun c hc => hids _ (h.targets c hc)
  case fresh =>
    rw [hruns, hnext]
    exact h.fresh
  case order => exact hruns ▸ h.order
  case windows => exact hruns ▸ h.windows
  case links =>
    rw [hchecks, hruns]
    exact h.links
  case covered =>
    rw [hchecks, hruns]
    exact h.covered
  case linked =>
    rw [hchecks, hruns]
    exact h.linked
  case counts =>
    simp only [hwindow, hruns]
    exact h.counts

section Commit

variable {apiId : Uuid} {status : HealthStatus} {t : Time} {ms : Option Nat}

theorem window_insert {start stop : Time} (ht : ¬ (start ≤ t ∧ t < stop)) :
    (st.insertHealthCheckResult apiId status t ms).window start stop = st.window start stop := by
  have hout : inWindow start stop ⟨st.nextUuid, apiId, status, t, ms, none⟩ = false := by
    rw [Bool.eq_false_iff, ne_eq, inWindow_iff]
    exact ht
  simp [Store.window, Store.insertHealthCheckResult, List.filter_append, hout]

theorem Store.Ok.insertHealthCheckResult {pending : Option Uuid} (h : st.Ok pending)
    (hapi : apiId ∈ st.apis.map (·.id))
    (hlate : ¬ ((∃ r ∈ st.runs, r.windowStart ≤ t) ∧ ∃ r ∈ st.runs, t < r.windowEnd)) :
    (st.insertHealthCheckResult apiId status t ms).Ok pending where
  apis := h.apis
  targets := List.forall_mem_append.2 ⟨h.targets, List.forall_mem_singleton.2 hapi⟩
  fresh := fun r hr => (h.fresh r hr).trans (Nat.lt_succ_self _)
  order := h.order
  windows := h.windows
  links := List.forall_mem_append.2 ⟨h.links, List.forall_mem_singleton.2 fun _ hid => by cases hid⟩
  covered := List.forall_mem_append.2 ⟨h.covered, List.forall_mem_singleton.2 fun hfirst hlast =>
    absurd ⟨hfirst, hlast⟩ hlate⟩
  linked := List.forall_mem_append.2 ⟨h.linked, List.forall_mem_singleton.2 fun r hr hcov _ =>
    absurd ⟨⟨r, hr, hcov.1⟩, r, hr, hcov.2⟩ hlate⟩
  counts := by
    intro r hr
    rw [window_insert fun hcov => hlate ⟨⟨r, hr, hcov.1⟩, r, hr, hcov.2⟩]
    exact h.counts r hr

theorem Sys.late_of {w w' : Time × Time} (hw : w ∈ s.windows) (hw' : w' ∈ s.windows) (hle : w.1 ≤ t) (hlt : t < w'.2) :
    s.Late t := ⟨⟨w, hw, hle⟩, w', hw', hlt⟩

theorem Sys.window_of_run {r : HealthCheckRun} (hr : r ∈ s.store.runs) : (r.windowStart, r.windowEnd) ∈ s.windows :=
  List.mem_append_left _ (List.mem_map_of_mem hr)

theorem Sys.window_of_rollUp {p : RollUp} {w : Time × Time} (hp : p ∈ s.rollUps) (hw : p.window = some w) :
    w ∈ s.windows := List.mem_append_right _ (List.mem_filterMap.2 ⟨p, hp, hw⟩)

theorem Store.Opened.insertHealthCheckResult {start now : Time} {w : Time × Time} (h : s.store.Opened start now)
    (hwindows : ∀ r ∈ s.store.runs, r.windowStart < r.windowEnd) (hlate : ¬ s.Late t) (hw : w ∈ s.windows)
    (hstart : start ≤ w.2) : (s.store.insertHealthCheckResult apiId status t ms).Opened start now where
  lt := h.lt
  after := h.after
  noGap := by
    intro hruns
    refine List.forall_mem_append.2 ⟨h.noGap hruns, List.forall_mem_singleton.2 fun hbehind => ?_⟩
    obtain ⟨r, hr⟩ := List.exists_mem_of_ne_nil _ hruns
    by_contra hlt
    have hr0 : r.windowStart ≤ t := (hwindows r hr).le.trans (hbehind r hr)
    exact hlate (Sys.late_of (Sys.window_of_run hr) hw hr0 (lt_of_lt_of_le (not_le.1 hlt) hstart))

theorem RollUp.Ok.insertHealthCheckResult {p : RollUp} (h : p.Ok s.store) (hp : p ∈ s.rollUps)
    (hwindows : ∀ r ∈ s.store.runs, r.windowStart < r.windowEnd) (hlate : ¬ s.Late t) :
    p.Ok (s.store.insertHealthCheckResult apiId status t ms) := by
  have hread {start now : Time} (hw : p.window = some (start, now)) :
      (s.store.insertHealthCheckResult apiId status t ms).window start now = s.store.window start now :=
    window_insert fun hin =>
      hlate (Sys.late_of (Sys.window_of_rollUp hp hw) (Sys.window_of_rollUp hp hw) hin.1 hin.2)
  have hopened {start now : Time} {w : Time × Time} (ho : s.store.Opened start now) (hw : p.window = some w)
      (hle : start ≤ w.2) : (s.store.insertHealthCheckResult apiId status t ms).Opened start now :=
    ho.insertHealthCheckResult hwindows hlate (Sys.window_of_rollUp hp hw) hle
  cases p with
  | latestRunWindowEnd now => trivial
  | services start now => exact hopened h rfl le_rfl
  | totals start now latest => exact ⟨hopened h.1 rfl h.1.lt.le, by rw [hread rfl]; exact h.2⟩
  | nextHcId start now latest sums => exact ⟨hopened h.1 rfl h.1.lt.le, by rw [hread rfl]; exact h.2⟩
  | insertRun start now latest sums hcId => exact ⟨hopened h.1 rfl h.1.lt.le, by rw [hread rfl]; exact h.2⟩
  | backfillRunLinks runId start now => exact h

end Commit

/-! ### The statements of a roll-up -/

theorem le_windowStart (intervalMs : Nat) (now : Time) {r : HealthCheckRun} (hr : r ∈ st.runs) :
    r.windowEnd ≤ windowStart intervalMs st.latestRunWindowEnd now := by
  obtain ⟨r', hr'⟩ := exists_newest HealthCheckRun.windowEnd (List.ne_nil_of_mem hr)
  have hlast : st.latestRunWindowEnd = some r'.windowEnd := by rw [Store.latestRunWindowEnd, hr', Option.map_some]
  rw [windowStart, hlast, Option.getD_some]
  exact (le_newest hr' hr).trans (le_max_left _ _)

/-- A run is recorded for a window that was opened and counted. -/
theorem Store.Ok.insertRun {start now : Time} {latest : List WindowRow} {sums : Nat × Option Nat} (h : st.Ok none)
    (ho : st.Opened start now) (hlatest : latest.length = distinctApis (st.window start now))
    (hsums : sums.1 = (st.window start now).length) (hcId : HcId) :
    (st.insertRun (runOf st.nextUuid hcId start now latest sums)).Ok (some st.nextUuid) where
  apis := h.apis
  targets := h.targets
  fresh := List.forall_mem_append.2 ⟨fun r hr => (h.fresh r hr).trans (Nat.lt_succ_self _),
    List.forall_mem_singleton.2 (Nat.lt_succ_self _)⟩
  order := List.pairwise_append.2 ⟨h.order, List.pairwise_singleton _ _, fun r hr _ hr' => by
    obtain rfl := List.mem_singleton.1 hr'
    exact ⟨h.fresh r hr, ho.after r hr⟩⟩
  windows := List.forall_mem_append.2 ⟨h.windows, List.forall_mem_singleton.2 ho.lt⟩
  links := fun c hc id hid => by
    obtain ⟨r, hr, hrest⟩ := h.links c hc id hid
    exact ⟨r, List.mem_append_left _ hr, hrest⟩
  covered := by
    intro c hc hfirst hlast
    by_cases hold : ∃ r ∈ st.runs, c.checkedAt < r.windowEnd
    · -- behind an old window's end the new window plays no part
      obtain ⟨r, hr, hlt⟩ := hold
      have hfirst' : ∃ r ∈ st.runs, r.windowStart ≤ c.checkedAt := by
        obtain ⟨r', hr', hle⟩ := hfirst
        rcases List.mem_append.1 hr' with hr' | hr'
        · exact ⟨r', hr', hle⟩
        · obtain rfl := List.mem_singleton.1 hr'
          exact absurd (lt_of_lt_of_le hlt (ho.after r hr)) (not_lt.2 hle)
      obtain ⟨r', hr', hcov⟩ := h.covered c hc hfirst' ⟨r, hr, hlt⟩
      exact ⟨r', List.mem_append_left _ hr', hcov⟩
    · have hbehind : ∀ r ∈ st.runs, r.windowEnd ≤ c.checkedAt := fun r hr => not_lt.1 fun hlt => hold ⟨r, hr, hlt⟩
      refine ⟨_, List.mem_append_right _ (List.mem_singleton_self _), ?_, ?_⟩
      · by_cases hruns : st.runs = []
        · obtain ⟨r', hr', hle⟩ := hfirst
          rw [Store.insertRun, hruns] at hr'
          obtain rfl := List.mem_singleton.1 hr'
          exact hle
        · exact ho.noGap hruns c hc hbehind
      · obtain ⟨r', hr', hlt⟩ := hlast
        rcases List.mem_append.1 hr' with hr' | hr'
        · exact absurd hlt (not_lt.2 (hbehind r' hr'))
        · obtain rfl := List.mem_singleton.1 hr'
          exact hlt
  linked := by
    intro c hc r hr hcov hne
    rcases List.mem_append.1 hr with hr | hr
    · exact h.linked c hc r hr hcov (by simp)
    · obtain rfl := List.mem_singleton.1 hr
      exact absurd rfl hne
  counts := List.forall_mem_append.2 ⟨h.counts, List.forall_mem_singleton.2
    ⟨hsums, countP_statuses latest, hlatest⟩⟩

section Backfill

variable {runId : Uuid} {start stop : Time}

/-- The row of a check after its window is linked. -/
def linkTo (runId : Uuid) (start stop : Time) (c : HealthCheckResult) : HealthCheckResult :=
  if c.hcRunId.isNone && inWindow start stop c then { c with hcRunId := some runId } else c

theorem linkTo_apiId (c : HealthCheckResult) : (linkTo runId start stop c).apiId = c.apiId := by
  unfold linkTo
  split_ifs <;> rfl

theorem linkTo_checkedAt (c : HealthCheckResult) : (linkTo runId start stop c).checkedAt = c.checkedAt := by
  unfold linkTo
  split_ifs <;> rfl

theorem linkTo_cases (runId : Uuid) (start stop : Time) (c : HealthCheckResult) :
    (c.hcRunId = none ∧ start ≤ c.checkedAt ∧ c.checkedAt < stop ∧ (linkTo runId start stop c).hcRunId = some runId) ∨
      ((start ≤ c.checkedAt → c.checkedAt < stop → c.hcRunId ≠ none) ∧ linkTo runId start stop c = c) := by
  unfold linkTo
  split_ifs with hcond
  · rw [Bool.and_eq_true, Option.isNone_iff_eq_none, inWindow_iff] at hcond
    exact .inl ⟨hcond.1, hcond.2.1, hcond.2.2, rfl⟩
  · rw [Bool.and_eq_true, Option.isNone_iff_eq_none, inWindow_iff] at hcond
    exact .inr ⟨fun hle hlt hnone => hcond ⟨hnone, hle, hlt⟩, rfl⟩

theorem window_backfill (a b : Time) :
    (st.backfillRunLinks runId start stop).window a b = (st.window a b).map (linkTo runId start stop) := by
  have hin (c : HealthCheckResult) : inWindow a b (linkTo runId start stop c) = inWindow a b c := by
    rw [inWindow, inWindow, linkTo_checkedAt]
  show (st.checks.map (linkTo runId start stop)).filter (inWindow a b) = _
  rw [List.filter_map, Store.window]
  simp only [Function.comp_def, hin]

theorem HealthCheckRun.Counts.backfill {r : HealthCheckRun} {checks : List HealthCheckResult} (h : r.Counts checks) :
    r.Counts (checks.map (linkTo runId start stop)) where
  total := by rw [List.length_map, h.total]
  services := h.services
  targets := by
    rw [distinctApis, List.map_map, h.targets, distinctApis]
    simp only [Function.comp_def, linkTo_apiId]

/-- The checks of the pending run's window are linked to it, and no others. -/
theorem Store.Ok.backfill {r : HealthCheckRun} (h : st.Ok (some r.id)) (hr : r ∈ st.runs) :
    (st.backfillRunLinks r.id r.windowStart r.windowEnd).Ok none where
  apis := h.apis
  targets := by
    refine List.forall_mem_map.2 fun c hc => ?_
    rw [← linkTo, linkTo_apiId]
    exact h.targets c hc
  fresh := h.fresh
  order := h.order
  windows := h.windows
  links := by
    refine List.forall_mem_map.2 fun c hc id hid => ?_
    rw [← linkTo] at hid ⊢
    rw [linkTo_checkedAt]
    rcases linkTo_cases r.id r.windowStart r.windowEnd c with
      ⟨-, hle, hlt, hlinked⟩ | ⟨-, hsame⟩
    · rw [hlinked, Option.some_inj] at hid
      exact ⟨r, hr, hid, hle, hlt⟩
    · rw [hsame] at hid
      exact h.links c hc id hid
  covered := by
    refine List.forall_mem_map.2 fun c hc => ?_
    rw [← linkTo, linkTo_checkedAt]
    exact h.covered c hc
  linked := by
    refine List.forall_mem_map.2 fun c hc r' hr' hcov _ => ?_
    rw [← linkTo] at hcov ⊢
    rw [linkTo_checkedAt] at hcov
    rcases linkTo_cases r.id r.windowStart r.windowEnd c with
      ⟨-, hle, hlt, hlinked⟩ | ⟨hnot, hsame⟩
    · rw [hlinked, h.eq_of_covers hr' hr hcov ⟨hle, hlt⟩]
    · rw [hsame]
      by_cases hid : r'.id = r.id
      · -- the pending run itself: a check of its window that has a link is linked to it
        obtain rfl := h.eq_of_id hr' hr hid
        obtain ⟨id, hid'⟩ := Option.ne_none_iff_exists'.1 (hnot hcov.1 hcov.2)
        obtain ⟨r'', hr'', rfl, hcov''⟩ := h.links c hc id hid'
        rw [hid', h.eq_of_covers hr'' hr hcov'' hcov]
      · exact h.linked c hc r' hr' hcov fun heq => hid (Option.some_inj.1 heq)
  counts := by
    intro r' hr'
    rw [window_backfill]
    exact (h.counts r' hr').backfill

end Backfill

/-- A statement of a roll-up keeps the tables in order and leaves the roll-up ready for the next one. -/
theorem RollUp.next_ok (intervalMs : Nat) {p : RollUp} (hst : st.Ok p.pending) (hp : p.Ok st)
    (hgap : ∀ now, p = .latestRunWindowEnd now → st.NoGap (windowStart intervalMs st.latestRunWindowEnd now)) :
    (p.next intervalMs st).1.Ok ((p.next intervalMs st).2.bind RollUp.pending) ∧
      ∀ q, (p.next intervalMs st).2 = some q → q.Ok (p.next intervalMs st).1 := by
  cases p with
  | latestRunWindowEnd now =>
    simp only [RollUp.next]
    split_ifs with hlate
    · exact ⟨hst, nofun⟩
    · refine ⟨hst, fun q hq => ?_⟩
      cases hq
      exact ⟨not_le.1 hlate, fun r hr => le_windowStart intervalMs now hr, hgap now rfl⟩
  | services start now =>
    simp only [RollUp.next]
    split_ifs
    · exact ⟨hst, nofun⟩
    · refine ⟨hst, fun q hq => ?_⟩
      cases hq
      exact ⟨hp, length_windowServices hst.apis hst.targets start now⟩
  | totals start now latest =>
    refine ⟨hst, fun q hq => ?_⟩
    cases hq
    exact ⟨hp.1, hp.2, rfl⟩
  | nextHcId start now latest sums =>
    refine ⟨⟨hst.apis, hst.targets, hst.fresh, hst.order, hst.windows, hst.links, hst.covered, hst.linked, hst.counts⟩,
      fun q hq => ?_⟩
    cases hq
    exact RollUp.Ok.congr (p := .nextHcId start now latest sums) hp rfl rfl
  | insertRun start now latest sums hcId =>
    obtain ⟨ho, hlatest, hsums⟩ := hp
    refine ⟨hst.insertRun ho hlatest hsums hcId, fun q hq => ?_⟩
    cases hq
    exact ⟨_, List.mem_append_right _ (List.mem_singleton_self _), rfl, rfl, rfl⟩
  | backfillRunLinks runId start now =>
    obtain ⟨r, hr, rfl, rfl, rfl⟩ := hp
    exact ⟨hst.backfill hr, nofun⟩

/-! ### Runs -/

/-- At most one roll-up is under way, and the tables are as it has left them. -/
structure Sys.Ok (s : Sys) (p : Option RollUp) : Prop where
  rollUps : s.rollUps = p.toList
  store : s.store.Ok (p.bind RollUp.pending)
  rollUp : ∀ q, p = some q → q.Ok s.store

theorem Sys.Ok.step {p : Option RollUp} {l : Label} (h : s.Ok p) (hstep : step intervalMs s l = some s')
    (htimely : Timely intervalMs s l) : ∃ p', s'.Ok p' := by
  cases l with
  | saveApi a =>
    cases hstep
    obtain ⟨hchecks, hruns, -⟩ := saveApi_rest s.store a
    exact ⟨p, h.rollUps, h.store.saveApi a, fun q hq => (h.rollUp q hq).congr hchecks hruns⟩
  | commitCheck apiId status t ms =>
    obtain ⟨hany, hs⟩ := Option.ite_none_right_eq_some.1 hstep
    cases hs
    obtain ⟨a, ha, hid⟩ := List.any_eq_true.1 hany
    have hapi : apiId ∈ s.store.apis.map (·.id) := List.mem_map.2 ⟨a, ha, of_decide_eq_true hid⟩
    refine ⟨p, h.rollUps, h.store.insertHealthCheckResult hapi fun hlate => ?_, fun q hq => ?_⟩
    · obtain ⟨⟨r, hr, hle⟩, r', hr', hlt⟩ := hlate
      exact htimely (Sys.late_of (Sys.window_of_run hr) (Sys.window_of_run hr') hle hlt)
    · have hmem : q ∈ s.rollUps := by rw [h.rollUps, hq]; exact List.mem_singleton_self q
      exact (h.rollUp q hq).insertHealthCheckResult hmem h.store.windows htimely
  | rollUpRun now =>
    cases hstep
    have hidle : p = none := by
      have hnil := h.rollUps
      rw [show s.rollUps = [] from htimely] at hnil
      cases p with
      | none => rfl
      | some q => cases hnil
    obtain rfl := hidle
    refine ⟨some (.latestRunWindowEnd now), ?_, h.store, fun q hq => ?_⟩
    · rw [show s.rollUps = [] from htimely]
      rfl
    · cases hq
      trivial
  | advance i =>
    obtain ⟨q, hq, rfl⟩ := Option.map_eq_some_iff.1 hstep
    have hp : p = some q ∧ i = 0 := by
      rw [h.rollUps] at hq
      cases p with
      | none => cases hq
      | some q' => cases i <;> simp_all
    obtain ⟨rfl, rfl⟩ := hp
    obtain ⟨hstore, hnext⟩ := RollUp.next_ok intervalMs h.store (h.rollUp q rfl)
      fun now hnow => htimely now (by rw [hq, hnow]; rfl)
    refine ⟨(q.next intervalMs s.store).2, ?_, hstore, hnext⟩
    simp only [h.rollUps]
    cases (q.next intervalMs s.store).2 <;> rfl

/-- From empty tables, in every run whose steps are timely: between two roll-ups nothing is lost or counted twice. -/
theorem roll_up_exact (intervalMs : Nat) (apis : List MonitoredApi) (hapis : (apis.map (·.id)).Nodup) (tr : List Label)
    (htimely : Along (step intervalMs) (fun s l _ => Timely intervalMs s l) ⟨⟨apis, [], [], 0, 0⟩, []⟩ tr) (s : Sys)
    (hr : run (step intervalMs) ⟨⟨apis, [], [], 0, 0⟩, []⟩ tr = some s) (hidle : s.rollUps = []) : RolledUp s.store := by
  have h₀ : (⟨⟨apis, [], [], 0, 0⟩, []⟩ : Sys).Ok none :=
    ⟨rfl, ⟨hapis, nofun, nofun, .nil, nofun, nofun, nofun, nofun, nofun⟩, nofun⟩
  obtain ⟨p, hs⟩ := htimely.inv (I := fun s => ∃ p, s.Ok p) ⟨none, h₀⟩
    (fun s l s' ⟨_, h⟩ hstep hC => h.step hstep hC) hr
  have hp : p = none := by
    have hnil := hs.rollUps
    rw [hidle] at hnil
    cases p with
    | none => rfl
    | some q => cases hnil
  obtain rfl := hp
  exact hs.store.rolledUp

/-! ### A check behind the window -/

def oneApi : List MonitoredApi := [⟨1, true, .paymentStatus, .production⟩]

/-- Two roll-ups, five minutes apart; between them a check is committed that was made at `checkedAt`. -/
def twoRollUps (checkedAt : Time) : List Label :=
  [.commitCheck 1 .up 100000 (some 20), .rollUpRun 300000] ++ List.replicate 6 (.advance 0) ++
    [.commitCheck 1 .down checkedAt none, .rollUpRun 600000] ++ List.replicate 2 (.advance 0)

def fullRollUps (checkedAt : Time) : List Label := twoRollUps checkedAt ++ List.replicate 4 (.advance 0)

theorem roll_up_exact_two : ∃ s, run (step 300000) ⟨⟨oneApi, [], [], 0, 0⟩, []⟩ (fullRollUps 310000) = some s ∧
    s.store.runs.length = 2 ∧ RolledUp s.store := by
  obtain ⟨s, hr, hs⟩ := Option.map_eq_some_iff.1 (show (run (step 300000) ⟨⟨oneApi, [], [], 0, 0⟩, []⟩
    (fullRollUps 310000)).map (fun s => (s.store.runs.length, s.rollUps)) = some (2, []) by decide +kernel)
  obtain ⟨hlen, hidle⟩ := Prod.ext_iff.1 hs
  exact ⟨s, hr, hlen, roll_up_exact 300000 oneApi (by decide) _ (by decide +kernel) s hr hidle⟩

/-- A check made one millisecond before the first window's end is committed after it was linked: it is in no run. -/
theorem late_check_not_linked : ∃ s, run (step 300000) ⟨⟨oneApi, [], [], 0, 0⟩, []⟩ (twoRollUps 299999) = some s ∧
    s.rollUps = [] ∧ ¬ RolledUp s.store := by
  obtain ⟨s, hr, hs⟩ := Option.map_eq_some_iff.1 (show (run (step 300000) ⟨⟨oneApi, [], [], 0, 0⟩, []⟩
    (twoRollUps 299999)).map (fun s => (s.rollUps, s.store.checks.any fun c => c.hcRunId = none ∧
      (∃ r ∈ s.store.runs, r.windowStart ≤ c.checkedAt) ∧ ∃ r ∈ s.store.runs, c.checkedAt < r.windowEnd)) =
        some ([], true) by decide +kernel)
  obtain ⟨hidle, hany⟩ := Prod.ext_iff.1 hs
  refine ⟨s, hr, hidle, fun h => ?_⟩
  obtain ⟨c, hc, hcond⟩ := List.any_eq_true.1 hany
  obtain ⟨hnone, hfirst, hlast⟩ := of_decide_eq_true hcond
  obtain ⟨r, ⟨-, hid⟩, -⟩ := h.linked c hc hfirst hlast
  rw [hnone] at hid
  cases hid

end CronMonitor.HealthRuns
