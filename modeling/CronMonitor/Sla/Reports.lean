import CronMonitor.Sla.Service
import CronMonitor.Lib.Rows

/-!
# Complete and final reports

After a call every target ought to have its rolling report, and every month that has ended its report over the whole
month. A call reports on one page of targets, throws at the first that has no check to report on, and computes only the
month that it is made in, up to its own time: a month's last report stops at the last call made in it.
-/

namespace CronMonitor.Sla
open History Calendar Runs

variable {st st' : Store} {now : Time}

/-! ### The rows that a call writes -/

/-- What the unique indexes tell a row by. -/
def SlaReport.key (r : SlaReport) : PeriodKind × Uuid × Time × Time :=
  match r.periodKind with
  | .rolling30d => (.rolling30d, r.apiId, 0, 0)
  | .calendarMonth => (.calendarMonth, r.apiId, r.periodStart, r.periodEnd)

def Store.row (st : Store) (k : PeriodKind × Uuid × Time × Time) : Option SlaReport :=
  st.reports.find? fun r => r.key = k

def Store.rollingReport (st : Store) (apiId : Uuid) : Option SlaReport := st.row (.rolling30d, apiId, 0, 0)

def Store.monthReport (st : Store) (apiId : Uuid) (start stop : Time) : Option SlaReport :=
  st.row (.calendarMonth, apiId, start, stop)

theorem isRollingOf_iff {apiId : Uuid} {r : SlaReport} : isRollingOf apiId r = true ↔ r.key = (.rolling30d, apiId, 0, 0) := by
  unfold isRollingOf SlaReport.key
  cases r.periodKind <;> simp

theorem samePeriod_iff {a b : SlaResult} : samePeriod a b = true ↔
    a.apiId = b.apiId ∧ a.periodStart = b.periodStart ∧ a.periodEnd = b.periodEnd := by
  simp [samePeriod, and_assoc]

/-- A rolling report that is written is the target's rolling report, and no other row changes. -/
theorem upsertRolling_row {input : SlaResult} (h : st.upsertRollingReport input = some st')
    (k : PeriodKind × Uuid × Time × Time) :
    st'.row k = if k = (.rolling30d, input.apiId, 0, 0) then some (input.row .rolling30d) else st.row k := by
  have hkey : (input.row .rolling30d).key = (.rolling30d, input.apiId, 0, 0) := rfl
  unfold Store.upsertRollingReport at h
  simp only [isRollingOf_iff] at h
  split_ifs at h with hnull hclash hold
  · cases h
    rw [Store.row, List.find?_map_at SlaReport.key (.rolling30d, input.apiId, 0, 0) fun _ _ => hkey]
    split_ifs with hk
    · obtain ⟨r, hr, hrolling⟩ := List.any_eq_true.1 hold
      obtain ⟨r', hr'⟩ := Option.isSome_iff_exists.1 (List.find?_isSome (p := fun r : SlaReport =>
        r.key = (.rolling30d, input.apiId, 0, 0)).2 ⟨r, hr, decide_eq_true (isRollingOf_iff.1 hrolling)⟩)
      rw [hr', Option.map_some]
    · rfl
  · cases h
    have hnew : ∀ r ∈ st.reports, r.key ≠ (input.row .rolling30d).key := fun r hr heq =>
      hold (List.any_eq_true.2 ⟨r, hr, isRollingOf_iff.2 heq⟩)
    rw [Store.row, List.find?_append_new hnew, hkey]
    rfl

/-- No rolling report has the period. -/
def NotRolling (st : Store) (start stop : Time) : Prop :=
  ∀ r ∈ st.reports, r.periodKind = .rolling30d → ¬ (r.periodStart = start ∧ r.periodEnd = stop)

theorem samePeriod_key {input : SlaResult} {r : SlaReport} (hkind : r.periodKind = .rolling30d →
    ¬ (r.periodStart = input.periodStart ∧ r.periodEnd = input.periodEnd)) :
    samePeriod r.toSlaResult input = true ↔
      r.key = (.calendarMonth, input.apiId, input.periodStart, input.periodEnd) := by
  unfold samePeriod SlaReport.key
  cases h : r.periodKind with
  | rolling30d =>
    have hnot := hkind h
    simp only [Bool.and_eq_true, decide_eq_true_eq, Prod.mk.injEq, reduceCtorEq, false_and, iff_false]
    exact fun hsame => hnot ⟨hsame.1.2, hsame.2⟩
  | calendarMonth => simp [and_assoc]

/-- A month's report that is written has the new figures, and no other row changes. -/
theorem upsertCalendarMonth_row {input : SlaResult} (h : st.upsertCalendarMonthReport input = some st')
    (hrolling : NotRolling st input.periodStart input.periodEnd) (k : PeriodKind × Uuid × Time × Time) :
    if k = (.calendarMonth, input.apiId, input.periodStart, input.periodEnd) then
      ∃ r, st'.row k = some r ∧ r.figures = input.figures.stored
    else st'.row k = st.row k := by
  have hkey : (input.row .calendarMonth).key = (.calendarMonth, input.apiId, input.periodStart, input.periodEnd) := rfl
  unfold Store.upsertCalendarMonthReport at h
  split_ifs at h with hnull hold
  · cases h
    have hmap : (st.reports.map fun r => if samePeriod r.toSlaResult input then { r with figures := input.figures.stored } else r) =
        st.reports.map fun r => if r.key = (.calendarMonth, input.apiId, input.periodStart, input.periodEnd) then
          { r with figures := input.figures.stored } else r := by
      refine List.map_congr_left fun r hr => ?_
      simp only [samePeriod_key (hrolling r hr)]
    obtain ⟨r, hr, hsame⟩ := List.any_eq_true.1 hold
    obtain ⟨r', hr'⟩ := Option.isSome_iff_exists.1 (List.find?_isSome (p := fun r : SlaReport =>
      r.key = (.calendarMonth, input.apiId, input.periodStart, input.periodEnd)).2
        ⟨r, hr, decide_eq_true ((samePeriod_key (hrolling r hr)).1 hsame)⟩)
    have hfind := List.find?_map_at SlaReport.key (g := fun r => { r with figures := input.figures.stored })
      (.calendarMonth, input.apiId, input.periodStart, input.periodEnd) (fun _ hr => hr) st.reports k
    simp only [Store.row, hmap, hfind]
    split_ifs with hk
    · exact ⟨_, by rw [hr', Option.map_some], rfl⟩
    · rfl
  · cases h
    have hnew : ∀ r ∈ st.reports, r.key ≠ (input.row .calendarMonth).key := fun r hr heq =>
      hold (List.any_eq_true.2 ⟨r, hr, (samePeriod_key (hrolling r hr)).2 heq⟩)
    have hfind := List.find?_append_new hnew k
    simp only [Store.row, hfind, hkey]
    split_ifs with hk
    · exact ⟨_, rfl, rfl⟩
    · rfl

/-! ### One call -/

def rollingStart (now : Time) : Time := now - 30 * 24 * 60 * 60 * 1000

/-- The reports of a target are those of a call at `now`. -/
structure Store.Reported (st : Store) (now : Time) (t : MonitoredApi) : Prop where
  rolling : st.rollingReport t.id =
    some ((computeSla st.toSource t.id (rollingStart now) now t.slaTargetPercent).row .rolling30d)
  month : ∃ r, st.monthReport t.id (monthStart now) (monthEnd now) = some r ∧
    r.figures = (figuresOf (st.slaRows t.id (monthStart now) now) (monthStart now) now t.slaTargetPercent).stored

/-- The rows leave room for a rolling report up to `now`. -/
structure Store.Fits (st : Store) (now : Time) : Prop where
  rolling : ∀ r ∈ st.reports, r.periodKind = .rolling30d → r.periodEnd ≤ now
  months : ∀ r ∈ st.reports, r.periodKind = .calendarMonth → ¬ (r.periodStart = rollingStart now ∧ r.periodEnd = now)

/-- A check of the target that counts for its uptime in the period. -/
def Source.HasUptime (src : Source) (apiId : Uuid) (start stop : Time) : Prop :=
  ∃ r ∈ src.slaRows apiId start stop, r.2 = false

instance (src : Source) (apiId : Uuid) (start stop : Time) : Decidable (src.HasUptime apiId start stop) :=
  inferInstanceAs (Decidable (∃ r ∈ _, _))

theorem uptime_isNone {src : Source} {apiId : Uuid} {start stop : Time} (h : src.HasUptime apiId start stop) (pct : ℚ) :
    (computeSla src apiId start stop pct).figures.uptimePercent.isNone = false := by
  obtain ⟨r, hr, hcounts⟩ := h
  have hpos : 0 < (src.slaRows apiId start stop).countP fun r => !r.2 :=
    List.countP_pos_iff.2 ⟨r, hr, by rw [hcounts]; rfl⟩
  simp [computeSla, figuresOf, hpos]

theorem upsertRolling_mem {input : SlaResult} (h : st.upsertRollingReport input = some st') :
    st'.toSource = st.toSource ∧ ∀ r ∈ st'.reports, r = input.row .rolling30d ∨ r ∈ st.reports := by
  unfold Store.upsertRollingReport at h
  simp only at h
  split_ifs at h
  · cases h
    refine ⟨rfl, List.forall_mem_map.2 fun r hr => ?_⟩
    split_ifs
    · exact .inl rfl
    · exact .inr hr
  · cases h
    exact ⟨rfl, List.forall_mem_append.2 ⟨fun r hr => .inr hr, List.forall_mem_singleton.2 (.inl rfl)⟩⟩

theorem upsertCalendarMonth_mem {input : SlaResult} (h : st.upsertCalendarMonthReport input = some st') :
    st'.toSource = st.toSource ∧ ∀ r ∈ st'.reports, r = input.row .calendarMonth ∨
      ∃ r' ∈ st.reports, r.periodKind = r'.periodKind ∧ r.periodStart = r'.periodStart ∧ r.periodEnd = r'.periodEnd := by
  unfold Store.upsertCalendarMonthReport at h
  split_ifs at h
  · cases h
    refine ⟨rfl, List.forall_mem_map.2 fun r hr => .inr ⟨r, hr, ?_⟩⟩
    split_ifs <;> exact ⟨rfl, rfl, rfl⟩
  · cases h
    exact ⟨rfl, List.forall_mem_append.2
      ⟨fun r hr => .inr ⟨r, hr, rfl, rfl, rfl⟩, List.forall_mem_singleton.2 (.inl rfl)⟩⟩

theorem upsertRolling_isSome {input : SlaResult} (hup : input.figures.uptimePercent.isNone = false)
    (hclash : ∀ r ∈ st.reports, r.periodKind = .calendarMonth →
      ¬ (r.periodStart = input.periodStart ∧ r.periodEnd = input.periodEnd)) :
    ∃ st', st.upsertRollingReport input = some st' := by
  have hnone : (st.reports.any fun r => !isRollingOf input.apiId r && samePeriod r.toSlaResult input) = false := by
    rw [List.any_eq_false]
    intro r hr hboth
    rw [Bool.and_eq_true, Bool.not_eq_true', samePeriod_iff] at hboth
    obtain ⟨hnot, hapi, hperiod⟩ := hboth
    cases hkind : r.periodKind with
    | rolling30d => simp [isRollingOf, hkind, hapi] at hnot
    | calendarMonth => exact hclash r hr hkind hperiod
  unfold Store.upsertRollingReport
  simp only [hup, hnone, Bool.false_eq_true, if_false]
  split_ifs
  · exact ⟨_, rfl⟩
  · exact ⟨_, rfl⟩

theorem upsertCalendarMonth_isSome {input : SlaResult} (hup : input.figures.uptimePercent.isNone = false) :
    ∃ st', st.upsertCalendarMonthReport input = some st' := by
  unfold Store.upsertCalendarMonthReport
  simp only [hup, Bool.false_eq_true, if_false]
  split_ifs
  · exact ⟨_, rfl⟩
  · exact ⟨_, rfl⟩

/-- The keys of the two rows that a call writes for a target. -/
def writtenKeys (now : Time) (apiId : Uuid) : List (PeriodKind × Uuid × Time × Time) :=
  [(.rolling30d, apiId, 0, 0), (.calendarMonth, apiId, monthStart now, monthEnd now)]

/-- A target that has checks to report on gets both of its reports, and no other row changes. -/
theorem reportTarget_spec {t : MonitoredApi} (hfits : st.Fits now) (hrolling : st.HasUptime t.id (rollingStart now) now)
    (hmonth : st.HasUptime t.id (monthStart now) now) : ∃ st', st.reportTarget now t = (st', true) ∧
      st'.toSource = st.toSource ∧ st'.Fits now ∧ st'.Reported now t ∧
        ∀ k, k ∉ writtenKeys now t.id → st'.row k = st.row k := by
  have hlt := lt_monthEnd now
  obtain ⟨st₁, h₁⟩ := @upsertRolling_isSome st _ (uptime_isNone hrolling t.slaTargetPercent) hfits.months
  obtain ⟨hsrc₁, hmem₁⟩ := upsertRolling_mem h₁
  have hrow₁ (k : PeriodKind × Uuid × Time × Time) : st₁.row k = if k = (.rolling30d, t.id, 0, 0) then
      some ((computeSla st.toSource t.id (rollingStart now) now t.slaTargetPercent).row .rolling30d) else st.row k :=
    upsertRolling_row h₁ k
  obtain ⟨st₂, h₂⟩ := @upsertCalendarMonth_isSome st₁
    { computeSla st₁.toSource t.id (monthStart now) now t.slaTargetPercent with
      periodStart := monthStart now, periodEnd := monthEnd now }
    (by rw [hsrc₁]; exact uptime_isNone hmonth t.slaTargetPercent)
  obtain ⟨hsrc₂, hmem₂⟩ := upsertCalendarMonth_mem h₂
  have hends₁ : ∀ r ∈ st₁.reports, r.periodKind = .rolling30d → r.periodEnd ≤ now := by
    intro r hr hkind
    rcases hmem₁ r hr with rfl | hr
    · exact le_rfl
    · exact hfits.rolling r hr hkind
  have hrow₂ (k : PeriodKind × Uuid × Time × Time) :
      if k = (.calendarMonth, t.id, monthStart now, monthEnd now) then
        ∃ r, st₂.row k = some r ∧ r.figures =
          (figuresOf (st₁.slaRows t.id (monthStart now) now) (monthStart now) now t.slaTargetPercent).stored
      else st₂.row k = st₁.row k :=
    upsertCalendarMonth_row h₂ (fun r hr hkind hsame => by
      have hle := hends₁ r hr hkind
      rw [hsame.2] at hle
      exact absurd hlt (not_lt.2 hle)) k
  have hsrc : st₂.toSource = st.toSource := hsrc₂.trans hsrc₁
  refine ⟨st₂, ?_, hsrc, ⟨?_, ?_⟩, ⟨?_, ?_⟩, ?_⟩
  · simp only [Store.reportTarget, if_pos hlt]
    rw [show st.upsertRollingReport (computeSla st.toSource t.id (now - 30 * 24 * 60 * 60 * 1000) now t.slaTargetPercent) =
      some st₁ from h₁]
    simp only
    rw [h₂]
  · intro r hr hkind
    rcases hmem₂ r hr with rfl | ⟨r', hr', hkind', -, hend⟩
    · cases hkind
    · rw [hend]
      exact hends₁ r' hr' (hkind' ▸ hkind)
  · intro r hr hkind hsame
    rcases hmem₂ r hr with rfl | ⟨r', hr', hkind', hstart, hend⟩
    · exact absurd hsame.2.symm (ne_of_lt hlt)
    · rw [hkind'] at hkind
      rw [hstart, hend] at hsame
      rcases hmem₁ r' hr' with rfl | hr'
      · cases hkind
      · exact hfits.months r' hr' hkind hsame
  · have hkeep := hrow₂ (.rolling30d, t.id, 0, 0)
    rw [if_neg (by simp)] at hkeep
    rw [Store.rollingReport, hkeep, hrow₁, if_pos rfl, hsrc]
  · have hwritten := hrow₂ (.calendarMonth, t.id, monthStart now, monthEnd now)
    rw [if_pos rfl] at hwritten
    obtain ⟨r, hr, hfigures⟩ := hwritten
    exact ⟨r, hr, by rw [hfigures, hsrc, hsrc₁]⟩
  · intro k hk
    rw [writtenKeys, List.mem_cons, List.mem_singleton, not_or] at hk
    have hkeep := hrow₂ k
    rw [if_neg hk.2] at hkeep
    rw [hkeep, hrow₁, if_neg hk.1]

theorem reported_of_rows {t : MonitoredApi} (hsrc : st'.toSource = st.toSource)
    (hrows : ∀ k ∈ writtenKeys now t.id, st'.row k = st.row k) (h : st.Reported now t) : st'.Reported now t where
  rolling := by
    rw [Store.rollingReport, hrows _ (by simp [writtenKeys]), hsrc]
    exact h.rolling
  month := by
    rw [Store.monthReport, hrows _ (by simp [writtenKeys]), hsrc]
    exact h.month

/-- The loop over the targets, all of which have checks to report on. -/
theorem reportTargets_spec {ts : List MonitoredApi} (hids : (ts.map (·.id)).Nodup) (hfits : st.Fits now)
    (hup : ∀ t ∈ ts, st.HasUptime t.id (rollingStart now) now ∧ st.HasUptime t.id (monthStart now) now) :
    (Store.reportTargets now ts st).toSource = st.toSource ∧ (Store.reportTargets now ts st).Fits now ∧
      (∀ t ∈ ts, (Store.reportTargets now ts st).Reported now t) ∧
      ∀ k, (∀ t ∈ ts, k ∉ writtenKeys now t.id) → (Store.reportTargets now ts st).row k = st.row k := by
  induction ts generalizing st with
  | nil => exact ⟨rfl, hfits, nofun, fun _ _ => rfl⟩
  | cons t ts ih =>
    rw [List.map_cons, List.nodup_cons] at hids
    obtain ⟨hrolling, hmonth⟩ := hup t (List.mem_cons_self ..)
    obtain ⟨st₁, hstep, hsrc₁, hfits₁, hreported, hrows₁⟩ := reportTarget_spec hfits hrolling hmonth
    obtain ⟨hsrc, hfits', hall, hrows⟩ := ih hids.2 hfits₁ fun t' ht' => by
      rw [hsrc₁]
      exact hup t' (List.mem_cons_of_mem _ ht')
    have hnext : Store.reportTargets now (t :: ts) st = Store.reportTargets now ts st₁ := by
      rw [Store.reportTargets, hstep]
    rw [hnext]
    refine ⟨hsrc.trans hsrc₁, hfits', fun t' ht' => ?_, fun k hk => ?_⟩
    · rcases List.mem_cons.1 ht' with rfl | ht'
      · -- the rows of the first target are not those of a later one
        refine reported_of_rows hsrc (fun k hk => hrows k fun u hu hk' => ?_) hreported
        have hid : u.id = t'.id := by
          simp only [writtenKeys, List.mem_cons, List.not_mem_nil, or_false] at hk hk'
          rcases hk with rfl | rfl <;> rcases hk' with hk' | hk' <;> exact (congrArg (fun k => k.2.1) hk').symm
        exact hids.1 (List.mem_map.2 ⟨u, hu, hid⟩)
      · exact hall t' ht'
    · rw [hrows k fun u hu => hk u (List.mem_cons_of_mem _ hu), hrows₁ k (hk t (List.mem_cons_self ..))]

/-! ### Runs -/

/-- The tables, the time, and what the last call read. -/
structure Sys where
  store : Store
  now : Time
  last : Option (Time × Source)

inductive Label
  | elapse (ms : Nat)
  | addApi (id : Uuid) (slaTargetPercent : ℚ)
  | editSla (id : Uuid) (slaTargetPercent : ℚ)
  | commitCheck (c : HealthCheckResult)
  | addWindow (w : MaintenanceWindow)
  | runSlaReports

def setPercent (id : Uuid) (pct : ℚ) (a : MonitoredApi) : MonitoredApi :=
  if a.id = id then { a with slaTargetPercent := pct } else a

/-- A target is created at the time it is added. -/
def step (s : Sys) : Label → Option Sys
  | .elapse ms => some { s with now := s.now + ms }
  | .addApi id pct =>
    if id ∈ s.store.apis.map (·.id) then none
    else some { s with store := { s.store with apis := s.store.apis ++ [⟨id, s.now, pct⟩] } }
  | .editSla id pct => some { s with store := { s.store with apis := s.store.apis.map (setPercent id pct) } }
  | .commitCheck c => some { s with store := { s.store with checks := s.store.checks ++ [c] } }
  | .addWindow w => some { s with store := { s.store with windows := s.store.windows ++ [w] } }
  | .runSlaReports => some
    { s with
      store := s.store.runSlaReports s.now
      last := some (s.now, s.store.toSource) }

/-- Every target has its rolling report up to now, and every month that has ended its report over the whole month, for
every target that existed throughout it. -/
structure Complete (s : Sys) : Prop where
  rolling : ∀ t ∈ s.store.apis, s.store.rollingReport t.id =
    some ((computeSla s.store.toSource t.id (rollingStart s.now) s.now t.slaTargetPercent).row .rolling30d)
  months : ∀ τ, monthEnd τ ≤ s.now → ∀ t ∈ s.store.apis, t.createdAt ≤ monthStart τ →
    ∃ r, s.store.monthReport t.id (monthStart τ) (monthEnd τ) = some r ∧
      r.figures = (computeSla s.store.toSource t.id (monthStart τ) (monthEnd τ) r.figures.slaTargetPercent).figures.stored

/-- A call goes through all targets: one page holds them, each has been checked outside maintenance in both periods, and
no month's report has the period of the rolling one. -/
structure Reportable (st : Store) (now : Time) : Prop where
  page : st.apis.length ≤ 100
  uptime : ∀ t ∈ st.apis, st.HasUptime t.id (rollingStart now) now ∧ st.HasUptime t.id (monthStart now) now
  months : ∀ r ∈ st.reports, r.periodKind = .calendarMonth → ¬ (r.periodStart = rollingStart now ∧ r.periodEnd = now)

/-- Before the first call, no target existed throughout a month that is over. -/
def Fresh (s : Sys) : Prop := s.last = none → ∀ t ∈ s.store.apis, monthStart (monthStart s.now - 1) < t.createdAt

/-- When the month of the last call is over: its checks are those that the call read, and their share of the shorter
period is as many seconds of the month. -/
def Closed (s : Sys) : Prop :=
  ∀ p ∈ s.last, monthEnd p.1 ≤ s.now → ∀ t ∈ s.store.apis, t.createdAt ≤ monthStart p.1 →
    let rows := p.2.slaRows t.id (monthStart p.1) p.1
    s.store.slaRows t.id (monthStart p.1) (monthEnd p.1) = rows ∧
      shareSeconds (rows.countP isDown) rows.length (monthStart p.1) p.1 =
        shareSeconds (rows.countP isDown) rows.length (monthStart p.1) (monthEnd p.1) ∧
      shareSeconds (rows.countP isExcluded) rows.length (monthStart p.1) p.1 =
        shareSeconds (rows.countP isExcluded) rows.length (monthStart p.1) (monthEnd p.1)

/-- The check belongs to a month that is over and has been reported on, of a target that existed throughout it. -/
def Final (s : Sys) (c : HealthCheckResult) : Prop :=
  ∃ p ∈ s.last, monthEnd c.checkedAt ≤ monthStart p.1 ∧ ∃ t ∈ s.store.apis, t.id = c.apiId ∧ t.createdAt ≤ monthStart c.checkedAt

/-- Calls are at most an hour apart, go through all targets, begin before there is a month to report on whole and find
the last month closed; and no check is added to a month that is final, nor moved into maintenance in it. -/
def Kept (s : Sys) : Label → Prop
  | .elapse ms => ∀ p ∈ s.last, s.now + ms ≤ p.1 + 3600000
  | .commitCheck c => ¬ Final s c
  | .addWindow w => ∀ c ∈ s.store.checks, Final s c → w.covers c → s.store.windows.any (·.covers c)
  | .runSlaReports => Reportable s.store s.now ∧ Fresh s ∧ Closed s
  | .addApi _ _ | .editSla _ _ => True

/-- What holds between two calls, the last one at `n` having read `src`. -/
structure Sys.Since (s : Sys) (n : Time) (src : Source) : Prop where
  order : n ≤ s.now ∧ s.now ≤ n + 3600000
  known : ∀ t ∈ s.store.apis, t.createdAt < n → t.id ∈ src.apis.map (·.id)
  current : ∀ id ∈ src.apis.map (·.id), ∃ r, s.store.monthReport id (monthStart n) (monthEnd n) = some r ∧
    r.figures = (figuresOf (src.slaRows id (monthStart n) n) (monthStart n) n r.figures.slaTargetPercent).stored
  ended : ∀ τ, monthEnd τ ≤ monthStart n → ∀ t ∈ s.store.apis, t.createdAt ≤ monthStart τ →
    ∃ r, s.store.monthReport t.id (monthStart τ) (monthEnd τ) = some r ∧
      r.figures = (figuresOf (s.store.slaRows t.id (monthStart τ) (monthEnd τ)) (monthStart τ) (monthEnd τ)
        r.figures.slaTargetPercent).stored

structure Sys.Ok (s : Sys) : Prop where
  ids : (s.store.apis.map (·.id)).Nodup
  created : ∀ t ∈ s.store.apis, t.createdAt ≤ s.now
  rolling : ∀ r ∈ s.store.reports, r.periodKind = .rolling30d → r.periodEnd ≤ s.now
  calls : s.last = none ∨ ∃ n src, s.last = some (n, src) ∧ s.Since n src

/-! ### What a step leaves alone -/

theorem slaRows_commit {src : Source} {c : HealthCheckResult} {apiId : Uuid} {start stop : Time}
    (h : ¬ (c.apiId = apiId ∧ start ≤ c.checkedAt ∧ c.checkedAt < stop)) :
    { src with checks := src.checks ++ [c] }.slaRows apiId start stop = src.slaRows apiId start stop := by
  have hout : (decide (c.apiId = apiId) && decide (start ≤ c.checkedAt) && decide (c.checkedAt < stop)) = false := by
    rw [Bool.eq_false_iff]
    simpa [and_assoc] using h
  simp only [Source.slaRows, List.filter_append, List.filter_singleton, hout]
  simp

theorem slaRows_addWindow {src : Source} {w : MaintenanceWindow} {apiId : Uuid} {start stop : Time}
    (h : ∀ c ∈ src.checks, c.apiId = apiId → start ≤ c.checkedAt → c.checkedAt < stop → w.covers c →
      src.windows.any (·.covers c)) :
    { src with windows := src.windows ++ [w] }.slaRows apiId start stop = src.slaRows apiId start stop := by
  unfold Source.slaRows
  refine List.map_congr_left fun c hc => ?_
  obtain ⟨hmem, hin⟩ := List.mem_filter.1 hc
  simp only [Bool.and_eq_true, decide_eq_true_eq] at hin
  have hcov := h c hmem hin.1.1 hin.1.2 hin.2
  rw [List.any_append, List.any_cons, List.any_nil, Bool.or_false]
  cases hw : w.covers c with
  | false => rw [Bool.or_false]
  | true => rw [hcov hw, Bool.true_or]

theorem figuresOf_congr {rows : List (HealthStatus × Bool)} {start stop stop' : Time}
    (hdown : shareSeconds (rows.countP isDown) rows.length start stop =
      shareSeconds (rows.countP isDown) rows.length start stop')
    (hexcluded : shareSeconds (rows.countP isExcluded) rows.length start stop =
      shareSeconds (rows.countP isExcluded) rows.length start stop') (pct : ℚ) :
    figuresOf rows start stop pct = figuresOf rows start stop' pct := by
  simp only [figuresOf, hdown, hexcluded]

/-- A check of a month that is over is final. -/
theorem final_of_ended {s : Sys} {n τ : Time} {src : Source} {t : MonitoredApi} {c : HealthCheckResult}
    (hlast : s.last = some (n, src)) (hτ : monthEnd τ ≤ monthStart n) (ht : t ∈ s.store.apis)
    (hcreated : t.createdAt ≤ monthStart τ) (hapi : c.apiId = t.id) (hle : monthStart τ ≤ c.checkedAt)
    (hlt : c.checkedAt < monthEnd τ) : Final s c := by
  obtain ⟨hstart, hend⟩ := same_month hle hlt
  exact ⟨(n, src), hlast, by rwa [hend], t, ht, hapi.symm, by rwa [hstart]⟩

/-- The month of the last call, an hour later at most. -/
theorem month_of_last {n τ now : Int} (hτ : monthEnd τ ≤ now) (hnow : now ≤ n + 3600000)
    (hn : monthStart n < monthEnd τ) : monthStart n = monthStart τ ∧ monthEnd n = monthEnd τ ∧ monthStart n < n := by
  have hlen := month_length τ
  have hle : monthStart τ ≤ n := by omega
  have hlt : n < monthEnd τ := by
    by_contra hge
    have := monthEnd_le_monthStart (not_lt.1 hge)
    omega
  obtain ⟨hstart, hend⟩ := same_month hle hlt
  exact ⟨hstart, hend, by omega⟩

/-! ### The call -/

theorem mem_listTargets {src : Source} (hpage : src.apis.length ≤ 100) :
    (src.listTargets none none).Perm src.apis := by
  have hlen : (byNewest MonitoredApi.createdAt src.apis).length ≤ 100 := by
    rwa [(perm_byNewest src.apis).length_eq]
  rw [Source.listTargets, Option.getD_none, Option.getD_none, List.drop_zero, List.take_of_length_le (by omega)]
  exact perm_byNewest src.apis

theorem runSlaReports_spec (hids : (st.apis.map (·.id)).Nodup)
    (hrolling : ∀ r ∈ st.reports, r.periodKind = .rolling30d → r.periodEnd ≤ now) (h : Reportable st now) :
    (st.runSlaReports now).toSource = st.toSource ∧ (st.runSlaReports now).Fits now ∧
      (∀ t ∈ st.apis, (st.runSlaReports now).Reported now t) ∧
      ∀ apiId start stop, stop ≠ monthEnd now →
        (st.runSlaReports now).monthReport apiId start stop = st.monthReport apiId start stop := by
  have hperm := mem_listTargets h.page
  obtain ⟨hsrc, hfits, hall, hrows⟩ := @reportTargets_spec st now (st.listTargets none none)
    ((hperm.map _).nodup_iff.2 hids) ⟨hrolling, h.months⟩ fun t ht => h.uptime t (hperm.mem_iff.1 ht)
  refine ⟨hsrc, hfits, fun t ht => hall t (hperm.mem_iff.2 ht), fun apiId start stop hne => hrows _ fun t _ hk => ?_⟩
  simp only [writtenKeys, List.mem_cons, List.not_mem_nil, or_false, Prod.mk.injEq, reduceCtorEq, false_and, false_or,
    true_and] at hk
  exact hne hk.2.2

/-- After a call that goes through all targets and finds the last month closed. -/
theorem Sys.Ok.since_call {s : Sys} (h : s.Ok) (hreportable : Reportable s.store s.now) (hfresh : Fresh s)
    (hclosed : Closed s) :
    (⟨s.store.runSlaReports s.now, s.now, some (s.now, s.store.toSource)⟩ : Sys).Since s.now s.store.toSource := by
  obtain ⟨hsrc, -, hreported, hrows⟩ := runSlaReports_spec h.ids h.rolling hreportable
  have hapis : (s.store.runSlaReports s.now).apis = s.store.apis := congrArg Source.apis hsrc
  have hslaRows := congrArg Source.slaRows hsrc
  refine ⟨⟨le_rfl, le_add_of_nonneg_right (by decide)⟩, ?_, ?_, ?_⟩
  · intro t ht _
    rw [← hapis]
    exact List.mem_map_of_mem ht
  · intro id hid
    obtain ⟨t, ht, rfl⟩ := List.mem_map.1 hid
    obtain ⟨r, hr, hfigures⟩ := (hreported t ht).month
    have hpct : r.figures.slaTargetPercent = t.slaTargetPercent := by
      rw [hfigures]
      rfl
    exact ⟨r, hr, by rw [hpct, hfigures, hslaRows]⟩
  · intro τ hτ t ht hcreated
    have ht : t ∈ s.store.apis := hapis ▸ ht
    have hle := monthStart_le s.now
    have hne : monthEnd τ ≠ monthEnd s.now := ne_of_lt (lt_of_le_of_lt (hτ.trans hle) (lt_monthEnd s.now))
    simp only [hrows t.id _ _ hne, hslaRows]
    rcases h.calls with hlast | ⟨n, src, hlast, hs⟩
    · -- no target is that old at the first call
      have hmonth : monthStart τ ≤ monthStart (monthStart s.now - 1) := monthStart_mono (by
        have := lt_monthEnd τ
        omega)
      exact absurd (hcreated.trans hmonth) (not_le.2 (hfresh hlast t ht))
    · by_cases hbefore : monthEnd τ ≤ monthStart n
      · exact hs.ended τ hbefore t ht hcreated
      · obtain ⟨hstart, hend, hlt⟩ := month_of_last (hτ.trans hle) hs.order.2 (not_le.1 hbefore)
        obtain ⟨hrowsEq, hdown, hexcluded⟩ := hclosed (n, src) hlast (hend ▸ hτ.trans hle) t ht (hstart ▸ hcreated)
        obtain ⟨r, hr, hfigures⟩ := hs.current t.id (hs.known t ht (lt_of_le_of_lt (hstart ▸ hcreated) hlt))
        rw [hstart, hend] at hr
        refine ⟨r, hr, ?_⟩
        rw [← hstart, ← hend, hrowsEq, ← figuresOf_congr hdown hexcluded]
        exact hfigures

theorem Sys.Ok.runSlaReports {s s' : Sys} (h : s.Ok) (hstep : step s .runSlaReports = some s')
    (hkept : Kept s .runSlaReports) : s'.Ok ∧ Complete s' := by
  cases hstep
  obtain ⟨hreportable, hfresh, hclosed⟩ := hkept
  obtain ⟨hsrc, hfits, hreported, -⟩ := runSlaReports_spec h.ids h.rolling hreportable
  have hsince := h.since_call hreportable hfresh hclosed
  have hapis : (s.store.runSlaReports s.now).apis = s.store.apis := congrArg Source.apis hsrc
  refine ⟨⟨?_, ?_, hfits.rolling, .inr ⟨_, _, rfl, hsince⟩⟩, ⟨fun t ht => ?_, fun τ hτ t ht hcreated => ?_⟩⟩
  · show ((s.store.runSlaReports s.now).apis.map (·.id)).Nodup
    rw [hapis]
    exact h.ids
  · show ∀ t ∈ (s.store.runSlaReports s.now).apis, t.createdAt ≤ s.now
    rw [hapis]
    exact h.created
  · exact (hreported t (hapis ▸ ht)).rolling
  · exact hsince.ended τ (monthEnd_le_monthStart hτ) t ht hcreated

/-! ### The other steps -/

/-- Where reports, calls and the rows of final months stay as they are, so does all that holds since the last call. -/
theorem Sys.Since.frame {s s' : Sys} {n : Time} {src : Source} (h : s.Since n src) (hreports : s'.store.reports = s.store.reports)
    (hnow : s.now ≤ s'.now ∧ s'.now ≤ n + 3600000)
    (hapis : ∀ t' ∈ s'.store.apis, (∃ t ∈ s.store.apis, t.id = t'.id ∧ t.createdAt = t'.createdAt) ∨ n ≤ t'.createdAt)
    (hrows : ∀ τ, monthEnd τ ≤ monthStart n → ∀ t ∈ s.store.apis, t.createdAt ≤ monthStart τ →
      s'.store.slaRows t.id (monthStart τ) (monthEnd τ) = s.store.slaRows t.id (monthStart τ) (monthEnd τ)) :
    s'.Since n src := by
  have hreport (id : Uuid) (start stop : Time) :
      s'.store.monthReport id start stop = s.store.monthReport id start stop := by
    rw [Store.monthReport, Store.row, hreports, Store.monthReport, Store.row]
  refine ⟨⟨h.order.1.trans hnow.1, hnow.2⟩, ?_, ?_, ?_⟩
  · intro t' ht' hlt
    rcases hapis t' ht' with ⟨t, ht, hid, hcreated⟩ | hge
    · rw [← hid]
      exact h.known t ht (hcreated ▸ hlt)
    · exact absurd hlt (not_lt.2 hge)
  · simp only [hreport]
    exact h.current
  · intro τ hτ t' ht' hle
    rcases hapis t' ht' with ⟨t, ht, hid, hcreated⟩ | hge
    · rw [hreport, ← hid, hrows τ hτ t ht (hcreated ▸ hle)]
      exact h.ended τ hτ t ht (hcreated ▸ hle)
    · -- created after the month was over
      have hlate : monthStart τ < n := lt_of_lt_of_le (lt_of_le_of_lt (monthStart_le τ) (lt_monthEnd τ))
        (hτ.trans (monthStart_le n))
      exact absurd (hge.trans hle) (not_le.2 hlate)

theorem setPercent_id (id : Uuid) (pct : ℚ) (a : MonitoredApi) :
    (setPercent id pct a).id = a.id ∧ (setPercent id pct a).createdAt = a.createdAt := by
  unfold setPercent
  split_ifs <;> exact ⟨rfl, rfl⟩

theorem Sys.Ok.step {s s' : Sys} {l : Label} (h : s.Ok) (hstep : step s l = some s') (hkept : Kept s l) : s'.Ok := by
  have hself : ∀ t ∈ s.store.apis, ∃ u ∈ s.store.apis, u.id = t.id ∧ u.createdAt = t.createdAt :=
    fun t ht => ⟨t, ht, rfl, rfl⟩
  cases l with
  | elapse ms =>
    cases hstep
    have hle : s.now ≤ s.now + ms := le_add_of_nonneg_right (Int.natCast_nonneg ms)
    refine ⟨h.ids, fun t ht => (h.created t ht).trans hle, fun r hr hkind => (h.rolling r hr hkind).trans hle, ?_⟩
    refine h.calls.imp id fun ⟨n, src, hlast, hs⟩ => ⟨n, src, hlast, ?_⟩
    exact hs.frame rfl ⟨hle, hkept (n, src) hlast⟩ (fun t ht => .inl (hself t ht)) fun _ _ _ _ _ => rfl
  | addApi apiId pct =>
    obtain ⟨hnew, hs'⟩ := Option.ite_none_left_eq_some.1 hstep
    cases hs'
    refine ⟨?_, List.forall_mem_append.2 ⟨h.created, List.forall_mem_singleton.2 le_rfl⟩, h.rolling, ?_⟩
    · rw [List.map_append]
      refine List.nodup_append.2 ⟨h.ids, List.nodup_singleton _, ?_⟩
      rintro a ha b hb rfl
      rw [List.map_singleton, List.mem_singleton] at hb
      exact hnew (show apiId ∈ _ from (show a = apiId from hb) ▸ ha)
    · refine h.calls.imp id fun ⟨n, src, hlast, hs⟩ => ⟨n, src, hlast, ?_⟩
      refine hs.frame rfl ⟨le_rfl, hs.order.2⟩ (List.forall_mem_append.2 ⟨fun t ht => .inl (hself t ht), ?_⟩)
        fun _ _ _ _ _ => rfl
      exact List.forall_mem_singleton.2 (.inr hs.order.1)
  | editSla apiId pct =>
    cases hstep
    have hids : (s.store.apis.map (setPercent apiId pct)).map (·.id) = s.store.apis.map (·.id) := by
      rw [List.map_map]
      exact List.map_congr_left fun t _ => (setPercent_id apiId pct t).1
    refine ⟨?_, List.forall_mem_map.2 fun t ht => ?_, h.rolling, ?_⟩
    · show ((s.store.apis.map (setPercent apiId pct)).map (·.id)).Nodup
      rw [hids]
      exact h.ids
    · rw [(setPercent_id apiId pct t).2]
      exact h.created t ht
    · refine h.calls.imp id fun ⟨n, src, hlast, hs⟩ => ⟨n, src, hlast, ?_⟩
      refine hs.frame rfl ⟨le_rfl, hs.order.2⟩ (List.forall_mem_map.2 fun t ht => .inl ⟨t, ht, ?_⟩)
        fun _ _ _ _ _ => rfl
      exact ⟨(setPercent_id apiId pct t).1.symm, (setPercent_id apiId pct t).2.symm⟩
  | commitCheck c =>
    cases hstep
    refine ⟨h.ids, h.created, h.rolling, ?_⟩
    refine h.calls.imp id fun ⟨n, src, hlast, hs⟩ => ⟨n, src, hlast, ?_⟩
    refine hs.frame rfl ⟨le_rfl, hs.order.2⟩ (fun t ht => .inl (hself t ht)) fun τ hτ t ht hcreated => ?_
    exact slaRows_commit fun ⟨hapi, hle, hlt⟩ => hkept (final_of_ended hlast hτ ht hcreated hapi hle hlt)
  | addWindow w =>
    cases hstep
    refine ⟨h.ids, h.created, h.rolling, ?_⟩
    refine h.calls.imp id fun ⟨n, src, hlast, hs⟩ => ⟨n, src, hlast, ?_⟩
    refine hs.frame rfl ⟨le_rfl, hs.order.2⟩ (fun t ht => .inl (hself t ht)) fun τ hτ t ht hcreated => ?_
    exact slaRows_addWindow fun c hc hapi hle hlt hw =>
      hkept c hc (final_of_ended hlast hτ ht hcreated hapi hle hlt) hw
  | runSlaReports => exact (h.runSlaReports hstep hkept).1

instance (st : Store) (now : Time) : Decidable (Reportable st now) :=
  decidable_of_iff (st.apis.length ≤ 100 ∧
      (∀ t ∈ st.apis, st.HasUptime t.id (rollingStart now) now ∧ st.HasUptime t.id (monthStart now) now) ∧
      ∀ r ∈ st.reports, r.periodKind = .calendarMonth → ¬ (r.periodStart = rollingStart now ∧ r.periodEnd = now))
    ⟨fun ⟨hpage, huptime, hmonths⟩ => ⟨hpage, huptime, hmonths⟩, fun h => ⟨h.page, h.uptime, h.months⟩⟩

instance (s : Sys) : Decidable (Fresh s) :=
  decidable_of_iff (s.last.isNone → ∀ t ∈ s.store.apis, monthStart (monthStart s.now - 1) < t.createdAt)
    (by rw [Option.isNone_iff_eq_none, Fresh])

instance (s : Sys) : Decidable (Closed s) := inferInstanceAs (Decidable (∀ p ∈ s.last, _))

instance (s : Sys) (c : HealthCheckResult) : Decidable (Final s c) := inferInstanceAs (Decidable (∃ p ∈ s.last, _))

instance (s : Sys) : (l : Label) → Decidable (Kept s l)
  | .elapse ms => inferInstanceAs (Decidable (∀ p ∈ s.last, s.now + ms ≤ p.1 + 3600000))
  | .commitCheck c => inferInstanceAs (Decidable (¬ Final s c))
  | .addWindow w => inferInstanceAs (Decidable (∀ c ∈ s.store.checks, Final s c → w.covers c → _))
  | .runSlaReports => inferInstanceAs (Decidable (Reportable s.store s.now ∧ Fresh s ∧ Closed s))
  | .addApi _ _ => isTrue trivial
  | .editSla _ _ => isTrue trivial

/-- One target, checked in January. -/
def inJanuary : Source := ⟨[⟨1, 0, 99⟩], [⟨1, 2600000000, .up⟩], []⟩

/-- Half an hour before the end of January. -/
def lastCall : Time := 2676600000

/-- Calls in the last half hour of January and the first of February; between them a check is made at `checkedAt`. -/
def overMonthEnd (checkedAt : Time) : List Label :=
  [.runSlaReports, .elapse 2700000, .commitCheck ⟨1, 2678500000, .up⟩, .commitCheck ⟨1, checkedAt, .down⟩]

/-- The calls of the run are at most an hour apart. -/
def Hourly (s : Sys) : Label → Prop
  | .elapse ms => ∀ p ∈ s.last, s.now + ms ≤ p.1 + 3600000
  | _ => True

instance (s : Sys) : (l : Label) → Decidable (Hourly s l)
  | .elapse ms => inferInstanceAs (Decidable (∀ p ∈ s.last, s.now + ms ≤ p.1 + 3600000))
  | .commitCheck _ => isTrue trivial
  | .addWindow _ => isTrue trivial
  | .runSlaReports => isTrue trivial
  | .addApi _ _ => isTrue trivial
  | .editSla _ _ => isTrue trivial

end CronMonitor.Sla
