import CronMonitor.Lib.OrderedMap
import CronMonitor.Reporting.CsvExports

/-!
# Reading the CSV exports

Every export is the table of its header and its rows' string forms, and so it is read back where the fields of that table
are clean. The matrix is always read back, with the apostrophes it has put in.
-/

namespace CronMonitor.Reporting

open Utf16 Csv Json

variable {ν : Type} {F : NumberFormat ν} {special : UInt16 → Bool}

/-! ### Rows under their header -/

/-- Names of different columns, two or more, that are written as they are. -/
structure PlainHeader (special : UInt16 → Bool) (header : List JsString) : Prop where
  plain : ∀ name ∈ header, name.any special = false ∧ CR ∉ name
  two : 2 ≤ header.length
  nodup : header.Nodup

/-- What a writer must put in quotes. -/
structure Forces (special : UInt16 → Bool) : Prop where
  comma : special COMMA
  quote : special QUOTE
  lf : special LF

/-- A header and rows of escaped values make a table. -/
theorem table_of_lines {header : List JsString} {rows : List (List JsString)} (h : PlainHeader special header) :
    [LF].intercalate (join header :: rows.map fun r => join (r.map (escape special))) = table special (header :: rows) := by
  have hheader : header.map (escape special) = header := by
    refine (List.map_congr_left fun name hname => ?_).trans (List.map_id _)
    rw [escape, (h.plain name hname).1]
    rfl
  rw [table, List.map_cons, line, hheader]
  rfl

theorem parse_lines_iff (hspecial : Forces special) {header : List JsString} {rows : List (List JsString)}
    (h : PlainHeader special header) (hrows : ∀ r ∈ rows, r.length = header.length) :
    parse ([LF].intercalate (join header :: rows.map fun r => join (r.map (escape special)))) = some (header :: rows) ↔
      ∀ r ∈ rows, ∀ field ∈ r, Clean special field := by
  have hlong : ∀ r ∈ header :: rows, 2 ≤ r.length :=
    List.forall_mem_cons.2 ⟨h.two, fun r hr => hrows r hr ▸ h.two⟩
  rw [table_of_lines h, parse_table_iff hspecial.comma hspecial.quote hspecial.lf hlong, List.forall_mem_cons]
  exact and_iff_right fun name hname hcr => absurd hcr (h.plain name hname).2

/-- The values of a row, looked up by its keys. -/
theorem map_get {row : Row ν} (h : (row.map Prod.fst).Nodup) : (row.map Prod.fst).map (Row.get row) = row.map Prod.snd := by
  rw [List.map_map]
  refine List.map_congr_left fun e he => ?_
  have hget : (OrderedMap.mk row h).get? e.1 = some e.2 := OrderedMap.get?_eq_some_iff.2 he
  exact congrArg (Option.getD · Value.null) hget

/-- Rows with the keys of the header, written under it by what `text` makes of their values. -/
theorem parse_rows_iff (hspecial : Forces special) {header : List JsString} (h : PlainHeader special header)
    {rows : List (Row ν)} (hkeys : ∀ r ∈ rows, r.map Prod.fst = header) (text : Value ν → JsString) :
    parse ([LF].intercalate (join header ::
        rows.map fun r => join (header.map fun key => escape special (text (Row.get r key))))) =
      some (header :: rows.map fun r => r.map fun e => text e.2) ↔
      ∀ r ∈ rows, ∀ e ∈ r, Clean special (text e.2) := by
  have hlines : (rows.map fun r => join (header.map fun key => escape special (text (Row.get r key)))) =
      (rows.map fun r => r.map fun e => text e.2).map fun r => join (r.map (escape special)) := by
    rw [List.map_map]
    refine List.map_congr_left fun r hr => ?_
    have hget : (r.map Prod.fst).map (Row.get r) = r.map Prod.snd := map_get ((hkeys r hr).symm ▸ h.nodup)
    rw [hkeys r hr] at hget
    have htexts := congrArg (List.map fun v => escape special (text v)) hget
    rw [List.map_map, List.map_map] at htexts
    rw [Function.comp_apply, List.map_map]
    exact congrArg join htexts
  rw [hlines, parse_lines_iff hspecial h]
  · simp only [List.forall_mem_map]
  · intro r hr
    obtain ⟨row, hrow, rfl⟩ := List.mem_map.1 hr
    rw [List.length_map, ← hkeys row hrow, List.length_map]

/-! ### The three exports -/

theorem forces_isForced : Forces isForced := ⟨by decide, by decide, by decide⟩

theorem forces_isForcedOrCr : Forces isForcedOrCr := ⟨by decide, by decide, by decide⟩

theorem incident_header : PlainHeader isForced INCIDENT_HEADER :=
  ⟨by decide +kernel, by decide +kernel, by decide +kernel⟩

/-- The columns of a report's table. -/
def ReportType.columns : ReportType → List JsString
  | .systemHealth | .apiPerformance =>
    ["apiId", "targetName", "endpointClass", "isMoneyMoving", "checks", "failed", "errorRatePct", "uptimePercent", "avgMs",
      "p95Ms"].map js
  | .failure => ["category", "subtype", "failureType", "httpStatus", "targetName", "count"].map js
  | .incident | .dependency =>
    ["incidentNumber", "targetName", "severity", "type", "moneyMoving", "status", "startedAt", "resolvedAt",
      "durationSeconds", "failureType", "rcaCategory", "rootCause", "resolution"].map js
  | .latency => ["targetName", "day", "p50", "p90", "p95", "p99", "samples"].map js
  | .security => ["targetName", "count"].map js
  | .executive => ["service", "uptimePercent", "errorRatePercent", "moneyMoving"].map js

theorem report_header (type : ReportType) : PlainHeader isForced type.columns := by
  cases type <;> exact ⟨by decide +kernel, by decide +kernel, by decide +kernel⟩

theorem report_keys (report : Report ν) : ∀ r ∈ report.rows, r.map Prod.fst = report.type.columns := by
  intro r hr
  cases report <;> obtain ⟨x, -, rfl⟩ := List.mem_map.1 hr <;> rfl

def MATRIX_HEADER : List JsString :=
  ["framework", "id", "reference", "referenceVerified", "control", "status", "coverage", "review", "reviewer", "reviewedAt",
    "whatTheEvidenceSays", "evidence", "limitation", "howToCover"].map js

theorem matrix_header : PlainHeader isForcedOrCr MATRIX_HEADER :=
  ⟨by decide +kernel, by decide +kernel, by decide +kernel⟩

theorem matrix_keys (a : Assessment) : ∀ r ∈ controlRows (ν := ν) a, r.map Prod.fst = MATRIX_HEADER := by
  intro r hr
  obtain ⟨c, -, rfl⟩ := List.mem_map.1 hr
  rfl

theorem clean_isForcedOrCr (s : JsString) : Clean isForcedOrCr s :=
  fun hcr => List.any_eq_true.2 ⟨CR, hcr, by decide⟩

theorem incidentsToCsv_iff (incidents : List (ReportIncident ν)) :
    parse (incidentsToCsv F incidents) =
        some (INCIDENT_HEADER :: incidents.map fun i => i.values.map (cellText F)) ↔
      ∀ i ∈ incidents, ∀ v ∈ i.values, Clean isForced (cellText F v) := by
  have hlines : incidentsToCsv F incidents = [LF].intercalate (join INCIDENT_HEADER ::
      (incidents.map fun i => i.values.map (cellText F)).map fun r => join (r.map (escape isForced))) := by
    rw [incidentsToCsv, List.map_map]
    rfl
  rw [hlines, parse_lines_iff forces_isForced incident_header]
  · simp only [List.forall_mem_map]
  · intro r hr
    obtain ⟨i, -, rfl⟩ := List.mem_map.1 hr
    rfl

theorem reportToCsv_iff (report : Report ν) (h : report.rows ≠ []) :
    parse (reportToCsv F report) =
        some (report.type.columns :: report.rows.map fun r => r.map fun e => cellText F e.2) ↔
      ∀ r ∈ report.rows, ∀ e ∈ r, Clean isForced (cellText F e.2) := by
  have hkeys := report_keys report
  unfold reportToCsv
  cases hrows : report.rows with
  | nil => exact absurd hrows h
  | cons first rest =>
    rw [hrows] at hkeys
    have hheaders : first.map Prod.fst = report.type.columns := hkeys first List.mem_cons_self
    simp only [hheaders]
    exact parse_rows_iff forces_isForced (report_header report.type) hkeys (cellText F)

theorem renderMatrixCsv_parse (a : Assessment) :
    parse (renderMatrixCsv F a) =
      some (MATRIX_HEADER :: (controlRows a).map fun r => r.map fun e => neutralised (csvText F e.2)) := by
  have hkeys := matrix_keys (ν := ν) a
  have hheaders : ((controlRows (ν := ν) a).headD []).map Prod.fst = MATRIX_HEADER := by
    cases hrows : controlRows (ν := ν) a with
    | nil => exact absurd (List.map_eq_nil_iff.1 hrows) a.controls_ne
    | cons first rest => exact hkeys first (hrows ▸ List.mem_cons_self)
  rw [renderMatrixCsv]
  simp only [hheaders]
  exact (parse_rows_iff forces_isForcedOrCr matrix_header hkeys fun v => neutralised (csvText F v)).2
    fun _ _ _ _ => clean_isForcedOrCr _

/-- The exports are read back with their headers and one record a row exactly if no value of the incidents and of the
report has a CR without a comma, a quote or LF. -/
theorem csv_roundTrip_iff (F : NumberFormat ν) (incidents : List (ReportIncident ν)) (report : Report ν) (a : Assessment) :
    (parse (incidentsToCsv F incidents) =
        some (INCIDENT_HEADER :: incidents.map fun i => i.values.map (cellText F)) ∧
      (report.rows ≠ [] → parse (reportToCsv F report) =
        some (report.type.columns :: report.rows.map fun r => r.map fun e => cellText F e.2)) ∧
      parse (renderMatrixCsv F a) =
        some (MATRIX_HEADER :: (controlRows a).map fun r => r.map fun e => neutralised (csvText F e.2))) ↔
      (∀ i ∈ incidents, ∀ v ∈ i.values, Clean isForced (cellText F v)) ∧
        ∀ r ∈ report.rows, ∀ e ∈ r, Clean isForced (cellText F e.2) := by
  rw [incidentsToCsv_iff]
  refine and_congr_right fun _ => ?_
  by_cases h : report.rows = []
  · simp [h, renderMatrixCsv_parse]
  · simp only [ne_eq, h, not_false_eq_true, forall_true_left, reportToCsv_iff report h, renderMatrixCsv_parse, and_true]

/-- An incident with a CR in its root cause. -/
def brokenIncident : ReportIncident ℕ where
  incidentNumber := js "INC-1"
  targetName := js "Wallet"
  severity := js "P1"
  incidentType := js "DOWN"
  isMoneyMoving := true
  status := js "RESOLVED"
  startedAt := js "2026-01-01T00:00:00.000Z"
  resolvedAt := none
  durationSeconds := none
  rootCause := some (js "disk full" ++ [CR] ++ js "on node 2")
  resolution := none

/-- What stands behind the CR is a record of its own. -/
theorem rootCause_torn :
    ¬ (parse (incidentsToCsv Json.decimal [brokenIncident]) =
      some (INCIDENT_HEADER :: [brokenIncident].map fun i => i.values.map (cellText Json.decimal))) := by
  decide +kernel

end CronMonitor.Reporting
