import CronMonitor.Scheduler
import CronMonitor.Tx

/-!
# What the steps of the scheduler do

`scan_rule` is the rule for the loop of `tick`: it fires entries that are `Ready` and stops at the first one
that is `Late`. `Ok` is the invariant that needs no condition on the run: the map has one entry a target, in
the order of their stamps, and `inFlight` is the set of the targets that run.
-/

namespace CronMonitor

open Eff

namespace Scheduler

variable {P : CronParser} {s s' : Scheduler} {e : Entry} {now due : Time}

/-! ### Statements -/

theorem onPool_query_none {α : Type} (stmt : Stmt α) (st : Store) :
    st.onPool (Option.map (0, ·) none) (query .pool stmt) = (.ok (stmt st).1, (stmt st).2) := rfl

theorem onPool_query_some {α : Type} (stmt : Stmt α) (st : Store) (message : String) :
    st.onPool (Option.map (0, ·) (some message)) (query .pool stmt) = (.error message, st) := rfl

/-! ### The loop -/

/-- `e` is due and no slot before `due` was skipped. -/
structure Ready (P : CronParser) (now : Time) (e : Entry) (due : Time) : Prop where
  slot : safePreviousSlot P e.target now = some due
  prior : ∀ l, e.lastFiredSlot = some l →
    l < due ∧ P.slotsBetween e.target.frequencyCron l (due - 1) CronParser.slotsLimit = some []

/-- `e` is due and `skipped` slots before `due` were found. -/
structure Late (P : CronParser) (now : Time) (e : Entry) (due last : Time) (skipped : List Time) : Prop where
  slot : safePreviousSlot P e.target now = some due
  prior : e.lastFiredSlot = some last
  lt : last < due
  found : P.slotsBetween e.target.frequencyCron last (due - 1) CronParser.slotsLimit = some skipped
  ne_nil : skipped ≠ []

def frame (now : Time) (e : Entry) (due : Time) (skipped : Nat) (await : TickAwait) : Suspended :=
  { now, stamp := e.stamp, target := e.target, due, skipped, await }

theorem mem_setLastFired {stamp : Nat} {due : Time} (he : e ∈ s.entries) (hne : e.stamp ≠ stamp) :
    e ∈ (s.setLastFired stamp due).entries :=
  List.mem_map.2 ⟨e, he, by simp [hne]⟩

/-- The loop keeps `I` while it fires, and leaves `J` when it ends or suspends. -/
theorem scan_rule {I J : Scheduler → Prop} (hdone : ∀ s, I s → J s)
    (hfire : ∀ s e due, I s → e ∈ s.entries → Ready P now e due → e.target.id ∉ s.inFlight →
      s.inFlight.card < s.maxConcurrent → I ((s.setLastFired e.stamp due).fire e.target due))
    (hlate : ∀ s e due last skipped, I s → e ∈ s.entries → Late P now e due last skipped →
      J { s with suspended := some (frame now e due skipped.length .bumpMissedRunCount) }) :
    ∀ (rest : List Entry) (s : Scheduler), I s → (∀ e ∈ rest, e ∈ s.entries) →
      (rest.map (·.stamp)).Pairwise (· < ·) → J (scan P now rest s)
  | [], s, hI, _, _ => hdone s hI
  | e :: rest, s, hI, hmem, hsorted => by
    have he := hmem e List.mem_cons_self
    have hrest := fun d hd => hmem d (List.mem_cons_of_mem e hd)
    obtain ⟨hlt, hsorted⟩ := List.pairwise_cons.1 hsorted
    have ih := scan_rule hdone hfire hlate rest
    -- a ready entry is fired or deferred, and the rest of the loop finds its own entries unchanged
    have hready : ∀ due, Ready P now e due → J (scan P now rest (s.fireOrDefer e.stamp e.target due)) := by
      intro due hr
      unfold fireOrDefer
      split_ifs with hin hroom
      · exact ih s hI hrest hsorted
      · exact ih s hI hrest hsorted
      · refine ih _ (hfire s e due hI he hr hin (not_le.1 hroom)) (fun d hd => ?_) hsorted
        exact mem_setLastFired (hrest d hd) (hlt d.stamp (List.mem_map_of_mem hd)).ne'
    rw [scan]
    cases hdue : safePreviousSlot P e.target now with
    | none => exact ih s hI hrest hsorted
    | some due =>
      cases hlast : e.lastFiredSlot with
      | none => exact hready due ⟨hdue, fun l hl => by simp [hlast] at hl⟩
      | some last =>
        simp only
        split_ifs with hle
        · exact ih s hI hrest hsorted
        · cases hfound : P.slotsBetween e.target.frequencyCron last (due - 1) CronParser.slotsLimit with
          | none => exact hdone s hI
          | some skipped =>
            cases skipped with
            | nil =>
              refine hready due ⟨hdue, fun l hl => ?_⟩
              obtain rfl : last = l := by simpa [hlast] using hl
              exact ⟨not_le.1 hle, hfound⟩
            | cons slot slots =>
              exact hlate s e due last _ hI he ⟨hdue, hlast, not_le.1 hle, hfound, List.cons_ne_nil _ _⟩

/-! ### The invariant of every run -/

structure Ok (s : Scheduler) : Prop where
  sorted : (s.entries.map (·.stamp)).Pairwise (· < ·)
  fresh : ∀ e ∈ s.entries, e.stamp < s.nextStamp
  nodup : s.ids.Nodup
  running : (s.running.map (·.target.id)).Nodup
  inFlight : s.inFlight = (s.running.map (·.target.id)).toFinset
  room : s.running.length ≤ s.maxConcurrent
  frame : ∀ p, s.suspended = some p → p.now ≤ s.clock ∧ p.stamp < s.nextStamp ∧
    ∀ e ∈ s.entries, e.stamp = p.stamp → e.id = p.target.id ∧ ∃ l, e.lastFiredSlot = some l ∧ l < p.due

theorem Ok.init (maxConcurrent : Nat) (clock : Time) (store : Store) : Ok (init maxConcurrent clock store) where
  sorted := List.Pairwise.nil
  fresh := fun _ h => absurd h List.not_mem_nil
  nodup := List.nodup_nil
  running := List.nodup_nil
  inFlight := rfl
  room := Nat.zero_le _
  frame := fun _ h => nomatch h

theorem Ok.stamp_inj (h : Ok s) {d : Entry} (hd : d ∈ s.entries) (he : e ∈ s.entries)
    (hst : d.stamp = e.stamp) : d = e :=
  List.inj_on_of_nodup_map (h.sorted.imp fun hlt => hlt.ne) hd he hst

theorem Ok.id_inj (h : Ok s) {d : Entry} (hd : d ∈ s.entries) (he : e ∈ s.entries) (hid : d.id = e.id) :
    d = e :=
  List.inj_on_of_nodup_map h.nodup hd he hid

theorem Ok.card (h : Ok s) : s.inFlight.card = s.running.length := by
  rw [h.inFlight, List.toFinset_card_of_nodup h.running, List.length_map]

@[simp] theorem map_stamp_setLastFired (stamp : Nat) (due : Time) :
    (s.setLastFired stamp due).entries.map (·.stamp) = s.entries.map (·.stamp) := by
  simp only [setLastFired, List.map_map]
  refine List.map_congr_left fun e _ => ?_
  simp only [Function.comp]
  split_ifs <;> rfl

@[simp] theorem ids_setLastFired (stamp : Nat) (due : Time) : (s.setLastFired stamp due).ids = s.ids := by
  simp only [ids, setLastFired, List.map_map]
  refine List.map_congr_left fun e _ => ?_
  simp only [Function.comp]
  split_ifs <;> rfl

/-- The entries after a firing: the one at `stamp` with its slot, and the others as they were. -/
theorem mem_setLastFired_iff {stamp : Nat} {due : Time} :
    e ∈ (s.setLastFired stamp due).entries ↔
      (e ∈ s.entries ∧ e.stamp ≠ stamp) ∨
        ∃ d ∈ s.entries, d.stamp = stamp ∧ e = { d with lastFiredSlot := some due } := by
  simp only [setLastFired, List.mem_map]
  constructor
  · rintro ⟨d, hd, rfl⟩
    by_cases hst : d.stamp = stamp
    · exact Or.inr ⟨d, hd, hst, by simp [hst]⟩
    · simpa [hst] using Or.inl hd
  · rintro (⟨he, hne⟩ | ⟨d, hd, hst, rfl⟩)
    · exact ⟨e, he, by simp [hne]⟩
    · exact ⟨d, hd, by simp [hst]⟩

/-- A firing keeps the invariant, for a target that does not run and a free place. -/
theorem Ok.fire (h : Ok s) (hidle : s.suspended = none) {stamp : Nat} {target : MonitoredApi} {slot : Time}
    (hfree : target.id ∉ s.inFlight) (hroom : s.inFlight.card < s.maxConcurrent) :
    Ok ((s.setLastFired stamp slot).fire target slot) where
  sorted := by
    show ((s.setLastFired stamp slot).entries.map (·.stamp)).Pairwise (· < ·)
    rw [map_stamp_setLastFired]
    exact h.sorted
  fresh := by
    intro e he
    rcases mem_setLastFired_iff.1 he with ⟨he, -⟩ | ⟨d, hd, -, rfl⟩
    · exact h.fresh e he
    · exact h.fresh d hd
  nodup := by
    show (s.setLastFired stamp slot).ids.Nodup
    rw [ids_setLastFired]
    exact h.nodup
  running := by
    show ((s.running ++ [Firing.mk target slot]).map (·.target.id)).Nodup
    rw [List.map_append, List.nodup_append]
    refine ⟨h.running, List.nodup_singleton _, fun a ha b hb => ?_⟩
    obtain rfl : b = target.id := by simpa using hb
    rintro rfl
    exact hfree (by rw [h.inFlight]; exact List.mem_toFinset.2 ha)
  inFlight := by
    show insert target.id s.inFlight = ((s.running ++ [Firing.mk target slot]).map (·.target.id)).toFinset
    rw [h.inFlight, List.map_append, List.toFinset_append, Finset.union_comm]
    rfl
  room := by
    show (s.running ++ [_]).length ≤ s.maxConcurrent
    rw [List.length_append, ← h.card]
    exact hroom
  frame := by
    intro p hp
    exact absurd hp (by rw [show ((s.setLastFired stamp slot).fire target slot).suspended = none from hidle]; simp)

theorem Ok.withStore (h : Ok s) (st : Store) : Ok { s with store := st } :=
  ⟨h.sorted, h.fresh, h.nodup, h.running, h.inFlight, h.room, h.frame⟩

theorem Ok.idle (h : Ok s) : Ok { s with suspended := none } :=
  ⟨h.sorted, h.fresh, h.nodup, h.running, h.inFlight, h.room, fun _ hp => nomatch hp⟩

theorem Ok.suspend (h : Ok s) (hnow : now ≤ s.clock) (he : e ∈ s.entries) {last : Time} {skipped : List Time}
    (hlate : Late P now e due last skipped) (n : Nat) (await : TickAwait) :
    Ok { s with suspended := some (Scheduler.frame now e due n await) } := by
  refine ⟨h.sorted, h.fresh, h.nodup, h.running, h.inFlight, h.room, ?_⟩
  rintro p hp
  obtain rfl : Scheduler.frame now e due n await = p := by simpa using hp
  refine ⟨hnow, h.fresh e he, fun d hd hst => ?_⟩
  obtain rfl := h.stamp_inj hd he hst
  exact ⟨rfl, last, hlate.prior, hlate.lt⟩

theorem Ok.scan (h : Ok s) (hidle : s.suspended = none) (hnow : now ≤ s.clock) {rest : List Entry}
    (hrest : rest.Sublist s.entries) : Ok (scan P now rest s) := by
  refine scan_rule (I := fun t => (Ok t ∧ t.suspended = none) ∧ now ≤ t.clock) (fun t ht => ht.1.1) ?_ ?_ rest s
    ⟨⟨h, hidle⟩, hnow⟩ (fun d hd => hrest.subset hd) (h.sorted.sublist (hrest.map _))
  · rintro t d due ⟨⟨ht, hid⟩, hn⟩ - - hfree hroom
    exact ⟨⟨ht.fire hid hfree hroom, hid⟩, hn⟩
  · rintro t d due last skipped ⟨⟨ht, -⟩, hn⟩ hd hlate
    exact ht.suspend hn hd hlate _ _

/-! ### `reload` -/

theorem mem_track {t : MonitoredApi} (he : e ∈ (track P now s t).entries) :
    (e ∈ s.entries ∧ e.id ≠ t.id) ∨ (∃ d ∈ s.entries, d.id = t.id ∧ e = { d with target := t }) ∨
      (t.id ∉ s.ids ∧ e = ⟨s.nextStamp, t, safePreviousSlot P t now⟩) := by
  unfold track at he
  split_ifs at he with hin
  · obtain ⟨d, hd, rfl⟩ := List.mem_map.1 he
    by_cases hid : d.id = t.id
    · exact Or.inr (Or.inl ⟨d, hd, hid, by simp [hid]⟩)
    · exact Or.inl (by simpa [hid] using hd)
  · rcases List.mem_append.1 he with he | he
    · exact Or.inl ⟨he, fun hid => hin (hid ▸ List.mem_map_of_mem he)⟩
    · exact Or.inr (Or.inr ⟨hin, List.mem_singleton.1 he⟩)

theorem ids_subset_track (t : MonitoredApi) : s.ids ⊆ (track P now s t).ids := by
  intro id hid
  obtain ⟨e, he, rfl⟩ := List.mem_map.1 hid
  unfold track
  split_ifs
  · refine List.mem_map.2 ⟨_, List.mem_map_of_mem he, ?_⟩
    split_ifs with h
    · exact h.symm
    · rfl
  · exact List.mem_map_of_mem (List.mem_append_left _ he)

theorem nextStamp_le_track (t : MonitoredApi) : s.nextStamp ≤ (track P now s t).nextStamp := by
  unfold track
  split_ifs
  · exact le_rfl
  · exact Nat.le_succ _

/-- Where an entry comes from once the targets `ts` are handled: it was not among them, it was tracked and
has the new target, or it is new and anchored to the current slot. -/
theorem mem_foldl_track : ∀ (ts : List MonitoredApi) (s : Scheduler), (ts.map (·.id)).Nodup →
    ∀ e ∈ (ts.foldl (track P now) s).entries,
      (e ∈ s.entries ∧ ∀ t ∈ ts, e.id ≠ t.id) ∨
      (∃ d ∈ s.entries, ∃ t ∈ ts, d.id = t.id ∧ e = { d with target := t }) ∨
      (∃ t ∈ ts, t.id ∉ s.ids ∧ e.target = t ∧ e.lastFiredSlot = safePreviousSlot P t now ∧ s.nextStamp ≤ e.stamp)
  | [], s, _, e, he => Or.inl ⟨he, fun t ht => nomatch ht⟩
  | t :: ts, s, hnodup, e, he => by
    obtain ⟨hnew, hnodup⟩ := List.nodup_cons.1 hnodup
    have hother : ∀ u ∈ ts, u.id ≠ t.id := fun u hu h => hnew (List.mem_map.2 ⟨u, hu, h⟩)
    rcases mem_foldl_track ts (track P now s t) hnodup e he with ⟨he, hts⟩ | ⟨d, hd, u, hu, hid, rfl⟩ |
        ⟨u, hu, hids, htarget, hlast, hstamp⟩
    · rcases mem_track he with ⟨he, hne⟩ | ⟨d, hd, hid, rfl⟩ | ⟨hids, rfl⟩
      · refine Or.inl ⟨he, fun u hu => ?_⟩
        rcases List.mem_cons.1 hu with rfl | hu
        · exact hne
        · exact hts u hu
      · exact Or.inr (Or.inl ⟨d, hd, t, List.mem_cons_self, hid, rfl⟩)
      · exact Or.inr (Or.inr ⟨t, List.mem_cons_self, hids, rfl, rfl, le_rfl⟩)
    · rcases mem_track hd with ⟨hd, -⟩ | ⟨d', -, -, rfl⟩ | ⟨-, rfl⟩
      · exact Or.inr (Or.inl ⟨d, hd, u, List.mem_cons_of_mem t hu, hid, rfl⟩)
      · exact absurd hid.symm (hother u hu)
      · exact absurd hid.symm (hother u hu)
    · exact Or.inr (Or.inr ⟨u, List.mem_cons_of_mem t hu, fun h => hids (ids_subset_track t h), htarget, hlast,
        (nextStamp_le_track t).trans hstamp⟩)

/-- An entry after `reload`: one that was tracked, with its new target, or a new one. -/
theorem mem_reload {ts : List MonitoredApi} (hnodup : (ts.map (·.id)).Nodup) (he : e ∈ (s.reload P ts).entries) :
    (∃ d ∈ s.entries, ∃ t ∈ ts, d.id = t.id ∧ e = { d with target := t }) ∨
    (∃ t ∈ ts, t.id ∉ s.ids ∧ e.target = t ∧ e.lastFiredSlot = safePreviousSlot P t s.clock ∧
      s.nextStamp ≤ e.stamp) := by
  obtain ⟨he, hseen⟩ := List.mem_filter.1 he
  obtain ⟨t, ht, hid⟩ := List.mem_map.1 (of_decide_eq_true hseen)
  rcases mem_foldl_track ts s hnodup e he with ⟨-, hne⟩ | h | h
  · exact absurd hid.symm (hne t ht)
  · exact Or.inl h
  · exact Or.inr h

/-- A tracked target that is loaded again keeps its entry. -/
theorem mem_foldl_track_of_mem : ∀ (ts : List MonitoredApi) (s : Scheduler), (ts.map (·.id)).Nodup →
    ∀ d ∈ s.entries, ((∀ t ∈ ts, d.id ≠ t.id) → d ∈ (ts.foldl (track P now) s).entries) ∧
      ∀ t ∈ ts, d.id = t.id → { d with target := t } ∈ (ts.foldl (track P now) s).entries
  | [], s, _, d, hd => ⟨fun _ => hd, fun t ht => nomatch ht⟩
  | t :: ts, s, hnodup, d, hd => by
    obtain ⟨hnew, hnodup⟩ := List.nodup_cons.1 hnodup
    have hother : ∀ u ∈ ts, t.id ≠ u.id := fun u hu h => hnew (List.mem_map.2 ⟨u, hu, h.symm⟩)
    have ih := mem_foldl_track_of_mem ts (track P now s t) hnodup
    have hkept : d.id ≠ t.id → d ∈ (track P now s t).entries := by
      intro hne
      unfold track
      split_ifs
      · exact List.mem_map.2 ⟨d, hd, by simp [hne]⟩
      · exact List.mem_append_left _ hd
    constructor
    · intro hne
      exact (ih d (hkept (hne t List.mem_cons_self))).1 fun u hu => hne u (List.mem_cons_of_mem t hu)
    · intro u hu hid
      rcases List.mem_cons.1 hu with rfl | hu
      · have hin : u.id ∈ s.ids := hid ▸ List.mem_map_of_mem hd
        have hmem : { d with target := u } ∈ (track P now s u).entries := by
          rw [track, if_pos hin]
          exact List.mem_map.2 ⟨d, hd, by simp [hid]⟩
        exact (ih _ hmem).1 hother
      · exact (ih d (hkept fun h => hother u hu (h.symm.trans hid))).2 u hu hid

theorem mem_reload_of_mem {ts : List MonitoredApi} (hnodup : (ts.map (·.id)).Nodup) {d : Entry}
    (hd : d ∈ s.entries) {t : MonitoredApi} (ht : t ∈ ts) (hid : d.id = t.id) :
    { d with target := t } ∈ (s.reload P ts).entries :=
  List.mem_filter.2 ⟨(mem_foldl_track_of_mem ts s hnodup d hd).2 t ht hid,
    decide_eq_true (List.mem_map_of_mem ht)⟩

/-- What `reload` leaves alone. -/
theorem foldl_track_frame : ∀ (ts : List MonitoredApi) (s : Scheduler),
    ∃ entries stamp, ts.foldl (track P now) s = { s with entries := entries, nextStamp := stamp }
  | [], s => ⟨s.entries, s.nextStamp, rfl⟩
  | t :: ts, s => by
    obtain ⟨entries, stamp, h⟩ := foldl_track_frame ts (track P now s t)
    refine ⟨entries, stamp, h.trans ?_⟩
    unfold track
    split_ifs <;> rfl

theorem reload_frame (ts : List MonitoredApi) :
    ∃ entries stamp, s.reload P ts = { s with entries := entries, nextStamp := stamp } := by
  obtain ⟨entries, stamp, h⟩ : ∃ entries stamp, ts.foldl (track P s.clock) s =
      { s with entries := entries, nextStamp := stamp } := foldl_track_frame ts s
  exact ⟨entries.filter (·.id ∈ ts.map (·.id)), stamp, by rw [reload, h]; rfl⟩

/-- The part of `Ok` about the map. -/
def MapOk (s : Scheduler) : Prop :=
  (s.entries.map (·.stamp)).Pairwise (· < ·) ∧ (∀ e ∈ s.entries, e.stamp < s.nextStamp) ∧ s.ids.Nodup

theorem MapOk.track (h : MapOk s) (t : MonitoredApi) : MapOk (track P now s t) := by
  obtain ⟨hsorted, hfresh, hnodup⟩ := h
  unfold Scheduler.track
  split_ifs with hin
  · have hstamps : (s.entries.map fun e => if e.id = t.id then { e with target := t } else e).map (·.stamp) =
        s.entries.map (·.stamp) := by
      rw [List.map_map]
      refine List.map_congr_left fun e _ => ?_
      simp only [Function.comp]
      split_ifs <;> rfl
    have hids : (s.entries.map fun e => if e.id = t.id then { e with target := t } else e).map (·.id) = s.ids := by
      rw [List.map_map]
      refine List.map_congr_left fun e _ => ?_
      simp only [Function.comp]
      split_ifs with hid
      · exact hid.symm
      · rfl
    refine ⟨by rwa [hstamps], fun e he => ?_, by rw [ids, hids]; exact hnodup⟩
    obtain ⟨d, hd, rfl⟩ := List.mem_map.1 he
    split_ifs
    · exact hfresh d hd
    · exact hfresh d hd
  · refine ⟨?_, fun e he => ?_, ?_⟩
    · rw [List.map_append, List.pairwise_append]
      refine ⟨hsorted, List.pairwise_singleton _ _, fun a ha b hb => ?_⟩
      obtain ⟨e, he, rfl⟩ := List.mem_map.1 ha
      obtain rfl : b = s.nextStamp := by simpa using hb
      exact hfresh e he
    · rcases List.mem_append.1 he with he | he
      · exact Nat.lt_succ_of_lt (hfresh e he)
      · rw [List.mem_singleton.1 he]
        exact Nat.lt_succ_self _
    · rw [ids, List.map_append, List.nodup_append]
      refine ⟨hnodup, List.nodup_singleton _, fun a ha b hb => ?_⟩
      obtain rfl : b = t.id := by simpa [Entry.id] using hb
      rintro rfl
      exact hin ha

theorem MapOk.reload (h : MapOk s) (ts : List MonitoredApi) : MapOk (s.reload P ts) := by
  have hfold : MapOk (ts.foldl (Scheduler.track P s.clock) s) := by
    generalize s.clock = now
    induction ts generalizing s with
    | nil => exact h
    | cons t ts ih => exact ih (h.track t)
  obtain ⟨hsorted, hfresh, hnodup⟩ := hfold
  exact ⟨hsorted.sublist (List.filter_sublist.map _), fun e he => hfresh e (List.mem_filter.1 he).1,
    hnodup.sublist (List.filter_sublist.map _)⟩

theorem Ok.reload (h : Ok s) {ts : List MonitoredApi} (hnodup : (ts.map (·.id)).Nodup) : Ok (s.reload P ts) := by
  obtain ⟨hsorted, hfresh, hids⟩ := MapOk.reload (P := P) ⟨h.sorted, h.fresh, h.nodup⟩ ts
  obtain ⟨entries, stamp, heq⟩ := reload_frame (P := P) (s := s) ts
  refine ⟨hsorted, hfresh, hids, by rw [heq]; exact h.running, by rw [heq]; exact h.inFlight,
    by rw [heq]; exact h.room, fun p hp => ?_⟩
  have hp' : s.suspended = some p := by rw [heq] at hp; exact hp
  obtain ⟨hnow, hstamp, hentry⟩ := h.frame p hp'
  refine ⟨by rw [heq]; exact hnow, ?_, fun e he hst => ?_⟩
  · have hle : s.nextStamp ≤ (s.reload P ts).nextStamp := by
      show s.nextStamp ≤ (ts.foldl (track P s.clock) s).nextStamp
      generalize s.clock = now
      clear heq hp hp' hentry hstamp hnow hids hfresh hsorted h hnodup
      induction ts generalizing s with
      | nil => exact le_rfl
      | cons t ts ih => exact (nextStamp_le_track t).trans ih
    exact hstamp.trans_le hle
  · rcases mem_reload hnodup he with ⟨d, hd, t, -, hid, rfl⟩ | ⟨t, -, -, -, -, hnew⟩
    · obtain ⟨hdid, hlast⟩ := hentry d hd hst
      exact ⟨hid.symm.trans hdid, hlast⟩
    · exact absurd (hst ▸ hnew) (not_le.2 hstamp)

/-! ### Every step -/

/-- How a suspended tick goes on. -/
theorem resume_cases {failure : Option String} (h : s.resume P failure = some s') :
    ∃ p, s.suspended = some p ∧
      ((p.await = .bumpMissedRunCount ∧ failure = none ∧
          s' = { s with
            store := (Sql.bumpMissedRunCount p.target.id p.skipped s.store).2
            suspended := some { p with await := .recordAlert } }) ∨
        (p.await = .recordAlert ∧ failure = none ∧ ∃ st : Store, st.db.scheduleStates = s.store.db.scheduleStates ∧
          s' = scan P p.now (s.entriesAfter p.stamp)
            ({ s with store := st, suspended := none }.fireOrDefer p.stamp p.target p.due)) ∨
        (failure ≠ none ∧ s' = { s with suspended := none })) := by
  unfold resume at h
  cases hp : s.suspended with
  | none => simp [hp] at h
  | some p =>
    simp only [hp] at h
    refine ⟨p, rfl, ?_⟩
    cases hawait : p.await with
    | bumpMissedRunCount =>
      simp only [hawait, CronMonitor.bumpMissedRunCount] at h
      cases failure with
      | none =>
        rw [onPool_query_none] at h
        exact Or.inl ⟨rfl, rfl, (Option.some.inj h).symm⟩
      | some m =>
        rw [onPool_query_some] at h
        exact Or.inr (Or.inr ⟨Option.some_ne_none m, (Option.some.inj h).symm⟩)
    | recordAlert =>
      simp only [hawait, CronMonitor.recordAlert] at h
      cases failure with
      | none =>
        rw [onPool_query_none] at h
        exact Or.inr (Or.inl ⟨rfl, rfl, (Sql.recordAlert (skippedSlotsAlert p.target p.skipped) s.store).2, rfl,
          (Option.some.inj h).symm⟩)
      | some m =>
        rw [onPool_query_some] at h
        exact Or.inr (Or.inr ⟨Option.some_ne_none m, (Option.some.inj h).symm⟩)

theorem fireOrDefer_cases (stamp : Nat) (target : MonitoredApi) (due : Time) :
    (s.fireOrDefer stamp target due = s ∧ ¬ (target.id ∉ s.inFlight ∧ s.inFlight.card < s.maxConcurrent)) ∨
    (target.id ∉ s.inFlight ∧ s.inFlight.card < s.maxConcurrent ∧
      s.fireOrDefer stamp target due = (s.setLastFired stamp due).fire target due) := by
  unfold fireOrDefer
  split_ifs with hin hroom
  · exact Or.inl ⟨rfl, fun h => h.1 hin⟩
  · exact Or.inl ⟨rfl, fun h => absurd hroom (not_le.2 h.2)⟩
  · exact Or.inr ⟨hin, not_le.1 hroom, rfl⟩

/-- The entries inserted after `stamp` are still there when the one at `stamp` has fired. -/
theorem mem_fireOrDefer_of_after {stamp : Nat} {target : MonitoredApi} {due : Time} (he : e ∈ s.entriesAfter stamp) :
    e ∈ (s.fireOrDefer stamp target due).entries := by
  obtain ⟨hmem, hlt⟩ := List.mem_filter.1 he
  rcases fireOrDefer_cases (s := s) stamp target due with ⟨heq, -⟩ | ⟨-, -, heq⟩
  · rw [heq]
    exact hmem
  · rw [heq]
    exact mem_setLastFired hmem (of_decide_eq_true hlt).ne'

/-- The rest of a tick that was suspended: it fires or defers the entry it was at, and goes on behind it. -/
theorem scan_after_rule {I J : Scheduler → Prop} (hdone : ∀ s, I s → J s)
    (hfire : ∀ s e due, I s → e ∈ s.entries → Ready P now e due → e.target.id ∉ s.inFlight →
      s.inFlight.card < s.maxConcurrent → I ((s.setLastFired e.stamp due).fire e.target due))
    (hlate : ∀ s e due last skipped, I s → e ∈ s.entries → Late P now e due last skipped →
      J { s with suspended := some (frame now e due skipped.length .bumpMissedRunCount) })
    (h : Ok s) {stamp : Nat} {target : MonitoredApi} {due : Time}
    (hdefer : ¬ (target.id ∉ s.inFlight ∧ s.inFlight.card < s.maxConcurrent) → I s)
    (hfired : target.id ∉ s.inFlight → s.inFlight.card < s.maxConcurrent →
      I ((s.setLastFired stamp due).fire target due)) :
    J (scan P now (s.entriesAfter stamp) (s.fireOrDefer stamp target due)) := by
  refine scan_rule hdone hfire hlate _ _ ?_ (fun d hd => mem_fireOrDefer_of_after hd)
    (h.sorted.sublist (List.filter_sublist.map _))
  rcases fireOrDefer_cases (s := s) stamp target due with ⟨heq, hnot⟩ | ⟨hfree, hroom, heq⟩
  · rw [heq]
    exact hdefer hnot
  · rw [heq]
    exact hfired hfree hroom

theorem Ok.settle (h : Ok s) {i : Nat} (hs : s.settle i = some s') : Ok s' := by
  obtain ⟨f, hf, rfl⟩ := Option.map_eq_some_iff.1 hs
  have hmap : (s.running.eraseIdx i).map (·.target.id) = (s.running.map (·.target.id)).erase f.target.id := by
    rw [← List.eraseIdx_map, List.erase_eq_eraseIdx_of_idxOf]
    obtain ⟨hi, rfl⟩ := List.getElem?_eq_some_iff.1 hf
    have hi' : i < (s.running.map (·.target.id)).length := by rwa [List.length_map]
    have := h.running.idxOf_getElem i hi'
    simpa using this
  refine ⟨h.sorted, h.fresh, h.nodup, ?_, ?_, ?_, h.frame⟩
  · show ((s.running.eraseIdx i).map (·.target.id)).Nodup
    rw [hmap]
    exact h.running.erase _
  · show s.inFlight.erase f.target.id = ((s.running.eraseIdx i).map (·.target.id)).toFinset
    rw [hmap, h.inFlight]
    ext id
    rw [Finset.mem_erase, List.mem_toFinset, List.mem_toFinset, h.running.mem_erase_iff]
  · exact (List.length_eraseIdx_le ..).trans h.room

theorem Ok.step (h : Ok s) {l : Label} (hs : s.step P l = some s') : Ok s' := by
  cases l with
  | tick =>
    obtain rfl : s.tick P = s' := Option.some.inj hs
    unfold Scheduler.tick
    split_ifs with hsome
    · exact h
    · exact h.scan (by simpa using hsome) le_rfl (List.Sublist.refl _)
  | resume failure =>
    obtain ⟨p, hp, ⟨-, -, rfl⟩ | ⟨-, -, st, -, rfl⟩ | ⟨-, rfl⟩⟩ := resume_cases hs
    · refine ⟨h.sorted, h.fresh, h.nodup, h.running, h.inFlight, h.room, ?_⟩
      rintro q hq
      obtain rfl := Option.some.inj hq
      exact h.frame p hp
    · have hidle : Ok { s with store := st, suspended := none } := (h.withStore st).idle
      have hnow := (h.frame p hp).1
      refine scan_after_rule (I := fun t => (Ok t ∧ t.suspended = none) ∧ p.now ≤ t.clock) (fun t ht => ht.1.1)
        ?_ ?_ hidle (fun _ => ⟨⟨hidle, rfl⟩, hnow⟩)
        (fun hfree hroom => ⟨⟨hidle.fire rfl hfree hroom, rfl⟩, hnow⟩)
      · rintro t d due ⟨⟨ht, hid⟩, hn⟩ - - hfree hroom
        exact ⟨⟨ht.fire hid hfree hroom, hid⟩, hn⟩
      · rintro t d due last skipped ⟨⟨ht, -⟩, hn⟩ hd hlate
        exact ht.suspend hn hd hlate _ _
    · exact h.idle
  | reload targets =>
    obtain rfl := Option.some.inj hs
    exact h.reload targets.nodup
  | settle i => exact h.settle hs
  | elapse ms =>
    obtain rfl := Option.some.inj hs
    refine ⟨h.sorted, h.fresh, h.nodup, h.running, h.inFlight, h.room, fun p hp => ?_⟩
    obtain ⟨hnow, hrest⟩ := h.frame p hp
    exact ⟨hnow.trans (Int.le_add_of_nonneg_right (Int.natCast_nonneg ms)), hrest⟩

theorem step_maxConcurrent {l : Label} (hok : Ok s) (hs : s.step P l = some s') :
    s'.maxConcurrent = s.maxConcurrent := by
  cases l with
  | tick =>
    obtain rfl : s.tick P = s' := Option.some.inj hs
    unfold Scheduler.tick
    split_ifs
    · rfl
    · exact scan_rule (I := fun t => t.maxConcurrent = s.maxConcurrent) (fun _ h => h) (fun _ _ _ h _ _ _ _ => h)
        (fun _ _ _ _ _ h _ _ => h) s.entries s rfl (fun _ he => he) hok.sorted
  | resume failure =>
    obtain ⟨p, -, ⟨-, -, rfl⟩ | ⟨-, -, st, -, rfl⟩ | ⟨-, rfl⟩⟩ := resume_cases hs
    · rfl
    · exact scan_after_rule (I := fun t => t.maxConcurrent = s.maxConcurrent) (fun _ h => h)
        (fun _ _ _ h _ _ _ _ => h) (fun _ _ _ _ _ h _ _ => h) (hok.withStore st).idle (fun _ => rfl) fun _ _ => rfl
    · rfl
  | reload targets =>
    obtain rfl := Option.some.inj hs
    obtain ⟨entries, stamp, heq⟩ := reload_frame (P := P) (s := s) targets.rows
    rw [heq]
  | settle i =>
    obtain ⟨f, -, rfl⟩ := Option.map_eq_some_iff.1 hs
    rfl
  | elapse ms =>
    obtain rfl := Option.some.inj hs
    rfl

theorem Ok.run {maxConcurrent : Nat} {clock : Time} {store : Store} {tr : List Label}
    (hr : Runs.run (Scheduler.step P) (Scheduler.init maxConcurrent clock store) tr = some s) :
    Ok s ∧ s.maxConcurrent = maxConcurrent :=
  Runs.inv_run (I := fun t => Ok t ∧ t.maxConcurrent = maxConcurrent) ⟨Ok.init maxConcurrent clock store, rfl⟩
    (fun _ _ _ h hs => ⟨h.1.step hs, (step_maxConcurrent h.1 hs).trans h.2⟩) hr

end Scheduler

end CronMonitor
