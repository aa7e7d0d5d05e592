import CronMonitor.SchedulerSteps

/-!
# Which slots a target fires

`Ahead s id b` says that whatever `id` may still fire from `s` lies after `b`: the slots of its entry beyond
the last fired one, and the slot a suspended tick is about to fire. Each step keeps every bound, and the slots
it fires are beyond it. A fired slot becomes a bound, and so does the time at which a target is added; the
slots of a target therefore increase and none is at or before the time it was loaded.

`reload` keeps bounds only as far as `Anchored` says. An entry that is tracked keeps its `lastFiredSlot` when
its expression changes, and the new expression can have slots between that one and the time of the reload. A
target that is removed and added again while a tick is suspended on its old entry is fired by that tick.
-/

namespace CronMonitor

namespace Scheduler

variable {P : CronParser} {slots : String → Set Time} {s s' : Scheduler} {e : Entry} {id : Uuid}
  {b now due : Time}

/-- The slots passed to `run` for `id`, in order. -/
def firedSlots (s : Scheduler) (id : Uuid) : List Time := (s.calls.filter (·.target.id = id)).map (·.slot)

/-- The firing discipline of the run over `tr` from `s₀` to `s`. -/
structure Disciplined (P : CronParser) (s₀ : Scheduler) (tr : List Label) (s : Scheduler) : Prop where
  increasing : ∀ id, (s.firedSlots id).Pairwise (· < ·)
  noOverlap : (s.running.map (·.target.id)).Nodup
  limit : s.running.length ≤ s₀.maxConcurrent
  -- a target that `reload` adds fires no slot up to the time of that `reload`
  added : ∀ pre targets post s₁ s₂, tr = pre ++ .reload targets :: post → Runs.run (step P) s₀ pre = some s₁ →
    step P s₁ (.reload targets) = some s₂ → ∀ t ∈ targets.rows, t.id ∉ s₁.ids →
      ∀ f ∈ s.calls.drop s₂.calls.length, f.target.id = t.id → s₁.clock < f.slot

/-- A reload changes no tracked expression to one with a slot between the last fired one and now, and adds no
target that a suspended tick is about to fire. -/
def Anchored (slots : String → Set Time) (s : Scheduler) : Label → Prop
  | .reload targets =>
    (∀ e ∈ s.entries, ∀ t ∈ targets.rows, t.id = e.id → t.frequencyCron ≠ e.target.frequencyCron →
      ∀ l, e.lastFiredSlot = some l → ∀ x ∈ slots t.frequencyCron, l < x → s.clock < x) ∧
    (∀ t ∈ targets.rows, t.id ∉ s.ids → ∀ p, s.suspended = some p → p.target.id ≠ t.id)
  | _ => True

/-! ### Bounds -/

structure Ahead (slots : String → Set Time) (s : Scheduler) (id : Uuid) (b : Time) : Prop where
  bound : b ≤ s.clock
  entry : ∀ e ∈ s.entries, e.id = id → ∀ l, e.lastFiredSlot = some l →
    ∀ x ∈ slots e.target.frequencyCron, l < x → b < x
  frame : ∀ p, s.suspended = some p → p.target.id = id → b < p.due

/-- Every bound at `s` is one at `s'`, and the firings between them are beyond it. -/
def Later (slots : String → Set Time) (s s' : Scheduler) : Prop :=
  ∃ new, s'.calls = s.calls ++ new ∧
    ∀ id b, Ahead slots s id b → Ahead slots s' id b ∧ ∀ f ∈ new, f.target.id = id → b < f.slot

theorem Later.of_ahead (hcalls : s'.calls = s.calls)
    (h : ∀ id b, Ahead slots s id b → Ahead slots s' id b) : Later slots s s' :=
  ⟨[], by rw [hcalls, List.append_nil], fun id b hb => ⟨h id b hb, fun _ hf => nomatch hf⟩⟩

theorem Later.trans {t : Scheduler} (h : Later slots s s') (h' : Later slots s' t) : Later slots s t := by
  obtain ⟨new, hcalls, hnew⟩ := h
  obtain ⟨new', hcalls', hnew'⟩ := h'
  refine ⟨new ++ new', by rw [hcalls', hcalls, List.append_assoc], fun id b hb => ?_⟩
  obtain ⟨hb', hlt⟩ := hnew id b hb
  obtain ⟨hb'', hlt'⟩ := hnew' id b hb'
  refine ⟨hb'', fun f hf => ?_⟩
  rcases List.mem_append.1 hf with hf | hf
  · exact hlt f hf
  · exact hlt' f hf

/-- The invariant: all that was fired is a bound. -/
structure Inv (P : CronParser) (slots : String → Set Time) (s : Scheduler) : Prop where
  ok : Ok s
  parsed : ∀ e ∈ s.entries, P.Parses e.target.frequencyCron (slots e.target.frequencyCron) ∧
    ∃ l, e.lastFiredSlot = some l
  own : ∀ p, s.suspended = some p → ∀ e ∈ s.entries, e.id = p.target.id → e.stamp = p.stamp
  past : ∀ p, s.suspended = some p → p.due ≤ s.clock
  ahead : ∀ f ∈ s.calls, Ahead slots s f.target.id f.slot
  increasing : s.calls.Pairwise fun f g => f.target.id = g.target.id → f.slot < g.slot

theorem Inv.init (maxConcurrent : Nat) (clock : Time) (store : Store) :
    Inv P slots (init maxConcurrent clock store) where
  ok := Ok.init maxConcurrent clock store
  parsed := fun _ h => absurd h List.not_mem_nil
  own := fun _ h => nomatch h
  past := fun _ h => nomatch h
  ahead := fun _ h => absurd h List.not_mem_nil
  increasing := List.Pairwise.nil

theorem Inv.firedSlots (h : Inv P slots s) (id : Uuid) : (s.firedSlots id).Pairwise (· < ·) := by
  refine List.pairwise_map.2 (List.pairwise_filter.2 (h.increasing.imp fun hlt hf hg => ?_))
  exact hlt ((of_decide_eq_true hf).trans (of_decide_eq_true hg).symm)

/-- The slot found for an entry is one of its expression's, and not in the future. -/
theorem Inv.due_mem (h : Inv P slots s) (he : e ∈ s.entries) (hdue : safePreviousSlot P e.target now = some due) :
    due ∈ slots e.target.frequencyCron ∧ due ≤ now := by
  obtain ⟨u, hu, hmax⟩ := (h.parsed e he).1.prev now
  obtain rfl : u = due := Option.some.inj (hu.symm.trans hdue)
  exact hmax.1

/-! ### Firing -/

section Fire

variable {stamp : Nat} {target : MonitoredApi}

theorem Ahead.fire (h : Ahead slots s id b) (hidle : s.suspended = none)
    (hold : ∀ d ∈ s.entries, d.stamp = stamp → ∃ l, d.lastFiredSlot = some l ∧ l < due) :
    Ahead slots ((s.setLastFired stamp due).fire target due) id b where
  bound := h.bound
  entry := by
    intro e he hid l hl x hx hlt
    rcases mem_setLastFired_iff.1 he with ⟨he, -⟩ | ⟨d, hd, hst, rfl⟩
    · exact h.entry e he hid l hl x hx hlt
    · obtain ⟨l₀, hl₀, hlt₀⟩ := hold d hd hst
      obtain rfl : due = l := Option.some.inj hl
      exact h.entry d hd hid l₀ hl₀ x hx (hlt₀.trans hlt)
  frame := by
    intro p hp
    have hp' : s.suspended = some p := hp
    rw [hidle] at hp'
    exact nomatch hp'

/-- The slot just fired is a bound itself. -/
theorem ahead_fired (hidle : s.suspended = none) (hpast : due ≤ s.clock)
    (hown : ∀ d ∈ s.entries, d.id = target.id → d.stamp = stamp) :
    Ahead slots ((s.setLastFired stamp due).fire target due) target.id due where
  bound := hpast
  entry := by
    intro e he hid l hl x hx hlt
    rcases mem_setLastFired_iff.1 he with ⟨he, hne⟩ | ⟨d, -, -, rfl⟩
    · exact absurd (hown e he hid) hne
    · obtain rfl : due = l := Option.some.inj hl
      exact hlt
  frame := by
    intro p hp
    have hp' : s.suspended = some p := hp
    rw [hidle] at hp'
    exact nomatch hp'

theorem Inv.fire (h : Inv P slots s) (hidle : s.suspended = none) (hpast : due ≤ s.clock)
    (hown : ∀ d ∈ s.entries, d.id = target.id → d.stamp = stamp)
    (hold : ∀ d ∈ s.entries, d.stamp = stamp → ∃ l, d.lastFiredSlot = some l ∧ l < due)
    (hbeyond : ∀ f ∈ s.calls, f.target.id = target.id → f.slot < due)
    (hfree : target.id ∉ s.inFlight) (hroom : s.inFlight.card < s.maxConcurrent) :
    Inv P slots ((s.setLastFired stamp due).fire target due) where
  ok := h.ok.fire hidle hfree hroom
  parsed := by
    intro e he
    rcases mem_setLastFired_iff.1 he with ⟨he, -⟩ | ⟨d, hd, -, rfl⟩
    · exact h.parsed e he
    · exact ⟨(h.parsed d hd).1, due, rfl⟩
  own := by
    intro p hp
    have hp' : s.suspended = some p := hp
    rw [hidle] at hp'
    exact nomatch hp'
  past := by
    intro p hp
    have hp' : s.suspended = some p := hp
    rw [hidle] at hp'
    exact nomatch hp'
  ahead := by
    intro f hf
    rcases List.mem_append.1 hf with hf | hf
    · exact (h.ahead f hf).fire hidle hold
    · rw [List.mem_singleton.1 hf]
      exact ahead_fired hidle hpast hown
  increasing := by
    refine List.pairwise_append.2 ⟨h.increasing, List.pairwise_singleton _ _, fun f hf g hg hid => ?_⟩
    obtain rfl := List.mem_singleton.1 hg
    exact hbeyond f hf hid

end Fire

/-- A ready entry fires beyond every bound of its target. -/
theorem Inv.fire_ready (h : Inv P slots s) (hidle : s.suspended = none) (hnow : now ≤ s.clock)
    (he : e ∈ s.entries) (hready : Ready P now e due) (hfree : e.target.id ∉ s.inFlight)
    (hroom : s.inFlight.card < s.maxConcurrent) :
    Inv P slots ((s.setLastFired e.stamp due).fire e.target due) ∧
      Later slots s ((s.setLastFired e.stamp due).fire e.target due) := by
  obtain ⟨hmem, hdue⟩ := h.due_mem he hready.slot
  obtain ⟨l, hl⟩ := (h.parsed e he).2
  have hlt := (hready.prior l hl).1
  have hown : ∀ d ∈ s.entries, d.id = e.target.id → d.stamp = e.stamp := fun d hd hid => by rw [h.ok.id_inj hd he hid]
  have hold : ∀ d ∈ s.entries, d.stamp = e.stamp → ∃ l, d.lastFiredSlot = some l ∧ l < due := fun d hd hst =>
    ⟨l, by rw [h.ok.stamp_inj hd he hst]; exact hl, hlt⟩
  have hbeyond : ∀ b, Ahead slots s e.target.id b → b < due := fun b hb => hb.entry e he rfl l hl due hmem hlt
  refine ⟨h.fire hidle (hdue.trans hnow) hown hold (fun f hf hid => hbeyond f.slot (hid ▸ h.ahead f hf)) hfree hroom,
    [⟨e.target, due⟩], rfl, fun id b hb => ⟨hb.fire hidle hold, fun f hf hid => ?_⟩⟩
  obtain rfl := List.mem_singleton.1 hf
  exact hbeyond b (hid ▸ hb)

theorem Inv.suspend (h : Inv P slots s) (hnow : now ≤ s.clock) (he : e ∈ s.entries) {last : Time}
    {skipped : List Time} (hlate : Late P now e due last skipped) (n : Nat) :
    Inv P slots { s with suspended := some (frame now e due n .bumpMissedRunCount) } ∧
      Later slots s { s with suspended := some (frame now e due n .bumpMissedRunCount) } := by
  obtain ⟨hmem, hdue⟩ := h.due_mem he hlate.slot
  have hkeep : ∀ id b, Ahead slots s id b →
      Ahead slots { s with suspended := some (frame now e due n .bumpMissedRunCount) } id b := by
    intro id b hb
    refine ⟨hb.bound, hb.entry, fun p hp hid => ?_⟩
    obtain rfl := Option.some.inj hp
    exact hb.entry e he hid last hlate.prior due hmem hlate.lt
  refine ⟨⟨h.ok.suspend hnow he hlate n _, h.parsed, fun p hp d hd hid => ?_, fun p hp => ?_,
    fun f hf => hkeep _ _ (h.ahead f hf), h.increasing⟩, Later.of_ahead rfl hkeep⟩
  · obtain rfl := Option.some.inj hp
    rw [h.ok.id_inj hd he hid]
    rfl
  · obtain rfl := Option.some.inj hp
    exact hdue.trans hnow

/-! ### `reload` -/

/-- A new entry waits for the first slot after the time it was added. -/
theorem clock_lt_of_anchor {t : MonitoredApi} (hparse : P.Parses t.frequencyCron (slots t.frequencyCron))
    {l x : Time} (hl : safePreviousSlot P t now = some l) (hx : x ∈ slots t.frequencyCron) (hlt : l < x) : now < x := by
  obtain ⟨u, hu, hmax⟩ := hparse.prev now
  obtain rfl : u = l := Option.some.inj (hu.symm.trans hl)
  by_contra hle
  exact absurd (hmax.2 ⟨hx, not_lt.1 hle⟩) (not_le.2 hlt)

section Reload

variable {targets : ActiveTargets}

theorem reload_calls : (s.reload P targets.rows).calls = s.calls := by
  obtain ⟨entries, stamp, heq⟩ := reload_frame (P := P) (s := s) targets.rows
  rw [heq]

theorem reload_clock : (s.reload P targets.rows).clock = s.clock := by
  obtain ⟨entries, stamp, heq⟩ := reload_frame (P := P) (s := s) targets.rows
  rw [heq]

theorem reload_suspended : (s.reload P targets.rows).suspended = s.suspended := by
  obtain ⟨entries, stamp, heq⟩ := reload_frame (P := P) (s := s) targets.rows
  rw [heq]

theorem Ahead.reload (h : Ahead slots s id b) (hA : Anchored slots s (.reload targets))
    (hparse : ∀ t ∈ targets.rows, P.Parses t.frequencyCron (slots t.frequencyCron)) :
    Ahead slots (s.reload P targets.rows) id b where
  bound := by
    rw [reload_clock]
    exact h.bound
  entry := by
    intro e he hid l hl x hx hlt
    rcases mem_reload targets.nodup he with ⟨d, hd, t, ht, hdt, rfl⟩ | ⟨t, ht, -, rfl, hlast, -⟩
    · by_cases hcron : t.frequencyCron = d.target.frequencyCron
      · exact h.entry d hd (hdt.trans hid) l hl x (hcron ▸ hx) hlt
      · exact h.bound.trans_lt (hA.1 d hd t ht hdt.symm hcron l hl x hx hlt)
    · exact h.bound.trans_lt (clock_lt_of_anchor (hparse _ ht) (hlast.symm.trans hl) hx hlt)
  frame := fun p hp => h.frame p (reload_suspended (P := P) ▸ hp)

/-- The time at which a target is added is a bound for it. -/
theorem ahead_added (hA : Anchored slots s (.reload targets))
    (hparse : ∀ t ∈ targets.rows, P.Parses t.frequencyCron (slots t.frequencyCron)) {t : MonitoredApi}
    (ht : t ∈ targets.rows) (hnew : t.id ∉ s.ids) : Ahead slots (s.reload P targets.rows) t.id s.clock where
  bound := (reload_clock (P := P)).ge
  entry := by
    intro e he hid l hl x hx hlt
    rcases mem_reload targets.nodup he with ⟨d, hd, u, -, hdu, rfl⟩ | ⟨u, hu, -, rfl, hlast, -⟩
    · exact absurd (List.mem_map.2 ⟨d, hd, hdu.trans hid⟩) hnew
    · exact clock_lt_of_anchor (hparse _ hu) (hlast.symm.trans hl) hx hlt
  frame := fun p hp hid => absurd hid (hA.2 t ht hnew p (reload_suspended (P := P) ▸ hp))

theorem Inv.reload (h : Inv P slots s) (hA : Anchored slots s (.reload targets))
    (hparse : ∀ t ∈ targets.rows, P.Parses t.frequencyCron (slots t.frequencyCron)) :
    Inv P slots (s.reload P targets.rows) where
  ok := h.ok.reload targets.nodup
  parsed := by
    intro e he
    rcases mem_reload targets.nodup he with ⟨d, hd, t, ht, -, rfl⟩ | ⟨t, ht, -, rfl, hlast, -⟩
    · exact ⟨hparse t ht, (h.parsed d hd).2⟩
    · obtain ⟨u, hu, -⟩ := (hparse _ ht).prev s.clock
      exact ⟨hparse _ ht, u, hlast.trans hu⟩
  own := by
    intro p hp e he hid
    have hp' : s.suspended = some p := reload_suspended (P := P) ▸ hp
    rcases mem_reload targets.nodup he with ⟨d, hd, t, -, hdt, rfl⟩ | ⟨t, ht, hnew, rfl, -, -⟩
    · exact h.own p hp' d hd (hdt.trans hid)
    · exact absurd hid.symm (hA.2 _ ht hnew p hp')
  past := by
    intro p hp
    rw [reload_clock]
    exact h.past p (reload_suspended (P := P) ▸ hp)
  ahead := fun f hf => (h.ahead f (reload_calls (P := P) ▸ hf)).reload hA hparse
  increasing := by
    rw [reload_calls]
    exact h.increasing

end Reload

/-! ### Every step -/

/-- The loop of `tick` keeps every bound. -/
theorem Inv.scan_later {s₀ : Scheduler} : ∀ t : Scheduler,
    ((Inv P slots t ∧ t.suspended = none) ∧ now ≤ t.clock) ∧ Later slots s₀ t →
      (∀ e due, e ∈ t.entries → Ready P now e due → e.target.id ∉ t.inFlight → t.inFlight.card < t.maxConcurrent →
        ((Inv P slots ((t.setLastFired e.stamp due).fire e.target due) ∧
            ((t.setLastFired e.stamp due).fire e.target due).suspended = none) ∧
          now ≤ ((t.setLastFired e.stamp due).fire e.target due).clock) ∧
          Later slots s₀ ((t.setLastFired e.stamp due).fire e.target due)) ∧
      ∀ e due last skipped, e ∈ t.entries → Late P now e due last skipped →
        Inv P slots { t with suspended := some (frame now e due skipped.length .bumpMissedRunCount) } ∧
          Later slots s₀ { t with suspended := some (frame now e due skipped.length .bumpMissedRunCount) } := by
  rintro t ⟨⟨⟨ht, hidle⟩, hnow⟩, hlater⟩
  constructor
  · intro e due he hready hfree hroom
    obtain ⟨hinv, hl⟩ := ht.fire_ready hidle hnow he hready hfree hroom
    exact ⟨⟨⟨hinv, hidle⟩, hnow⟩, hlater.trans hl⟩
  · intro e due last skipped he hlate
    obtain ⟨hinv, hl⟩ := ht.suspend hnow he hlate skipped.length
    exact ⟨hinv, hlater.trans hl⟩

theorem Inv.idle (h : Inv P slots s) (st : Store) : Inv P slots { s with store := st, suspended := none } where
  ok := (h.ok.withStore st).idle
  parsed := h.parsed
  own := fun _ hp => nomatch hp
  past := fun _ hp => nomatch hp
  ahead := fun f hf => ⟨(h.ahead f hf).bound, (h.ahead f hf).entry, fun _ hp => nomatch hp⟩
  increasing := h.increasing

theorem Later.idle (st : Store) : Later slots s { s with store := st, suspended := none } :=
  Later.of_ahead rfl fun _ _ h => ⟨h.bound, h.entry, fun _ hp => nomatch hp⟩

/-- The slot a suspended tick fires is beyond every bound as well. -/
theorem Inv.fire_suspended (h : Inv P slots s) {p : Suspended} (hp : s.suspended = some p) (st : Store)
    (hfree : p.target.id ∉ s.inFlight) (hroom : s.inFlight.card < s.maxConcurrent) :
    Inv P slots (({ s with store := st, suspended := none }.setLastFired p.stamp p.due).fire p.target p.due) ∧
      Later slots s (({ s with store := st, suspended := none }.setLastFired p.stamp p.due).fire p.target p.due) := by
  have hold : ∀ d ∈ s.entries, d.stamp = p.stamp → ∃ l, d.lastFiredSlot = some l ∧ l < p.due :=
    fun d hd hst => ((h.ok.frame p hp).2.2 d hd hst).2
  refine ⟨(h.idle st).fire rfl (h.past p hp) (h.own p hp) hold (fun f hf hid => ?_) hfree hroom,
    [⟨p.target, p.due⟩], rfl, fun id b hb => ⟨?_, fun f hf hid => ?_⟩⟩
  · exact (h.ahead f hf).frame p hp hid.symm
  · have hb' : Ahead slots { s with store := st, suspended := none } id b :=
      ⟨hb.bound, hb.entry, fun _ hq => nomatch hq⟩
    exact hb'.fire rfl hold
  · obtain rfl := List.mem_singleton.1 hf
    exact hb.frame p hp hid

theorem Inv.step (h : Inv P slots s) {l : Label} (hA : Anchored slots s l)
    (hparse : ∀ targets, l = .reload targets → ∀ t ∈ targets.rows,
      P.Parses t.frequencyCron (slots t.frequencyCron)) (hs : s.step P l = some s') :
    Inv P slots s' ∧ Later slots s s' := by
  have hrefl : Later slots s s := Later.of_ahead rfl fun _ _ h => h
  cases l with
  | tick =>
    obtain rfl : s.tick P = s' := Option.some.inj hs
    unfold Scheduler.tick
    split_ifs with hsome
    · exact ⟨h, hrefl⟩
    · exact scan_rule (J := fun t => Inv P slots t ∧ Later slots s t) (fun t ht => ⟨ht.1.1.1, ht.2⟩)
        (fun t e due ht => (Inv.scan_later t ht).1 e due)
        (fun t e due last skipped ht => (Inv.scan_later t ht).2 e due last skipped) s.entries s
        ⟨⟨⟨h, by simpa using hsome⟩, le_rfl⟩, hrefl⟩ (fun _ he => he) h.ok.sorted
  | resume failure =>
    obtain ⟨p, hp, ⟨-, -, rfl⟩ | ⟨-, -, st, -, rfl⟩ | ⟨-, rfl⟩⟩ := resume_cases hs
    · have hkeep : ∀ id b, Ahead slots s id b → Ahead slots { s with
          store := (Sql.bumpMissedRunCount p.target.id p.skipped s.store).2
          suspended := some { p with await := .recordAlert } } id b := by
        intro id b hb
        refine ⟨hb.bound, hb.entry, fun q hq hid => ?_⟩
        obtain rfl := Option.some.inj hq
        exact hb.frame p hp hid
      refine ⟨⟨h.ok.step hs, h.parsed, fun q hq => ?_, fun q hq => ?_, fun f hf => hkeep _ _ (h.ahead f hf),
        h.increasing⟩, Later.of_ahead rfl hkeep⟩
      · obtain rfl := Option.some.inj hq
        exact h.own p hp
      · obtain rfl := Option.some.inj hq
        exact h.past p hp
    · have hnow := (h.ok.frame p hp).1
      refine scan_after_rule (J := fun t => Inv P slots t ∧ Later slots s t) (fun t ht => ⟨ht.1.1.1, ht.2⟩)
        (fun t e due ht => (Inv.scan_later t ht).1 e due)
        (fun t e due last skipped ht => (Inv.scan_later t ht).2 e due last skipped) (h.idle st).ok
        (fun _ => ⟨⟨⟨h.idle st, rfl⟩, hnow⟩, Later.idle st⟩) fun hfree hroom => ?_
      obtain ⟨hinv, hl⟩ := h.fire_suspended hp st hfree hroom
      exact ⟨⟨⟨hinv, rfl⟩, hnow⟩, hl⟩
    · exact ⟨h.idle s.store, Later.idle s.store⟩
  | reload targets =>
    obtain rfl : s.reload P targets.rows = s' := Option.some.inj hs
    exact ⟨h.reload hA (hparse targets rfl),
      Later.of_ahead reload_calls fun _ _ hb => hb.reload hA (hparse targets rfl)⟩
  | settle i =>
    have hok := h.ok.settle hs
    obtain ⟨f, -, rfl⟩ := Option.map_eq_some_iff.1 hs
    have hkeep : ∀ id b, Ahead slots s id b → Ahead slots
        { s with running := s.running.eraseIdx i, inFlight := s.inFlight.erase f.target.id } id b :=
      fun _ _ hb => ⟨hb.bound, hb.entry, hb.frame⟩
    exact ⟨⟨hok, h.parsed, h.own, h.past, fun f hf => hkeep _ _ (h.ahead f hf), h.increasing⟩,
      Later.of_ahead rfl hkeep⟩
  | elapse ms =>
    have hok := h.ok.step hs
    obtain rfl := Option.some.inj hs
    have hle : s.clock ≤ s.clock + ms := Int.le_add_of_nonneg_right (Int.natCast_nonneg ms)
    have hkeep : ∀ id b, Ahead slots s id b → Ahead slots
        { s with clock := s.clock + ms, store := { s.store with now := s.store.now + ms } } id b :=
      fun _ _ hb => ⟨hb.bound.trans hle, hb.entry, hb.frame⟩
    exact ⟨⟨hok, h.parsed, h.own, fun p hp => (h.past p hp).trans hle, fun f hf => hkeep _ _ (h.ahead f hf),
      h.increasing⟩, Later.of_ahead rfl hkeep⟩

theorem Inv.run (h : Inv P slots s) {tr : List Label}
    (hparse : ∀ targets, Label.reload targets ∈ tr → ∀ t ∈ targets.rows,
      P.Parses t.frequencyCron (slots t.frequencyCron))
    (hA : Runs.Along (Scheduler.step P) (fun s l _ => Anchored slots s l) s tr) (hr : Runs.run (Scheduler.step P) s tr = some s') :
    Inv P slots s' ∧ Later slots s s' := by
  have hlabels : Runs.Along (Scheduler.step P) (fun _ l _ => ∀ targets, l = .reload targets → ∀ t ∈ targets.rows,
      P.Parses t.frequencyCron (slots t.frequencyCron)) s tr :=
    Runs.Along.of_labels fun l hl targets heq => hparse targets (heq ▸ hl)
  refine (hA.and hlabels).inv (I := fun t => Inv P slots t ∧ Later slots s t)
    ⟨h, Later.of_ahead rfl fun _ _ h => h⟩ (fun t l t' ht hs hC => ?_) hr
  obtain ⟨hinv, hlater⟩ := ht.1.step hC.1 hC.2 hs
  exact ⟨hinv, ht.2.trans hlater⟩

variable (slots) in
theorem firing_discipline {maxConcurrent : Nat} {clock : Time} {store : Store} {tr : List Label}
    (hparse : ∀ targets, Label.reload targets ∈ tr → ∀ t ∈ targets.rows,
      P.Parses t.frequencyCron (slots t.frequencyCron))
    (hA : Runs.Along (step P) (fun s l _ => Anchored slots s l) (init maxConcurrent clock store) tr)
    (hr : Runs.run (step P) (init maxConcurrent clock store) tr = some s) :
    Disciplined P (init maxConcurrent clock store) tr s where
  increasing := (Inv.run (Inv.init maxConcurrent clock store) hparse hA hr).1.firedSlots
  noOverlap := (Ok.run hr).1.running
  limit := (Ok.run hr).1.room.trans (Ok.run hr).2.le
  added := by
    rintro pre targets post s₁ s₂ rfl hpre hs t ht hnew f hf hid
    -- the run up to the reload, the reload, and the run after it
    have hA₁ := hA.append hpre
    obtain ⟨s₁', hpre', hpost⟩ := Runs.run_append_iff.1 hr
    obtain rfl : s₁ = s₁' := Option.some.inj (hpre.symm.trans hpre')
    obtain ⟨s₂', hs', hpost⟩ := Runs.run_cons_iff.1 hpost
    obtain rfl : s₂ = s₂' := Option.some.inj (hs.symm.trans hs')
    obtain ⟨hA₁, hA₂⟩ := hA₁ s₂ hs
    have hmem : Label.reload targets ∈ pre ++ Label.reload targets :: post := by simp
    have hinv₁ : Inv P slots s₁ :=
      (Inv.run (Inv.init maxConcurrent clock store) (fun u hu => hparse u (by simp [hu])) hA.left hpre).1
    have hinv₂ := (hinv₁.step hA₁ (fun u hu => hparse u (hu ▸ hmem)) hs).1
    obtain ⟨-, new, hcalls, hlater⟩ := Inv.run hinv₂ (fun u hu => hparse u (by simp [hu])) hA₂ hpost
    have hahead : Ahead slots s₂ t.id s₁.clock := by
      obtain rfl : s₁.reload P targets.rows = s₂ := Option.some.inj hs
      exact ahead_added hA₁ (hparse targets hmem) ht hnew
    rw [hcalls, List.drop_left] at hf
    exact (hlater t.id s₁.clock hahead).2 f hf hid

def everyHour : ActiveTargets := ⟨[{ makeMonitoredApi with frequencyCron := "0 * * * *" }], by decide⟩

def noTargets : ActiveTargets := ⟨[], by decide⟩

theorem firing_discipline_twoMinutes :
    ∃ s, Runs.run (step CronParser.minutesAndHours) (init 1 210000 Store.empty)
        [.reload ActiveTargets.everyMinute, .elapse 35000, .tick, .settle 0, .elapse 60000, .tick] = some s ∧
      s.firedSlots 1 = [240000, 300000] ∧
      Disciplined CronParser.minutesAndHours (init 1 210000 Store.empty)
        [.reload ActiveTargets.everyMinute, .elapse 35000, .tick, .settle 0, .elapse 60000, .tick] s := by
  obtain ⟨s, hr, hs⟩ := Option.map_eq_some_iff.1 (show
    (Runs.run (step CronParser.minutesAndHours) (init 1 210000 Store.empty)
      [.reload ActiveTargets.everyMinute, .elapse 35000, .tick, .settle 0, .elapse 60000, .tick]).map (fun s => s.firedSlots 1) =
      some [240000, 300000] by decide +kernel)
  refine ⟨s, hr, hs, firing_discipline CronParser.minuteAndHourSlots (fun targets hmem t ht => ?_) ?_ hr⟩
  · obtain rfl : targets = ActiveTargets.everyMinute := by simpa using hmem
    obtain rfl : t = makeMonitoredApi := by simpa [ActiveTargets.everyMinute] using ht
    exact CronParser.minutesAndHours_parses (Or.inl rfl)
  · intro s₁ _
    exact ⟨⟨fun e he => absurd he List.not_mem_nil, fun t _ _ p hp => nomatch hp⟩, fun _ _ => ⟨trivial, fun _ _ =>
      ⟨trivial, fun _ _ => ⟨trivial, fun _ _ => ⟨trivial, fun _ _ => ⟨trivial, trivial⟩⟩⟩⟩⟩⟩

/-- A check every minute fires 04:00, the target is removed and added again with an hourly expression, and that
expression is changed back: the entry is still anchored to 00:00, and 04:00 fires once more. -/
theorem changed_cron_refires : ¬ ∀ (P : CronParser) (slots : String → Set Time) (maxConcurrent : Nat) (clock : Time)
    (store : Store) (tr : List Label) (s : Scheduler),
    (∀ targets, Label.reload targets ∈ tr → ∀ t ∈ targets.rows, P.Parses t.frequencyCron (slots t.frequencyCron)) →
    Runs.run (step P) (init maxConcurrent clock store) tr = some s →
    Disciplined P (init maxConcurrent clock store) tr s := by
  intro h
  obtain ⟨s, hr, hs⟩ := Option.map_eq_some_iff.1 (show
    (Runs.run (step CronParser.minutesAndHours) (init 1 210000 Store.empty)
      [.reload ActiveTargets.everyMinute, .elapse 35000, .tick, .settle 0, .reload noTargets, .elapse 15000, .reload everyHour,
        .elapse 10000, .reload ActiveTargets.everyMinute, .tick, .resume none, .resume none]).map (fun s => s.firedSlots 1) =
      some [240000, 240000] by decide +kernel)
  have hd := h _ CronParser.minuteAndHourSlots _ _ _ _ s ?_ hr
  · have hinc := hd.increasing 1
    rw [hs] at hinc
    exact absurd hinc (by decide)
  · intro targets hmem t ht
    have htargets : targets = ActiveTargets.everyMinute ∨ targets = noTargets ∨ targets = everyHour := by
      simp only [List.mem_cons, Label.reload.injEq, reduceCtorEq, List.not_mem_nil, or_false, false_or] at hmem
      rcases hmem with h | h | h | h
      · exact Or.inl h
      · exact Or.inr (Or.inl h)
      · exact Or.inr (Or.inr h)
      · exact Or.inl h
    rcases htargets with rfl | rfl | rfl
    · obtain rfl : t = makeMonitoredApi := by simpa [ActiveTargets.everyMinute] using ht
      exact CronParser.minutesAndHours_parses (Or.inl rfl)
    · exact absurd ht List.not_mem_nil
    · obtain rfl : t = { makeMonitoredApi with frequencyCron := "0 * * * *" } := by simpa [everyHour] using ht
      exact CronParser.minutesAndHours_parses (Or.inr rfl)

end Scheduler

end CronMonitor
