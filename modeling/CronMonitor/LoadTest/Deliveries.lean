import CronMonitor.LoadTest.WebhookSink
import CronMonitor.Lib.Runs

/-!
# The numbers of deliveries

The attempts of an event should be numbered from 1 on without gap or repetition, and a sink should never hold more than
its cap. Both are told from a count that comes before the insertion: they hold as long as nothing is counted while
another delivery of the event, or enough of the sink's, are on their way into the table.
-/

namespace CronMonitor.LoadTest.WebhookSink
open Runs

def Call.sinkId : Call → Uuid
  | .countDeliveries _ sink => sink.id
  | .priorAttempts d => d.sinkId
  | .insertDelivery d => d.sinkId

/-- The call has passed the cap of the sink. -/
def Call.isPast (sinkId : Uuid) : Call → Bool
  | .countDeliveries _ _ => false
  | .priorAttempts d => d.sinkId = sinkId
  | .insertDelivery d => d.sinkId = sinkId

/-- The event that the call has a number for. -/
def Call.numbered : Call → Option (Uuid × String)
  | .insertDelivery d => some (d.sinkId, d.eventId)
  | _ => none

namespace Sys

variable {env : HookEnv} {s s' : Sys}

/-- The numbers given to the deliveries of an event. -/
def attempts (s : Sys) (sinkId : Uuid) (eventId : String) : List Nat :=
  (s.deliveries.filter fun d => d.sinkId = sinkId && d.eventId = eventId).map (·.attempt)

/-- The calls that have passed the cap of a sink and not inserted. -/
def past (s : Sys) (sinkId : Uuid) : Nat := s.calls.countP (·.isPast sinkId)

/-- What every state should satisfy. -/
structure Booked (s : Sys) : Prop where
  attempts : ∀ sinkId eventId, (s.attempts sinkId eventId).Perm (List.range' 1 (s.priorAttempts sinkId eventId))
  cap : ∀ sinkId, s.countDeliveries sinkId ≤ MAX_DELIVERIES_PER_SINK

/-- A count is taken when no other delivery of the event has its number and is not inserted, and the cap is asked for
when it is not used up by those that have passed it. -/
def Apart (s : Sys) (l : Label) (_ : Sys) : Prop :=
  match l with
  | .resume k _ =>
    match s.calls[k]? with
    | some (.countDeliveries _ sink) =>
      MAX_DELIVERIES_PER_SINK ≤ s.countDeliveries sink.id ∨
        s.countDeliveries sink.id + s.past sink.id < MAX_DELIVERIES_PER_SINK
    | some (.priorAttempts d) => some (d.sinkId, d.eventId) ∉ s.calls.map (·.numbered)
    | _ => True
  | _ => True

structure Inv (s : Sys) : Prop where
  known : ∀ r ∈ s.sinks, r.id < s.nextUuid
  named : ∀ c ∈ s.calls, c.sinkId < s.nextUuid
  single : (s.calls.filterMap (·.numbered)).Nodup
  next : ∀ d, .insertDelivery d ∈ s.calls → d.sinkId ∈ s.sinks.map (·.id) →
    d.attempt = s.priorAttempts d.sinkId d.eventId + 1
  attempts : ∀ sinkId eventId, s.attempts sinkId eventId = List.range' 1 (s.priorAttempts sinkId eventId)
  cap : ∀ sinkId, s.countDeliveries sinkId + s.past sinkId ≤ MAX_DELIVERIES_PER_SINK

theorem Inv.booked (h : Inv s) : s.Booked where
  attempts sinkId eventId := by rw [h.attempts]
  cap sinkId := (Nat.le_add_right _ _).trans (h.cap sinkId)

theorem perm_calls {k : Nat} {c : Call} (hk : s.calls[k]? = some c) : (c :: s.calls.eraseIdx k).Perm s.calls := by
  obtain ⟨hlt, rfl⟩ := List.getElem?_eq_some_iff.1 hk
  exact List.getElem_cons_eraseIdx_perm hlt

/-- A call that returns without an insertion leaves the books alone. -/
theorem Inv.leave (h : Inv s) (k : Nat) : Inv (s.leave k) where
  known := h.known
  named c hc := h.named c (List.mem_of_mem_eraseIdx hc)
  single := h.single.sublist ((List.eraseIdx_sublist _ _).filterMap _)
  next d hd := h.next d (List.mem_of_mem_eraseIdx hd)
  attempts := h.attempts
  cap sinkId := by
    have hle : (s.calls.eraseIdx k).countP (·.isPast sinkId) ≤ s.calls.countP (·.isPast sinkId) :=
      (List.eraseIdx_sublist _ _).countP_le
    exact (Nat.add_le_add_left hle _).trans (h.cap sinkId)

theorem Inv.answer (h : Inv s) (status : Nat) : Inv (s.answer status) :=
  ⟨h.known, h.named, h.single, h.next, h.attempts, h.cap⟩

/-- The calls past a cap are the call picked, if it is one, and the others. -/
theorem past_eq {k : Nat} {c : Call} (hk : s.calls[k]? = some c) (sinkId : Uuid) :
    s.past sinkId = (s.calls.eraseIdx k).countP (·.isPast sinkId) + if c.isPast sinkId then 1 else 0 := by
  rw [past, ← (perm_calls hk).countP_eq, List.countP_cons]

theorem past_goOn (k : Nat) (c : Call) (sinkId : Uuid) : (s.goOn k c).past sinkId =
    (s.calls.eraseIdx k).countP (·.isPast sinkId) + if c.isPast sinkId then 1 else 0 := by
  simp only [past, goOn, List.countP_append, List.countP_singleton]

theorem Inv.receive (h : Inv s) (hook : IncomingHook) : Inv (s.receive hook) := by
  unfold Sys.receive
  split
  · exact h.answer 404
  · rename_i sink hsink
    split_ifs with henabled hlarge
    · exact h.answer 404
    · exact h.answer 413
    · refine ⟨h.known, fun c hc => ?_, ?_, fun d hd hmem => ?_, h.attempts, fun sinkId => ?_⟩
      · rcases List.mem_append.1 hc with hc | hc
        · exact h.named c hc
        · obtain rfl := List.mem_singleton.1 hc
          exact h.known sink (List.mem_of_find?_eq_some hsink)
      · simpa [List.filterMap_append, Call.numbered] using h.single
      · rcases List.mem_append.1 hd with hd | hd
        · exact h.next d hd hmem
        · cases List.mem_singleton.1 hd
      · have hcap := h.cap sinkId
        simpa [past, countDeliveries, List.countP_append, Call.isPast] using hcap

/-- A call that has asked for the cap goes on to its number. -/
theorem Inv.countDeliveries (h : Inv s) {k : Nat} {hook : IncomingHook} {sink : Sink} {d : Draft}
    (hk : s.calls[k]? = some (.countDeliveries hook sink)) (hd : d.sinkId = sink.id)
    (hroom : s.countDeliveries sink.id + s.past sink.id < MAX_DELIVERIES_PER_SINK) : Inv (s.goOn k (.priorAttempts d)) := by
  have hsub : (s.calls.eraseIdx k).Sublist s.calls := List.eraseIdx_sublist _ _
  refine ⟨h.known, fun c hc => ?_, ?_, fun d' hd' hmem => ?_, h.attempts, fun sinkId => ?_⟩
  · rcases List.mem_append.1 hc with hc | hc
    · exact h.named c (hsub.subset hc)
    · obtain rfl := List.mem_singleton.1 hc
      have hlt : sink.id < s.nextUuid := h.named _ (List.mem_of_getElem? hk)
      rw [Call.sinkId, hd]
      exact hlt
  · have hsingle := h.single.sublist (hsub.filterMap _)
    simpa [goOn, List.filterMap_append, Call.numbered] using hsingle
  · rcases List.mem_append.1 hd' with hd' | hd'
    · exact h.next d' (hsub.subset hd') hmem
    · cases List.mem_singleton.1 hd'
  · have hcap := h.cap sinkId
    have hpast := past_eq hk sinkId
    have hold : Call.isPast sinkId (.countDeliveries hook sink) = false := rfl
    have hnew : Call.isPast sinkId (.priorAttempts d) = decide (sink.id = sinkId) := by rw [Call.isPast, hd]
    rw [hold] at hpast
    simp only [Bool.false_eq_true, if_false, Nat.add_zero] at hpast
    rw [past_goOn, hnew, ← hpast]
    simp only [decide_eq_true_eq]
    change s.countDeliveries sinkId + _ ≤ _
    by_cases heq : sink.id = sinkId
    · subst heq
      rw [if_pos rfl]
      omega
    · rw [if_neg heq]
      omega

/-- A call takes its number. -/
theorem Inv.priorAttempts (h : Inv s) {k : Nat} {d : Draft} (hk : s.calls[k]? = some (.priorAttempts d))
    (hapart : some (d.sinkId, d.eventId) ∉ s.calls.map (·.numbered)) :
    Inv (s.goOn k (.insertDelivery ⟨d, s.priorAttempts d.sinkId d.eventId + 1⟩)) := by
  have hsub : (s.calls.eraseIdx k).Sublist s.calls := List.eraseIdx_sublist _ _
  refine ⟨h.known, fun c hc => ?_, ?_, fun d' hd' hmem => ?_, h.attempts, fun sinkId => ?_⟩
  · rcases List.mem_append.1 hc with hc | hc
    · exact h.named c (hsub.subset hc)
    · obtain rfl := List.mem_singleton.1 hc
      have hlt : d.sinkId < s.nextUuid := h.named _ (List.mem_of_getElem? hk)
      exact hlt
  · have hsingle := h.single.sublist (hsub.filterMap _)
    rw [goOn, List.filterMap_append, List.nodup_append]
    refine ⟨hsingle, by simp [Call.numbered], ?_⟩
    rintro key hkey _ hnew rfl
    obtain ⟨c, hc, hkey⟩ := List.mem_filterMap.1 hkey
    simp only [Call.numbered, List.filterMap_cons, List.filterMap_nil, List.mem_singleton] at hnew
    exact hapart (List.mem_map.2 ⟨c, hsub.subset hc, hkey.trans (congrArg some hnew)⟩)
  · rcases List.mem_append.1 hd' with hd' | hd'
    · exact h.next d' (hsub.subset hd') hmem
    · cases List.mem_singleton.1 hd'
      rfl
  · have hcap := h.cap sinkId
    have hsame : (s.goOn k (.insertDelivery ⟨d, s.priorAttempts d.sinkId d.eventId + 1⟩)).past sinkId = s.past sinkId := by
      rw [past_goOn, past_eq hk]
      rfl
    rw [hsame]
    exact hcap

/-- A delivery is stored under the number it was given. -/
theorem Inv.insertDelivery (h : Inv s) {k : Nat} {d : Delivery} (hk : s.calls[k]? = some (.insertDelivery d))
    (hsink : d.sinkId ∈ s.sinks.map (·.id)) : Inv ({ s with deliveries := s.deliveries ++ [d] }.leave k) := by
  have hsub : (s.calls.eraseIdx k).Sublist s.calls := List.eraseIdx_sublist _ _
  have hnumber := h.next d (List.mem_of_getElem? hk) hsink
  have hprior (sinkId : Uuid) (eventId : String) :
      ({ s with deliveries := s.deliveries ++ [d] }.leave k).priorAttempts sinkId eventId =
        s.priorAttempts sinkId eventId + if d.sinkId = sinkId ∧ d.eventId = eventId then 1 else 0 := by
    simp [Sys.priorAttempts, Sys.leave, List.countP_append, List.countP_cons]
  refine ⟨h.known, fun c hc => h.named c (hsub.subset hc), h.single.sublist (hsub.filterMap _), fun d' hd' hmem => ?_,
    fun sinkId eventId => ?_, fun sinkId => ?_⟩
  · -- no other call has a number of this event
    have hperm := ((perm_calls hk).filterMap (·.numbered)).nodup_iff.2 h.single
    simp only [List.filterMap_cons, Call.numbered] at hperm
    have hother : (d'.sinkId, d'.eventId) ≠ (d.sinkId, d.eventId) := by
      intro heq
      exact (List.nodup_cons.1 hperm).1 (List.mem_filterMap.2 ⟨_, hd', congrArg some heq⟩)
    rw [hprior, if_neg fun heq => hother (by rw [heq.1, heq.2]), Nat.add_zero]
    exact h.next d' (hsub.subset hd') hmem
  · rw [hprior]
    have happend : ({ s with deliveries := s.deliveries ++ [d] }.leave k).attempts sinkId eventId =
        s.attempts sinkId eventId ++ (([d].filter fun d => d.sinkId = sinkId && d.eventId = eventId).map (·.attempt)) := by
      simp only [Sys.attempts, Sys.leave, List.filter_append, List.map_append]
    rw [happend, h.attempts]
    by_cases heq : d.sinkId = sinkId ∧ d.eventId = eventId
    · obtain ⟨rfl, rfl⟩ := heq
      rw [if_pos ⟨rfl, rfl⟩, List.range'_1_concat]
      simp [hnumber, Nat.add_comm]
    · have hmiss : (decide (d.sinkId = sinkId) && decide (d.eventId = eventId)) = false := by simpa using heq
      simp [heq, hmiss]
  · have hcap := h.cap sinkId
    have hpast := past_eq hk sinkId
    have hone : Call.isPast sinkId (.insertDelivery d) = decide (d.sinkId = sinkId) := rfl
    rw [hone] at hpast
    simp only [decide_eq_true_eq] at hpast
    have hcount : ({ s with deliveries := s.deliveries ++ [d] }.leave k).countDeliveries sinkId =
        s.countDeliveries sinkId + if d.sinkId = sinkId then 1 else 0 := by
      simp [Sys.countDeliveries, Sys.leave, List.countP_append, List.countP_cons]
    have hleft : ({ s with deliveries := s.deliveries ++ [d] }.leave k).past sinkId =
        (s.calls.eraseIdx k).countP (·.isPast sinkId) := rfl
    rw [hcount, hleft]
    omega

theorem Inv.updateSink (h : Inv s) (id : Uuid) {f : Sink → Sink} (hf : ∀ r, (f r).id = r.id) : Inv (s.updateSink id f) := by
  have hids : (s.updateSink id f).sinks.map (·.id) = s.sinks.map (·.id) := by
    rw [Sys.updateSink, List.map_map]
    refine List.map_congr_left fun r _ => ?_
    simp only [Function.comp_apply]
    split_ifs
    · exact hf r
    · rfl
  refine ⟨fun r hr => ?_, h.named, h.single, fun d hd hmem => h.next d hd (hids ▸ hmem), h.attempts, h.cap⟩
  have hmem : r.id ∈ s.sinks.map (·.id) := by
    rw [← hids]
    exact List.mem_map_of_mem hr
  obtain ⟨r', hr', hid⟩ := List.mem_map.1 hmem
  exact hid ▸ h.known r' hr'

theorem Inv.createSink (h : Inv s) (slug : String) :
    Inv { s with sinks := s.sinks ++ [⟨s.nextUuid, slug, none, true⟩], nextUuid := s.nextUuid + 1 } where
  known r hr := by
    rcases List.mem_append.1 hr with hr | hr
    · exact Nat.lt_succ_of_lt (h.known r hr)
    · obtain rfl := List.mem_singleton.1 hr
      exact Nat.lt_succ_self _
  named c hc := Nat.lt_succ_of_lt (h.named c hc)
  single := h.single
  next d hd hmem := by
    rw [List.map_append, List.mem_append] at hmem
    rcases hmem with hmem | hmem
    · exact h.next d hd hmem
    · have heq : d.sinkId = s.nextUuid := by simpa using hmem
      have hlt := h.named _ hd
      exact absurd hlt (by simp [Call.sinkId, heq])
  attempts := h.attempts
  cap := h.cap

/-- The deliveries of a sink go with it. -/
theorem Inv.deleteSink (h : Inv s) (id : Uuid) :
    Inv { s with sinks := s.sinks.filter (·.id ≠ id), deliveries := s.deliveries.filter (·.sinkId ≠ id) } := by
  have hkept (sinkId : Uuid) {p : Delivery → Bool} (hne : sinkId ≠ id) (hp : ∀ d, p d = true → d.sinkId = sinkId) :
      (s.deliveries.filter (·.sinkId ≠ id)).filter p = s.deliveries.filter p := by
    rw [List.filter_filter]
    refine List.filter_congr fun d _ => ?_
    cases hpd : p d with
    | false => rfl
    | true => simp [hp d hpd, hne]
  have hgone {p : Delivery → Bool} (hp : ∀ d, p d = true → d.sinkId = id) :
      (s.deliveries.filter (·.sinkId ≠ id)).filter p = [] := by
    rw [List.filter_filter, List.filter_eq_nil_iff]
    intro d _ hpd
    simp only [Bool.and_eq_true, decide_eq_true_eq, ne_eq] at hpd
    exact hpd.2 (hp d hpd.1)
  refine ⟨fun r hr => h.known r (List.mem_of_mem_filter hr), h.named, h.single, fun d hd hmem => ?_,
    fun sinkId eventId => ?_, fun sinkId => ?_⟩
  · obtain ⟨r, hr, hid⟩ := List.mem_map.1 hmem
    obtain ⟨hr, hne⟩ := List.mem_filter.1 hr
    have hnext := h.next d hd (List.mem_map.2 ⟨r, hr, hid⟩)
    rw [hnext, Sys.priorAttempts, Sys.priorAttempts, List.countP_eq_length_filter, List.countP_eq_length_filter,
      hkept d.sinkId (by simpa [hid] using hne) (by simp +contextual)]
  · unfold Sys.attempts Sys.priorAttempts
    rw [List.countP_eq_length_filter]
    by_cases hne : sinkId = id
    · rw [hgone (by simp +contextual [hne])]
      rfl
    · have hattempts := h.attempts sinkId eventId
      unfold Sys.attempts Sys.priorAttempts at hattempts
      rw [List.countP_eq_length_filter] at hattempts
      rw [hkept sinkId hne (by simp +contextual), hattempts]
  · have hcap := h.cap sinkId
    have hle : (s.deliveries.filter (·.sinkId ≠ id)).countP (fun d => d.sinkId = sinkId) ≤ s.countDeliveries sinkId :=
      List.filter_sublist.countP_le
    exact (Nat.add_le_add_right hle _).trans hcap

theorem Inv.step {l : Label} (h : Inv s) (hs : step env s l = some s') (hC : Apart s l s') : Inv s' := by
  cases l with
  | receive hook =>
    cases hs
    exact h.receive hook
  | resume k now =>
    obtain ⟨c, hk, rfl⟩ := Option.map_eq_some_iff.1 hs
    simp only [Apart, hk] at hC
    cases c with
    | countDeliveries hook sink =>
      simp only [Sys.resume]
      split_ifs with hfull
      · exact (h.leave k).answer 429
      · split
        · exact h.leave k
        · exact h.countDeliveries hk rfl (hC.resolve_left hfull)
    | priorAttempts d => exact h.priorAttempts hk hC
    | insertDelivery d =>
      simp only [Sys.resume]
      split_ifs with hsink
      · refine (h.insertDelivery hk ?_).answer _
        obtain ⟨r, hr, hid⟩ := List.any_eq_true.1 hsink
        exact List.mem_map.2 ⟨r, hr, by simpa using hid⟩
      · exact h.leave k
  | fails k =>
    simp only [Sys.step] at hs
    split_ifs at hs
    cases hs
    exact h.leave k
  | createSink slug =>
    simp only [Sys.step] at hs
    split_ifs at hs
    cases hs
    exact h.createSink slug
  | setSecret id secret =>
    cases hs
    exact h.updateSink id fun _ => rfl
  | setEnabled id enabled =>
    cases hs
    exact h.updateSink id fun _ => rfl
  | deleteSink id =>
    cases hs
    exact h.deleteSink id

theorem Inv.init : Inv init where
  known := by simp [Sys.init]
  named := by simp [Sys.init]
  single := List.nodup_nil
  next := by simp [Sys.init]
  attempts _ _ := rfl
  cap _ := Nat.zero_le _

/-- Along every run whose counts are taken apart from each other, the attempts of every event are numbered in order and
no sink exceeds its cap. -/
theorem deliveries_booked (env : HookEnv) {tr : List Label} (hr : run (step env) init tr = some s)
    (hC : Along (step env) Apart init tr) : s.Booked :=
  (hC.inv Inv.init (fun _ _ _ h hs hc => h.step hs hc) hr).booked

/-! ### A number given twice -/

instance (s : Sys) (l : Label) (s' : Sys) : Decidable (Apart s l s') := by
  unfold Apart
  split
  · split <;> infer_instance
  · infer_instance

/-- A cipher that is never asked, and bodies that are not JSON. -/
def plainEnv : HookEnv := ⟨fun _ => false, fun _ => none, fun _ _ _ => none, fun _ => none, id, fun b _ => some b⟩

def retriedHook : IncomingHook := ⟨"a1b2", "x", some "evt_1", none, none⟩

/-- A delivery and its retry: each counts before the other is inserted. -/
def overlappingRetry : List Label :=
  [.createSink "a1b2", .receive retriedHook, .receive retriedHook, .resume 0 0, .resume 0 0, .resume 0 0, .resume 0 0,
    .resume 0 0, .resume 0 0]

theorem attempt_given_twice : ∃ s, run (step plainEnv) init overlappingRetry = some s ∧
    s.attempts 0 "evt_1" = [1, 1] ∧ ¬ s.Booked := by
  obtain ⟨s, hr, hs⟩ := Option.map_eq_some_iff.1 (show (run (step plainEnv) init overlappingRetry).map
    (fun s => (s.attempts 0 "evt_1", s.priorAttempts 0 "evt_1")) = some ([1, 1], 2) by decide +kernel)
  obtain ⟨hattempts, hprior⟩ := Prod.mk.inj hs
  refine ⟨s, hr, hattempts, fun h => ?_⟩
  have hperm := h.attempts 0 "evt_1"
  rw [hattempts, hprior] at hperm
  exact absurd hperm (by decide)

/-- The retry comes when the delivery is stored. -/
def laterRetry : List Label :=
  [.createSink "a1b2", .receive retriedHook, .resume 0 0, .resume 0 0, .resume 0 0, .receive retriedHook, .resume 0 0,
    .resume 0 0, .resume 0 0]

theorem laterRetry_booked : ∃ s, run (step plainEnv) init laterRetry = some s ∧ s.attempts 0 "evt_1" = [1, 2] ∧ s.Booked := by
  obtain ⟨s, hr, hs⟩ := Option.map_eq_some_iff.1 (show (run (step plainEnv) init laterRetry).map
    (fun s => s.attempts 0 "evt_1") = some [1, 2] by decide +kernel)
  exact ⟨s, hr, hs, deliveries_booked plainEnv hr (by decide +kernel)⟩

end Sys

end CronMonitor.LoadTest.WebhookSink
