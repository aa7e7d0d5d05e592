import CronMonitor.Simulator.Webhooks

/-!
# The course of a delivery

`Course` says what a delivery may go through: attempts that count up from one, each after a wait that doubles, until one
is acknowledged or the last one is refused. Every delivery of every run follows it, whatever the endpoint answers and
whatever is lost, and the counters account for all of them.
-/

namespace CronMonitor

namespace Simulator

open Runs

/-- Where a delivery is: it waits for its next attempt, or for an answer, or neither. -/
inductive Phase
  | waits (attempt due : Nat)
  | awaits (attempt since : Nat)
  | ended
deriving DecidableEq, Repr

/-- What the configurations of a run have in common: at least `least` attempts and at most `most`, and a first delay of
at least `delay` that does not double beyond what `setTimeout` takes. -/
structure Backoff where
  least : Nat
  most : Nat
  delay : Nat

structure WebhookConfig.Within (c : WebhookConfig) (B : Backoff) : Prop where
  least : B.least ≤ c.attempts
  most : c.attempts ≤ B.most
  delay : B.delay ≤ c.baseDelayMs
  small : c.baseDelayMs * 2 ^ (c.attempts - 1) ≤ 2147483647

/-- The new configurations keep within the bounds. -/
def HookLabel.keeps {Data : Type} (B : Backoff) : HookLabel Data → Prop
  | .patch config | .reset config => config.Within B
  | _ => True

/-- The acts of a delivery so far, and where it is; `stale` says that a reset came after it started. -/
inductive Course (B : Backoff) (stale : Prop) : List Act → Phase → Prop
  | starts (due : Nat) : Course B stale [] (.waits 1 due)
  | posts {acts : List Act} {n due at_ : Nat} (h : Course B stale acts (.waits n due)) (hdue : due ≤ at_) :
      Course B stale (acts ++ [.posted n at_]) (.awaits n at_)
  | refused {acts : List Act} {n since at_ wait : Nat} (h : Course B stale acts (.awaits n since)) (hn : n < B.most)
      (hat : since ≤ at_) (hwait : B.delay * 2 ^ (n - 1) ≤ wait) :
      Course B stale (acts ++ [.refused n at_ wait]) (.waits (n + 1) (at_ + wait))
  | acknowledged {acts : List Act} {n since : Nat} (h : Course B stale acts (.awaits n since)) :
      Course B stale (acts ++ [.acknowledged]) .ended
  | gaveUp {acts : List Act} {n since : Nat} (h : Course B stale acts (.awaits n since)) (hn : B.least ≤ n ∨ stale) :
      Course B stale (acts ++ [.gaveUp]) .ended

section Course

variable {B : Backoff} {stale stale' : Prop} {acts : List Act} {phase : Phase}

theorem Course.mono (h : Course B stale acts phase) (hstale : stale → stale') : Course B stale' acts phase := by
  induction h with
  | starts due => exact .starts due
  | posts h hdue ih => exact ih.posts hdue
  | refused h hn hat hwait ih => exact ih.refused hn hat hwait
  | acknowledged h ih => exact ih.acknowledged
  | gaveUp h hn ih => exact ih.gaveUp (hn.imp_right hstale)

def Act.isPost : Act → Bool
  | .posted .. => true
  | _ => false

/-- The attempts so far, by the phase. -/
def Phase.attempts : Phase → Nat → Prop
  | .waits n _, k => n = k + 1
  | .awaits n _, k => n = k
  | .ended, _ => True

/-- The attempts are counted up from one and stay within the bound. -/
theorem Course.posts_le (h : Course B stale acts phase) (hmost : 1 ≤ B.most) :
    acts.countP Act.isPost ≤ B.most ∧ phase.attempts (acts.countP Act.isPost) ∧
      ∀ n due, phase = .waits n due → n ≤ B.most := by
  induction h with
  | starts due =>
    refine ⟨Nat.zero_le _, rfl, ?_⟩
    rintro n _ ⟨⟩
    exact hmost
  | posts h hdue ih =>
    obtain ⟨-, hattempts, hle⟩ := ih
    simp only [Phase.attempts] at hattempts
    have hcount := hle _ _ rfl
    rw [List.countP_append]
    refine ⟨?_, ?_, ?_⟩
    · simp [Act.isPost]
      omega
    · simp [Phase.attempts, Act.isPost, hattempts]
    · rintro n _ ⟨⟩
  | refused h hn hat hwait ih =>
    obtain ⟨hle, hattempts, -⟩ := ih
    rw [List.countP_append]
    refine ⟨by simpa [Act.isPost] using hle, by simpa [Phase.attempts, Act.isPost] using hattempts, ?_⟩
    rintro n _ ⟨⟩
    exact hn
  | acknowledged h ih | gaveUp h hn ih =>
    rw [List.countP_append]
    refine ⟨by simpa [Act.isPost] using ih.1, trivial, ?_⟩
    rintro n _ ⟨⟩

end Course

namespace Hooks

variable {B : Backoff} {Data : Type} {T : HookText Data} {E : Endpoint} {s s' : Hooks Data} {c : Nat}

/-- What has happened to a delivery. -/
def acts (s : Hooks Data) (c : Nat) : List Act := (s.log.filter (·.1 = c)).map Prod.snd

/-- The timers of a delivery, with the attempts that are due. -/
def waiting (s : Hooks Data) (c : Nat) : List (Nat × Nat) :=
  (s.timers.filter (·.2.chain = c)).map fun t => (t.1, t.2.attempt)

def inFlight (s : Hooks Data) (c : Nat) : List Nat :=
  ((s.posting.map (·.delivery)).filter (·.chain = c)).map (·.attempt)

/-- A delivery has followed its course to where the timers and the open POSTs have it. -/
inductive Stands (B : Backoff) (s : Hooks Data) (c epoch : Nat) : Prop
  | waits (n due : Nat) (h : Course B (epoch < s.epoch) (s.acts c) (.waits n due)) (hwaiting : s.waiting c = [(due, n)])
      (hflight : s.inFlight c = [])
  | dropped (n due : Nat) (h : Course B (epoch < s.epoch) (s.acts c) (.waits n due)) (hepoch : epoch < s.epoch)
      (hwaiting : s.waiting c = []) (hflight : s.inFlight c = [])
  | awaits (n since : Nat) (h : Course B (epoch < s.epoch) (s.acts c) (.awaits n since)) (hsince : since ≤ s.now)
      (hwaiting : s.waiting c = []) (hflight : s.inFlight c = [n])
  | ended (h : Course B (epoch < s.epoch) (s.acts c) .ended) (hwaiting : s.waiting c = []) (hflight : s.inFlight c = [])

/-- The deliveries that are under way and count. -/
def live (s : Hooks Data) : Nat := s.timers.countP (·.2.epoch = s.epoch) + s.posting.length

/-- A delivery as it started, but for the attempt. -/
def Started (s : Hooks Data) (d : Delivery Data) : Prop := s.started[d.chain]? = some { d with attempt := 1 }

/-- The invariant of all runs. -/
structure Delivers (B : Backoff) (s : Hooks Data) : Prop where
  stands : ∀ c d, s.started[c]? = some d → s.Stands B c d.epoch
  timers : ∀ t ∈ s.timers, s.Started t.2
  posting : ∀ p ∈ s.posting, s.Started p.delivery
  log : ∀ e ∈ s.log, e.1 < s.started.length
  epochs : ∀ d ∈ s.started, d.epoch ≤ s.epoch
  since : s.before ≤ s.started.length
  counters : s.sent + s.failed + s.live = s.started.length - s.before + s.carried

/-! ### A step leaves the other deliveries alone -/

/-- Nothing of a delivery changes. -/
theorem Stands.of_perm {epoch : Nat} (h : s.Stands B c epoch) (hacts : s'.acts c = s.acts c)
    (hwaiting : (s'.waiting c).Perm (s.waiting c)) (hflight : (s'.inFlight c).Perm (s.inFlight c))
    (hepoch : s.epoch ≤ s'.epoch) (hnow : s.now ≤ s'.now) : s'.Stands B c epoch := by
  have hstale : epoch < s.epoch → epoch < s'.epoch := fun hlt => hlt.trans_le hepoch
  cases h with
  | waits n due h hw hf =>
    rw [hw] at hwaiting
    rw [hf] at hflight
    exact .waits n due (hacts ▸ h.mono hstale) hwaiting.eq_singleton hflight.eq_nil
  | dropped n due h he hw hf =>
    rw [hw] at hwaiting
    rw [hf] at hflight
    exact .dropped n due (hacts ▸ h.mono hstale) (hstale he) hwaiting.eq_nil hflight.eq_nil
  | awaits n since h hs hw hf =>
    rw [hw] at hwaiting
    rw [hf] at hflight
    exact .awaits n since (hacts ▸ h.mono hstale) (hs.trans hnow) hwaiting.eq_nil hflight.eq_singleton
  | ended h hw hf =>
    rw [hw] at hwaiting
    rw [hf] at hflight
    exact .ended (hacts ▸ h.mono hstale) hwaiting.eq_nil hflight.eq_nil

/-- A delivery with a timer waits for that one. -/
theorem Stands.due {epoch due n : Nat} {rest : List (Nat × Nat)} (h : s.Stands B c epoch)
    (hperm : (s.waiting c).Perm ((due, n) :: rest)) :
    Course B (epoch < s.epoch) (s.acts c) (.waits n due) ∧ rest = [] ∧ s.inFlight c = [] := by
  cases h with
  | waits n' due' h hw hf =>
    rw [hw] at hperm
    obtain ⟨heq, rfl⟩ := List.cons.inj hperm.symm.eq_singleton
    obtain ⟨rfl, rfl⟩ := Prod.mk.inj heq
    exact ⟨h, rfl, hf⟩
  | dropped n' due' h he hw hf | awaits n' since h hs hw hf | ended h hw hf =>
    rw [hw] at hperm
    exact absurd hperm.symm.eq_nil (List.cons_ne_nil _ _)

/-- A delivery with an open POST awaits its answer. -/
theorem Stands.flying {epoch n : Nat} {rest : List Nat} (h : s.Stands B c epoch)
    (hperm : (s.inFlight c).Perm (n :: rest)) :
    (∃ since ≤ s.now, Course B (epoch < s.epoch) (s.acts c) (.awaits n since)) ∧ rest = [] ∧ s.waiting c = [] := by
  cases h with
  | awaits n' since h hs hw hf =>
    rw [hf] at hperm
    obtain ⟨rfl, rfl⟩ := List.cons.inj hperm.symm.eq_singleton
    exact ⟨⟨since, hs, h⟩, rfl, hw⟩
  | waits n' due h hw hf | dropped n' due h he hw hf | ended h hw hf =>
    rw [hf] at hperm
    exact absurd hperm.symm.eq_nil (List.cons_ne_nil _ _)

theorem acts_concat {e : Nat × Act} (hlog : s'.log = s.log ++ [e]) :
    s'.acts c = s.acts c ++ if e.1 = c then [e.2] else [] := by
  rw [acts, hlog, List.filter_append, List.map_append, acts, List.filter_singleton]
  by_cases hc : e.1 = c <;> simp [hc]

theorem waiting_concat {t : Nat × Delivery Data} (htimers : s'.timers = s.timers ++ [t]) :
    s'.waiting c = s.waiting c ++ if t.2.chain = c then [(t.1, t.2.attempt)] else [] := by
  rw [waiting, htimers, List.filter_append, List.map_append, waiting, List.filter_singleton]
  by_cases hc : t.2.chain = c <;> simp [hc]

theorem inFlight_concat {p : Posting Data} (hposting : s'.posting = s.posting ++ [p]) :
    s'.inFlight c = s.inFlight c ++ if p.delivery.chain = c then [p.delivery.attempt] else [] := by
  rw [inFlight, hposting, List.map_append, List.filter_append, List.map_append, inFlight, List.map_singleton,
    List.filter_singleton]
  by_cases hc : p.delivery.chain = c <;> simp [hc]

/-- What a timer that is taken out leaves. -/
theorem waiting_erase {k : Nat} {t : Nat × Delivery Data} (hk : s.timers[k]? = some t)
    (htimers : s'.timers = s.timers.eraseIdx k) :
    (s.waiting c).Perm ((if t.2.chain = c then [(t.1, t.2.attempt)] else []) ++ s'.waiting c) := by
  obtain ⟨hlt, rfl⟩ := List.getElem?_eq_some_iff.1 hk
  have hperm := ((List.getElem_cons_eraseIdx_perm hlt).symm.filter (fun t => decide (t.2.chain = c))).map
    fun t => (t.1, t.2.attempt)
  rw [waiting, waiting, htimers]
  by_cases hc : (s.timers[k]).2.chain = c
  · rw [if_pos hc]
    rwa [List.filter_cons_of_pos (by simpa using hc)] at hperm
  · rw [if_neg hc]
    rwa [List.filter_cons_of_neg (by simpa using hc)] at hperm

theorem inFlight_erase {k : Nat} {p : Posting Data} (hk : s.posting[k]? = some p)
    (hposting : s'.posting = s.posting.eraseIdx k) :
    (s.inFlight c).Perm ((if p.delivery.chain = c then [p.delivery.attempt] else []) ++ s'.inFlight c) := by
  obtain ⟨hlt, rfl⟩ := List.getElem?_eq_some_iff.1 hk
  have hperm := (((List.getElem_cons_eraseIdx_perm hlt).symm.map (·.delivery)).filter
    (fun d => decide (d.chain = c))).map (·.attempt)
  rw [inFlight, inFlight, hposting]
  rw [List.map_cons] at hperm
  by_cases hc : (s.posting[k]).delivery.chain = c
  · rw [if_pos hc]
    rwa [List.filter_cons_of_pos (by simpa using hc)] at hperm
  · rw [if_neg hc]
    rwa [List.filter_cons_of_neg (by simpa using hc)] at hperm

theorem Started.mono {d : Delivery Data} (h : s.Started d) {ds : List (Delivery Data)}
    (hstarted : s'.started = s.started ++ ds) : s'.Started d := by
  rw [Started, hstarted]
  exact List.getElem?_append_left (List.getElem?_eq_some_iff.1 h).1 ▸ h

theorem Started.of_first {d : Delivery Data} (h : s.started[d.chain]? = some d) (hfirst : d.attempt = 1) : s.Started d := by
  obtain ⟨chain, url, env, attempt, epoch⟩ := d
  subst hfirst
  exact h

theorem Started.epoch {d d' : Delivery Data} (h : s.Started d) (hd' : s.started[d.chain]? = some d') :
    d'.epoch = d.epoch := by
  obtain rfl := Option.some.inj (hd'.symm.trans h)
  rfl

/-! ### Deliveries that start -/

/-- Deliveries that are numbered in order. -/
theorem filter_chain {ds : List (Nat × Delivery Data)} {base : Nat}
    (h : ∀ i t, ds[i]? = some t → t.2.chain = base + i) (i : Nat) :
    ds.filter (·.2.chain = base + i) = ds[i]?.toList := by
  induction ds generalizing base i with
  | nil => rfl
  | cons t ds ih =>
    have hhead : t.2.chain = base := h 0 t rfl
    have htail : ∀ j u, ds[j]? = some u → u.2.chain = base + 1 + j := by
      intro j u hu
      rw [h (j + 1) u hu]
      omega
    cases i with
    | zero =>
      have hnone : ds.filter (·.2.chain = base) = [] := by
        refine List.filter_eq_nil_iff.2 fun u hu => ?_
        obtain ⟨j, hj⟩ := List.mem_iff_getElem?.1 hu
        simp only [htail j u hj, decide_eq_true_eq]
        omega
      rw [Nat.add_zero, List.filter_cons_of_pos (by simpa using hhead), hnone]
      rfl
    | succ i =>
      have hi : base + (i + 1) = base + 1 + i := by omega
      refine (List.filter_cons_of_neg ?_).trans ?_
      · simp only [hhead, decide_eq_true_eq]
        omega
      · rw [hi, ih htail i]
        rfl

/-- An event starts deliveries that are numbered on, each with a timer. -/
theorem emit_spec (env : WebhookEnvelope Data) (r r' : ℚ) : ∃ ds : List (Nat × Delivery Data),
    s.emit env r r' = { s with timers := s.timers ++ ds, started := s.started ++ ds.map Prod.snd } ∧
      ∀ i t, ds[i]? = some t → t.2.chain = s.started.length + i ∧ t.2.attempt = 1 ∧ t.2.epoch = s.epoch ∧ t.2.env = env := by
  unfold emit
  split
  · exact ⟨[], by simp, fun i t ht => by cases ht⟩
  · next url _ =>
    simp only
    refine ⟨((List.range (s.copies r)).map fun i => (i, (⟨s.started.length + i, url, env, 1, s.epoch⟩ : Delivery Data))).map
      fun c => (s.now + timerDelay (s.firstDelay env.type r' + c.1 * 5), c.2), ?_, fun i t ht => ?_⟩
    · simp only [List.map_map]
      rfl
    · rw [List.map_map, List.getElem?_map] at ht
      obtain ⟨j, hj, rfl⟩ := Option.map_eq_some_iff.1 ht
      have hi : i < s.copies r := by simpa using (List.getElem?_eq_some_iff.1 hj).1
      obtain rfl := Option.some.inj ((List.getElem?_range hi).symm.trans hj)
      exact ⟨rfl, rfl, rfl, rfl⟩

theorem Started.starts {ds : List (Nat × Delivery Data)} (hstarted : s'.started = s.started ++ ds.map Prod.snd)
    (hds : ∀ i t, ds[i]? = some t → t.2.chain = s.started.length + i ∧ t.2.attempt = 1) {t : Nat × Delivery Data}
    (ht : t ∈ ds) : s'.Started t.2 := by
  obtain ⟨i, hi⟩ := List.mem_iff_getElem?.1 ht
  obtain ⟨hchain, hfirst⟩ := hds i t hi
  refine .of_first ?_ hfirst
  rw [hstarted, hchain, List.getElem?_append_right (Nat.le_add_right ..), Nat.add_sub_cancel_left, List.getElem?_map, hi]
  rfl

theorem Delivers.starts (h : s.Delivers B) {ds : List (Nat × Delivery Data)} (htimers : s'.timers = s.timers ++ ds)
    (hstarted : s'.started = s.started ++ ds.map Prod.snd)
    (hds : ∀ i t, ds[i]? = some t → t.2.chain = s.started.length + i ∧ t.2.attempt = 1 ∧ t.2.epoch = s.epoch)
    (hlog : s'.log = s.log) (hposting : s'.posting = s.posting) (hepoch : s'.epoch = s.epoch) (hnow : s'.now = s.now)
    (hbefore : s'.before = s.before) (hcarried : s'.carried = s.carried) (hsent : s'.sent = s.sent)
    (hfailed : s'.failed = s.failed) : s'.Delivers B := by
  have hchain := filter_chain fun i t ht => (hds i t ht).1
  have hacts (c : Nat) : s'.acts c = s.acts c := by rw [acts, hlog, acts]
  have hflight (c : Nat) : s'.inFlight c = s.inFlight c := by rw [inFlight, hposting, inFlight]
  have hwaiting (c : Nat) : s'.waiting c =
      s.waiting c ++ (ds.filter (·.2.chain = c)).map fun t => (t.1, t.2.attempt) := by
    rw [waiting, htimers, List.filter_append, List.map_append, waiting]
  have hnew (i : Nat) : s.acts (s.started.length + i) = [] ∧ s.waiting (s.started.length + i) = [] ∧
      s.inFlight (s.started.length + i) = [] := by
    refine ⟨?_, ?_, ?_⟩
    · rw [acts, List.filter_eq_nil_iff.2, List.map_nil]
      intro e he
      have hlt := h.log e he
      simp only [decide_eq_true_eq]
      omega
    · rw [waiting, List.filter_eq_nil_iff.2, List.map_nil]
      intro t ht
      have hlt := (List.getElem?_eq_some_iff.1 (h.timers t ht)).1
      simp only [decide_eq_true_eq]
      omega
    · rw [inFlight, List.filter_eq_nil_iff.2, List.map_nil]
      intro d hd
      obtain ⟨p, hp, rfl⟩ := List.mem_map.1 hd
      have hlt := (List.getElem?_eq_some_iff.1 (h.posting p hp)).1
      simp only [decide_eq_true_eq]
      omega
  refine ⟨fun c d hd => ?_, fun t ht => ?_, fun p hp => ?_, fun e he => ?_, fun d hd => ?_, ?_, ?_⟩
  · rw [hstarted] at hd
    rcases Nat.lt_or_ge c s.started.length with hlt | hge
    · rw [List.getElem?_append_left hlt] at hd
      have hnone : ds.filter (·.2.chain = c) = [] := by
        refine List.filter_eq_nil_iff.2 fun t ht => ?_
        obtain ⟨i, hi⟩ := List.mem_iff_getElem?.1 ht
        simp only [(hds i t hi).1, decide_eq_true_eq]
        omega
      refine (h.stands c d hd).of_perm (hacts c) (.of_eq ?_) (.of_eq (hflight c)) hepoch.ge hnow.ge
      rw [hwaiting, hnone, List.map_nil, List.append_nil]
    · obtain ⟨i, rfl⟩ := Nat.exists_eq_add_of_le hge
      rw [List.getElem?_append_right hge, Nat.add_sub_cancel_left, List.getElem?_map] at hd
      obtain ⟨t, ht, rfl⟩ := Option.map_eq_some_iff.1 hd
      obtain ⟨hactsNil, hwaitingNil, hflightNil⟩ := hnew i
      refine .waits 1 t.1 ?_ ?_ ((hflight _).trans hflightNil)
      · rw [hacts, hactsNil]
        exact .starts t.1
      · rw [hwaiting, hwaitingNil, hchain, ht]
        simp [(hds i t ht).2.1]
  · rw [htimers] at ht
    rcases List.mem_append.1 ht with ht | ht
    · exact (h.timers t ht).mono hstarted
    · exact .starts hstarted (fun i t ht => ⟨(hds i t ht).1, (hds i t ht).2.1⟩) ht
  · exact (h.posting p (hposting ▸ hp)).mono hstarted
  · rw [hstarted, List.length_append]
    exact (h.log e (hlog ▸ he)).trans_le (Nat.le_add_right ..)
  · rw [hepoch]
    rw [hstarted] at hd
    rcases List.mem_append.1 hd with hd | hd
    · exact h.epochs d hd
    · obtain ⟨t, ht, rfl⟩ := List.mem_map.1 hd
      obtain ⟨i, hi⟩ := List.mem_iff_getElem?.1 ht
      exact (hds i t hi).2.2.le
  · rw [hbefore, hstarted, List.length_append]
    exact h.since.trans (Nat.le_add_right ..)
  · have hall : ds.countP (·.2.epoch = s.epoch) = ds.length := by
      refine List.countP_eq_length.2 fun t ht => ?_
      obtain ⟨i, hi⟩ := List.mem_iff_getElem?.1 ht
      simpa using (hds i t hi).2.2
    have hcounters := h.counters
    have hsince := h.since
    rw [live] at hcounters
    rw [live, hsent, hfailed, hbefore, hcarried, htimers, hposting, hepoch, hstarted, List.countP_append, hall,
      List.length_append, List.length_map]
    omega

/-! ### Timers -/

/-- The count of the timers that count. -/
theorem countP_eraseIdx {α : Type} {l : List α} {k : Nat} {a : α} (hk : l[k]? = some a) (p : α → Bool) :
    l.countP p = (l.eraseIdx k).countP p + if p a then 1 else 0 := by
  obtain ⟨hlt, rfl⟩ := List.getElem?_eq_some_iff.1 hk
  rw [← List.countP_cons]
  exact (List.getElem_cons_eraseIdx_perm hlt).symm.countP_eq _

theorem Delivers.timer (h : s.Delivers B) {k deadline : Nat} {d : Delivery Data} (hk : s.timers[k]? = some (deadline, d))
    (hdue : deadline ≤ s.now) (hepoch : d.epoch = s.epoch) :
    (({ s with timers := s.timers.eraseIdx k } : Hooks Data).post T d).Delivers B := by
  have hd : s.Started d := h.timers _ (List.mem_of_getElem? hk)
  refine ⟨fun c d' hd' => ?_, fun t ht => h.timers t (List.mem_of_mem_eraseIdx ht), fun p hp => ?_, fun e he => ?_,
    h.epochs, h.since, ?_⟩
  · have hwaiting : (s.waiting c).Perm _ :=
      @waiting_erase _ s (({ s with timers := s.timers.eraseIdx k } : Hooks Data).post T d) c k _ hk rfl
    have hacts : (({ s with timers := s.timers.eraseIdx k } : Hooks Data).post T d).acts c = s.acts c ++ _ :=
      acts_concat rfl
    have hflight : (({ s with timers := s.timers.eraseIdx k } : Hooks Data).post T d).inFlight c = s.inFlight c ++ _ :=
      inFlight_concat rfl
    simp only at hwaiting hacts hflight
    by_cases hc : d.chain = c
    · rw [if_pos hc] at hwaiting hacts hflight
      obtain ⟨hcourse, hrest, hnone⟩ := (h.stands c d' hd').due hwaiting
      refine .awaits d.attempt s.now ?_ le_rfl hrest (hflight.trans (by rw [hnone]; rfl))
      rw [hacts]
      exact hcourse.posts hdue
    · rw [if_neg hc] at hwaiting hacts hflight
      exact (h.stands c d' hd').of_perm (hacts.trans (List.append_nil _)) hwaiting.symm
        (.of_eq (hflight.trans (List.append_nil _))) le_rfl le_rfl
  · rcases List.mem_append.1 hp with hp | hp
    · exact h.posting p hp
    · obtain rfl := List.mem_singleton.1 hp
      exact hd
  · rcases List.mem_append.1 he with he | he
    · exact h.log e he
    · obtain rfl := List.mem_singleton.1 he
      exact (List.getElem?_eq_some_iff.1 hd).1
  · have hcount := countP_eraseIdx hk fun t => decide (t.2.epoch = s.epoch)
    have hcounters := h.counters
    rw [if_pos (by simpa using hepoch)] at hcount
    rw [live, hcount] at hcounters
    show s.sent + s.failed + ((s.timers.eraseIdx k).countP (·.2.epoch = s.epoch) + (s.posting ++ [_]).length) =
      s.started.length - s.before + s.carried
    rw [List.length_append, List.length_singleton]
    omega

/-- A timer of an epoch that is over does nothing. -/
theorem Delivers.stale (h : s.Delivers B) {k deadline : Nat} {d : Delivery Data} (hk : s.timers[k]? = some (deadline, d))
    (hepoch : d.epoch ≠ s.epoch) : ({ s with timers := s.timers.eraseIdx k } : Hooks Data).Delivers B := by
  have hd : s.Started d := h.timers _ (List.mem_of_getElem? hk)
  refine ⟨fun c d' hd' => ?_, fun t ht => h.timers t (List.mem_of_mem_eraseIdx ht), h.posting, h.log,
    h.epochs, h.since, ?_⟩
  · have hwaiting : (s.waiting c).Perm _ :=
      @waiting_erase _ s ({ s with timers := s.timers.eraseIdx k } : Hooks Data) c k _ hk rfl
    by_cases hc : d.chain = c
    · rw [if_pos hc] at hwaiting
      obtain ⟨hcourse, hrest, hnone⟩ := (h.stands c d' hd').due hwaiting
      have hd'epoch : d'.epoch = d.epoch := hd.epoch (hc ▸ hd')
      have hlt : d'.epoch < s.epoch :=
        lt_of_le_of_ne (h.epochs d' (List.mem_of_getElem? hd')) (hd'epoch ▸ hepoch)
      exact .dropped d.attempt deadline hcourse hlt hrest hnone
    · rw [if_neg hc] at hwaiting
      exact (h.stands c d' hd').of_perm rfl hwaiting.symm (.refl _) le_rfl le_rfl
  · have hcount := countP_eraseIdx hk fun t => decide (t.2.epoch = s.epoch)
    have hcounters := h.counters
    rw [if_neg (by simpa using hepoch)] at hcount
    rw [live, hcount] at hcounters
    exact hcounters

/-! ### Answers -/

theorem le_timerDelay {ms small : Nat} (h : small ≤ ms) (hms : ms ≤ 2147483647) : small ≤ timerDelay ms := by
  unfold timerDelay
  split_ifs <;> omega

/-- The wait before the next attempt doubles. -/
theorem le_backoff (hconfig : s.config.Within B) {n : Nat} (hn : n < s.config.attempts) :
    B.delay * 2 ^ (n - 1) ≤ s.backoff n := by
  have hpow : 2 ^ (n - 1) ≤ 2 ^ (s.config.attempts - 1) := Nat.pow_le_pow_right (by decide) (by omega)
  refine le_timerDelay (Nat.mul_le_mul_right _ hconfig.delay) ?_
  exact (Nat.mul_le_mul_left _ hpow).trans hconfig.small

/-- The POST that is answered is over, and its delivery goes on or ends. -/
theorem Delivers.concludes (h : s.Delivers B) (hconfig : s.config.Within B) {k : Nat} {p : Posting Data}
    (hk : s.posting[k]? = some p) (ok : Bool) :
    (({ s with posting := s.posting.eraseIdx k } : Hooks Data).conclude p.delivery ok).Delivers B := by
  have hd : s.Started p.delivery := h.posting p (List.mem_of_getElem? hk)
  have hlt : p.delivery.chain < s.started.length := (List.getElem?_eq_some_iff.1 hd).1
  have hflight (c : Nat) := @inFlight_erase _ s ({ s with posting := s.posting.eraseIdx k } : Hooks Data) c k p hk rfl
  have hother {s' : Hooks Data} {act : Act} {c : Nat} {d' : Delivery Data} (hd' : s.started[c]? = some d')
      (hc : p.delivery.chain ≠ c) (hlog : s'.log = s.log ++ [(p.delivery.chain, act)])
      (hposting : s'.posting = s.posting.eraseIdx k) (hwaiting : (s'.waiting c).Perm (s.waiting c))
      (hepoch : s'.epoch = s.epoch) (hnow : s'.now = s.now) : s'.Stands B c d'.epoch := by
    have hacts : s'.acts c = s.acts c := by rw [acts_concat hlog, if_neg hc, List.append_nil]
    have hperm := @inFlight_erase _ s s' c k p hk hposting
    rw [if_neg hc] at hperm
    exact (h.stands c d' hd').of_perm hacts hwaiting hperm.symm hepoch.ge hnow.ge
  have hlog {act : Act} : ∀ e ∈ s.log ++ [(p.delivery.chain, act)], e.1 < s.started.length := by
    intro e he
    rcases List.mem_append.1 he with he | he
    · exact h.log e he
    · obtain rfl := List.mem_singleton.1 he
      exact hlt
  have hposting : ∀ q ∈ s.posting.eraseIdx k, s.Started q.delivery := fun q hq => h.posting q (List.mem_of_mem_eraseIdx hq)
  have hlength : s.posting.length = (s.posting.eraseIdx k).length + 1 := by
    have hk' := (List.getElem?_eq_some_iff.1 hk).1
    rw [List.length_eraseIdx_of_lt hk']
    omega
  have hcounters := h.counters
  rw [live] at hcounters
  unfold conclude
  split_ifs with hok hagain
  · refine ⟨fun c d' hd' => ?_, h.timers, hposting, hlog, h.epochs, h.since, ?_⟩
    · by_cases hc : p.delivery.chain = c
      · have hperm := hflight c
        rw [if_pos hc] at hperm
        obtain ⟨⟨since, -, hcourse⟩, hrest, hnone⟩ := (h.stands c d' hd').flying hperm
        refine .ended ?_ hnone hrest
        rw [acts_concat (s := s) (e := (p.delivery.chain, .acknowledged)) rfl, if_pos hc]
        exact hcourse.acknowledged
      · exact hother hd' hc rfl rfl (.refl _) rfl rfl
    · show s.sent + 1 + s.failed + (s.timers.countP (·.2.epoch = s.epoch) + (s.posting.eraseIdx k).length) =
        s.started.length - s.before + s.carried
      omega
  · obtain ⟨hn, hepoch⟩ := hagain
    have hn : p.delivery.attempt < s.config.attempts := hn
    have hnext : s.Started { p.delivery with attempt := p.delivery.attempt + 1 } := hd
    refine ⟨fun c d' hd' => ?_, fun t ht => ?_, hposting, hlog, h.epochs, h.since, ?_⟩
    · by_cases hc : p.delivery.chain = c
      · have hperm := hflight c
        rw [if_pos hc] at hperm
        obtain ⟨⟨since, hsince, hcourse⟩, hrest, hnone⟩ := (h.stands c d' hd').flying hperm
        refine .waits (p.delivery.attempt + 1) (s.now + s.backoff p.delivery.attempt) ?_ ?_ hrest
        · rw [acts_concat (s := s) (e := (p.delivery.chain, .refused p.delivery.attempt s.now
            (s.backoff p.delivery.attempt))) rfl, if_pos hc]
          exact hcourse.refused (hn.trans_le hconfig.most) hsince (le_backoff hconfig hn)
        · rw [waiting_concat (s := s) (t := (s.now + s.backoff p.delivery.attempt,
            { p.delivery with attempt := p.delivery.attempt + 1 })) rfl, hnone, if_pos hc]
          rfl
      · refine hother hd' hc rfl rfl (.of_eq ?_) rfl rfl
        rw [waiting_concat (s := s) (t := (s.now + s.backoff p.delivery.attempt,
          { p.delivery with attempt := p.delivery.attempt + 1 })) rfl, if_neg hc, List.append_nil]
    · rcases List.mem_append.1 ht with ht | ht
      · exact h.timers t ht
      · obtain rfl := List.mem_singleton.1 ht
        exact hnext
    · have hcount : (s.timers ++ [(s.now + s.backoff p.delivery.attempt,
          ({ p.delivery with attempt := p.delivery.attempt + 1 } : Delivery Data))]).countP (·.2.epoch = s.epoch) =
            s.timers.countP (·.2.epoch = s.epoch) + 1 := by
        rw [List.countP_append, List.countP_singleton, if_pos (by simpa using hepoch)]
      show s.sent + s.failed + ((s.timers ++ [(s.now + s.backoff p.delivery.attempt,
        ({ p.delivery with attempt := p.delivery.attempt + 1 } : Delivery Data))]).countP (·.2.epoch = s.epoch) +
          (s.posting.eraseIdx k).length) = s.started.length - s.before + s.carried
      omega
  · refine ⟨fun c d' hd' => ?_, h.timers, hposting, hlog, h.epochs, h.since, ?_⟩
    · by_cases hc : p.delivery.chain = c
      · have hperm := hflight c
        rw [if_pos hc] at hperm
        obtain ⟨⟨since, -, hcourse⟩, hrest, hnone⟩ := (h.stands c d' hd').flying hperm
        refine .ended ?_ hnone hrest
        rw [acts_concat (s := s) (e := (p.delivery.chain, .gaveUp)) rfl, if_pos hc]
        refine hcourse.gaveUp ?_
        rw [not_and_or] at hagain
        rcases hagain with hn | hepoch
        · exact .inl (hconfig.least.trans (not_lt.1 hn))
        · have heq : d'.epoch = p.delivery.epoch := hd.epoch (hc ▸ hd')
          exact .inr (lt_of_le_of_ne (h.epochs d' (List.mem_of_getElem? hd')) (heq ▸ hepoch))
      · exact hother hd' hc rfl rfl (.refl _) rfl rfl
    · show s.sent + (s.failed + 1) + (s.timers.countP (·.2.epoch = s.epoch) + (s.posting.eraseIdx k).length) =
        s.started.length - s.before + s.carried
      omega

/-! ### All steps -/

/-- A reset keeps what is under way: the timers do nothing any more, and the answers are still counted. -/
theorem Delivers.reset (h : s.Delivers B) (config : WebhookConfig) : ({ s with
    config
    epoch := s.epoch + 1
    sent := 0
    failed := 0
    retried := 0
    before := s.started.length
    carried := s.posting.length } : Hooks Data).Delivers B := by
  refine ⟨fun c d hd => (h.stands c d hd).of_perm rfl (.refl _) (.refl _) (Nat.le_succ _) le_rfl, h.timers, h.posting,
    h.log, fun d hd => (h.epochs d hd).trans (Nat.le_succ _), le_rfl, ?_⟩
  have hnone : s.timers.countP (·.2.epoch = s.epoch + 1) = 0 := by
    refine List.countP_eq_zero.2 fun t ht => ?_
    have hstarted : s.started[t.2.chain]? = some { t.2 with attempt := 1 } := h.timers t ht
    have hle : t.2.epoch ≤ s.epoch := h.epochs { t.2 with attempt := 1 } (List.mem_of_getElem? hstarted)
    simp only [decide_eq_true_eq]
    omega
  show 0 + 0 + (s.timers.countP (·.2.epoch = s.epoch + 1) + s.posting.length) = _
  rw [hnone]
  simp

/-- What a POST came to does not move it. -/
theorem Delivers.arrives (h : s.Delivers B) {k : Nat} {d : Delivery Data} {request : HookRequest} {old new : Option Nat}
    (hk : s.posting[k]? = some ⟨d, request, old⟩) (receiver : Receiver Data) :
    ({ s with posting := s.posting.set k ⟨d, request, new⟩, receiver } : Hooks Data).Delivers B := by
  have hlt := (List.getElem?_eq_some_iff.1 hk).1
  have hdeliveries : (s.posting.set k ⟨d, request, new⟩).map (·.delivery) = s.posting.map (·.delivery) := by
    refine List.ext_getElem? fun j => ?_
    rw [List.map_set, List.getElem?_set]
    split_ifs with hj hlt'
    · subst hj
      rw [List.getElem?_map, hk]
      rfl
    · subst hj
      exact absurd (by simpa using hlt) hlt'
    · rfl
  refine ⟨fun c d' hd' => ?_, h.timers, fun p hp => ?_, h.log, h.epochs, h.since, ?_⟩
  · refine (h.stands c d' hd').of_perm rfl (.refl _) (.of_eq ?_) le_rfl le_rfl
    simp only [inFlight, hdeliveries]
  · have hmem : p.delivery ∈ s.posting.map (·.delivery) := hdeliveries ▸ List.mem_map_of_mem hp
    obtain ⟨q, hq, heq⟩ := List.mem_map.1 hmem
    exact heq ▸ h.posting q hq
  · have hcounters := h.counters
    rw [live] at hcounters
    rw [live]
    simpa using hcounters

theorem conclude_config (d : Delivery Data) (ok : Bool) : (s.conclude d ok).config = s.config := by
  unfold conclude
  split_ifs <;> rfl

theorem Delivers.step (h : s.Delivers B) (hconfig : s.config.Within B) {l : HookLabel Data}
    (hstep : s.step T E l = some s') (hl : l.keeps B) : s'.Delivers B ∧ s'.config.Within B := by
  cases l with
  | emit hex type createdAt data r r' =>
    cases hstep
    obtain ⟨ds, hemit, hds⟩ := emit_spec (s := s) ⟨"evt_" ++ hex, type, createdAt, data⟩ r r'
    rw [hemit]
    refine ⟨h.starts rfl rfl (fun i t ht => ?_) rfl rfl rfl rfl rfl rfl rfl rfl, hconfig⟩
    obtain ⟨hchain, hfirst, hepoch, -⟩ := hds i t ht
    exact ⟨hchain, hfirst, hepoch⟩
  | elapse ms =>
    cases hstep
    refine ⟨⟨fun c d hd => ?_, h.timers, h.posting, h.log, h.epochs, h.since, h.counters⟩, hconfig⟩
    exact (h.stands c d hd).of_perm rfl (.refl _) (.refl _) le_rfl (Nat.le_add_right ..)
  | timer k =>
    simp only [Hooks.step] at hstep
    split at hstep
    · cases hstep
    · next deadline d hk =>
      split_ifs at hstep with hdue hepoch
      · cases hstep
        exact ⟨h.timer hk (not_lt.1 hdue) hepoch, hconfig⟩
      · cases hstep
        exact ⟨h.stale hk hepoch, hconfig⟩
  | arrive k =>
    simp only [Hooks.step] at hstep
    split at hstep
    · next d request hk =>
      cases hstep
      exact ⟨h.arrives hk _, hconfig⟩
    · cases hstep
  | answer k =>
    simp only [Hooks.step] at hstep
    split at hstep
    · next d request status hk =>
      cases hstep
      exact ⟨h.concludes hconfig hk _, (conclude_config d _).symm ▸ hconfig⟩
    · cases hstep
  | lost k =>
    obtain ⟨p, hk, rfl⟩ := Option.map_eq_some_iff.1 hstep
    exact ⟨h.concludes hconfig hk false, (conclude_config p.delivery false).symm ▸ hconfig⟩
  | inject r =>
    cases hstep
    refine ⟨⟨fun c d hd => ?_, h.timers, h.posting, h.log, h.epochs, h.since, h.counters⟩, hconfig⟩
    exact (h.stands c d hd).of_perm rfl (.refl _) (.refl _) le_rfl le_rfl
  | patch config =>
    cases hstep
    refine ⟨⟨fun c d hd => ?_, h.timers, h.posting, h.log, h.epochs, h.since, h.counters⟩, hl⟩
    exact (h.stands c d hd).of_perm rfl (.refl _) (.refl _) le_rfl le_rfl
  | reset config =>
    cases hstep
    exact ⟨h.reset config, hl⟩

theorem init_delivers (config : WebhookConfig) : (Hooks.init Data config).Delivers B where
  stands c d hd := by cases hd
  timers := List.forall_mem_nil _
  posting := List.forall_mem_nil _
  log := List.forall_mem_nil _
  epochs := List.forall_mem_nil _
  since := le_rfl
  counters := rfl

/-- What holds of the deliveries and of the counters. -/
structure Accounted (B : Backoff) (s : Hooks Data) : Prop where
  stands : ∀ c d, s.started[c]? = some d → s.Stands B c d.epoch
  attempts : ∀ c d, s.started[c]? = some d → (s.acts c).countP Act.isPost ≤ B.most
  counters : s.sent + s.failed + s.live = s.started.length - s.before + s.carried

theorem Stands.course {epoch : Nat} (h : s.Stands B c epoch) :
    ∃ phase, Course B (epoch < s.epoch) (s.acts c) phase := by
  cases h with
  | waits n due h | dropped n due h | awaits n since h | ended h => exact ⟨_, h⟩

theorem Delivers.accounted (h : s.Delivers B) (hmost : 1 ≤ B.most) : s.Accounted B where
  stands := h.stands
  attempts c d hd := by
    obtain ⟨phase, hcourse⟩ := (h.stands c d hd).course
    exact (hcourse.posts_le hmost).1
  counters := h.counters

/-- Whatever arrives, is answered, late or lost, in every order, with configurations patched and the simulator reset:
every delivery follows its course to where it is, and the counters account for what was started since the last reset and
for the POSTs that were open then. -/
theorem deliveries_law (T : HookText Data) (E : Endpoint) (B : Backoff) (config : WebhookConfig) (tr : List (HookLabel Data))
    (hmost : 1 ≤ B.most) (hconfig : config.Within B) (hkeeps : ∀ l ∈ tr, l.keeps B) :
    Throughout (step T E) (Accounted B) (.init Data config) tr := by
  have hlabels : Along (step T E) (fun _ l _ => l.keeps B) (.init Data config) tr := .of_labels hkeeps
  have h₀ : (Hooks.init Data config).Delivers B := init_delivers config
  refine ⟨h₀.accounted hmost, hlabels.under_inv (I := fun s => s.Delivers B ∧ s.config.Within B) ⟨h₀, hconfig⟩ ?_⟩
  intro s l s' hs hstep hl
  have hs' := hs.1.step hs.2 hstep hl
  exact ⟨hs', hs'.1.accounted hmost⟩

/-- One payout and its two POSTs, with their signatures under the default secret. -/
def payoutText : HookText Unit where
  stringify env := "\x7b\"id\":\"" ++ env.id ++ "\",\"type\":\"" ++ env.type ++ "\",\"createdAt\":\"" ++ env.createdAt ++
    "\",\"data\":\x7b\x7d\x7d"
  parse text :=
    if text = "\x7b\"id\":\"evt_0011223344556677\",\"type\":\"payout.accepted\",\"createdAt\":\"2023-11-14T22:13:20.000Z\"," ++
      "\"data\":\x7b\x7d\x7d" then
      some ⟨"evt_0011223344556677", "payout.accepted", "2023-11-14T22:13:20.000Z", ()⟩
    else none
  hmac _ text :=
    if "evt_0011223344556677.1700000000.".toList.isPrefixOf text.toList then "NQo7QtT4elikeKmG/FqWw09K7KOxvpcyX+30EaoydpE="
    else if "evt_0011223344556677.1700000001.".toList.isPrefixOf text.toList then
      "92Y8v8HM/qB8Rk9YKxS0KdrTm/T/FtCaAwD91tK7iKc="
    else ""
  number text :=
    if text.toList.all Char.isDigit ∧ text ≠ "" then some (text.toList.foldl (fun n c => 10 * n + (c.toNat - 48)) 0 : Nat)
    else none

def ownHooks : WebhookConfig := ⟨some "http://127.0.0.1:9000/webhook", "sim-webhook-secret", 0, false, 6, 1000⟩

/-- The answer to the first POST is lost, and the second one is acknowledged. -/
def answeredLate : List (HookLabel Unit) :=
  [.elapse 1700000000000, .emit "0011223344556677" "payout.accepted" "2023-11-14T22:13:20.000Z" () 0 0, .elapse 1, .timer 0,
    .arrive 0, .lost 0, .elapse 1000, .timer 0, .arrive 0, .answer 0]

theorem deliveries_law_answeredLate :
    (run (step payoutText ⟨"sim-webhook-secret", fun _ _ => none⟩) (.init Unit ownHooks) answeredLate).map
      (fun s => (s.acts 0, s.sent, s.failed)) = some ([.posted 1 1700000000001, .refused 1 1700000000001 1000,
        .posted 2 1700000001001, .acknowledged], 1, 0) ∧
    Throughout (step payoutText ⟨"sim-webhook-secret", fun _ _ => none⟩) (Accounted ⟨6, 6, 1000⟩) (.init Unit ownHooks)
      answeredLate :=
  ⟨by decide +kernel, deliveries_law payoutText _ ⟨6, 6, 1000⟩ ownHooks _ (by decide)
    ⟨by decide, by decide, by decide, by decide⟩ (by simp [answeredLate, HookLabel.keeps])⟩

end Hooks

end Simulator

end CronMonitor
