import CronMonitor.Simulator.CanonicalBody
import CronMonitor.Simulator.Idempotent

/-!
# Idempotency keys

`Keys` is `idempotent` by itself, in the mode `correct`: the runs that it is given are for any operation on any resource
and may end in any way, and requests come while they are under way. `Served.step_keys` says that the simulator behind
`idempotent` uses its map like this.

A key is claimed for a body and for all requests of one credential, whatever their operation: the map knows nothing of it.
-/

namespace CronMonitor

namespace Simulator

variable {ω Body ρ : Type}

/-- A POST. -/
structure Post (ω Body : Type) where
  cred : String
  key : String
  op : ω
  body : Body

def Post.text (p : Post ω Body) : String := keyText p.cred p.key

/-- Whose key it is. -/
def Post.slot (p : Post ω Body) : String × String := (p.cred, p.key)

/-- How a run ends: with a reply, with a `SimError` that has a status and a body, or with another error. -/
inductive RunEnd (ρ : Type)
  | replied (reply : ρ)
  | refused (status : Nat) (reply : ρ)
  | crashed

/-- What is stored of it. -/
def RunEnd.stored : RunEnd ρ → Option ρ
  | .replied reply => some reply
  | .refused status reply => if status < 500 then some reply else none
  | .crashed => none

/-- What the map has for a key: the hash of the body, and the answer when there is one. -/
structure Held (ρ : Type) where
  hash : String
  reply : Option ρ

/-- The answer that it stands for. -/
def Held.answer (held : Held ρ) : Except IdemError ρ :=
  match held.reply with
  | some reply => .ok reply
  | none => .error .requestInFlight

/-- `running` has the requests whose run has been started and after which `idempotent` has not gone on. -/
structure Keys (ω Body ρ : Type) where
  idem : OrderedMap String (Held ρ)
  running : List (Post ω Body)

inductive KeyAct (ω Body ρ : Type)
  | post (p : Post ω Body)
  /-- `idempotent` goes on after the `i`-th run under way. -/
  | ended (i : Nat) (outcome : RunEnd ρ)

namespace Keys

variable (hashOf : Body → String) (s : Keys ω Body ρ)

def init : Keys ω Body ρ := ⟨.empty, []⟩

/-- The answer that a request gets without a run. -/
def answer (p : Post ω Body) : Option (Except IdemError ρ) :=
  if Served.validKey p.key then
    (s.idem.get? p.text).map fun held =>
      if held.hash = hashOf p.body then held.answer else .error .idempotencyKeyReused
  else some (.error .invalidInput)

/-- The map after a run: the answer, or a free key. -/
def concluded (p : Post ω Body) (outcome : RunEnd ρ) : OrderedMap String (Held ρ) :=
  match outcome.stored with
  | some reply => s.idem.set p.text ⟨hashOf p.body, some reply⟩
  | none => s.idem.filter (· ≠ p.text)

def step : KeyAct ω Body ρ → Option (Keys ω Body ρ)
  | .post p =>
    if (s.answer hashOf p).isSome then some s
    else some ⟨s.idem.set p.text ⟨hashOf p.body, none⟩, s.running ++ [p]⟩
  | .ended i outcome => s.running[i]?.map fun p => ⟨s.concluded hashOf p outcome, s.running.eraseIdx i⟩

/-- The request on whose behalf a step is taken. -/
def actor : KeyAct ω Body ρ → Option (Post ω Body)
  | .post p => some p
  | .ended i _ => s.running[i]?

end Keys

/-! ### The law -/

/-- The credential has no colon, and the body is one of `B`. -/
def Post.Fits (B : Set Body) (p : Post ω Body) : Prop := ':' ∉ p.cred.toList ∧ p.body ∈ B

/-- A request is one of `P`. -/
def KeyAct.Brings (P : Post ω Body → Prop) : KeyAct ω Body ρ → Prop
  | .post p => P p
  | .ended .. => True

namespace Keys
open Runs

section Law

variable (hashOf : Body → String) (Same : Body → Body → Prop) (Fits : Post ω Body → Prop) (Others : Post ω Body → Post ω Body → Prop)
  (s : Keys ω Body ρ)

/-- The key of `p` is taken: a request with the same body gets `answer`, one with another is refused, and none runs. -/
def Taken (p : Post ω Body) (answer : Except IdemError ρ) : Prop :=
  ∀ q, Fits q → q.slot = p.slot → s.step hashOf (.post q) = some s ∧
    (Same p.body q.body → s.answer hashOf q = some answer) ∧
      (¬ Same p.body q.body → s.answer hashOf q = some (.error .idempotencyKeyReused))

/-- What holds of a state and of all that comes after it. -/
structure Idempotency : Prop where
  /-- at most one run for a key -/
  once : (s.running.map Post.slot).Nodup
  inFlight : ∀ p ∈ s.running, s.Taken hashOf Same Fits p (.error .requestInFlight)
  /-- a run that has ended with a reply, or with a status below 500, is replayed ever after -/
  replayed : ∀ i p outcome reply, s.running[i]? = some p → outcome.stored = some reply →
    ∀ later s', (∀ a ∈ later, KeyAct.Brings Fits a) → run (step hashOf) s (.ended i outcome :: later) = some s' →
      s'.Taken hashOf Same Fits p (.ok reply)
  /-- after any other end, the next request for the key runs -/
  freed : ∀ i p outcome, s.running[i]? = some p → outcome.stored = none →
    ∀ s', s.step hashOf (.ended i outcome) = some s' → ∀ q, q.slot = p.slot →
      ∃ s'', s'.step hashOf (.post q) = some s'' ∧ s''.running = s'.running ++ [q]
  /-- what is done for one request leaves the answers to the others -/
  apart : ∀ a p s', s.actor a = some p → s.step hashOf a = some s' → ∀ q, Fits p → Fits q → Others p q →
    s'.answer hashOf q = s.answer hashOf q

end Law

variable {hashOf : Body → String} {Same : Body → Body → Prop} {B : Set Body} {s s' : Keys ω Body ρ} {a : KeyAct ω Body ρ}
  {p q : Post ω Body}

/-- Every claim is that of one run under way, which fits. -/
structure Claims (hashOf : Body → String) (B : Set Body) (s : Keys ω Body ρ) : Prop where
  fits : ∀ p ∈ s.running, p.Fits B ∧ Served.validKey p.key = true
  nodup : (s.running.map Post.text).Nodup
  claimed : ∀ p ∈ s.running, s.idem.get? p.text = some ⟨hashOf p.body, none⟩

theorem init_claims : (init : Keys ω Body ρ).Claims hashOf B where
  fits := List.forall_mem_nil _
  nodup := List.nodup_nil
  claimed := List.forall_mem_nil _

theorem slot_of_text (hp : p.Fits B) (hq : q.Fits B) (h : p.text = q.text) : p.slot = q.slot := by
  obtain ⟨hcred, hkey⟩ := Served.keyText_inj hp.1 hq.1 h
  exact Prod.ext hcred hkey

theorem text_of_slot (h : p.slot = q.slot) : p.text = q.text := by
  obtain ⟨hcred, hkey⟩ := Prod.mk.inj h
  rw [Post.text, hcred, hkey, Post.text]

theorem answer_congr (h : s'.idem.get? q.text = s.idem.get? q.text) : s'.answer hashOf q = s.answer hashOf q := by
  rw [answer, h, answer]

/-- A request that is not answered finds a valid key, which is not claimed. -/
theorem absent_of_answer (h : (s.answer hashOf p).isSome = false) :
    Served.validKey p.key = true ∧ s.idem.get? p.text = none := by
  unfold answer at h
  split_ifs at h with hvalid
  · rw [Option.isSome_map, Option.isSome_eq_false_iff, Option.isNone_iff_eq_none] at h
    exact ⟨hvalid, h⟩
  · cases h

/-- What is left of a run that has ended. -/
theorem step_ended {i : Nat} {outcome : RunEnd ρ} (hp : s.running[i]? = some p)
    (hs : s.step hashOf (.ended i outcome) = some s') : s'.idem = s.concluded hashOf p outcome := by
  rw [step, hp] at hs
  rw [← Option.some.inj hs]

theorem concluded_stored {outcome : RunEnd ρ} {reply : ρ} (h : outcome.stored = some reply) :
    s.concluded hashOf p outcome = s.idem.set p.text ⟨hashOf p.body, some reply⟩ := by
  unfold concluded
  rw [h]

theorem concluded_freed {outcome : RunEnd ρ} (h : outcome.stored = none) :
    s.concluded hashOf p outcome = s.idem.filter (· ≠ p.text) := by
  unfold concluded
  rw [h]

theorem get?_concluded {outcome : RunEnd ρ} {k : String} (h : p.text ≠ k) :
    (s.concluded hashOf p outcome).get? k = s.idem.get? k := by
  unfold concluded
  split
  · rw [OrderedMap.get?_set, if_neg h]
  · exact OrderedMap.get?_filter _ (by simpa using h.symm)

/-- The requests under way apart from the one that is concluded. -/
theorem Claims.others (h : s.Claims hashOf B) {i : Nat} (hp : s.running[i]? = some p) :
    ∀ q ∈ s.running.eraseIdx i, q ∈ s.running ∧ p.text ≠ q.text := by
  intro q hq
  obtain ⟨hi, rfl⟩ := List.getElem?_eq_some_iff.1 hp
  have hnodup := ((List.getElem_cons_eraseIdx_perm hi).map Post.text).nodup_iff.2 h.nodup
  rw [List.map_cons, List.nodup_cons] at hnodup
  exact ⟨List.mem_of_mem_eraseIdx hq, fun heq => hnodup.1 (heq ▸ List.mem_map_of_mem hq)⟩

theorem Claims.step (h : s.Claims hashOf B) (hs : s.step hashOf a = some s') (ha : a.Brings (Post.Fits B)) :
    s'.Claims hashOf B := by
  cases a with
  | post p =>
    rw [Keys.step] at hs
    split_ifs at hs with hanswer
    · obtain rfl := Option.some.inj hs
      exact h
    · obtain rfl := Option.some.inj hs
      obtain ⟨hvalid, habsent⟩ := absent_of_answer (Bool.eq_false_iff.2 hanswer)
      have hne : ∀ q ∈ s.running, q.text ≠ p.text := by
        intro q hq htext
        rw [← htext, h.claimed q hq] at habsent
        cases habsent
      refine ⟨fun q hq => ?_, ?_, fun q hq => ?_⟩
      · rcases List.mem_append.1 hq with hq | hq
        · exact h.fits q hq
        · rw [List.mem_singleton.1 hq]
          exact ⟨ha, hvalid⟩
      · rw [List.map_append, List.map_singleton, List.nodup_append]
        refine ⟨h.nodup, List.nodup_singleton _, fun k hk k' hk' => ?_⟩
        obtain ⟨q, hq, rfl⟩ := List.mem_map.1 hk
        rw [List.mem_singleton.1 hk']
        exact hne q hq
      · rw [OrderedMap.get?_set]
        rcases List.mem_append.1 hq with hq | hq
        · rw [if_neg (hne q hq).symm]
          exact h.claimed q hq
        · rw [List.mem_singleton.1 hq, if_pos rfl]
  | ended i outcome =>
    obtain ⟨p, hp, rfl⟩ := Option.map_eq_some_iff.1 hs
    refine ⟨fun q hq => h.fits q (h.others hp q hq).1, h.nodup.sublist ((List.eraseIdx_sublist ..).map _), fun q hq => ?_⟩
    obtain ⟨hmem, hne⟩ := h.others hp q hq
    exact (get?_concluded hne).trans (h.claimed q hmem)

/-- An answer that is stored stays. -/
theorem Claims.stored (h : s.Claims hashOf B) (hs : s.step hashOf a = some s') {k hash : String} {reply : ρ}
    (hk : s.idem.get? k = some ⟨hash, some reply⟩) : s'.idem.get? k = some ⟨hash, some reply⟩ := by
  cases a with
  | post p =>
    rw [Keys.step] at hs
    split_ifs at hs with hanswer
    · obtain rfl := Option.some.inj hs
      exact hk
    · obtain rfl := Option.some.inj hs
      obtain ⟨-, habsent⟩ := absent_of_answer (Bool.eq_false_iff.2 hanswer)
      rw [OrderedMap.get?_set, if_neg, hk]
      rintro rfl
      rw [hk] at habsent
      cases habsent
  | ended i outcome =>
    obtain ⟨p, hp, rfl⟩ := Option.map_eq_some_iff.1 hs
    refine (get?_concluded ?_).trans hk
    rintro rfl
    rw [h.claimed p (List.mem_of_getElem? hp)] at hk
    cases hk

/-- What is held for a key is what requests for it get. -/
theorem taken_of_get? (hhash : ∀ v ∈ B, ∀ w ∈ B, hashOf v = hashOf w ↔ Same v w) {reply : Option ρ} (hp : p.Fits B)
    (hvalid : Served.validKey p.key = true) (hget : s.idem.get? p.text = some ⟨hashOf p.body, reply⟩) :
    s.Taken hashOf Same (Post.Fits B) p (Held.answer ⟨hashOf p.body, reply⟩) := by
  intro q hq hslot
  have hanswer : s.answer hashOf q = some (if hashOf p.body = hashOf q.body then Held.answer ⟨hashOf p.body, reply⟩
      else .error .idempotencyKeyReused) := by
    have hkey : q.key = p.key := congrArg Prod.snd hslot
    rw [answer, hkey, if_pos hvalid, text_of_slot hslot, hget]
    rfl
  have hsame := hhash p.body hp.2 q.body hq.2
  refine ⟨?_, fun h => ?_, fun h => ?_⟩
  · rw [Keys.step, hanswer]
    rfl
  · rw [hanswer, if_pos (hsame.2 h)]
  · rw [hanswer, if_neg fun heq => h (hsame.1 heq)]

/-- An answer that is stored stays for ever. -/
theorem Claims.kept (h : s.Claims hashOf B) {later : List (KeyAct ω Body ρ)}
    (hlater : ∀ a ∈ later, KeyAct.Brings (Post.Fits B) a) (hr : run (Keys.step hashOf) s later = some s') {k : String}
    {held : Held ρ} (hk : s.idem.get? k = some held) (hreply : held.reply.isSome) : s'.idem.get? k = some held := by
  have hlabels : Along (Keys.step hashOf) (fun _ a _ => KeyAct.Brings (Post.Fits B) a) s later := .of_labels hlater
  obtain ⟨hash, - | reply⟩ := held
  · cases hreply
  refine (hlabels.inv (I := fun s => s.Claims hashOf B ∧ s.idem.get? k = some ⟨hash, some reply⟩) ⟨h, hk⟩ ?_ hr).2
  rintro t a t' ⟨h, hk⟩ hs ha
  exact ⟨h.step hs ha, h.stored hs hk⟩

theorem Claims.idempotency (h : s.Claims hashOf B) (hhash : ∀ v ∈ B, ∀ w ∈ B, hashOf v = hashOf w ↔ Same v w) :
    s.Idempotency hashOf Same (Post.Fits B) (fun p q => p.slot ≠ q.slot) where
  once := by
    rw [List.Nodup, List.pairwise_map]
    refine (List.pairwise_map.1 h.nodup).imp_of_mem fun {p q} hp hq hne hslot => hne (text_of_slot hslot)
  inFlight p hp := taken_of_get? hhash (h.fits p hp).1 (h.fits p hp).2 (h.claimed p hp)
  replayed i p outcome reply hp hstored later s' hlater hr := by
    obtain ⟨t, hs, hr⟩ := run_cons_iff.1 hr
    obtain ⟨hfits, hvalid⟩ := h.fits p (List.mem_of_getElem? hp)
    have hkeeps : t.idem.get? p.text = some ⟨hashOf p.body, some reply⟩ := by
      rw [step_ended hp hs, concluded_stored hstored]
      exact OrderedMap.set_self
    exact taken_of_get? hhash hfits hvalid ((h.step hs trivial).kept hlater hr hkeeps rfl)
  freed i p outcome hp hstored s' hs q hq := by
    obtain ⟨hfits, hvalid⟩ := h.fits p (List.mem_of_getElem? hp)
    have hfree : s'.idem.get? q.text = none := by
      rw [step_ended hp hs, concluded_freed hstored, text_of_slot hq]
      simp [OrderedMap.get?_eq_none_iff.2, OrderedMap.keys_filter]
    have hanswer : s'.answer hashOf q = none := by
      have hkey : q.key = p.key := congrArg Prod.snd hq
      rw [answer, hkey, if_pos hvalid, hfree]
      rfl
    refine ⟨⟨s'.idem.set q.text ⟨hashOf q.body, none⟩, s'.running ++ [q]⟩, ?_, rfl⟩
    rw [Keys.step, hanswer]
    rfl
  apart a p s' hactor hs q hp hq hother := by
    cases a with
    | post p' =>
      obtain rfl := Option.some.inj hactor
      rw [Keys.step] at hs
      split_ifs at hs
      · obtain rfl := Option.some.inj hs
        rfl
      · obtain rfl := Option.some.inj hs
        refine answer_congr ?_
        rw [OrderedMap.get?_set, if_neg fun htext => hother (slot_of_text hp hq htext)]
    | ended i outcome =>
      obtain ⟨p', hp', rfl⟩ := Option.map_eq_some_iff.1 hs
      obtain rfl := Option.some.inj (hp'.symm.trans hactor)
      refine answer_congr (get?_concluded fun htext => hother (slot_of_text hp hq htext))

/-- A run keeps the law where one text of a body is one body. -/
theorem throughout_idempotency {tr : List (KeyAct ω Body ρ)} (hhash : ∀ v ∈ B, ∀ w ∈ B, hashOf v = hashOf w ↔ Same v w)
    (htr : ∀ a ∈ tr, KeyAct.Brings (Post.Fits B) a) :
    Throughout (Keys.step hashOf) (Idempotency hashOf Same (Post.Fits B) (fun p q => p.slot ≠ q.slot)) init tr := by
  have hlabels : Along (Keys.step hashOf) (fun _ a _ => KeyAct.Brings (Post.Fits B) a) (init : Keys ω Body ρ) tr :=
    .of_labels htr
  refine ⟨init_claims.idempotency hhash, hlabels.under_inv (I := Claims hashOf B) init_claims ?_⟩
  intro s a s' h hs ha
  exact ⟨h.step hs ha, (h.step hs ha).idempotency hhash⟩

end Keys

section Law
open Runs Json Utf16

variable {ν : Type} [DecidableEq ν] (F : NumberFormat ν) {localeCompare : JsString → JsString → Int}
  (B : Set (Value ν))

/-- Bodies of `B` have one hash exactly if they are one JSON value. -/
theorem hashOf_eq_iff (hcollates : Collates localeCompare) (htold : ∀ v ∈ B, ToldApart localeCompare v)
    (hdigest : ∀ v ∈ B, ∀ w ∈ B, hashOf F localeCompare v = hashOf F localeCompare w →
      canon F localeCompare v = canon F localeCompare w) :
    ∀ v ∈ B, ∀ w ∈ B, hashOf F localeCompare v = hashOf F localeCompare w ↔ SameJson F v w := by
  intro v hv w hw
  rw [← canon_eq_iff hcollates (htold v hv) (htold w hw)]
  refine ⟨hdigest v hv w hw, fun h => ?_⟩
  rw [hashOf, h, hashOf]

/-- Requests whose credentials have no colon and whose bodies have names that `localeCompare` tells apart, in any order and
with runs that end in any way: one run for a key at a time; its answer, if it is one that counts, is that of all later
requests with the same body, and another body is refused; after any other end the key is free; and requests for
other keys, or of other credentials, have no part in it. -/
theorem idempotency_kept (hcollates : Collates localeCompare) (htold : ∀ v ∈ B, ToldApart localeCompare v)
    (hdigest : ∀ v ∈ B, ∀ w ∈ B, hashOf F localeCompare v = hashOf F localeCompare w →
      canon F localeCompare v = canon F localeCompare w)
    {tr : List (KeyAct ω (Value ν) ρ)} (htr : ∀ a ∈ tr, KeyAct.Brings (Post.Fits B) a) :
    Throughout (Keys.step (hashOf F localeCompare)) (Keys.Idempotency (hashOf F localeCompare) (SameJson F) (Post.Fits B)
      (fun p q => p.slot ≠ q.slot)) Keys.init tr :=
  Keys.throughout_idempotency (hashOf_eq_iff F B hcollates htold hdigest) htr

/-- Names in the order of their code units. -/
def byUnits (a b : JsString) : Int :=
  if a.map UInt16.toNat ≤ b.map UInt16.toNat then if a = b then 0 else -1 else 1

theorem byUnits_nonpos {a b : JsString} : byUnits a b ≤ 0 ↔ a.map UInt16.toNat ≤ b.map UInt16.toNat := by
  unfold byUnits
  split_ifs with h
  · simpa using h
  · simpa using h
  · simpa using h

theorem byUnits_collates : Collates byUnits where
  total a b := by
    rw [byUnits_nonpos, byUnits_nonpos]
    exact le_total _ _
  trans a b c := by
    rw [byUnits_nonpos, byUnits_nonpos, byUnits_nonpos]
    exact le_trans

def refund : Value Nat := .obj [(js "reference", .str (js "r1")), (js "amount", .num 5)]

def refundTurned : Value Nat := .obj [(js "amount", .num 5), (js "reference", .str (js "r1"))]

def refundOther : Value Nat := .obj [(js "reference", .str (js "r1")), (js "amount", .num 6)]

def refunds : List (Value Nat) := [refund, refundTurned, refundOther]

theorem refunds_toldApart : ∀ v ∈ refunds, ToldApart byUnits v := by
  have happart : Apart byUnits [js "reference", js "amount"] := by
    unfold Apart
    decide
  have hturned : Apart byUnits [js "amount", js "reference"] := by
    unfold Apart
    decide
  rw [refunds, List.forall_mem_cons, List.forall_mem_cons, List.forall_mem_singleton]
  exact ⟨⟨happart, trivial, trivial, trivial⟩, ⟨hturned, trivial, trivial, trivial⟩, ⟨happart, trivial, trivial, trivial⟩⟩

def refundHash : Value Nat → String := hashOf Json.decimal byUnits

/-- A request that comes again while it runs, after it has failed and after it has been answered, and another one under
its key. -/
def retried : List (KeyAct String (Value Nat) String) :=
  [.post ⟨"shop", "k1", "/payouts", refund⟩, .post ⟨"shop", "k1", "/payouts", refundTurned⟩, .ended 0 (.refused 503 "down"),
    .post ⟨"shop", "k1", "/payouts", refundTurned⟩, .ended 0 (.replied "accepted"), .post ⟨"shop", "k1", "/payouts", refund⟩,
    .post ⟨"shop", "k1", "/payouts", refundOther⟩]

theorem idempotency_kept_retried :
    (run (Keys.step refundHash) Keys.init retried).map (fun s => (s.idem.keys, s.running.length)) = some (["shop:k1"], 0) ∧
    Throughout (Keys.step refundHash) (Keys.Idempotency refundHash (SameJson Json.decimal) (Post.Fits {v | v ∈ refunds})
      (fun p q => p.slot ≠ q.slot)) Keys.init retried := by
  refine ⟨by decide +kernel, idempotency_kept Json.decimal {v | v ∈ refunds} byUnits_collates refunds_toldApart ?_ ?_⟩
  · show ∀ v ∈ refunds, ∀ w ∈ refunds, _
    decide +kernel
  · simp [retried, KeyAct.Brings, Post.Fits, refunds]

def cancel (path : String) : Post String (Value Nat) := ⟨"shop", "k1", path, .obj []⟩

def cancelled : List (KeyAct String (Value Nat) String) :=
  [.post (cancel "/checkouts/A/cancel"), .ended 0 (.replied "A is cancelled")]

/-- A key that was used to cancel one checkout answers for another one, which is not cancelled. -/
theorem cancelled_for_another :
    (∃ s, run (Keys.step refundHash) Keys.init cancelled = some s ∧
      s.answer refundHash (cancel "/checkouts/B/cancel") = some (.ok "A is cancelled")) ∧
    ¬ Throughout (Keys.step refundHash) (Keys.Idempotency refundHash (SameJson Json.decimal) (fun _ => True)
      (fun p q => p.cred ≠ q.cred ∨ p.op ≠ q.op)) Keys.init cancelled := by
  refine ⟨by decide +kernel, fun h => ?_⟩
  obtain ⟨s, hs, hanswer⟩ : ∃ s, Keys.step refundHash (Keys.init : Keys String (Value Nat) String)
      (.post (cancel "/checkouts/A/cancel")) = some s ∧ s.answer refundHash (cancel "/checkouts/B/cancel") ≠ none := by
    decide +kernel
  exact hanswer (h.1.apart _ _ s rfl hs _ trivial trivial (Or.inr (by decide)))

end Law

/-! ### The simulator behind `idempotent` -/

def RunEnd.ofOutcome : Except Thrown Reply → RunEnd Answer
  | .ok r => .replied ⟨r.status, .reply r.body⟩
  | .error (.sim e) => .refused e.code.http ⟨e.code.http, .error e⟩
  | .error (.crash _) => .crashed

theorem RunEnd.stored_ofOutcome (outcome : Except Thrown Reply) : (ofOutcome outcome).stored = Answer.stored outcome := by
  rcases outcome with (e | message) | r
  · rfl
  · rfl
  · rfl

def Cell.held (c : Cell) : Held Answer := ⟨c.hash, c.reply⟩

/-- What is known of a request while it runs. -/
def Post.run (hashOf : Body → String) (p : Post Op Body) : Run := ⟨p.cred, p.key, hashOf p.body, p.op, true⟩

/-- A request is one of `P`. -/
def Request.Brings (P : Post Op Body → Prop) : Request Body → Prop
  | .post cred key op body => P ⟨cred, key, op, body⟩
  | _ => True

namespace Served
open Runs Json Utf16

variable {W : Wire Body} {s s' : Served Body} {k : Keys Op Body Answer} {l : Request Body}

/-- The map and the requests that hold a claim are those of `k`. -/
structure UsesKeys (W : Wire Body) (s : Served Body) (k : Keys Op Body Answer) : Prop where
  idem : ∀ key, k.idem.get? key = (s.idem.get? key).map Cell.held
  running : (k.running.map (Post.run W.hashOf)).Perm s.underWay

/-- What a step does to them. -/
def keyActs (W : Wire Body) (s : Served Body) (k : Keys Op Body Answer) : Request Body → List (KeyAct Op Body Answer)
  | .post cred key op body =>
    match s.sim.config.idempotency with
    | .broken => []
    | .correct => [.post ⟨cred, key, op, body⟩]
  | .act _ => []
  | .conclude i =>
    match s.ended[i]? with
    | some (run, outcome) =>
      if run.keyed then [.ended ((k.running.map (Post.run W.hashOf)).idxOf run) (.ofOutcome outcome)] else []
    | none => []

theorem init_usesKeys (config : SimConfig) (now : Time) : (init config now).UsesKeys W Keys.init where
  idem _ := rfl
  running := .nil

theorem UsesKeys.answer (h : s.UsesKeys W k) (hmode : s.sim.config.idempotency = .correct) (cred key : String) (op : Op)
    (body : Body) : k.answer W.hashOf ⟨cred, key, op, body⟩ = s.answer W cred key body := by
  have hhit : s.hit cred key = s.idem.get? (keyText cred key) := by rw [hit, hmode]
  rw [Keys.answer, Served.answer, h.idem, hhit, Option.map_map]
  rcases hget : s.idem.get? (keyText cred key) with - | ⟨hash, - | reply⟩ <;> rw [Post.text, hget] <;> rfl

/-- What is left for the key of a run that has ended. -/
theorem get?_concluded_own (p : Post Op Body) (outcome : Except Thrown Reply) :
    (k.concluded W.hashOf p (.ofOutcome outcome)).get? p.text =
      ((s.concluded (p.run W.hashOf) outcome).get? p.text).map Cell.held := by
  have hstored := RunEnd.stored_ofOutcome outcome
  have hkeyed : (p.run W.hashOf).keyed = true := rfl
  have htext : (p.run W.hashOf).text = p.text := rfl
  cases houtcome : Answer.stored outcome with
  | some reply =>
    rw [Keys.concluded_stored (hstored.trans houtcome), OrderedMap.set_self]
    simp only [Served.concluded, hkeyed, houtcome, if_true, htext, OrderedMap.set_self]
    rfl
  | none =>
    rw [Keys.concluded_freed (hstored.trans houtcome)]
    simp only [Served.concluded, hkeyed, houtcome, if_true, htext]
    simp [OrderedMap.get?_eq_none_iff.2, OrderedMap.keys_filter]

/-- The steps of the simulator, as the map sees them. -/
theorem step_keys (h : s.UsesKeys W k) (hs : s.step W l = some s') :
    ∃ k', Runs.run (Keys.step W.hashOf) k (s.keyActs W k l) = some k' ∧ s'.UsesKeys W k' := by
  cases l with
  | post cred key op body =>
    cases hmode : s.sim.config.idempotency with
    | broken =>
      refine ⟨k, by rw [keyActs, hmode, run_nil], ?_⟩
      rw [Served.step] at hs
      split_ifs at hs
      · obtain rfl := Option.some.inj hs
        exact h
      · obtain ⟨hidem, hperm⟩ := underWay_start hs
        have hunkeyed : [s.run W cred key op body].filter (·.keyed) = [] := by simp [Served.run, hmode]
        rw [hunkeyed, List.nil_append] at hperm
        refine ⟨fun k' => ?_, h.running.trans hperm.symm⟩
        rw [hidem, claim, hmode]
        exact h.idem k'
    | correct =>
      have hacts : s.keyActs W k (.post cred key op body) = [.post ⟨cred, key, op, body⟩] := by rw [keyActs, hmode]
      simp only [hacts, run_cons_iff, run_nil, Keys.step, h.answer hmode]
      rw [Served.step] at hs
      split_ifs at hs ⊢ with hanswer
      · obtain rfl := Option.some.inj hs
        exact ⟨k, ⟨k, rfl, rfl⟩, h⟩
      · obtain ⟨hidem, hperm⟩ := underWay_start hs
        have hkeyed : [s.run W cred key op body].filter (·.keyed) = [s.run W cred key op body] := by simp [Served.run, hmode]
        have hrun : Post.run W.hashOf ⟨cred, key, op, body⟩ = s.run W cred key op body := by simp [Post.run, Served.run, hmode]
        rw [hkeyed] at hperm
        refine ⟨_, ⟨_, rfl, rfl⟩, fun k' => ?_, ?_⟩
        · rw [hidem, claim, hmode]
          simp only [OrderedMap.get?_set, Post.text]
          split_ifs
          · rfl
          · exact h.idem k'
        · rw [List.map_append, List.map_singleton, hrun]
          exact (List.perm_append_comm.trans (h.running.append_left _)).trans hperm.symm
  | act l =>
    obtain ⟨hidem, hperm⟩ := underWay_act hs
    exact ⟨k, rfl, fun k' => by rw [hidem, h.idem], h.running.trans hperm.symm⟩
  | conclude i =>
    obtain ⟨⟨request, outcome⟩, he, rfl⟩ := Option.map_eq_some_iff.1 hs
    have hperm := underWay_perm he
    cases hkeyed : request.keyed with
    | false =>
      refine ⟨k, by simp [keyActs, he, hkeyed], ?_, ?_⟩
      · intro k'
        simp only [concluded, hkeyed]
        exact h.idem k'
      · have hunkeyed : [request].filter (·.keyed) = [] := by simp [hkeyed]
        rw [hunkeyed, List.nil_append] at hperm
        exact h.running.trans hperm.symm
    | true =>
      have hsingle : [request].filter (·.keyed) = [request] := by simp [hkeyed]
      rw [hsingle, List.singleton_append] at hperm
      have hmem : request ∈ k.running.map (Post.run W.hashOf) :=
        (h.running.trans hperm.symm).mem_iff.2 List.mem_cons_self
      have hget := List.getElem?_idxOf hmem
      have hacts : s.keyActs W k (.conclude i) =
          [.ended ((k.running.map (Post.run W.hashOf)).idxOf request) (.ofOutcome outcome)] := by
        simp [keyActs, he, hkeyed]
      rw [hacts]
      generalize (k.running.map (Post.run W.hashOf)).idxOf request = j at hget ⊢
      obtain ⟨hj, hrequest⟩ := List.getElem?_eq_some_iff.1 hget
      have hrest := (List.getElem_cons_eraseIdx_perm hj).trans (h.running.trans hperm.symm)
      rw [hrequest, List.eraseIdx_map] at hrest
      rw [List.getElem?_map] at hget
      obtain ⟨p, hp, rfl⟩ := Option.map_eq_some_iff.1 hget
      refine ⟨⟨k.concluded W.hashOf p (.ofOutcome outcome), k.running.eraseIdx j⟩, ?_, fun k' => ?_, ?_⟩
      · rw [run_cons_iff]
        exact ⟨_, by rw [Keys.step, hp]; rfl, run_nil⟩
      · by_cases htext : p.text = k'
        · subst htext
          exact get?_concluded_own p outcome
        · have htext' : (p.run W.hashOf).text ≠ k' := htext
          rw [Keys.get?_concluded htext, get?_concluded htext']
          exact h.idem k'
      · exact hrest.cons_inv

theorem keyActs_brings {P : Post Op Body → Prop} (hl : l.Brings P) : ∀ a ∈ s.keyActs W k l, a.Brings P := by
  intro a ha
  unfold keyActs at ha
  split at ha
  · split at ha
    · cases ha
    · rw [List.mem_singleton.1 ha]
      exact hl
  · cases ha
  · split at ha
    · split_ifs at ha
      · rw [List.mem_singleton.1 ha]
        trivial
      · cases ha
    · cases ha

theorem run_keys (h : s.UsesKeys W k) {tr : List (Request Body)} (hr : Runs.run (step W) s tr = some s')
    {P : Post Op Body → Prop} (htr : ∀ l ∈ tr, Request.Brings P l) :
    ∃ acts k', (∀ a ∈ acts, KeyAct.Brings P a) ∧ Runs.run (Keys.step W.hashOf) k acts = some k' ∧ s'.UsesKeys W k' := by
  induction tr generalizing s k with
  | nil =>
    obtain rfl := Option.some.inj hr
    exact ⟨[], k, List.forall_mem_nil _, rfl, h⟩
  | cons l tr ih =>
    obtain ⟨t, hs, hr⟩ := run_cons_iff.1 hr
    obtain ⟨next, hnext, h⟩ := step_keys h hs
    obtain ⟨acts, k', hacts, hrest, h⟩ := ih h hr fun l hl => htr l (List.mem_cons_of_mem _ hl)
    refine ⟨s.keyActs W k l ++ acts, k', fun a ha => ?_, run_append_iff.2 ⟨next, hnext, hrest⟩, h⟩
    rcases List.mem_append.1 ha with ha | ha
    · exact keyActs_brings (htr l List.mem_cons_self) a ha
    · exact hacts a ha

/-- In whatever state the simulator is, with switches between the modes on the way, its map keeps the law. -/
theorem uses_idempotency {ν : Type} [DecidableEq ν] {F : NumberFormat ν} {localeCompare : JsString → JsString → Int}
    {B : Set (Value ν)} {W : Wire (Value ν)} (hW : W.hashOf = hashOf F localeCompare) (hcollates : Collates localeCompare)
    (htold : ∀ v ∈ B, ToldApart localeCompare v)
    (hdigest : ∀ v ∈ B, ∀ w ∈ B, hashOf F localeCompare v = hashOf F localeCompare w →
      canon F localeCompare v = canon F localeCompare w)
    {config : SimConfig} {now : Time} {tr : List (Request (Value ν))} {s : Served (Value ν)}
    (hr : Runs.run (step W) (init config now) tr = some s) (htr : ∀ l ∈ tr, Request.Brings (Post.Fits B) l) :
    ∃ k : Keys Op (Value ν) Answer, s.UsesKeys W k ∧
      k.Idempotency W.hashOf (SameJson F) (Post.Fits B) (fun p q => p.slot ≠ q.slot) := by
  obtain ⟨acts, k, hacts, hrun, huses⟩ := run_keys (init_usesKeys config now) hr htr
  have hhash := hashOf_eq_iff F B hcollates htold hdigest
  rw [← hW] at hhash
  exact ⟨k, huses, (Keys.throughout_idempotency hhash hacts).last hrun⟩

end Served

end Simulator

end CronMonitor
