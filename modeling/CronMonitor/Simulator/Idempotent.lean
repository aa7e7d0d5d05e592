import CronMonitor.Lib.Calls
import CronMonitor.Lib.Outputs
import CronMonitor.Lib.Text
import CronMonitor.Simulator.Overdraft

/-!
# `idempotent`

A POST claims its idempotency key with the hash of its body and runs its operation; once the promise of the run has
settled, the answer is stored under the key, or the key is free again. Other requests come between any two of these.

The answer of a run that has settled waits in `ended` until `idempotent` goes on. The routes for checkouts, for repeated
settlement runs and for the policy go through `idempotent` too and are left out, and so is `reset`.
-/

namespace CronMonitor

namespace Simulator

variable {Body : Type}

def IDEMPOTENCY_KEY_MAX : Nat := 255

/-- The operations behind the POST routes. -/
inductive Op
  | createCollection | createPayout | createPayoutBatch | createUtilityPurchase | createTransfer | settleNow
deriving DecidableEq, Repr

def Op.label (cred : String) (body : Body) : Op → Sim.Label Body
  | createCollection => .createCollection cred body
  | createPayout => .createPayout cred body
  | createPayoutBatch => .createPayoutBatch cred body
  | createUtilityPurchase => .createUtilityPurchase cred body
  | createTransfer => .createTransfer cred body
  | settleNow => .settleNow cred body

/-- A step of the simulator that is not the start of an operation. -/
def Sim.Label.isPlain : Sim.Label Body → Bool
  | .createCollection .. | .createPayout .. | .createPayoutBatch .. | .createUtilityPurchase .. | .createTransfer ..
  | .settleNow .. => false
  | _ => true

/-! ### The outcome of a run -/

namespace Sim

variable (W : Wire Body) (s : Sim Body)

/-- The outcome of a create call, unless it waits. -/
def begunOutcome (status : Nat) : Except Thrown (Begun Body) → Option (Except Thrown Reply)
  | .error e => some (.error e)
  | .ok (.replies tx) => some (.ok ⟨status, .tx tx⟩)
  | .ok (.awaits ..) => none

/-- The outcome of a batch that ends where its next item would start. -/
def itemOutcome (b : Batch Body) : Option (Except Thrown Reply) :=
  match b.rest with
  | [] => some (.ok ⟨200, .batch (s.seq + 1) b.reference b.done⟩)
  | item :: _ =>
    match s.beginPayout W b.cred item.body with
    | .error (.crash message) => some (.error (.crash message))
    | _ => none

/-- The outcome of an operation that ends without an `await`. -/
def outcome (cred : String) (body : Body) : Op → Option (Except Thrown Reply)
  | .createCollection => some (s.createCollection W cred body).1
  | .createPayout => begunOutcome 202 (s.beginPayout W cred body)
  | .createPayoutBatch =>
    match s.batchRequest W cred body with
    | .error e => some (.error e)
    | .ok (.inl reply) => some (.ok reply)
    | .ok (.inr b) => s.itemOutcome W b
  | .createUtilityPurchase =>
    match s.utilityRequest W cred body with
    | .error e => some (.error e)
    | .ok (.inl dup) => some (.ok ⟨202, .tx dup⟩)
    | .ok (.inr (r, amount)) =>
      if r.funding.type = .wallet then none else some (.ok ⟨202, .tx (s.utilityTx cred r amount (W.hashOf body))⟩)
  | .createTransfer => begunOutcome 200 (s.beginTransfer W cred body)
  | .settleNow => some (s.settleNow W cred body).1

/-- The outcome of the `i`-th waiting call, if it ends when it goes on. -/
def resumedOutcome (i : Nat) : Option (Except Thrown Reply) :=
  match s.calls[i]? with
  | some (.debiting _ .refused none) => some (.error (.sim insufficient))
  | some (.debiting f .paid none) => some (.ok ⟨if f.tx.kind = .transfer then 200 else 202, .tx (s.finish f).1⟩)
  | some (.batching b last) => s.itemOutcome W { b with done := b.done ++ [(b.current, last)] }
  | _ => none

end Sim

/-! ### Requests -/

/-- What is sent as a body. -/
inductive AnswerBody
  | reply (b : ReplyBody)
  | error (e : SimError)

structure Answer where
  status : Nat
  body : AnswerBody

/-- What is stored for a run: nothing after a status of 500 or above. -/
def Answer.stored : Except Thrown Reply → Option Answer
  | .ok r => some ⟨r.status, .reply r.body⟩
  | .error (.sim e) => if e.code.http < 500 then some ⟨e.code.http, .error e⟩ else none
  | .error (.crash _) => none

/-- A request that has claimed its key, or one that did without (`keyed`). -/
structure Run where
  cred : String
  key : String
  hash : String
  op : Op
  keyed : Bool
deriving DecidableEq, Repr

/-- The key of the map. -/
def keyText (cred key : String) : String := cred ++ ":" ++ key

def Run.text (r : Run) : String := keyText r.cred r.key

/-- What the map holds: a claim, or the answer. -/
structure Cell where
  hash : String
  reply : Option Answer

/-- What `idempotent` throws itself. -/
inductive IdemError
  | invalidInput | idempotencyKeyReused | requestInFlight
deriving DecidableEq, Repr

/-- The simulator behind `idempotent`. `running` has the request of each waiting call of the simulator, in its place. -/
structure Served (Body : Type) where
  sim : Sim Body
  idem : OrderedMap String Cell
  running : List Run
  ended : List (Run × Except Thrown Reply)

inductive Request (Body : Type)
  | post (cred key : String) (op : Op) (body : Body)
  | act (l : Sim.Label Body)
  /-- `idempotent` goes on after the `i`-th run that has settled. -/
  | conclude (i : Nat)

/-- The configuration that a request brings has the property. -/
def Request.keeps (P : SimConfig → Prop) : Request Body → Prop
  | .act (.patchConfig config) => P config
  | _ => True

instance {P : SimConfig → Prop} [DecidablePred P] : (l : Request Body) → Decidable (l.keeps P)
  | .act (.patchConfig config) => inferInstanceAs (Decidable (P config))
  | .post .. | .conclude _ | .act (.createCollection ..) | .act (.createPayout ..) | .act (.createPayoutBatch ..)
  | .act (.createUtilityPurchase ..) | .act (.createTransfer ..) | .act (.resume _) | .act .timer | .act (.elapse _)
  | .act (.settleNow ..) | .act (.putPolicy _) | .act .deletePolicy | .act (.setBalance ..) | .act (.wallet _) =>
    isTrue trivial

namespace Served

variable (W : Wire Body) (s : Served Body)

def init (config : SimConfig) (now : Time) : Served Body := ⟨.init Body config now, .empty, [], []⟩

/-- The map before a run: claimed, where references count. -/
def claim (cred key : String) (hash : String) : OrderedMap String Cell :=
  match s.sim.config.idempotency with
  | .broken => s.idem
  | .correct => s.idem.set (keyText cred key) ⟨hash, none⟩

/-- A request that is not answered from the map: it claims the key and runs. -/
def start (cred key : String) (op : Op) (body : Body) : Option (Served Body) :=
  let run : Run := ⟨cred, key, W.hashOf body, op, s.sim.config.idempotency = .correct⟩
  (s.sim.step W (op.label cred body)).map fun sim =>
    match s.sim.outcome W cred body op with
    | some outcome => ⟨sim, s.claim cred key run.hash, s.running, s.ended ++ [(run, outcome)]⟩
    | none => ⟨sim, s.claim cred key run.hash, s.running ++ [run], s.ended⟩

/-- A valid key, that of a header that is neither empty nor too long. -/
def validKey (key : String) : Bool := key ≠ "" && key.length ≤ IDEMPOTENCY_KEY_MAX

/-- The cell that answers a request in place of a run. -/
def hit (cred key : String) : Option Cell :=
  match s.sim.config.idempotency with
  | .broken => none
  | .correct => s.idem.get? (keyText cred key)

/-- The answer that a request gets without a run. -/
def answer (cred key : String) (body : Body) : Option (Except IdemError Answer) :=
  if validKey key then
    (s.hit cred key).map fun cell =>
      if cell.hash = W.hashOf body then
        match cell.reply with
        | some reply => .ok reply
        | none => .error .requestInFlight
      else .error .idempotencyKeyReused
  else some (.error .invalidInput)

/-- The map after a run: the answer, or a free key. -/
def concluded (run : Run) (outcome : Except Thrown Reply) : OrderedMap String Cell :=
  if run.keyed then
    match Answer.stored outcome with
    | some reply => s.idem.set run.text ⟨run.hash, some reply⟩
    | none => s.idem.filter (· ≠ run.text)
  else s.idem

def step : Request Body → Option (Served Body)
  | .post cred key op body => if (s.answer W cred key body).isSome then some s else s.start W cred key op body
  | .act (.resume i) =>
    (s.sim.resume W i).map fun sim =>
      match s.running[i]?, s.sim.resumedOutcome W i with
      | some run, some outcome => ⟨sim, s.idem, s.running.eraseIdx i, s.ended ++ [(run, outcome)]⟩
      | _, _ => { s with sim }
  | .act l => if l.isPlain then (s.sim.step W l).map fun sim => { s with sim } else none
  | .conclude i =>
    s.ended[i]?.map fun e => { s with idem := s.concluded e.1 e.2, ended := s.ended.eraseIdx i }

end Served

/-! ### What an operation leaves behind -/

/-- A call that stands for one payment. -/
def Call.isSingle : Call Body → Bool
  | .debiting _ _ none => true
  | _ => false

namespace Sim

variable {W : Wire Body} {s s' : Sim Body} {l : Label Body} {cred : String} {body : Body}

/-- The payments and the settlement runs so far. -/
def created (s : Sim Body) : Nat := s.heap.length + s.settlementRuns.length

theorem created_eq (hheap : s'.heap.length = s.heap.length) (hruns : s'.settlementRuns = s.settlementRuns) :
    s'.created = s.created := by
  rw [created, hheap, hruns, created]

theorem debit_rest (d : Debit) : (s.debit d).1.config = s.config ∧ (s.debit d).1.calls = s.calls ∧
    (s.debit d).1.created = s.created := by
  unfold debit
  simp only
  split_ifs <;> exact ⟨rfl, rfl, rfl⟩

theorem debitRaced_rest (d : Debit) (seen : Int) : (s.debitRaced d seen).1.config = s.config ∧
    (s.debitRaced d seen).1.calls = s.calls ∧ (s.debitRaced d seen).1.created = s.created := by
  unfold debitRaced
  split_ifs <;> exact ⟨rfl, rfl, rfl⟩

/-- Where a create call stands after its first step. -/
inductive Comes (s : Sim Body) : Except Thrown (Begun Body) → Prop
  | error (e : Thrown) : Comes s (.error e)
  | replies (tx : Tx) : Comes s (.ok (.replies tx))
  | awaits (s' : Sim Body) (f : Frame) (state : DebitState) (hconfig : s'.config = s.config) (hcalls : s'.calls = s.calls)
      (hcreated : s'.created = s.created) : Comes s (.ok (.awaits s' f state))

theorem await_comes (f : Frame) : s.Comes (.ok (s.await f)) := by
  obtain ⟨hconfig, hcalls, hcreated⟩ := debit_rest (s := s.bumpSeq) f.debit
  exact .awaits _ f _ hconfig hcalls hcreated

theorem beginPayout_comes (cred : String) (body : Body) : s.Comes (s.beginPayout W cred body) := by
  unfold beginPayout
  rcases s.payoutRequest W cred body with e | dup | ⟨r, amount⟩
  · exact .error e
  · exact .replies dup
  · exact await_comes _

theorem beginTransfer_comes (cred : String) (body : Body) : s.Comes (s.beginTransfer W cred body) := by
  unfold beginTransfer
  rcases s.transferRequest W cred body with e | dup | ⟨r, amount⟩
  · exact .error e
  · exact .replies dup
  · exact await_comes _

/-- The first step of an operation: it ends, or leaves one call behind. Only an operation that ends well has created
something, a batch apart. -/
structure Starts (s s' : Sim Body) (op : Op) (outcome : Option (Except Thrown Reply)) : Prop where
  config : s'.config = s.config
  calls : if outcome.isSome then s'.calls = s.calls
    else ∃ c, s'.calls = s.calls ++ [c] ∧ (op ≠ .createPayoutBatch → c.isSingle = true)
  created : op ≠ .createPayoutBatch → s.created < s'.created → ∃ r, outcome = some (.ok r)

theorem Starts.unchanged (op : Op) (outcome : Except Thrown Reply) : Starts s s op (some outcome) :=
  ⟨rfl, rfl, fun _ h => absurd h (lt_irrefl _)⟩

/-- An operation that ends well. -/
theorem Starts.done (op : Op) (r : Reply) (hconfig : s'.config = s.config) (hcalls : s'.calls = s.calls) :
    Starts s s' op (some (.ok r)) :=
  ⟨hconfig, hcalls, fun _ _ => ⟨r, rfl⟩⟩

theorem Comes.starts {begun : Except Thrown (Begun Body)} (h : s.Comes begun) (op : Op) (status : Nat) :
    Starts s (s.started begun) op (begunOutcome status begun) := by
  rcases h with e | tx | ⟨s', f, state, hconfig, hcalls, hcreated⟩
  · exact .unchanged op _
  · exact .unchanged op _
  · refine ⟨hconfig, ⟨_, by rw [started, hcalls], fun _ => rfl⟩, fun _ hlt => ?_⟩
    have hsame : (s.started (.ok (.awaits s' f state))).created = s.created := hcreated
    omega

/-- A batch ends where its next item would start, or leaves a call. -/
theorem nextItem_calls (b : Batch Body) : (s.nextItem W b).1.config = s.config ∧ (s.nextItem W b).1.calls = s.calls ∧
    ((s.nextItem W b).2 = none ↔ (s.itemOutcome W b).isSome) := by
  unfold nextItem itemOutcome
  cases b.rest with
  | nil => exact ⟨rfl, rfl, by simp⟩
  | cons item rest =>
    simp only
    generalize hbegun : s.beginPayout W b.cred item.body = begun
    rcases hbegun ▸ beginPayout_comes (W := W) b.cred item.body with e | tx | ⟨s', f, state, hconfig, hcalls, -⟩
    · cases e <;> exact ⟨rfl, rfl, by simp⟩
    · exact ⟨rfl, rfl, by simp⟩
    · exact ⟨hconfig, hcalls, by simp⟩

theorem beginBatch_starts (cred : String) (body : Body) :
    Starts s (s.beginBatch W cred body) .createPayoutBatch (s.outcome W cred body .createPayoutBatch) := by
  unfold beginBatch outcome
  rcases s.batchRequest W cred body with e | reply | b
  · exact .unchanged _ _
  · exact .unchanged _ _
  · simp only
    obtain ⟨hconfig, hcalls, hnone⟩ := nextItem_calls (W := W) (s := s) b
    rcases hitem : s.nextItem W b with ⟨s', c | c⟩
    · rw [hitem] at hconfig hcalls hnone
      refine ⟨hconfig, ?_, fun hop => absurd rfl hop⟩
      rw [if_pos (hnone.1 rfl)]
      exact hcalls
    · rw [hitem] at hconfig hcalls hnone
      refine ⟨hconfig, ?_, fun hop => absurd rfl hop⟩
      rw [if_neg fun hsome => Option.some_ne_none c (hnone.2 hsome)]
      exact ⟨c, congrArg (· ++ [c]) hcalls, fun hop => absurd rfl hop⟩

theorem beginUtility_starts (cred : String) (body : Body) :
    Starts s (s.beginUtility W cred body) .createUtilityPurchase (s.outcome W cred body .createUtilityPurchase) := by
  unfold beginUtility outcome
  rcases s.utilityRequest W cred body with e | dup | ⟨r, amount⟩
  · exact .unchanged _ _
  · exact .unchanged _ _
  · simp only
    split_ifs
    · exact (await_comes _).starts .createUtilityPurchase 202
    · exact .done _ _ rfl rfl

theorem settleNow_calls (cred : String) (body : Body) : (s.settleNow W cred body).2.config = s.config ∧
    (s.settleNow W cred body).2.calls = s.calls := by
  cases hruns : s.makesRun W cred body with
  | false =>
    rw [settleNow_unchanged hruns]
    exact ⟨rfl, rfl⟩
  | true =>
    unfold makesRun at hruns
    split at hruns
    · next r hparse =>
      rw [Bool.and_eq_true, Option.isNone_iff_eq_none] at hruns
      have hs := settleNow_settles (W := W) (by rw [hparse]; rfl) hruns.1 hruns.2
      exact ⟨hs.config, hs.calls⟩
    · cases hruns

theorem settleNow_starts (cred : String) (body : Body) :
    Starts s (s.settleNow W cred body).2 .settleNow (some (s.settleNow W cred body).1) := by
  obtain ⟨hconfig, hcalls⟩ := settleNow_calls (W := W) (s := s) cred body
  refine ⟨hconfig, hcalls, fun _ hlt => ?_⟩
  cases houtcome : (s.settleNow W cred body).1 with
  | ok r => exact ⟨r, rfl⟩
  | error e =>
    have hsame : (s.settleNow W cred body).2 = s := by
      refine settleNow_unchanged (Bool.eq_false_iff.2 fun hruns => ?_)
      unfold makesRun at hruns
      unfold settleNow at houtcome
      split at hruns
      · next r hparse =>
        rw [Bool.and_eq_true, Option.isNone_iff_eq_none] at hruns
        obtain ⟨policy, hpolicy⟩ := Option.isSome_iff_exists.1 hruns.1
        rw [hparse, hpolicy] at houtcome
        simp only [parse, hruns.2] at houtcome
        cases houtcome
      · cases hruns
    rw [hsame] at hlt
    exact absurd hlt (lt_irrefl _)

theorem createCollection_starts (cred : String) (body : Body) :
    Starts s (s.createCollection W cred body).2 .createCollection (some (s.createCollection W cred body).1) := by
  obtain ⟨hconfig, hcalls⟩ := createCollection_config (W := W) (s := s) cred body
  refine ⟨hconfig, hcalls, fun _ hlt => ?_⟩
  unfold createCollection at hlt ⊢
  rcases hrequest : s.collectionRequest W cred body with e | dup | ⟨r, amount⟩
  · rw [hrequest] at hlt
    exact absurd hlt (lt_irrefl _)
  · exact ⟨_, rfl⟩
  · exact ⟨_, rfl⟩

theorem step_starts (op : Op) (h : s.step W (op.label cred body) = some s') :
    Starts s s' op (s.outcome W cred body op) := by
  cases op with
  | createCollection =>
    cases h
    exact createCollection_starts cred body
  | createPayout =>
    cases h
    exact (beginPayout_comes cred body).starts .createPayout 202
  | createPayoutBatch =>
    cases h
    exact beginBatch_starts cred body
  | createUtilityPurchase =>
    cases h
    exact beginUtility_starts cred body
  | createTransfer =>
    cases h
    exact (beginTransfer_comes cred body).starts .createTransfer 200
  | settleNow =>
    cases h
    exact settleNow_starts cred body

/-- A waiting call goes on: it ends, or waits again in its place. A single payment creates something only where it
ends well. -/
structure Resumes (s s' : Sim Body) (i : Nat) (c : Call Body) (outcome : Option (Except Thrown Reply)) : Prop where
  config : s'.config = s.config
  calls : if outcome.isSome then s'.calls = s.calls.eraseIdx i
    else ∃ c', s'.calls = s.calls.set i c' ∧ (c.isSingle = true → c'.isSingle = true)
  created : c.isSingle = true → s.created < s'.created → ∃ r, outcome = some (.ok r)

theorem resume_resumes {i : Nat} (h : s.resume W i = some s') :
    ∃ c, s.calls[i]? = some c ∧ Resumes s s' i c (s.resumedOutcome W i) := by
  obtain ⟨c, hc, hs'⟩ := Option.map_eq_some_iff.1 h
  refine ⟨c, hc, ?_⟩
  subst hs'
  unfold resumedOutcome
  rw [hc]
  rcases c with ⟨f, seen | - | -, - | b⟩ | ⟨b, last⟩
  · obtain ⟨hconfig, hcalls, hcreated⟩ := debitRaced_rest (s := s) f.debit seen
    refine ⟨hconfig, ⟨_, by simp only [hcalls]; rfl, fun _ => rfl⟩, fun _ hlt => ?_⟩
    exact absurd hlt (not_lt.2 hcreated.le)
  · obtain ⟨hconfig, hcalls, -⟩ := debitRaced_rest (s := s) f.debit seen
    exact ⟨hconfig, ⟨_, by simp only [hcalls]; rfl, fun hsingle => by cases hsingle⟩, fun hsingle => by cases hsingle⟩
  · have hcalls : (s.finish f).2.calls.eraseIdx i = s.calls.eraseIdx i := by rw [finish_calls]
    exact ⟨finish_config f, hcalls, fun _ _ => ⟨_, rfl⟩⟩
  · exact ⟨finish_config f, ⟨_, by simp only [settled, finish_calls]; rfl, fun hsingle => by cases hsingle⟩,
      fun hsingle => by cases hsingle⟩
  · exact ⟨rfl, rfl, fun _ hlt => absurd hlt (lt_irrefl _)⟩
  · exact ⟨rfl, ⟨_, rfl, fun hsingle => by cases hsingle⟩, fun hsingle => by cases hsingle⟩
  · simp only
    obtain ⟨hconfig, hcalls, hnone⟩ := nextItem_calls (W := W) (s := s) { b with done := b.done ++ [(b.current, last)] }
    rcases hitem : s.nextItem W { b with done := b.done ++ [(b.current, last)] } with ⟨t, c | c⟩
    · rw [hitem] at hconfig hcalls hnone
      refine ⟨hconfig, ?_, fun hsingle => by cases hsingle⟩
      rw [if_pos (hnone.1 rfl)]
      exact congrArg (·.eraseIdx i) hcalls
    · rw [hitem] at hconfig hcalls hnone
      refine ⟨hconfig, ?_, fun hsingle => by cases hsingle⟩
      rw [if_neg fun hsome => Option.some_ne_none c (hnone.2 hsome)]
      exact ⟨c, congrArg (·.set i c) hcalls, fun hsingle => by cases hsingle⟩

/-- Any other step leaves the calls, and creates nothing. -/
theorem step_plain {P : SimConfig → Prop} (h : s.step W l = some s') (hplain : l.isPlain = true)
    (hresume : ∀ i, l ≠ .resume i) :
    (P s.config → l.keeps P → P s'.config) ∧ s'.calls = s.calls ∧ s'.created = s.created := by
  cases l with
  | createCollection | createPayout | createPayoutBatch | createUtilityPurchase | createTransfer | settleNow =>
    cases hplain
  | resume i => exact absurd rfl (hresume i)
  | timer =>
    simp only [step, fireTimer] at h
    split at h
    · cases h
    · next u ts htimers =>
      obtain ⟨-, heq⟩ := Option.ite_none_right_eq_some.1 h
      obtain rfl := Option.some.inj heq
      have hfires := fireCallback_fires (s := { s with timers := ts }) u.callback
      refine ⟨fun hP _ => ?_, hfires.calls, created_eq ?_ hfires.runs⟩
      · rw [hfires.config]
        exact hP
      · rw [hfires.heap, List.length_modify]
  | elapse ms | deletePolicy | wallet cred =>
    cases h
    exact ⟨fun hP _ => hP, rfl, rfl⟩
  | patchConfig config =>
    cases h
    exact ⟨fun _ hl => hl, rfl, rfl⟩
  | putPolicy body =>
    cases h
    obtain ⟨hcalls, hsame⟩ := putPolicy_same (W := W) (s := s) body
    refine ⟨fun hP _ => ?_, hcalls, created_eq (by rw [hsame.heap]) hsame.runs⟩
    rw [hsame.config]
    exact hP
  | setBalance cred amount =>
    cases h
    obtain ⟨hconfig, hcalls⟩ := setBalance_config (s := s) cred amount
    refine ⟨fun hP _ => ?_, hcalls, ?_⟩
    · rw [hconfig]
      exact hP
    · unfold setBalance
      split <;> rfl

end Sim

namespace Served
open Runs

variable {W : Wire Body} {s s' : Served Body} {l : Request Body} {cred key : String} {op : Op} {body : Body}

/-! ### One run for a key -/

/-- The requests that hold a claim. -/
def underWay (s : Served Body) : List Run := (s.running ++ s.ended.map Prod.fst).filter (·.keyed)

/-- Every claim in the map is that of one request, and every waiting call has its request. -/
structure Claims (s : Served Body) : Prop where
  places : s.running.length = s.sim.calls.length
  single : ∀ (i : Nat) (run : Run) (c : Call Body), s.running[i]? = some run → s.sim.calls[i]? = some c → run.op ≠ .createPayoutBatch →
    c.isSingle = true
  nodup : (s.underWay.map Run.text).Nodup
  claimed : ∀ run ∈ s.underWay, s.idem.get? run.text = some ⟨run.hash, none⟩

theorem init_claims (config : SimConfig) (now : Time) : (Served.init config now : Served Body).Claims where
  places := rfl
  single i run c hrun := by cases hrun
  nodup := List.nodup_nil
  claimed := List.forall_mem_nil _

/-- The request that a POST makes where it runs. -/
def run (W : Wire Body) (s : Served Body) (cred key : String) (op : Op) (body : Body) : Run :=
  ⟨cred, key, W.hashOf body, op, s.sim.config.idempotency = .correct⟩

theorem absent_of_start (h : (s.answer W cred key body).isSome = false) (hmode : s.sim.config.idempotency = .correct) :
    s.idem.get? (keyText cred key) = none := by
  unfold answer at h
  split_ifs at h
  · rw [Option.isSome_map, Option.isSome_eq_false_iff, Option.isNone_iff_eq_none] at h
    unfold hit at h
    rwa [hmode] at h
  · cases h

/-- What a request that starts adds to those under way. -/
theorem Claims.claim (h : s.Claims) (op : Op)
    (hfresh : s.sim.config.idempotency = .correct → s.idem.get? (keyText cred key) = none) (s' : Served Body)
    (hidem : s'.idem = s.claim cred key (W.hashOf body))
    (hperm : s'.underWay.Perm ([s.run W cred key op body].filter (·.keyed) ++ s.underWay)) :
    (s'.underWay.map Run.text).Nodup ∧ ∀ run ∈ s'.underWay, s'.idem.get? run.text = some ⟨run.hash, none⟩ := by
  cases hmode : s.sim.config.idempotency with
  | broken =>
    have hidem' : s'.idem = s.idem := by rw [hidem, Served.claim, hmode]
    have hunkeyed : [s.run W cred key op body].filter (·.keyed) = [] := by simp [run, hmode]
    rw [hunkeyed, List.nil_append] at hperm
    refine ⟨(hperm.map _).nodup_iff.2 h.nodup, fun run hrun => ?_⟩
    rw [hidem']
    exact h.claimed run (hperm.mem_iff.1 hrun)
  | correct =>
    have habsent := hfresh hmode
    have hidem' : s'.idem = s.idem.set (keyText cred key) ⟨W.hashOf body, none⟩ := by rw [hidem, Served.claim, hmode]
    have hkeyed : [s.run W cred key op body].filter (·.keyed) = [s.run W cred key op body] := by simp [run, hmode]
    have hne : ∀ run ∈ s.underWay, run.text ≠ keyText cred key := by
      intro run hrun htext
      rw [← htext, h.claimed run hrun] at habsent
      cases habsent
    rw [hkeyed, List.singleton_append] at hperm
    refine ⟨(hperm.map _).nodup_iff.2 ?_, fun run hrun => ?_⟩
    · rw [List.map_cons, List.nodup_cons]
      refine ⟨fun hmem => ?_, h.nodup⟩
      obtain ⟨run, hrun, htext⟩ := List.mem_map.1 hmem
      exact hne run hrun htext
    · rw [hidem', OrderedMap.get?_set]
      rcases List.mem_cons.1 (hperm.mem_iff.1 hrun) with rfl | hrun
      · exact if_pos rfl
      · rw [if_neg (hne run hrun).symm]
        exact h.claimed run hrun

/-- A request that starts is under way. -/
theorem underWay_start (hs : s.start W cred key op body = some s') : s'.idem = s.claim cred key (W.hashOf body) ∧
    s'.underWay.Perm ([s.run W cred key op body].filter (·.keyed) ++ s.underWay) := by
  obtain ⟨sim, -, hs⟩ := Option.map_eq_some_iff.1 hs
  cases houtcome : s.sim.outcome W cred body op with
  | some outcome =>
    rw [houtcome] at hs
    subst hs
    refine ⟨rfl, ?_⟩
    rw [underWay, List.map_append, ← List.append_assoc, List.filter_append]
    exact List.perm_append_comm
  | none =>
    rw [houtcome] at hs
    subst hs
    refine ⟨rfl, ?_⟩
    rw [underWay, List.append_assoc, List.filter_append, List.filter_append, underWay, List.filter_append]
    exact List.perm_append_comm_assoc ..

theorem Claims.start (h : s.Claims) (hanswer : (s.answer W cred key body).isSome = false)
    (hs : s.start W cred key op body = some s') : s'.Claims := by
  obtain ⟨hidem, hperm⟩ := underWay_start hs
  obtain ⟨hnodup, hclaimed⟩ := h.claim op (absent_of_start hanswer) s' hidem hperm
  obtain ⟨sim, hsim, hs⟩ := Option.map_eq_some_iff.1 hs
  have hstarts := Sim.step_starts op hsim
  have hcalls := hstarts.calls
  cases houtcome : s.sim.outcome W cred body op with
  | some outcome =>
    rw [houtcome] at hs hcalls
    have hcalls : sim.calls = s.sim.calls := hcalls
    subst hs
    refine ⟨?_, fun i run c hrun hc => h.single i run c hrun (hcalls ▸ hc), hnodup, hclaimed⟩
    rw [hcalls]
    exact h.places
  | none =>
    rw [houtcome] at hs hcalls
    obtain ⟨c, hcalls, hsingle⟩ : ∃ c : Call Body, sim.calls = s.sim.calls ++ [c] ∧
      (op ≠ .createPayoutBatch → c.isSingle = true) := hcalls
    subst hs
    refine ⟨?_, fun i run c' hrun hc' hop => ?_, hnodup, hclaimed⟩
    · simp only [hcalls, List.length_append, h.places]
      rfl
    · rw [hcalls] at hc'
      have hlength := h.places
      rcases List.getElem?_concat_cases hrun with hrun | ⟨rfl, rfl⟩
      · rcases List.getElem?_concat_cases hc' with hc' | ⟨rfl, -⟩
        · exact h.single i run c' hrun hc' hop
        · exact absurd (List.getElem?_eq_some_iff.1 hrun).1 (by omega)
      · rcases List.getElem?_concat_cases hc' with hc' | ⟨-, rfl⟩
        · exact absurd (List.getElem?_eq_some_iff.1 hc').1 (by omega)
        · exact hsingle hop

/-- A step of the simulator that is neither the start of an operation nor the end of an `await`. -/
theorem step_act {l : Sim.Label Body} (hs : s.step W (.act l) = some s') (hresume : ¬ ∃ i, l = .resume i) :
    ∃ sim, l.isPlain = true ∧ s.sim.step W l = some sim ∧ s' = { s with sim } := by
  have hstep : (if l.isPlain then (s.sim.step W l).map fun sim => { s with sim } else none) = some s' := by
    cases l with
    | resume i => exact absurd ⟨i, rfl⟩ hresume
    | _ => exact hs
  split_ifs at hstep with hplain
  obtain ⟨sim, hsim, rfl⟩ := Option.map_eq_some_iff.1 hstep
  exact ⟨sim, hplain, hsim, rfl⟩

/-- The steps of the simulator leave the map, and the requests that are under way. -/
theorem underWay_act {l : Sim.Label Body} (hs : s.step W (.act l) = some s') : s'.idem = s.idem ∧
    s'.underWay.Perm s.underWay := by
  by_cases hresume : ∃ i, l = .resume i
  · obtain ⟨i, rfl⟩ := hresume
    obtain ⟨sim, -, rfl⟩ := Option.map_eq_some_iff.1 hs
    split
    · next run outcome hrun houtcome =>
      obtain ⟨hi, rfl⟩ := List.getElem?_eq_some_iff.1 hrun
      refine ⟨rfl, List.Perm.filter _ ?_⟩
      rw [List.map_append, ← List.append_assoc]
      refine List.perm_append_comm.trans ?_
      exact (List.getElem_cons_eraseIdx_perm hi).append_right _
    · exact ⟨rfl, .rfl⟩
  · obtain ⟨sim, -, -, rfl⟩ := step_act hs hresume
    exact ⟨rfl, .rfl⟩

theorem Claims.resume (h : s.Claims) {i : Nat} (hs : s.step W (.act (.resume i)) = some s') : s'.Claims := by
  obtain ⟨hidem, hperm⟩ := underWay_act hs
  have hnodup := (hperm.map Run.text).nodup_iff.2 h.nodup
  have hclaimed : ∀ run ∈ s'.underWay, s'.idem.get? run.text = some ⟨run.hash, none⟩ := by
    intro run hrun
    rw [hidem]
    exact h.claimed run (hperm.mem_iff.1 hrun)
  obtain ⟨sim, hsim, hs⟩ := Option.map_eq_some_iff.1 hs
  obtain ⟨c, hc, hresumes⟩ := Sim.resume_resumes hsim
  have hi : i < s.running.length := by
    rw [h.places]
    exact (List.getElem?_eq_some_iff.1 hc).1
  have hrun : s.running[i]? = some s.running[i] := List.getElem?_eq_getElem hi
  have hcalls := hresumes.calls
  rw [hrun] at hs
  cases houtcome : s.sim.resumedOutcome W i with
  | some outcome =>
    rw [houtcome] at hs hcalls
    have hcalls : sim.calls = s.sim.calls.eraseIdx i := hcalls
    subst hs
    refine ⟨?_, fun j run c' hrun' hc' => ?_, hnodup, hclaimed⟩
    · rw [hcalls, List.length_eraseIdx_of_lt hi, List.length_eraseIdx_of_lt (h.places ▸ hi), h.places]
    · rw [hcalls, List.getElem?_eraseIdx] at hc'
      rw [List.getElem?_eraseIdx] at hrun'
      split_ifs at hrun' hc' with hj
      · exact h.single j run c' hrun' hc'
      · exact h.single (j + 1) run c' hrun' hc'
  | none =>
    rw [houtcome] at hs hcalls
    obtain ⟨c₁, hcalls, hsingle⟩ : ∃ c', sim.calls = s.sim.calls.set i c' ∧ (c.isSingle = true → c'.isSingle = true) :=
      hcalls
    subst hs
    refine ⟨?_, fun j run c' hrun' hc' hop => ?_, hnodup, hclaimed⟩
    · rw [hcalls, List.length_set]
      exact h.places
    · rw [hcalls, List.getElem?_set] at hc'
      split_ifs at hc' with hj
      · subst hj
        obtain rfl := Option.some.inj hc'
        exact hsingle (h.single i run c hrun' hc hop)
      · exact h.single j run c' hrun' hc' hop

theorem get?_concluded {run : Run} {outcome : Except Thrown Reply} {k : String} (h : run.text ≠ k) :
    (s.concluded run outcome).get? k = s.idem.get? k := by
  unfold concluded
  split
  · split
    · rw [OrderedMap.get?_set, if_neg h]
    · exact OrderedMap.get?_filter _ (by simpa using h.symm)
  · rfl

/-- The requests under way, the one that is concluded first. -/
theorem underWay_perm {i : Nat} {e : Run × Except Thrown Reply} (he : s.ended[i]? = some e) :
    (([e.1].filter (·.keyed)) ++ (s.running ++ (s.ended.eraseIdx i).map Prod.fst).filter (·.keyed)).Perm s.underWay := by
  obtain ⟨hi, rfl⟩ := List.getElem?_eq_some_iff.1 he
  rw [← List.filter_append]
  refine List.Perm.filter _ ?_
  have hended := (List.getElem_cons_eraseIdx_perm hi).map Prod.fst
  rw [List.map_cons, ← List.singleton_append] at hended
  exact (List.perm_append_comm_assoc ..).trans (hended.append_left _)

theorem Claims.conclude (h : s.Claims) {i : Nat} (hs : s.step W (.conclude i) = some s') : s'.Claims := by
  obtain ⟨e, he, rfl⟩ := Option.map_eq_some_iff.1 hs
  have hperm := underWay_perm he
  have hnodup := (hperm.map Run.text).nodup_iff.2 h.nodup
  rw [List.map_append] at hnodup
  refine ⟨h.places, h.single, (List.nodup_append.1 hnodup).2.1, fun run hrun => ?_⟩
  have hclaimed := h.claimed run (hperm.mem_iff.1 (List.mem_append_right _ hrun))
  by_cases hkeyed : e.1.keyed = true
  · have hne : e.1.text ≠ run.text := by
      refine (List.nodup_append.1 hnodup).2.2 _ ?_ _ (List.mem_map_of_mem hrun)
      simp [hkeyed]
    exact (get?_concluded hne).trans hclaimed
  · simp only [concluded, hkeyed]
    exact hclaimed

theorem Claims.step (h : s.Claims) (hs : s.step W l = some s') : s'.Claims := by
  cases l with
  | post cred key op body =>
    rw [Served.step] at hs
    split_ifs at hs with hanswer
    · obtain rfl := Option.some.inj hs
      exact h
    · exact h.start (Bool.eq_false_iff.2 hanswer) hs
  | act l =>
    by_cases hresume : ∃ i, l = .resume i
    · obtain ⟨i, rfl⟩ := hresume
      exact h.resume hs
    · have hne : ∀ i, l ≠ .resume i := fun i heq => hresume ⟨i, heq⟩
      obtain ⟨sim, hplain, hsim, rfl⟩ := step_act hs hresume
      obtain ⟨-, hcalls, -⟩ := Sim.step_plain (P := fun _ => True) hsim hplain hne
      exact ⟨h.places.trans (by rw [hcalls]), fun i run c hrun hc => h.single i run c hrun (hcalls ▸ hc), h.nodup, h.claimed⟩
  | conclude i => exact h.conclude hs

/-! ### One payment for a key -/

/-- The request on whose behalf a step is taken. -/
def actor (W : Wire Body) (s : Served Body) : Request Body → Option Run
  | .post cred key op body => some (s.run W cred key op body)
  | .act (.resume i) => s.running[i]?
  | _ => none

/-- The key for which a step creates a payment or a settlement run, batches apart. -/
def made (W : Wire Body) (s : Served Body) (l : Request Body) : List String :=
  match s.step W l with
  | some s' =>
    if s.sim.created < s'.sim.created then (((s.actor W l).filter (·.op ≠ .createPayoutBatch)).map Run.text).toList
    else []
  | none => []

/-- The run for a key has ended well, or its answer is stored. -/
def Done (s : Served Body) (k : String) : Prop :=
  (∃ run r, (run, .ok r) ∈ s.ended ∧ run.keyed = true ∧ run.text = k) ∨ ∃ hash reply, s.idem.get? k = some ⟨hash, some reply⟩

theorem made_spec {k : String} (hk : k ∈ s.made W l) (hs : s.step W l = some s') :
    s.sim.created < s'.sim.created ∧ ∃ run, s.actor W l = some run ∧ run.op ≠ .createPayoutBatch ∧ run.text = k := by
  unfold made at hk
  rw [hs] at hk
  simp only at hk
  split_ifs at hk with hlt
  · obtain ⟨run, hrun, rfl⟩ := Option.map_eq_some_iff.1 (Option.mem_toList.1 hk)
    obtain ⟨hactor, hop⟩ := Option.filter_eq_some_iff.1 hrun
    exact ⟨hlt, run, hactor, by simpa using hop, rfl⟩
  · cases hk

theorem made_nodup (l : Request Body) : (s.made W l).Nodup := by
  unfold made
  split
  · split_ifs
    · exact Option.toList_nodup _
    · exact List.nodup_nil
  · exact List.nodup_nil

theorem mem_underWay_ended {run : Run} {outcome : Except Thrown Reply} (h : (run, outcome) ∈ s.ended)
    (hkeyed : run.keyed = true) : run ∈ s.underWay :=
  List.mem_filter.2 ⟨List.mem_append_right _ (List.mem_map_of_mem h), hkeyed⟩

theorem Claims.not_done_of_absent (h : s.Claims) {k : String} (hk : s.idem.get? k = none) : ¬ s.Done k := by
  rintro (⟨run, r, hrun, hkeyed, rfl⟩ | ⟨hash, reply, hreply⟩)
  · have hclaimed := h.claimed run (mem_underWay_ended hrun hkeyed)
    rw [hk] at hclaimed
    cases hclaimed
  · rw [hk] at hreply
    cases hreply

theorem Claims.not_done_of_running (h : s.Claims) {run : Run} (hrun : run ∈ s.running) (hkeyed : run.keyed = true) :
    ¬ s.Done run.text := by
  have hclaimed := h.claimed run (List.mem_filter.2 ⟨List.mem_append_left _ hrun, hkeyed⟩)
  rintro (⟨run', r, hrun', hkeyed', htext⟩ | ⟨hash, reply, hreply⟩)
  · have hnodup := h.nodup
    rw [underWay, List.filter_append, List.map_append] at hnodup
    refine (List.nodup_append.1 hnodup).2.2 run.text ?_ run'.text ?_ htext.symm
    · exact List.mem_map_of_mem (List.mem_filter.2 ⟨hrun, hkeyed⟩)
    · exact List.mem_map_of_mem (List.mem_filter.2 ⟨List.mem_map_of_mem hrun', hkeyed'⟩)
  · rw [hclaimed] at hreply
    cases hreply

/-- An answer that is stored stays. -/
theorem Claims.stored (h : s.Claims) (hs : s.step W l = some s') {k hash : String} {reply : Answer}
    (hk : s.idem.get? k = some ⟨hash, some reply⟩) : s'.idem.get? k = some ⟨hash, some reply⟩ := by
  cases l with
  | post cred key op body =>
    rw [Served.step] at hs
    split_ifs at hs with hanswer
    · obtain rfl := Option.some.inj hs
      exact hk
    · have hidem : s'.idem = s.claim cred key (W.hashOf body) := by
        obtain ⟨sim, -, rfl⟩ := Option.map_eq_some_iff.1 hs
        split <;> rfl
      rw [hidem, Served.claim]
      cases hmode : s.sim.config.idempotency with
      | broken => exact hk
      | correct =>
        have habsent := absent_of_start (Bool.eq_false_iff.2 hanswer) hmode
        rw [OrderedMap.get?_set, if_neg, hk]
        rintro rfl
        rw [habsent] at hk
        cases hk
  | act l =>
    rw [(underWay_act hs).1]
    exact hk
  | conclude i =>
    obtain ⟨⟨run, outcome⟩, he, rfl⟩ := Option.map_eq_some_iff.1 hs
    by_cases hkeyed : run.keyed = true
    · refine (get?_concluded ?_).trans hk
      rintro rfl
      have hclaimed := h.claimed run (mem_underWay_ended (List.mem_of_getElem? he) hkeyed)
      rw [hk] at hclaimed
      cases hclaimed
    · simp only [concluded, hkeyed]
      exact hk

theorem Claims.done (h : s.Claims) (hs : s.step W l = some s') {k : String} (hk : s.Done k) : s'.Done k := by
  rcases hk with ⟨run, r, hrun, hkeyed, rfl⟩ | ⟨hash, reply, hreply⟩
  · cases l with
    | post cred key op body =>
      left
      rw [Served.step] at hs
      split_ifs at hs
      · obtain rfl := Option.some.inj hs
        exact ⟨run, r, hrun, hkeyed, rfl⟩
      · refine ⟨run, r, ?_, hkeyed, rfl⟩
        obtain ⟨sim, -, rfl⟩ := Option.map_eq_some_iff.1 hs
        split
        · exact List.mem_append_left _ hrun
        · exact hrun
    | act l =>
      left
      refine ⟨run, r, ?_, hkeyed, rfl⟩
      by_cases hresume : ∃ i, l = .resume i
      · obtain ⟨i, rfl⟩ := hresume
        obtain ⟨sim, -, rfl⟩ := Option.map_eq_some_iff.1 hs
        split
        · exact List.mem_append_left _ hrun
        · exact hrun
      · obtain ⟨sim, -, -, rfl⟩ := step_act hs hresume
        exact hrun
    | conclude i =>
      obtain ⟨e, he, rfl⟩ := Option.map_eq_some_iff.1 hs
      obtain ⟨j, hj⟩ := List.mem_iff_getElem?.1 hrun
      by_cases hij : j = i
      · -- The run itself is concluded.
        subst hij
        obtain rfl := Option.some.inj (he.symm.trans hj)
        right
        refine ⟨run.hash, ⟨r.status, .reply r.body⟩, ?_⟩
        simp only [concluded, hkeyed, Answer.stored, if_true]
        rw [OrderedMap.get?_set, if_pos rfl]
      · exact .inl ⟨run, r, List.mem_eraseIdx_iff_getElem?.2 ⟨j, hij, hj⟩, hkeyed, rfl⟩
  · exact .inr ⟨hash, reply, h.stored hs hreply⟩

/-- References count, and every waiting call has claimed its key. -/
structure Keyed (s : Served Body) : Prop where
  mode : s.sim.config.idempotency = .correct
  running : ∀ run ∈ s.running, run.keyed = true

theorem Keyed.step (h : s.Keyed) (hs : s.step W l = some s') (hl : l.keeps (·.idempotency = .correct)) : s'.Keyed := by
  cases l with
  | post cred key op body =>
    rw [Served.step] at hs
    split_ifs at hs
    · obtain rfl := Option.some.inj hs
      exact h
    · obtain ⟨sim, hsim, rfl⟩ := Option.map_eq_some_iff.1 hs
      have hmode : sim.config.idempotency = .correct := by
        rw [(Sim.step_starts op hsim).config]
        exact h.mode
      split
      · exact ⟨hmode, h.running⟩
      · refine ⟨hmode, fun run hrun => ?_⟩
        rcases List.mem_append.1 hrun with hrun | hrun
        · exact h.running run hrun
        · rw [List.mem_singleton.1 hrun]
          exact decide_eq_true h.mode
  | act l =>
    by_cases hresume : ∃ i, l = .resume i
    · obtain ⟨i, rfl⟩ := hresume
      obtain ⟨sim, hsim, rfl⟩ := Option.map_eq_some_iff.1 hs
      obtain ⟨c, -, hresumes⟩ := Sim.resume_resumes hsim
      have hmode : sim.config.idempotency = .correct := by
        rw [hresumes.config]
        exact h.mode
      split
      · exact ⟨hmode, fun run hrun => h.running run (List.mem_of_mem_eraseIdx hrun)⟩
      · exact ⟨hmode, h.running⟩
    · have hne : ∀ i, l ≠ .resume i := fun i heq => hresume ⟨i, heq⟩
      obtain ⟨sim, hplain, hsim, rfl⟩ := step_act hs hresume
      have hkeeps : l.keeps (·.idempotency = .correct) := by
        cases l with
        | patchConfig config => exact hl
        | _ => trivial
      exact ⟨(Sim.step_plain hsim hplain hne).1 h.mode hkeeps, h.running⟩
  | conclude i =>
    obtain ⟨e, he, rfl⟩ := Option.map_eq_some_iff.1 hs
    exact ⟨h.mode, h.running⟩

/-- What is created for a key is not done before the step, and done after it. -/
theorem Claims.makes (h : s.Claims) (hkeyed : s.Keyed) (hs : s.step W l = some s')
    (hlt : s.sim.created < s'.sim.created) {run : Run} (hactor : s.actor W l = some run)
    (hop : run.op ≠ .createPayoutBatch) : ¬ s.Done run.text ∧ s'.Done run.text := by
  cases l with
  | post cred key op body =>
    obtain rfl := Option.some.inj hactor
    rw [Served.step] at hs
    split_ifs at hs with hanswer
    · obtain rfl := Option.some.inj hs
      exact absurd hlt (lt_irrefl _)
    · refine ⟨h.not_done_of_absent (absent_of_start (Bool.eq_false_iff.2 hanswer) hkeyed.mode), ?_⟩
      obtain ⟨sim, hsim, rfl⟩ := Option.map_eq_some_iff.1 hs
      have hcreated : s.sim.created < sim.created := by
        split at hlt <;> exact hlt
      obtain ⟨r, houtcome⟩ := (Sim.step_starts op hsim).created hop hcreated
      rw [houtcome]
      exact .inl ⟨_, r, List.mem_append_right _ (List.mem_singleton_self _), decide_eq_true hkeyed.mode, rfl⟩
  | act l =>
    cases l with
    | resume i =>
      have hmem : run ∈ s.running := List.mem_of_getElem? hactor
      refine ⟨h.not_done_of_running hmem (hkeyed.running run hmem), ?_⟩
      obtain ⟨sim, hsim, rfl⟩ := Option.map_eq_some_iff.1 hs
      obtain ⟨c, hc, hresumes⟩ := Sim.resume_resumes hsim
      have hcreated : s.sim.created < sim.created := by
        split at hlt <;> exact hlt
      obtain ⟨r, houtcome⟩ := hresumes.created (h.single i run c hactor hc hop) hcreated
      have hrunning : s.running[i]? = some run := hactor
      rw [houtcome, hrunning]
      exact .inl ⟨run, r, List.mem_append_right _ (List.mem_singleton_self _), hkeyed.running run hmem, rfl⟩
    | _ => cases hactor
  | conclude i => cases hactor

/-- The key under which a step stores the answer of a run, whatever its operation. -/
def stores (s : Served Body) : Request Body → List String
  | .conclude i =>
    match s.ended[i]? with
    | some (run, outcome) => if run.keyed && (Answer.stored outcome).isSome then [run.text] else []
    | none => []
  | _ => []

theorem stores_nodup (l : Request Body) : (s.stores l).Nodup := by
  unfold stores
  split
  · split
    · split_ifs
      · exact List.nodup_singleton _
      · exact List.nodup_nil
    · exact List.nodup_nil
  · exact List.nodup_nil

/-- An answer is stored under a key that was claimed, and it is there from then on. -/
theorem Claims.stores (h : s.Claims) (hs : s.step W l = some s') {k : String} (hk : k ∈ s.stores l) :
    (∃ hash, s.idem.get? k = some ⟨hash, none⟩) ∧ ∃ hash reply, s'.idem.get? k = some ⟨hash, some reply⟩ := by
  cases l with
  | post cred key op body | act l => cases hk
  | conclude i =>
    obtain ⟨⟨run, outcome⟩, he, rfl⟩ := Option.map_eq_some_iff.1 hs
    simp only [Served.stores, he] at hk
    split_ifs at hk with hstored
    · obtain rfl := List.mem_singleton.1 hk
      obtain ⟨hkeyed, hsome⟩ := Bool.and_eq_true_iff.1 hstored
      obtain ⟨reply, hreply⟩ := Option.isSome_iff_exists.1 hsome
      refine ⟨⟨_, h.claimed run (mem_underWay_ended (List.mem_of_getElem? he) hkeyed)⟩, run.hash, reply, ?_⟩
      simp only [concluded, hkeyed, hreply, if_true]
      rw [OrderedMap.get?_set, if_pos rfl]
    · cases hk

/-- With idempotency keys that count, whatever the bodies, references and configurations else: at any time a key has one
run at most; of all the runs that a key has, one at most ends with an answer that is kept; and in the whole run a key
makes one payment or one settlement run at most, unless it is that of a batch. -/
theorem one_payment_per_key (W : Wire Body) (config : SimConfig) (now : Time) (tr : List (Request Body))
    (hconfig : config.idempotency = .correct) (hkeeps : ∀ l ∈ tr, l.keeps (·.idempotency = .correct)) :
    Throughout (step W) (fun s => (s.underWay.map Run.text).Nodup) (init config now) tr ∧
      (outputs (step W) stores (init config now) tr).Nodup ∧ (outputs (step W) (made W) (init config now) tr).Nodup := by
  have hlabels : Along (step W) (fun _ l _ => l.keeps (·.idempotency = .correct)) (init config now) tr := .of_labels hkeeps
  have hclaims : (init config now : Served Body).Claims := init_claims config now
  have hkeyed : (init config now : Served Body).Keyed := ⟨hconfig, List.forall_mem_nil _⟩
  refine ⟨⟨hclaims.nodup, .of_inv (I := Claims) hclaims ?_⟩, ?_, ?_⟩
  · intro s l s' h hs
    exact ⟨h.step hs, (h.step hs).nodup⟩
  · refine (hlabels.outputs_nodup (I := Claims) (M := fun s k => ∃ hash reply, s.idem.get? k = some ⟨hash, some reply⟩)
      hclaims ?_).1
    intro s l s' h hs _
    refine ⟨h.step hs, stores_nodup l, ?_, ?_⟩
    · rintro k hk ⟨hash, reply, hreply⟩
      obtain ⟨hash', hclaimed⟩ := (h.stores hs hk).1
      rw [hclaimed] at hreply
      cases hreply
    · rintro k (⟨hash, reply, hreply⟩ | hk)
      · exact ⟨hash, reply, h.stored hs hreply⟩
      · exact (h.stores hs hk).2
  · refine (hlabels.outputs_nodup (I := fun s => s.Claims ∧ s.Keyed) (M := Done) ⟨hclaims, hkeyed⟩ ?_).1
    rintro s l s' ⟨h, hk⟩ hs hl
    refine ⟨⟨h.step hs, hk.step hs hl⟩, made_nodup l, ?_, ?_⟩
    · intro k hmade
      obtain ⟨hlt, run, hactor, hop, rfl⟩ := made_spec hmade hs
      exact (h.makes hk hs hlt hactor hop).1
    · rintro k (hdone | hmade)
      · exact h.done hs hdone
      · obtain ⟨hlt, run, hactor, hop, rfl⟩ := made_spec hmade hs
        exact (h.makes hk hs hlt hactor hop).2

def payoutBody : Form := .payout ⟨"p1", "10.00", "GHS", "mtn", ⟨.msisdn, "0240000000"⟩, none⟩

/-- A payout that is sent again while it runs and after it has been answered. -/
def sentThrice : List (Request Form) :=
  [.post "shop" "k1" .createPayout payoutBody, .post "shop" "k1" .createPayout payoutBody, .act (.resume 0), .conclude 0,
    .post "shop" "k1" .createPayout payoutBody]

theorem one_payment_per_key_sentThrice : outputs (step formWire) (made formWire) (init .default 0) sentThrice = ["shop:k1"] ∧
    Throughout (step formWire) (fun s => (s.underWay.map Run.text).Nodup) (init .default 0) sentThrice ∧
      (outputs (step formWire) stores (init .default 0) sentThrice).Nodup ∧
        (outputs (step formWire) (made formWire) (init .default 0) sentThrice).Nodup :=
  ⟨by decide +kernel, one_payment_per_key formWire .default 0 sentThrice rfl (by decide)⟩

/-- A body names a batch of two payouts; the note of the second one makes the simulator throw. -/
def halfPaid : Wire Form where
  __ := formWire
  payoutBatch
    | .payout r => .ok ⟨r.reference, [⟨"a", .payout r⟩, ⟨"b", .payout { r with note := some "<" }⟩]⟩
    | _ => .error "items: Required"

def batchOf (reference : String) : List (Request Form) :=
  [.post "shop" "k1" .createPayoutBatch (.payout ⟨reference, "10.00", "GHS", "mtn", ⟨.msisdn, "0240000000"⟩, none⟩),
    .act (.resume 0), .act (.resume 0), .conclude 0]

-- The key of a batch that throws is free again, though an item was paid: another batch pays under it too.
example : (Runs.run (step halfPaid) (init { SimConfig.default with weak := ⟨false, false, true⟩ } 0)
    (batchOf "p1" ++ batchOf "p2")).map (fun s => (s.sim.heap.map (·.reference), s.idem.keys)) = some (["p1", "p2"], []) := by decide +kernel

/-! ### Replays -/

/-- The answers that a step stores or gives from the map, with the key and the hash of the body. -/
def answered (W : Wire Body) (s : Served Body) : Request Body → List (String × String × Answer)
  | .post cred key _ body =>
    match s.answer W cred key body with
    | some (.ok reply) => [(keyText cred key, W.hashOf body, reply)]
    | _ => []
  | .conclude i =>
    match s.ended[i]? with
    | some (run, outcome) =>
      if run.keyed then ((Answer.stored outcome).map fun reply => (run.text, run.hash, reply)).toList else []
    | none => []
  | .act _ => []

/-- The run that a step concludes. -/
def concludes (s : Served Body) : Request Body → List (Run × Except Thrown Reply)
  | .conclude i => s.ended[i]?.toList
  | _ => []

/-- A colon ends the credential, so that another credential has no such key. -/
theorem keyText_inj {cred cred' key key' : String} (hcred : ':' ∉ cred.toList) (hcred' : ':' ∉ cred'.toList)
    (h : keyText cred key = keyText cred' key') : cred = cred' ∧ key = key' := by
  have hlist : cred.toList ++ ':' :: key.toList = cred'.toList ++ ':' :: key'.toList := by
    have := congrArg String.toList h
    simpa [keyText] using this
  obtain ⟨hbefore, hafter⟩ := Text.append_cons_inj hcred hcred' hlist
  exact ⟨String.toList_inj.1 hbefore, String.toList_inj.1 hafter⟩

theorem answer_stored {reply : Answer} (h : s.answer W cred key body = some (.ok reply)) :
    s.idem.get? (keyText cred key) = some ⟨W.hashOf body, some reply⟩ := by
  unfold answer at h
  split_ifs at h
  · obtain ⟨cell, hcell, h⟩ := Option.map_eq_some_iff.1 h
    have hget : s.idem.get? (keyText cred key) = some cell := by
      unfold hit at hcell
      split at hcell
      · cases hcell
      · exact hcell
    split_ifs at h with hhash
    · rcases cell with ⟨hash, - | reply'⟩
      · cases h
      · cases h
        rw [hget, ← hhash]
  · cases h

/-- What is given or stored is what the map has from then on. -/
theorem Claims.answered_stored (h : s.Claims) (hs : s.step W l = some s') :
    ∀ a ∈ s.answered W l, s'.idem.get? a.1 = some ⟨a.2.1, some a.2.2⟩ := by
  intro a ha
  cases l with
  | post cred key op body =>
    simp only [answered] at ha
    split at ha
    · next reply hreply =>
      rw [List.mem_singleton.1 ha]
      exact h.stored hs (answer_stored hreply)
    · cases ha
  | act l => cases ha
  | conclude i =>
    obtain ⟨⟨run, outcome⟩, he, rfl⟩ := Option.map_eq_some_iff.1 hs
    simp only [answered, he] at ha
    split_ifs at ha with hkeyed
    · obtain ⟨reply, hreply, rfl⟩ := Option.map_eq_some_iff.1 (Option.mem_toList.1 ha)
      simp only [concluded, hkeyed, hreply, if_true]
      rw [OrderedMap.get?_set, if_pos rfl]
    · cases ha

/-- No credential has a colon. -/
def Request.Named : Request Body → Prop
  | .post cred .. => ':' ∉ cred.toList
  | _ => True

instance : (l : Request Body) → Decidable (Request.Named l)
  | .post cred _ _ _ => inferInstanceAs (Decidable (':' ∉ cred.toList))
  | .act _ | .conclude _ => isTrue trivial

/-- The runs come from requests without a colon in the credential, and every answer in the map is that of a run which
was concluded. -/
structure Sourced (s : Served Body) (runs : List (Run × Except Thrown Reply)) : Prop where
  running : ∀ run ∈ s.running, ':' ∉ run.cred.toList
  ended : ∀ e ∈ s.ended, ':' ∉ e.1.cred.toList
  concluded : ∀ e ∈ runs, ':' ∉ e.1.cred.toList
  stored : ∀ k hash reply, s.idem.get? k = some ⟨hash, some reply⟩ →
    ∃ e ∈ runs, e.1.text = k ∧ e.1.hash = hash ∧ Answer.stored e.2 = some reply

theorem Sourced.step {runs : List (Run × Except Thrown Reply)} (h : s.Sourced runs) (hs : s.step W l = some s')
    (hl : Request.Named l) : s'.Sourced (runs ++ s.concludes l) := by
  cases l with
  | post cred key op body =>
    rw [show s.concludes (.post cred key op body) = [] from rfl, List.append_nil]
    rw [Served.step] at hs
    split_ifs at hs
    · obtain rfl := Option.some.inj hs
      exact h
    · have hidem : s'.idem = s.claim cred key (W.hashOf body) := by
        obtain ⟨sim, -, rfl⟩ := Option.map_eq_some_iff.1 hs
        split <;> rfl
      have hstored : ∀ k hash reply, s'.idem.get? k = some ⟨hash, some reply⟩ →
          ∃ e ∈ runs, e.1.text = k ∧ e.1.hash = hash ∧ Answer.stored e.2 = some reply := by
        intro k hash reply hk
        refine h.stored k hash reply ?_
        rw [hidem, claim] at hk
        split at hk
        · exact hk
        · rw [OrderedMap.get?_set] at hk
          split_ifs at hk
          · cases hk
          · exact hk
      obtain ⟨sim, -, hs⟩ := Option.map_eq_some_iff.1 hs
      split at hs <;> subst hs
      · refine ⟨h.running, fun e he => ?_, h.concluded, hstored⟩
        rcases List.mem_append.1 he with he | he
        · exact h.ended e he
        · rw [List.mem_singleton.1 he]
          exact hl
      · refine ⟨fun run hrun => ?_, h.ended, h.concluded, hstored⟩
        rcases List.mem_append.1 hrun with hrun | hrun
        · exact h.running run hrun
        · rw [List.mem_singleton.1 hrun]
          exact hl
  | act l =>
    rw [show s.concludes (.act l) = [] from rfl, List.append_nil]
    by_cases hresume : ∃ i, l = .resume i
    · obtain ⟨i, rfl⟩ := hresume
      obtain ⟨sim, -, rfl⟩ := Option.map_eq_some_iff.1 hs
      split
      · next run outcome hrun houtcome =>
        refine ⟨fun r hr => h.running r (List.mem_of_mem_eraseIdx hr), fun e he => ?_, h.concluded, h.stored⟩
        rcases List.mem_append.1 he with he | he
        · exact h.ended e he
        · rw [List.mem_singleton.1 he]
          exact h.running run (List.mem_of_getElem? hrun)
      · exact ⟨h.running, h.ended, h.concluded, h.stored⟩
    · obtain ⟨sim, -, -, rfl⟩ := step_act hs hresume
      exact ⟨h.running, h.ended, h.concluded, h.stored⟩
  | conclude i =>
    obtain ⟨e, he, rfl⟩ := Option.map_eq_some_iff.1 hs
    have hconcludes : s.concludes (.conclude i : Request Body) = [e] := by rw [concludes, he, Option.toList_some]
    rw [hconcludes]
    refine ⟨h.running, fun e' he' => h.ended e' (List.mem_of_mem_eraseIdx he'), fun e' he' => ?_, fun k hash reply hk => ?_⟩
    · rcases List.mem_append.1 he' with he' | he'
      · exact h.concluded e' he'
      · rw [List.mem_singleton.1 he']
        exact h.ended e (List.mem_of_getElem? he)
    · have hold : s.idem.get? k = some ⟨hash, some reply⟩ →
          ∃ e' ∈ runs ++ [e], e'.1.text = k ∧ e'.1.hash = hash ∧ Answer.stored e'.2 = some reply := by
        intro hk
        obtain ⟨e', he', hrest⟩ := h.stored k hash reply hk
        exact ⟨e', List.mem_append_left _ he', hrest⟩
      by_cases htext : e.1.text = k
      · unfold Served.concluded at hk
        split at hk
        · split at hk
          · next reply' hreply =>
            rw [OrderedMap.get?_set, if_pos htext] at hk
            cases hk
            exact ⟨e, List.mem_append_right _ (List.mem_singleton_self e), htext, rfl, hreply⟩
          · rw [← htext] at hk
            simp [OrderedMap.get?_eq_none_iff.2, OrderedMap.keys_filter] at hk
        · exact hold hk
      · exact hold ((get?_concluded htext).symm.trans hk)

/-- Whatever the configurations: two answers stored or given for a key are for one body and are the same, and an answer
that is given without a run is that of a run for the same credential, key and body, unless a credential has a colon. -/
theorem replays (W : Wire Body) (config : SimConfig) (now : Time) (tr : List (Request Body))
    (hnamed : ∀ l ∈ tr, Request.Named l) :
    (∀ a ∈ outputs (step W) (answered W) (init config now) tr, ∀ b ∈ outputs (step W) (answered W) (init config now) tr,
      a.1 = b.1 → a.2 = b.2) ∧
    ∀ s, Runs.run (step W) (init config now) tr = some s → ∀ cred key body reply, ':' ∉ cred.toList →
      s.answer W cred key body = some (.ok reply) →
        ∃ e ∈ outputs (step W) concludes (init config now) tr, e.1.cred = cred ∧ e.1.key = key ∧
          e.1.hash = W.hashOf body ∧ Answer.stored e.2 = some reply := by
  have hlabels : Along (step W) (fun _ l _ => Request.Named l) (init config now) tr := .of_labels hnamed
  constructor
  · refine hlabels.outputs_agree (I := Claims) (R := fun s k v => s.idem.get? k = some ⟨v.1, some v.2⟩)
      (init_claims config now) ?_ ?_
    · intro s k v v' hv hv'
      have heq := hv.symm.trans hv'
      simp only [Option.some.injEq, Cell.mk.injEq] at heq
      exact Prod.ext heq.1 heq.2
    · intro s l s' h hs _
      exact ⟨h.step hs, h.answered_stored hs, fun k v hk => h.stored hs hk⟩
  · intro s hr cred key body reply hcred hanswer
    have hsourced : s.Sourced ([] ++ outputs (step W) concludes (init config now) tr) := by
      refine hlabels.outputs_inv ⟨List.forall_mem_nil _, List.forall_mem_nil _, List.forall_mem_nil _, ?_⟩ ?_ hr
      · intro k hash reply hk
        cases hk
      · intro s l s' runs h hs hl
        exact h.step hs hl
    obtain ⟨e, he, htext, hhash, hreply⟩ := hsourced.stored _ _ _ (answer_stored hanswer)
    obtain ⟨hcreds, hkeys⟩ := keyText_inj (hsourced.concluded e he) hcred htext
    exact ⟨e, he, hcreds, hkeys, hhash, hreply⟩

/-- The answer is stored once and given once more, the same. -/
theorem replays_sentThrice : (outputs (step formWire) (answered formWire) (init .default 0) sentThrice).length = 2 ∧
    ∀ a ∈ outputs (step formWire) (answered formWire) (init .default 0) sentThrice,
      ∀ b ∈ outputs (step formWire) (answered formWire) (init .default 0) sentThrice, a.1 = b.1 → a.2 = b.2 :=
  ⟨by decide +kernel, (replays formWire .default 0 sentThrice (by decide)).1⟩

end Served

end Simulator

end CronMonitor
