import CronMonitor.Lib.Runs
import CronMonitor.Lib.Text
import CronMonitor.Lib.OrderedMap
import CronMonitor.Simulator.State

/-!
# Webhooks

`emit` and `deliver` of `simulator.ts`, the signature of the contract, and the receiver that the checks deliver to. What
is on its way between them may be lost, late, repeated or made up; an answer may be lost as well. A delivery is one call
chain of `deliver`: `chain` is its place in `started`, which with `log` only serves the statements.
-/

namespace CronMonitor

namespace Simulator

/-! ### The contract -/

def WEBHOOK_TOLERANCE_SECONDS : Nat := 300

structure WebhookEnvelope (Data : Type) where
  id : String
  type : String
  createdAt : String
  data : Data
deriving DecidableEq

/-- `JSON.stringify` and `JSON.parse` of an envelope, `createHmac('sha256', secret).update(text).digest('base64')`, and
`Number(text)` where it is finite. -/
structure HookText (Data : Type) where
  stringify : WebhookEnvelope Data → String
  parse : String → Option (WebhookEnvelope Data)
  hmac : String → String → String
  number : String → Option ℚ

def signedText (id timestamp rawBody : String) : String := id ++ "." ++ timestamp ++ "." ++ rawBody

/-- The headers of a request and its body. -/
structure HookRequest where
  id : Option String
  timestamp : Option String
  signature : Option String
  rawBody : String
deriving DecidableEq, Repr

inductive WebhookVerdict
  | ok
  | failed (reason : String)
deriving DecidableEq, Repr

section Contract

variable {Data : Type} (T : HookText Data)

def signWebhook (secret id timestamp rawBody : String) : String := "v1," ++ T.hmac secret (signedText id timestamp rawBody)

/-- The values in a header, which may carry several. -/
def candidates (signature : String) : List String := (signature.toList.splitOn ' ').map String.ofList

def verifyWebhook (secret : String) (r : HookRequest) (nowSeconds : Nat) : WebhookVerdict :=
  match r.id.filter (· ≠ ""), r.timestamp.filter (· ≠ ""), r.signature.filter (· ≠ "") with
  | some id, some timestamp, some signature =>
    match T.number timestamp with
    | none => .failed "bad timestamp"
    | some ts =>
      if (WEBHOOK_TOLERANCE_SECONDS : ℚ) < |nowSeconds - ts| then .failed "timestamp outside tolerance"
      else if signWebhook T secret id timestamp r.rawBody ∈ candidates signature then .ok
      else .failed "signature mismatch"
  | _, _, _ => .failed "missing headers"

end Contract

/-! ### The receiver -/

variable {Data : Type}

/-- What the receiver keeps of a request. -/
structure Receipt (Data : Type) where
  at_ : Nat
  id : String
  timestamp : String
  signature : String
  rawBody : String
  verdict : WebhookVerdict
  envelope : Option (WebhookEnvelope Data)
  attempt : Nat
  respondedWith : Nat

structure Receiver (Data : Type) where
  deliveries : List (Receipt Data)
  attempts : OrderedMap String Nat

/-- How an endpoint is set up. -/
structure Endpoint where
  secret : String
  failWith : String → Nat → Option Nat

namespace Receiver

variable (T : HookText Data) (E : Endpoint) (rx : Receiver Data)

def receipt (now : Nat) (r : HookRequest) : Receipt Data :=
  let id := r.id.getD ""
  let verdict := verifyWebhook T E.secret r (now / 1000)
  let attempt := (rx.attempts.get? id).getD 0 + 1
  { at_ := now
    id
    timestamp := r.timestamp.getD ""
    signature := r.signature.getD ""
    rawBody := r.rawBody
    verdict
    envelope := T.parse r.rawBody
    attempt
    respondedWith := match verdict with
      | .ok => (E.failWith id attempt).getD 200
      | .failed _ => 401 }

def receive (now : Nat) (r : HookRequest) : Receiver Data :=
  let got := rx.receipt T E now r
  ⟨rx.deliveries ++ [got], rx.attempts.set got.id got.attempt⟩

/-- One more of the deliveries that `uniqueEvents` goes through. -/
def see (seen : OrderedMap String (WebhookEnvelope Data)) (d : Receipt Data) : OrderedMap String (WebhookEnvelope Data) :=
  match d.verdict, d.envelope, seen.get? d.id with
  | .ok, some envelope, none => seen.set d.id envelope
  | _, _, _ => seen

def seen : OrderedMap String (WebhookEnvelope Data) := rx.deliveries.foldl see .empty

/-- Distinct events by the id of their header. -/
def uniqueEvents : List (WebhookEnvelope Data) := rx.seen.values

end Receiver

/-! ### The sender -/

/-- `webhooks` of the configuration. -/
structure WebhookConfig where
  url : Option String
  secret : String
  duplicateRate : ℚ
  outOfOrder : Bool
  attempts : Nat
  baseDelayMs : Nat
deriving DecidableEq

/-- The arguments of `deliver`. -/
structure Delivery (Data : Type) where
  chain : Nat
  url : String
  env : WebhookEnvelope Data
  attempt : Nat
  epoch : Nat

/-- A POST that waits for its answer. -/
structure Posting (Data : Type) where
  delivery : Delivery Data
  request : HookRequest
  reply : Option Nat

/-- What has happened to a delivery, and when: the wait is the one before the next attempt. -/
inductive Act
  | posted (attempt at_ : Nat)
  | refused (attempt at_ wait : Nat)
  | acknowledged
  | gaveUp
deriving DecidableEq, Repr

structure Hooks (Data : Type) where
  config : WebhookConfig
  now : Nat
  epoch : Nat
  timers : List (Nat × Delivery Data)
  posting : List (Posting Data)
  sent : Nat
  failed : Nat
  retried : Nat
  receiver : Receiver Data
  started : List (Delivery Data)
  log : List (Nat × Act)
  posts : List HookRequest
  /-- The deliveries that had started, and the POSTs that were waiting, at the last reset. -/
  before : Nat
  carried : Nat

def Hooks.init (Data : Type) (config : WebhookConfig) : Hooks Data where
  config
  now := 0
  epoch := 0
  timers := []
  posting := []
  sent := 0
  failed := 0
  retried := 0
  receiver := ⟨[], .empty⟩
  started := []
  log := []
  posts := []
  before := 0
  carried := 0

inductive HookLabel (Data : Type)
  /-- An event with the random bytes of its id, and what `rand` gives for its copies and its delay. -/
  | emit (hex type createdAt : String) (data : Data) (r r' : ℚ)
  | elapse (ms : Nat)
  | timer (k : Nat)
  /-- A POST arrives, and its answer leaves. -/
  | arrive (k : Nat)
  | answer (k : Nat)
  /-- `fetch` throws: the answer does not come in time, or not at all. -/
  | lost (k : Nat)
  /-- Any other request comes to the receiver. -/
  | inject (r : HookRequest)
  | patch (config : WebhookConfig)
  | reset (config : WebhookConfig)

namespace Hooks

variable (T : HookText Data) (E : Endpoint) (s : Hooks Data)

def copies (r : ℚ) : Nat := if 0 < s.config.duplicateRate ∧ r < s.config.duplicateRate then 2 else 1

/-- `setTimeout` cuts off the fraction. -/
def firstDelay (type : String) (r : ℚ) : Nat :=
  if s.config.outOfOrder ∧ ".accepted".toList.isSuffixOf type.toList then ⌊80 + r * 120⌋.toNat else 0

/-- `emit` but for the list of events. -/
def emit (env : WebhookEnvelope Data) (r r' : ℚ) : Hooks Data :=
  match s.config.url.filter (· ≠ "") with
  | none => s
  | some url =>
    let copies := (List.range (s.copies r)).map fun i => (i, (⟨s.started.length + i, url, env, 1, s.epoch⟩ : Delivery Data))
    { s with
      timers := s.timers ++ copies.map fun c => (s.now + timerDelay (s.firstDelay env.type r' + c.1 * 5), c.2)
      started := s.started ++ copies.map Prod.snd }

/-- The POST of `deliver`. -/
def request (d : Delivery Data) : HookRequest :=
  let raw := T.stringify d.env
  let ts := toString (s.now / 1000)
  ⟨some d.env.id, some ts, some (signWebhook T s.config.secret d.env.id ts raw), raw⟩

def post (d : Delivery Data) : Hooks Data :=
  { s with
    posting := s.posting ++ [⟨d, s.request T d, none⟩]
    log := s.log ++ [(d.chain, .posted d.attempt s.now)]
    posts := s.posts ++ [s.request T d] }

/-- The delay before the next attempt. -/
def backoff (attempt : Nat) : Nat := timerDelay (s.config.baseDelayMs * 2 ^ (attempt - 1))

/-- The end of `deliver`. -/
def conclude (d : Delivery Data) (ok : Bool) : Hooks Data :=
  if ok then { s with sent := s.sent + 1, log := s.log ++ [(d.chain, .acknowledged)] }
  else if d.attempt < s.config.attempts ∧ d.epoch = s.epoch then
    { s with
      retried := s.retried + 1
      timers := s.timers ++ [(s.now + s.backoff d.attempt, { d with attempt := d.attempt + 1 })]
      log := s.log ++ [(d.chain, .refused d.attempt s.now (s.backoff d.attempt))] }
  else { s with failed := s.failed + 1, log := s.log ++ [(d.chain, .gaveUp)] }

def step : HookLabel Data → Option (Hooks Data)
  | .emit hex type createdAt data r r' => some (s.emit ⟨"evt_" ++ hex, type, createdAt, data⟩ r r')
  | .elapse ms => some { s with now := s.now + ms }
  | .timer k =>
    match s.timers[k]? with
    | none => none
    | some (deadline, d) =>
      if s.now < deadline then none
      else
        let s' := { s with timers := s.timers.eraseIdx k }
        if d.epoch = s.epoch then some (s'.post T d) else some s'
  | .arrive k =>
    match s.posting[k]? with
    | some ⟨d, request, none⟩ =>
      some { s with
        posting := s.posting.set k ⟨d, request, some (s.receiver.receipt T E s.now request).respondedWith⟩
        receiver := s.receiver.receive T E s.now request }
    | _ => none
  | .answer k =>
    match s.posting[k]? with
    | some ⟨d, _, some status⟩ =>
      some ({ s with posting := s.posting.eraseIdx k }.conclude d (200 ≤ status && status < 300))
    | _ => none
  | .lost k => s.posting[k]?.map fun p => { s with posting := s.posting.eraseIdx k }.conclude p.delivery false
  | .inject r => some { s with receiver := s.receiver.receive T E s.now r }
  | .patch config => some { s with config }
  | .reset config =>
    some { s with
      config
      epoch := s.epoch + 1
      sent := 0
      failed := 0
      retried := 0
      before := s.started.length
      carried := s.posting.length }

end Hooks

end Simulator

end CronMonitor
