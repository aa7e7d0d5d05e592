import CronMonitor.Domain

/-!
# The webhook sink

`receiveHook` of `webhook-sink.service.ts` with the statements of its repository. A call of it waits for one statement
after the other, and what it does between two of them is one step with the first. The cipher, the signature, the digest,
the masking and what `JSON.parse` finds in a body are parameters (`HookEnv`).
-/

namespace CronMonitor.LoadTest.WebhookSink

def MAX_DELIVERIES_PER_SINK : Nat := 20000

def MAX_BODY_BYTES : Nat := 256 * 1024

structure IncomingHook where
  slug : String
  rawBody : String
  id : Option String
  timestamp : Option String
  signature : Option String
deriving DecidableEq, Repr

/-- A property of the parsed body: not there or null, a string, or something else with the text the driver writes. -/
inductive Property
  | absent
  | text (s : String)
  | other (written : String)
deriving DecidableEq, Repr

/-- `typeof p === 'string' ? p : null`. -/
def Property.string : Property → Option String
  | .text s => some s
  | _ => none

/-- As a parameter of a statement. -/
def Property.written : Property → Option String
  | .absent => none
  | .text s | .other s => some s

structure Envelope where
  id : Property
  type : Property
  reference : Property
  status : Property
deriving DecidableEq, Repr

structure Sink where
  id : Uuid
  slug : String
  secret : Option String
  enabled : Bool
deriving DecidableEq, Repr

/-- What is stored of a delivery, but for its number. -/
structure Draft where
  sinkId : Uuid
  eventId : String
  eventType : Option String
  reference : Option String
  envelopeId : Option String
  eventStatus : Option String
  signatureOk : Bool
  reason : Option String
  bodySha256 : String
  bodyMasked : Option String
  respondedWith : Nat
deriving DecidableEq, Repr

structure Delivery extends Draft where
  attempt : Nat
deriving DecidableEq, Repr

structure HookEnv where
  isCredentialEnvelope : String → Bool
  /-- The `secret` of the credentials; `none` when it throws. -/
  decryptCredentials : String → Option (Option String)
  /-- The reason if it is not ok. -/
  verifyWebhook : String → IncomingHook → Time → Option String
  parse : String → Option Envelope
  sha256 : String → String
  maskBody : String → Nat → Option String

/-- The signing secret of a sink, or the failure to read it. -/
def signingSecret (env : HookEnv) (sink : Sink) : Option (Option String) :=
  match sink.secret with
  | none => some none
  | some secret => if env.isCredentialEnvelope secret then env.decryptCredentials secret else some none

/-- `if (!secret)` holds of the empty string. -/
def verdict (env : HookEnv) (secret : Option String) (h : IncomingHook) (now : Time) : Bool × Option String × Nat :=
  match secret.filter (· ≠ "") with
  | none => (false, some "no signing secret configured on this sink", 503)
  | some secret =>
    match env.verifyWebhook secret h now with
    | none => (true, none, 200)
    | some reason => (false, some reason, 401)

def draft (env : HookEnv) (sink : Sink) (h : IncomingHook) (v : Bool × Option String × Nat) : Draft :=
  let envelope := env.parse h.rawBody
  { sinkId := sink.id
    eventId := (h.id.or (envelope.bind (·.id.written))).getD "(none)"
    eventType := envelope.bind (·.type.string)
    reference := envelope.bind (·.reference.string)
    envelopeId := envelope.bind (·.id.string)
    eventStatus := envelope.bind (·.status.string)
    signatureOk := v.1
    reason := v.2.1
    bodySha256 := env.sha256 h.rawBody
    bodyMasked := env.maskBody h.rawBody (8 * 1024)
    respondedWith := v.2.2 }

/-- A call of `receiveHook`, by the statement it waits for. -/
inductive Call
  | countDeliveries (h : IncomingHook) (sink : Sink)
  | priorAttempts (d : Draft)
  | insertDelivery (d : Delivery)
deriving DecidableEq, Repr

structure Sys where
  sinks : List Sink
  deliveries : List Delivery
  /-- The open calls, in no order. -/
  calls : List Call
  /-- The status of every call that has returned. -/
  answers : List Nat
  nextUuid : Uuid
deriving DecidableEq

namespace Sys

variable (s : Sys)

def init : Sys := ⟨[], [], [], [], 0⟩

def findBySlug (slug : String) : Option Sink := s.sinks.find? (·.slug = slug)

def countDeliveries (sinkId : Uuid) : Nat := s.deliveries.countP (·.sinkId = sinkId)

def priorAttempts (sinkId : Uuid) (eventId : String) : Nat :=
  s.deliveries.countP fun d => d.sinkId = sinkId && d.eventId = eventId

def answer (status : Nat) : Sys := { s with answers := s.answers ++ [status] }

/-- The `k`-th call is over. -/
def leave (k : Nat) : Sys := { s with calls := s.calls.eraseIdx k }

/-- The `k`-th call goes on. -/
def goOn (k : Nat) (c : Call) : Sys := { s with calls := s.calls.eraseIdx k ++ [c] }

def receive (h : IncomingHook) : Sys :=
  match s.findBySlug h.slug with
  | none => s.answer 404
  | some sink =>
    if !sink.enabled then s.answer 404
    else if h.rawBody.utf8ByteSize > MAX_BODY_BYTES then s.answer 413
    else { s with calls := s.calls ++ [.countDeliveries h sink] }

inductive Label
  | receive (h : IncomingHook)
  /-- The statement that the `k`-th call waits for returns. -/
  | resume (k : Nat) (now : Time)
  /-- It throws. -/
  | fails (k : Nat)
  | createSink (slug : String)
  | setSecret (id : Uuid) (secret : String)
  | setEnabled (id : Uuid) (enabled : Bool)
  | deleteSink (id : Uuid)

def resume (env : HookEnv) (k : Nat) (now : Time) : Call → Sys
  | .countDeliveries h sink =>
    if MAX_DELIVERIES_PER_SINK ≤ s.countDeliveries sink.id then (s.leave k).answer 429
    else
      match signingSecret env sink with
      | none => s.leave k
      | some secret => s.goOn k (.priorAttempts (draft env sink h (verdict env secret h now)))
  | .priorAttempts d => s.goOn k (.insertDelivery ⟨d, s.priorAttempts d.sinkId d.eventId + 1⟩)
  | .insertDelivery d =>
    -- the foreign key
    if s.sinks.any (·.id = d.sinkId) then
      ({ s with deliveries := s.deliveries ++ [d] }.leave k).answer d.respondedWith
    else s.leave k

def updateSink (id : Uuid) (f : Sink → Sink) : Sys :=
  { s with sinks := s.sinks.map fun r => if r.id = id then f r else r }

def step (env : HookEnv) (s : Sys) : Label → Option Sys
  | .receive h => some (s.receive h)
  | .resume k now => s.calls[k]?.map (s.resume env k now)
  | .fails k => if k < s.calls.length then some (s.leave k) else none
  | .createSink slug =>
    if s.sinks.any (·.slug = slug) then none
    else some { s with sinks := s.sinks ++ [⟨s.nextUuid, slug, none, true⟩], nextUuid := s.nextUuid + 1 }
  | .setSecret id secret => some (s.updateSink id fun r => { r with secret := some secret })
  | .setEnabled id enabled => some (s.updateSink id fun r => { r with enabled := enabled })
  | .deleteSink id =>
    some { s with
      sinks := s.sinks.filter (·.id ≠ id)
      deliveries := s.deliveries.filter (·.sinkId ≠ id) }

end Sys

end CronMonitor.LoadTest.WebhookSink
