import CronMonitor.Simulator.Contract
import CronMonitor.Lib.OrderedMap

/-!
# The state of the simulator

A transaction is an object that the table, the timers and a running call share: `heap` holds the objects, a
transaction is named by its index there, and `txs` is the table under its keys. References contain neither
`:` nor `#`, so the text of a key determines its parts and `TxKey` is that text taken apart.

`timers` are in the order in which they fire. `calls` are the create calls that wait at an `await`, with what
their frames hold. The tokens, the rate limiter, the request faults and the delivery of webhooks do not touch money and
are left out. An event shows a transaction as `viewFor` does; a reply carries it as it was.
-/

namespace CronMonitor

namespace Simulator

/-! ### Configuration -/

inductive OtherNumbers
  | succeed | fail
deriving DecidableEq, Repr

inductive Idempotency
  | correct | broken
deriving DecidableEq, Repr

structure Limits where
  perTransaction : String
  daily : String
deriving DecidableEq, Repr

/-- The weak behaviours that reach the operations modelled here. -/
structure Weak where
  massAssignment : Bool
  ignoreLimits : Bool
  crashOnQuote : Bool
deriving DecidableEq, Repr

structure SimConfig where
  openingBalance : String
  resolveDelayMs : Nat
  feeRate : ℚ
  feeRate_nonneg : 0 ≤ feeRate
  feeRate_le : feeRate ≤ 1 / 2
  feeBearer : FeeBearer
  otherNumbers : OtherNumbers
  payoutReviewThreshold : Option String
  limits : Limits
  idempotency : Idempotency
  raceBug : Bool
  weak : Weak

/-- `SimConfigSchema.parse({})`. -/
def SimConfig.default : SimConfig where
  openingBalance := "100000.00"
  resolveDelayMs := 50
  feeRate := 1 / 100
  feeRate_nonneg := by norm_num
  feeRate_le := by norm_num
  feeBearer := .initiator
  otherNumbers := .succeed
  payoutReviewThreshold := none
  limits := ⟨"50000.00", "1000000.00"⟩
  idempotency := .correct
  raceBug := false
  weak := ⟨false, false, false⟩

/-- Half a pesewa rounds up, and the fee is at least 0.10. -/
def SimConfig.fee (c : SimConfig) (amount : Nat) : Nat := max 10 ⌊(amount : ℚ) * c.feeRate + 1 / 2⌋.toNat

/-- The balance a new wallet starts with. -/
def SimConfig.opening (c : SimConfig) : Nat := (parseAmount c.openingBalance).getD 0

/-! ### Data -/

inductive Kind
  | collection | payout | utilityPurchase | transfer
deriving DecidableEq, Repr

/-- The statuses the simulator gives, and any text that mass assignment lets a client set. -/
inductive TxStatus
  | accepted | pending | dispatched | settled | failed | dispatching | delivered | refunded | inReview
  | awaitingPayment | vending | completed
  | other (text : String)
deriving DecidableEq, Repr

def TxStatus.ofString (s : String) : TxStatus :=
  if s = "accepted" then .accepted else if s = "pending" then .pending else if s = "dispatched" then .dispatched
  else if s = "settled" then .settled else if s = "failed" then .failed else if s = "dispatching" then .dispatching
  else if s = "delivered" then .delivered else if s = "refunded" then .refunded else if s = "in_review" then .inReview
  else if s = "awaiting_payment" then .awaitingPayment else if s = "vending" then .vending
  else if s = "completed" then .completed else .other s

inductive SettlementStatus
  | notEligible | eligible | settled
deriving DecidableEq, Repr

/-- `tx.extra` of a utility purchase. -/
structure UtilityExtra where
  productId : String
  beneficiary : Beneficiary
  funding : Funding
deriving DecidableEq, Repr

structure Tx where
  id : Nat
  reference : String
  kind : Kind
  credential : String
  amount : Nat
  fee : Nat
  feeBearer : FeeBearer
  status : TxStatus
  provider : Option String
  party : Option String
  note : Option String
  failureReason : Option String
  settlementStatus : Option SettlementStatus
  createdAt : Time
  completedAt : Option Time
  bodyHash : String
  extra : Option UtilityExtra
deriving DecidableEq, Repr

/-- The text `<kind>:<credential>:<reference>`, with `#<seq>` when references are ignored. -/
structure TxKey where
  kind : Kind
  credential : String
  reference : String
  seq : Option Nat
deriving DecidableEq, Repr

structure Wallet where
  balance : Int
  reserved : Int
  opening : Nat
  createdAt : Time
deriving DecidableEq, Repr

inductive LedgerKind
  | collection | payoutReserve | payoutRefund | utilityReserve | utilityRefund | transfer | transferIn | settlement
  | testAdjustment
deriving DecidableEq, Repr

structure LedgerEntry where
  seq : Nat
  wallet : String
  delta : Int
  ref : String
  kind : LedgerKind
deriving DecidableEq, Repr

structure SettlementRun where
  id : Nat
  reference : String
  cred : String
  itemCount : Nat
  total : Int
  at_ : Time
deriving DecidableEq, Repr

structure Policy where
  destination : SettlementDestination
  schedule : String
  minimum : String
  version : Nat
deriving DecidableEq, Repr

/-- A transaction as its body shows it: a member is `none` where the body has none. What is the same for all (`currency`,
`channel`, `reconciliation`), the names that go with a product, and what the weaknesses change are left out; amounts are
in pesewas. -/
structure TxView where
  reference : String
  amount : Nat
  status : TxStatus
  createdAt : Time
  provider : Option String := none
  fee : Option Nat := none
  feeBearer : Option FeeBearer := none
  payerAmount : Option Nat := none
  recipientAmount : Option Int := none
  note : Option String := none
  failureReason : Option String := none
  completedAt : Option Time := none
  settlementStatus : Option SettlementStatus := none
  productId : Option String := none
  beneficiary : Option Beneficiary := none
  gross : Option Nat := none
  funding : Option Funding := none
  recipientHandle : Option String := none
deriving DecidableEq, Repr

namespace Tx

def view (tx : Tx) : TxView where
  reference := tx.reference
  amount := tx.amount
  status := tx.status
  createdAt := tx.createdAt
  provider := tx.provider
  fee := some tx.fee
  feeBearer := some tx.feeBearer
  payerAmount := some (applyFee tx.amount tx.fee tx.feeBearer).payerAmount
  recipientAmount := some (applyFee tx.amount tx.fee tx.feeBearer).recipientAmount
  note := tx.note.filter (· ≠ "")
  failureReason := tx.failureReason
  completedAt := tx.completedAt
  settlementStatus := tx.settlementStatus

def utilityView (tx : Tx) : TxView where
  reference := tx.reference
  amount := tx.amount
  status := tx.status
  createdAt := tx.createdAt
  fee := some tx.fee
  failureReason := tx.failureReason
  productId := tx.extra.map (·.productId)
  beneficiary := tx.extra.map (·.beneficiary)
  gross := some (tx.amount + tx.fee)
  funding := tx.extra.map (·.funding)

def transferView (tx : Tx) : TxView where
  reference := tx.reference
  amount := tx.amount
  status := tx.status
  createdAt := tx.createdAt
  recipientHandle := tx.party

def viewFor (tx : Tx) : TxView :=
  match tx.kind with
  | .utilityPurchase => tx.utilityView
  | .transfer => tx.transferView
  | .collection | .payout => tx.view

end Tx

/-- The body of an event. `tx` is the transaction that `view` is of; no operation reads it. -/
inductive EventData
  | tx (tx : Nat) (view : TxView)
  | run (r : SettlementRun)
deriving DecidableEq, Repr

structure SimEvent where
  cred : String
  type : String
  createdAt : Time
  data : EventData
deriving DecidableEq, Repr

/-- The bodies of replies. -/
inductive ReplyBody
  | tx (t : Tx)
  | batch (id : Nat) (reference : String) (items : List (String × Except SimError Tx))
  | run (r : SettlementRun)

structure Reply where
  status : Nat
  body : ReplyBody

structure Product where
  id : String
  needsAccount : Bool
  min : String
  max : String
deriving DecidableEq, Repr

/-- `PRODUCTS`; only the category `utility` needs an account number. -/
def products : List Product :=
  [⟨"airtime-mtn", false, "1.00", "500.00"⟩, ⟨"airtime-telecel", false, "1.00", "500.00"⟩,
    ⟨"tv-dstv", true, "1.00", "1000.00"⟩]

def knownHandles : List String := ["demo-merchant", "acme-store"]

/-! ### Timers -/

/-- The closures that `later` is called with, and what they close over. -/
inductive Callback
  | collectionDispatched (tx : Nat)
  | collectionFinal (tx : Nat) (cred : String) (amount fee : Nat) (outcome : Outcome)
  | payoutInReview (tx : Nat)
  | payoutDispatching (tx : Nat)
  | payoutFinal (tx : Nat) (cred : String) (payer half : Nat) (outcome : Outcome)
  | payoutRefund (tx : Nat) (cred : String) (payer : Nat)
  | utilityStarted (tx : Nat) (walletFunded : Bool)
  | utilityFinal (tx : Nat) (cred : String) (amount fee : Nat) (walletFunded : Bool) (half : Nat)
  | utilityRefund (tx : Nat) (cred : String) (amount fee : Nat)
deriving DecidableEq, Repr

def Callback.tx : Callback → Nat
  | collectionDispatched tx | collectionFinal tx .. | payoutInReview tx | payoutDispatching tx | payoutFinal tx ..
  | payoutRefund tx .. | utilityStarted tx _ | utilityFinal tx .. | utilityRefund tx .. => tx

structure Timer where
  deadline : Time
  callback : Callback
deriving DecidableEq, Repr

/-- The delay `setTimeout` takes: one millisecond at least, and also for delays beyond `2 ^ 31 - 1`. -/
def timerDelay (ms : Nat) : Nat := if ms < 1 ∨ 2147483647 < ms then 1 else ms

/-- Timers fire by deadline, and in the order they were set when it is the same. -/
def insertTimer (t : Timer) : List Timer → List Timer
  | [] => [t]
  | u :: ts => if u.deadline ≤ t.deadline then u :: insertTimer t ts else t :: u :: ts

/-! ### Suspended calls -/

structure Debit where
  cred : String
  amount : Nat
  ref : String
  kind : LedgerKind
  reserve : Bool
deriving DecidableEq, Repr

/-- Where `debit` is: asleep in the race window with the balance it read, or settled. -/
inductive DebitState
  | racing (seen : Int)
  | paid
  | refused
deriving DecidableEq, Repr

/-- What the operation does once it is paid. -/
inductive Create
  | payout (provider value : String) (payer : Nat)
  | utility
  | transfer (handle : String)
deriving DecidableEq, Repr

/-- A create operation at `await this.debit(…)`; its transaction is not registered yet. -/
structure Frame where
  tx : Tx
  debit : Debit
  create : Create
deriving DecidableEq, Repr

/-- A `createPayoutBatch`: the items it has replies for, the one it is at, and the rest. -/
structure Batch (Body : Type) where
  cred : String
  reference : String
  hash : String
  done : List (String × Except SimError Tx)
  current : String
  rest : List (BatchItem Body)

inductive Call (Body : Type)
  /-- At `await this.debit(…)`, perhaps inside a batch. -/
  | debiting (frame : Frame) (state : DebitState) (batch : Option (Batch Body))
  /-- A batch at `await this.createPayout(…)` whose payout has settled. -/
  | batching (batch : Batch Body) (last : Except SimError Tx)

structure Sim (Body : Type) where
  config : SimConfig
  now : Time
  seq : Nat
  wallets : OrderedMap String Wallet
  heap : List Tx
  txs : OrderedMap TxKey Nat
  ledger : List LedgerEntry
  events : List SimEvent
  effects : OrderedMap TxKey Nat
  batches : OrderedMap (String × String) (String × Reply)
  settlementRuns : List SettlementRun
  policy : Option Policy
  dailyIn : OrderedMap String Nat
  dailyOut : OrderedMap String Nat
  utilityDeliveries : Nat
  timers : List Timer
  calls : List (Call Body)

def Sim.init (Body : Type) (config : SimConfig) (now : Time) : Sim Body where
  config
  now
  seq := 0
  wallets := .empty
  heap := []
  txs := .empty
  ledger := []
  events := []
  effects := .empty
  batches := .empty
  settlementRuns := []
  policy := none
  dailyIn := .empty
  dailyOut := .empty
  utilityDeliveries := 0
  timers := []
  calls := []

end Simulator

end CronMonitor
