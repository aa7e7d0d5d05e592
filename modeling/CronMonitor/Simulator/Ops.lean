import CronMonitor.Simulator.State
import CronMonitor.Lib.Runs

/-!
# `simulator.ts`: the operations and their steps

An operation first checks its request, reading the state only, and then changes it. A create operation that
debits a wallet stops at `await this.debit(…)`: `begin…` is the part before it, `finish` the part after. With
`raceBug` off the debit itself happens before the await. Calls resume in any order; a timer fires when it is
due and none before it is left.
-/

namespace CronMonitor

namespace Simulator

variable {Body : Type}

namespace Sim

variable (s : Sim Body)

/-! ### Wallets and ledger -/

/-- The wallet that `ensureWallet` returns. -/
def walletOf (id : String) : Wallet :=
  (s.wallets.get? id).getD ⟨s.config.opening, 0, s.config.opening, s.now⟩

def putWallet (id : String) (w : Wallet) : Sim Body := { s with wallets := s.wallets.set id w }

def ensureWallet (id : String) : Sim Body := s.putWallet id (s.walletOf id)

def post (wallet : String) (delta : Int) (ref : String) (kind : LedgerKind) : Sim Body :=
  { s with seq := s.seq + 1, ledger := s.ledger ++ [⟨s.seq + 1, wallet, delta, ref, kind⟩] }

/-- The end of `debit`: the wallet gets the new balance, and the ledger the amount. -/
def pay (d : Debit) (balance : Int) : Sim Body :=
  let w := s.walletOf d.cred
  (s.putWallet d.cred { w with balance, reserved := if d.reserve then w.reserved + d.amount else w.reserved }).post
    d.cred (-d.amount) d.ref d.kind

def debit (d : Debit) : Sim Body × DebitState :=
  let w := s.walletOf d.cred
  if s.config.raceBug then (s.ensureWallet d.cred, .racing w.balance)
  else if w.balance < d.amount then (s.ensureWallet d.cred, .refused)
  else (s.pay d (w.balance - d.amount), .paid)

/-- `debit` after the race window: the write is stale. -/
def debitRaced (d : Debit) (seen : Int) : Sim Body × DebitState :=
  if seen < d.amount then (s, .refused) else (s.pay d (seen - d.amount), .paid)

def credit (cred : String) (amount : Int) (ref : String) (kind : LedgerKind) : Sim Body :=
  let w := s.walletOf cred
  (s.putWallet cred { w with balance := w.balance + amount }).post cred amount ref kind

/-- `w.reserved -= amount`. -/
def release (cred : String) (amount : Nat) : Sim Body :=
  let w := s.walletOf cred
  s.putWallet cred { w with reserved := w.reserved - amount }

/-! ### Shared plumbing -/

inductive Direction
  | in_ | out

def volume (cred : String) : Direction → Nat
  | .in_ => (s.dailyIn.get? cred).getD 0
  | .out => (s.dailyOut.get? cred).getD 0

def checkLimits (cred : String) (amount : Nat) (direction : Direction) : Except Thrown Unit := do
  if s.config.weak.ignoreLimits then return
  if ((parseAmount s.config.limits.perTransaction).any (· < amount)) then
    fail .transactionLimitExceeded "amount is over the per-payment limit"
  if ((parseAmount s.config.limits.daily).any (· < s.volume cred direction + amount)) then
    fail .dailyLimitExceeded "today's limit reached"

def noteVolume (cred : String) (amount : Nat) (direction : Direction) : Sim Body :=
  match direction with
  | .in_ => { s with dailyIn := s.dailyIn.set cred (s.volume cred .in_ + amount) }
  | .out => { s with dailyOut := s.dailyOut.set cred (s.volume cred .out + amount) }

/-- Same reference and same body: the original payment; a different body is refused. -/
def existing (kind : Kind) (cred reference hash : String) : Except Thrown (Option Tx) :=
  match s.config.idempotency with
  | .broken => .ok none
  | .correct =>
    match (s.txs.get? ⟨kind, cred, reference, none⟩).bind (s.heap[·]?) with
    | none => .ok none
    | some tx =>
      if tx.bodyHash = hash then .ok (some tx)
      else fail .duplicateReference "reference already belongs to a different payment"

def newTx (kind : Kind) (cred reference : String) (amount fee : Nat) (provider : Option String) (party : String)
    (bodyHash : String) (note : Option String) : Tx where
  id := s.seq + 1
  reference
  kind
  credential := cred
  amount
  fee
  feeBearer := s.config.feeBearer
  status := if kind = .transfer then .pending else .accepted
  provider
  party := some party
  note
  failureReason := none
  settlementStatus := none
  createdAt := s.now
  completedAt := none
  bodyHash
  extra := none

/-- `newTx` counts up `seq`. -/
def bumpSeq : Sim Body := { s with seq := s.seq + 1 }

def emit (cred type : String) (data : EventData) : Sim Body :=
  { s with events := s.events ++ [⟨cred, type, s.now, data⟩] }

/-- Puts the transaction in the table, under a key of its own when references are ignored. -/
def register (tx : Tx) : Sim Body :=
  let base : TxKey := ⟨tx.kind, tx.credential, tx.reference, none⟩
  let seq := match s.config.idempotency with
    | .correct => s.seq
    | .broken => s.seq + 1
  let key := match s.config.idempotency with
    | .correct => base
    | .broken => { base with seq := some seq }
  { s with
    seq
    heap := s.heap ++ [tx]
    txs := s.txs.set key s.heap.length
    effects := s.effects.set base ((s.effects.get? base).getD 0 + 1) }

def later (ms : Nat) (callback : Callback) : Sim Body :=
  { s with timers := insertTimer ⟨s.now + timerDelay ms, callback⟩ s.timers }

/-- Changes the transaction object. -/
def update (tx : Nat) (f : Tx → Tx) : Sim Body := { s with heap := s.heap.modify tx f }

def emitTx (tx : Nat) (type : String) : Sim Body :=
  match s.heap[tx]? with
  | none => s
  | some t => s.emit t.credential type (.tx t.id t.viewFor)

def setStatus (tx : Nat) (status : TxStatus) (type : String) (final : Bool) (failureReason : Option String) :
    Sim Body :=
  (s.update tx fun t => { t with
    status
    failureReason := failureReason <|> t.failureReason
    completedAt := if final then some s.now else t.completedAt }).emitTx tx type

def fixtureOutcome (kind : Kind) (provider value : String) : Outcome :=
  let fixture := telecelFixture (normalizeFixtureNumber value)
  let known := if provider = "telecel" then (if kind = .collection then fixture.1 else fixture.2) else none
  known.getD (match s.config.otherNumbers with
    | .succeed => .ok
    | .fail => .fail)

end Sim

def parse {α : Type} : Except String α → Except Thrown α
  | .ok a => .ok a
  | .error issue => fail .invalidInput issue

def checkProvider (p : String) : Except Thrown Unit :=
  if p ∈ providers then .ok () else fail .invalidInput "provider must be one of mtn, telecel, calbank"

def amountOf (s : String) : Except Thrown Nat :=
  match parseAmount s with
  | some n => .ok n
  | none => fail .invalidInput "amount must be a positive decimal string like \"120.00\""

namespace Sim

variable (W : Wire Body) (s : Sim Body)

/-! ### Collections -/

/-- The checks of `createCollection`: the payment that has the reference already, or the request and its amount. -/
def collectionRequest (cred : String) (body : Body) : Except Thrown (Tx ⊕ CollectionRequest × Nat) := do
  let r ← parse (W.collection body)
  checkProvider r.provider
  let amount ← amountOf r.amount
  match ← s.existing .collection cred r.reference (W.hashOf body) with
  | some dup => return .inl dup
  | none =>
    s.checkLimits cred amount .in_
    return .inr (r, amount)

def collectionTx (cred : String) (r : CollectionRequest) (amount : Nat) (hash : String) : Tx :=
  { s.newTx .collection cred r.reference amount (s.config.fee amount) (some r.provider) r.payer.value hash r.note with
    settlementStatus := some .notEligible }

def createCollection (cred : String) (body : Body) : Except Thrown Reply × Sim Body :=
  match s.collectionRequest W cred body with
  | .error e => (.error e, s)
  | .ok (.inl dup) => (.ok ⟨202, .tx dup⟩, s)
  | .ok (.inr (r, amount)) =>
    let tx := s.collectionTx cred r amount (W.hashOf body)
    let i := s.heap.length
    let outcome := s.fixtureOutcome .collection r.provider r.payer.value
    (.ok ⟨202, .tx tx⟩,
      ((((s.bumpSeq.register tx).noteVolume cred amount .in_).emit cred "collection.accepted" (.tx tx.id tx.view)).later
        (s.config.resolveDelayMs / 2) (.collectionDispatched i)).later
        s.config.resolveDelayMs (.collectionFinal i cred amount tx.fee outcome))

/-! ### Payouts -/

def payoutRequest (cred : String) (body : Body) : Except Thrown (Tx ⊕ PayoutRequest × Nat) := do
  let r ← parse ((if s.config.weak.massAssignment then W.payoutLoose else W.payout) body)
  checkProvider r.provider
  if s.config.weak.crashOnQuote ∧ (r.note.getD "").toList.any (fun c => c = Char.ofNat 39 || c = '<') then
    throw (.crash ("unhandled: unexpected token in query near \"" ++ r.note.getD "" ++ "\""))
  let amount ← amountOf r.amount
  match ← s.existing .payout cred r.reference (W.hashOf body) with
  | some dup => return .inl dup
  | none =>
    s.checkLimits cred amount .out
    return .inr (r, amount)

/-- The transaction of a payout; with mass assignment the client's own fields overwrite the server's. -/
def payoutTx (cred : String) (r : PayoutRequest) (amount : Nat) (body : Body) : Tx :=
  let tx := s.newTx .payout cred r.reference amount (s.config.fee amount) (some r.provider) r.destination.value
    (W.hashOf body) r.note
  if s.config.weak.massAssignment then
    { tx with
      status := ((W.stringField body "status").map TxStatus.ofString).getD tx.status
      fee := ((W.stringField body "fee").bind parseAmount).getD tx.fee }
  else tx

def payoutFrame (cred : String) (r : PayoutRequest) (amount : Nat) (body : Body) : Frame :=
  let payer := (applyFee amount (s.config.fee amount) s.config.feeBearer).payerAmount
  { tx := s.payoutTx W cred r amount body
    debit := ⟨cred, payer, r.reference, .payoutReserve, true⟩
    create := .payout r.provider r.destination.value payer }

/-- How far a create operation gets by itself. -/
inductive Begun (Body : Type)
  | replies (tx : Tx)
  | awaits (s : Sim Body) (frame : Frame) (state : DebitState)

/-- `newTx` and `await this.debit(…)`. -/
def await (frame : Frame) : Begun Body :=
  .awaits (s.bumpSeq.debit frame.debit).1 frame (s.bumpSeq.debit frame.debit).2

def beginPayout (cred : String) (body : Body) : Except Thrown (Begun Body) :=
  (s.payoutRequest W cred body).map fun
    | .inl dup => .replies dup
    | .inr (r, amount) => s.await (s.payoutFrame W cred r amount body)

/-- `createPayout` once the wallet is debited. -/
def finishPayout (tx : Tx) (provider value : String) (payer : Nat) : Sim Body :=
  let i := s.heap.length
  let cred := tx.credential
  let s := ((s.register tx).noteVolume cred tx.amount .out).emit cred "payout.accepted" (.tx tx.id tx.view)
  let half := s.config.resolveDelayMs / 2
  if (s.config.payoutReviewThreshold.bind parseAmount).any (· ≤ tx.amount) then
    s.later s.config.resolveDelayMs (.payoutInReview i)
  else
    ((s.ensureWallet cred).later half (.payoutDispatching i)).later s.config.resolveDelayMs
      (.payoutFinal i cred payer half (s.fixtureOutcome .payout provider value))

/-! ### Utility purchases -/

def utilityRequest (cred : String) (body : Body) : Except Thrown (Tx ⊕ UtilityPurchaseRequest × Nat) := do
  let r ← parse (W.utilityPurchase body)
  if r.currency ≠ "GHS" then fail .currencyNotSupported "only GHS is sold"
  match products.find? (·.id = r.productId) with
  | none => fail .productNotFound "no product matches productId"
  | some product =>
    if product.needsAccount ∧ (r.beneficiary.accountNumber.getD "") = "" then
      fail .invalidInput "beneficiary.accountNumber is required for utility products"
    if ¬ product.needsAccount ∧ (r.beneficiary.accountNumber.getD "") ≠ "" then
      fail .invalidInput "beneficiary.accountNumber is refused for airtime and data"
    if r.funding.type = .collection ∧ r.funding.payer.isNone then
      fail .invalidInput "funding.payer is required when funding.type is collection"
    let amount ← amountOf r.amount
    if amount < (parseAmount product.min).getD 0 ∨ (parseAmount product.max).any (· < amount) then
      fail .amountOutOfRange "amount is outside the product range"
    match ← s.existing .utilityPurchase cred r.reference (W.hashOf body) with
    | some dup => return .inl dup
    | none =>
      s.checkLimits cred amount .out
      return .inr (r, amount)

def utilityTx (cred : String) (r : UtilityPurchaseRequest) (amount : Nat) (hash : String) : Tx :=
  { s.newTx .utilityPurchase cred r.reference amount (s.config.fee amount) none r.beneficiary.msisdn hash none with
    extra := some ⟨r.productId, r.beneficiary, r.funding⟩ }

def utilityFrame (cred : String) (r : UtilityPurchaseRequest) (amount : Nat) (hash : String) : Frame where
  tx := s.utilityTx cred r amount hash
  debit := ⟨cred, amount + s.config.fee amount, r.reference, .utilityReserve, true⟩
  create := .utility

end Sim

/-- A utility purchase that its wallet pays for. -/
def Tx.walletFunded (tx : Tx) : Bool := tx.extra.any (·.funding.type = .wallet)

namespace Sim

variable (W : Wire Body) (s : Sim Body)

/-- `createUtilityPurchase` from `register` on; a purchase funded by a collection gets here without a debit. -/
def finishUtility (tx : Tx) : Sim Body :=
  let i := s.heap.length
  let cred := tx.credential
  let s := (((s.register tx).noteVolume cred tx.amount .out).emit cred "utility_purchase.accepted"
    (.tx tx.id tx.utilityView)).ensureWallet cred
  let half := s.config.resolveDelayMs / 2
  (s.later half (.utilityStarted i tx.walletFunded)).later s.config.resolveDelayMs
    (.utilityFinal i cred tx.amount tx.fee tx.walletFunded half)

/-! ### Transfers -/

def transferRequest (cred : String) (body : Body) : Except Thrown (Tx ⊕ TransferRequest × Nat) := do
  let r ← parse (W.transfer body)
  if r.currency ≠ "GHS" then fail .currencyNotSupported "only GHS is supported"
  let amount ← amountOf r.amount
  if r.handle = cred then fail .ownHandle "you cannot pay your own handle"
  if r.handle ∉ knownHandles then fail .notFound "no business has that handle"
  match ← s.existing .transfer cred r.reference (W.hashOf body) with
  | some dup => return .inl dup
  | none =>
    s.checkLimits cred amount .out
    return .inr (r, amount)

def transferFrame (cred : String) (r : TransferRequest) (amount : Nat) (hash : String) : Frame where
  tx := s.newTx .transfer cred r.reference amount 0 none r.handle hash none
  debit := ⟨cred, amount, r.reference, .transfer, false⟩
  create := .transfer r.handle

def finishTransfer (tx : Tx) (handle : String) : Sim Body :=
  let i := s.heap.length
  let done := { tx with status := .completed, completedAt := some s.now }
  (((((s.credit handle tx.amount tx.reference .transferIn).register tx).noteVolume tx.credential tx.amount .out).update i
    fun _ => done).emit tx.credential "transfer.status_changed" (.tx done.id done.transferView)).emit handle
      "transfer.received" (.tx done.id done.transferView)

/-- The rest of a create operation, and the transaction it replies with. -/
def finish (f : Frame) : Tx × Sim Body :=
  match f.create with
  | .payout provider value payer => (f.tx, s.finishPayout f.tx provider value payer)
  | .utility => (f.tx, s.finishUtility f.tx)
  | .transfer handle => ({ f.tx with status := .completed, completedAt := some s.now }, s.finishTransfer f.tx handle)

/-! ### Batches -/

def batchRequest (cred : String) (body : Body) : Except Thrown (Reply ⊕ Batch Body) := do
  let r ← parse (W.payoutBatch body)
  if ¬ (r.items.map (·.reference)).Nodup then fail .invalidInput "items: duplicate reference in batch"
  let fresh : Batch Body := ⟨cred, r.reference, W.hashOf body, [], "", r.items⟩
  match s.batches.get? (cred, r.reference), s.config.idempotency with
  | some (hash, reply), .correct =>
    if hash = W.hashOf body then return .inl reply
    else fail .duplicateReference "batch reference already used with a different body"
  | _, _ => return .inr fresh

/-- The next item of a batch, or its end. The batch is over as well when the item throws something other than
a `SimError`. -/
def nextItem (b : Batch Body) : Sim Body × Option (Call Body) :=
  match b.rest with
  | [] =>
    ({ s.bumpSeq with
      batches := s.batches.set (b.cred, b.reference) (b.hash, ⟨200, .batch (s.seq + 1) b.reference b.done⟩) }, none)
  | item :: rest =>
    let b := { b with current := item.reference, rest }
    match s.beginPayout W b.cred item.body with
    | .error (.crash _) => (s, none)
    | .error (.sim e) => (s, some (.batching b (.error e)))
    | .ok (.replies tx) => (s, some (.batching b (.ok tx)))
    | .ok (.awaits s' frame state) => (s', some (.debiting frame state (some b)))

/-! ### Settlements and controls -/

/-- The collections that `settleNow` pays out. -/
def due (cred : String) : List Nat :=
  s.txs.values.filter fun i => s.heap[i]?.any fun t =>
    t.credential = cred && t.kind = .collection && t.status = .settled && t.settlementStatus = some .eligible

def recipientAmount (tx : Nat) : Int :=
  (s.heap[tx]?.map fun t => (applyFee t.amount t.fee t.feeBearer).recipientAmount).getD 0

def net (cred : String) : Int := ((s.due cred).map s.recipientAmount).sum

/-- `STL-` and the number in eight digits. -/
def settlementId (n : Nat) : String :=
  "STL-" ++ String.ofList (List.replicate (8 - (toString n).length) '0') ++ toString n

/-- The payment of a settlement run: nothing unless the total is positive. -/
def settle (cred : String) : Sim Body :=
  if 0 < s.net cred then
    let s' := (s.due cred).foldl (fun s i => s.update i fun t => { t with settlementStatus := some .settled }) s.bumpSeq
    let w := s'.walletOf cred
    (s'.putWallet cred { w with balance := w.balance - s.net cred }).post cred (-s.net cred)
      (settlementId (s.seq + 1)) .settlement
  else s.bumpSeq

def settleNow (cred : String) (body : Body) : Except Thrown Reply × Sim Body :=
  match parse (W.settleNow body), s.policy with
  | .error e, _ => (.error e, s)
  | .ok _, none => (fail .notFound "no settlement policy exists", s)
  | .ok r, some _ =>
    match s.settlementRuns.find? (fun x => x.reference = r.reference && x.cred = cred) with
    | some dup => (.ok ⟨202, .run dup⟩, s)
    | none =>
      let run : SettlementRun := ⟨s.seq + 1, r.reference, cred, (s.due cred).length, s.net cred, s.now⟩
      let s' := s.settle cred
      (.ok ⟨202, .run run⟩,
        { s' with settlementRuns := s'.settlementRuns ++ [run] }.emit cred "settlement.status_changed" (.run run))

def putPolicy (body : Body) : Except Thrown Unit × Sim Body :=
  match parse (W.policy body) with
  | .error e => (.error e, s)
  | .ok b =>
    if b.destination ≠ .momo then (fail .bankSettlementUnavailable "bank settlement is unavailable", s)
    else
      let version := ((s.policy.map (·.version)).getD 0) + 1
      (.ok (), { s with policy := some ⟨b.destination, b.schedule, b.minimum.getD "", version⟩ })

/-- Test control: the difference goes to the ledger. -/
def setBalance (cred : String) (amount : String) : Except Thrown Unit × Sim Body :=
  match parseAmount amount with
  | none => (fail .invalidInput "balance must be a positive decimal string", s)
  | some target =>
    let w := s.walletOf cred
    (.ok (), (s.putWallet cred { w with balance := target }).post cred (target - w.balance) "control" .testAdjustment)

/-! ### Timers -/

def fireCallback : Callback → Sim Body
  | .collectionDispatched tx => s.setStatus tx .dispatched "collection.status_changed" false none
  | .collectionFinal tx cred amount fee outcome =>
    match s.heap[tx]?, outcome with
    | some t, .ok =>
      ((s.credit cred (applyFee amount fee t.feeBearer).recipientAmount t.reference .collection).update tx
        fun t => { t with settlementStatus := some .eligible }).setStatus tx .settled "collection.status_changed" true none
    | _, outcome =>
      s.setStatus tx .failed "collection.status_changed" true
        (some (if outcome = .wrongPin then "wrong_pin" else "declined"))
  | .payoutInReview tx => s.setStatus tx .inReview "payout.status_changed" false none
  | .payoutDispatching tx => s.setStatus tx .dispatching "payout.status_changed" false none
  | .payoutFinal tx cred payer half outcome =>
    if outcome = .ok then (s.release cred payer).setStatus tx .delivered "payout.status_changed" true none
    else
      (s.setStatus tx .failed "payout.status_changed" false (some "declined")).later (max 1 half)
        (.payoutRefund tx cred payer)
  | .payoutRefund tx cred payer =>
    ((s.release cred payer).credit cred payer ((s.heap[tx]?.map (·.reference)).getD "") .payoutRefund).setStatus tx
      .refunded "payout.status_changed" true none
  | .utilityStarted tx walletFunded =>
    s.setStatus tx (if walletFunded then .vending else .awaitingPayment) "utility_purchase.status_changed" false none
  | .utilityFinal tx cred amount fee walletFunded half =>
    match s.config.otherNumbers with
    | .succeed =>
      let s' := if walletFunded then s.release cred (amount + fee) else s
      { s' with utilityDeliveries := s'.utilityDeliveries + 1 }.setStatus tx .delivered
        "utility_purchase.status_changed" true none
    | .fail =>
      let s' := s.setStatus tx .failed "utility_purchase.status_changed" false (some "vend_failed")
      if walletFunded then s'.later (max 1 half) (.utilityRefund tx cred amount fee) else s'
  | .utilityRefund tx cred amount fee =>
    ((s.release cred (amount + fee)).credit cred (amount + fee) ((s.heap[tx]?.map (·.reference)).getD "")
      .utilityRefund).setStatus tx .refunded "utility_purchase.status_changed" true none

def fireTimer : Option (Sim Body) :=
  match s.timers with
  | [] => none
  | t :: ts => if t.deadline ≤ s.now then some ({ s with timers := ts }.fireCallback t.callback) else none

/-! ### Steps -/

/-- The promise of a debit that stands alone ends the call; inside a batch the batch goes on. -/
def settled (i : Nat) (batch : Option (Batch Body)) (result : Except SimError Tx) : Sim Body :=
  match batch with
  | none => { s with calls := s.calls.eraseIdx i }
  | some b => { s with calls := s.calls.set i (.batching b result) }

def insufficient : SimError := ⟨.insufficientFunds, "insufficient wallet balance"⟩

/-- The `i`-th waiting call goes on. -/
def resume (i : Nat) : Option (Sim Body) :=
  s.calls[i]?.map fun
    | .debiting frame (.racing seen) batch =>
      let (s', state) := s.debitRaced frame.debit seen
      { s' with calls := s'.calls.set i (.debiting frame state batch) }
    | .debiting _ .refused batch => s.settled i batch (.error insufficient)
    | .debiting frame .paid batch => (s.finish frame).2.settled i batch (.ok (s.finish frame).1)
    | .batching b last =>
      match s.nextItem W { b with done := b.done ++ [(b.current, last)] } with
      | (s', none) => { s' with calls := s'.calls.eraseIdx i }
      | (s', some call) => { s' with calls := s'.calls.set i call }

/-- A call that starts and comes to its first await. -/
def started : Except Thrown (Begun Body) → Sim Body
  | .error _ => s
  | .ok (.replies _) => s
  | .ok (.awaits s' frame state) => { s' with calls := s'.calls ++ [.debiting frame state none] }

inductive Label (Body : Type)
  | createCollection (cred : String) (body : Body)
  | createPayout (cred : String) (body : Body)
  | createPayoutBatch (cred : String) (body : Body)
  | createUtilityPurchase (cred : String) (body : Body)
  | createTransfer (cred : String) (body : Body)
  | resume (i : Nat)
  | timer
  | elapse (ms : Nat)
  | settleNow (cred : String) (body : Body)
  | putPolicy (body : Body)
  | deletePolicy
  | setBalance (cred amount : String)
  /-- `wallet(cred)`, the one read that may create a wallet. -/
  | wallet (cred : String)
  | patchConfig (config : SimConfig)

def beginUtility (cred : String) (body : Body) : Sim Body :=
  match s.utilityRequest W cred body with
  | .error _ => s
  | .ok (.inl _) => s
  | .ok (.inr (r, amount)) =>
    let frame := s.utilityFrame cred r amount (W.hashOf body)
    if r.funding.type = .wallet then s.started (.ok (s.await frame)) else s.bumpSeq.finishUtility frame.tx

def beginTransfer (cred : String) (body : Body) : Except Thrown (Begun Body) :=
  (s.transferRequest W cred body).map fun
    | .inl dup => .replies dup
    | .inr (r, amount) => s.await (s.transferFrame cred r amount (W.hashOf body))

def beginBatch (cred : String) (body : Body) : Sim Body :=
  match s.batchRequest W cred body with
  | .error _ => s
  | .ok (.inl _) => s
  | .ok (.inr b) =>
    match s.nextItem W b with
    | (s', none) => s'
    | (s', some call) => { s' with calls := s'.calls ++ [call] }

def step : Label Body → Option (Sim Body)
  | .createCollection cred body => some (s.createCollection W cred body).2
  | .createPayout cred body => some (s.started (s.beginPayout W cred body))
  | .createPayoutBatch cred body => some (s.beginBatch W cred body)
  | .createUtilityPurchase cred body => some (s.beginUtility W cred body)
  | .createTransfer cred body => some (s.started (s.beginTransfer W cred body))
  | .resume i => s.resume W i
  | .timer => s.fireTimer
  | .elapse ms => some { s with now := s.now + ms }
  | .settleNow cred body => some (s.settleNow W cred body).2
  | .putPolicy body => some (s.putPolicy W body).2
  | .deletePolicy => some { s with policy := none }
  | .setBalance cred amount => some (s.setBalance cred amount).2
  | .wallet cred => some (s.ensureWallet cred)
  | .patchConfig config => some { s with config }

end Sim

end Simulator

end CronMonitor
