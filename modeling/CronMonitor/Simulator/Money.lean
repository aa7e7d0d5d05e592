import CronMonitor.Simulator.Steps

/-!
# What a step pays

The requests that pass their checks, the frames made of them, and what each way of a step posts to the ledger and
reserves in a wallet.
-/

namespace CronMonitor

namespace Simulator

variable {Body : Type}

/-- What a transaction takes from the wallet that makes it. -/
def Tx.outlay (tx : Tx) : Nat :=
  match tx.kind with
  | .collection => 0
  | .payout => tx.split.payerAmount
  | .utilityPurchase => tx.amount + tx.fee
  | .transfer => tx.amount

/-- The entry that an outlay is posted as. -/
def Kind.outlayKind : Kind → LedgerKind
  | .collection => .collection
  | .payout => .payoutReserve
  | .utilityPurchase => .utilityReserve
  | .transfer => .transfer

/-- A frame pays for the outlay of its transaction, and goes on as its kind does. -/
structure Frame.Ok (f : Frame) : Prop where
  debit : f.debit = ⟨f.tx.credential, f.tx.outlay, f.tx.reference, f.tx.kind.outlayKind, decide (f.tx.kind ≠ .transfer)⟩
  create : match f.create with
    | .payout _ _ payer => f.tx.kind = .payout ∧ f.tx.status = .accepted ∧ payer = f.tx.outlay
    | .utility => f.tx.kind = .utilityPurchase ∧ f.tx.status = .accepted ∧ f.tx.walletFunded = true
    | .transfer handle => f.tx.kind = .transfer ∧ f.tx.party = some handle

theorem Frame.Ok.kind {f : Frame} (h : f.Ok) : f.tx.kind ≠ .collection := by
  have hcreate := h.create
  cases hf : f.create <;> rw [hf] at hcreate <;> simp [hcreate.1]

namespace Sim

variable {W : Wire Body} {s s' t : Sim Body} {cred : String} {body : Body}

/-! ### Requests -/

theorem bind_eq_ok {α β : Type} {x : Except Thrown α} {f : α → Except Thrown β} {b : β} (h : x >>= f = .ok b) :
    ∃ a, x = .ok a ∧ f a = .ok b := by
  cases x with
  | error e => cases h
  | ok a => exact ⟨a, rfl, h⟩

/-- A check that throws has not been met. -/
theorem guard_ok {α β : Type} {p : Prop} [Decidable p] {code : ErrorCode} {message : String} {k : α → Except Thrown β}
    {x : Except Thrown β} {b : β} (h : (if p then fail code message >>= k else x) = .ok b) : x = .ok b := by
  by_cases hp : p
  · rw [if_pos hp] at h
    cases h
  · rwa [if_neg hp] at h

theorem collectionRequest_ok {r : CollectionRequest} {amount : Nat}
    (h : s.collectionRequest W cred body = .ok (.inr (r, amount))) :
    s.existing .collection cred r.reference (W.hashOf body) = .ok none := by
  unfold collectionRequest at h
  obtain ⟨r', -, h⟩ := bind_eq_ok h
  obtain ⟨-, -, h⟩ := bind_eq_ok h
  obtain ⟨amount', -, h⟩ := bind_eq_ok h
  obtain ⟨dup, hdup, h⟩ := bind_eq_ok h
  cases dup with
  | some tx => cases h
  | none =>
    obtain ⟨⟨⟩, -, h⟩ := bind_eq_ok h
    cases h
    exact hdup

theorem payoutRequest_ok {r : PayoutRequest} {amount : Nat} (h : s.payoutRequest W cred body = .ok (.inr (r, amount))) :
    s.existing .payout cred r.reference (W.hashOf body) = .ok none ∧ s.checkLimits cred amount .out = .ok () := by
  unfold payoutRequest at h
  obtain ⟨r', -, h⟩ := bind_eq_ok h
  obtain ⟨-, -, h⟩ := bind_eq_ok h
  split_ifs at h
  · cases h
  · obtain ⟨amount', -, h⟩ := bind_eq_ok h
    obtain ⟨dup, hdup, h⟩ := bind_eq_ok h
    cases dup with
    | some tx => cases h
    | none =>
      obtain ⟨⟨⟩, hlimits, h⟩ := bind_eq_ok h
      cases h
      exact ⟨hdup, hlimits⟩

theorem utilityRequest_ok {r : UtilityPurchaseRequest} {amount : Nat}
    (h : s.utilityRequest W cred body = .ok (.inr (r, amount))) :
    s.existing .utilityPurchase cred r.reference (W.hashOf body) = .ok none ∧ s.checkLimits cred amount .out = .ok () := by
  unfold utilityRequest at h
  obtain ⟨r', -, h⟩ := bind_eq_ok h
  replace h := guard_ok h
  split at h
  · cases h
  · replace h := guard_ok (guard_ok (guard_ok h))
    obtain ⟨amount', -, h⟩ := bind_eq_ok h
    replace h := guard_ok h
    obtain ⟨dup, hdup, h⟩ := bind_eq_ok h
    cases dup with
    | some tx => cases h
    | none =>
      obtain ⟨⟨⟩, hlimits, h⟩ := bind_eq_ok h
      cases h
      exact ⟨hdup, hlimits⟩

theorem transferRequest_ok {r : TransferRequest} {amount : Nat} (h : s.transferRequest W cred body = .ok (.inr (r, amount))) :
    s.existing .transfer cred r.reference (W.hashOf body) = .ok none ∧ s.checkLimits cred amount .out = .ok () := by
  unfold transferRequest at h
  obtain ⟨r', -, h⟩ := bind_eq_ok h
  replace h := guard_ok h
  obtain ⟨amount', -, h⟩ := bind_eq_ok h
  replace h := guard_ok (guard_ok h)
  obtain ⟨dup, hdup, h⟩ := bind_eq_ok h
  cases dup with
  | some tx => cases h
  | none =>
    obtain ⟨⟨⟩, hlimits, h⟩ := bind_eq_ok h
    cases h
    exact ⟨hdup, hlimits⟩

/-- A reference that is new is not in the table. -/
theorem existing_none {kind : Kind} {reference hash : String} (hcorrect : s.config.idempotency = .correct)
    (htable : ∀ k i, s.txs.get? k = some i → i < s.heap.length) (h : s.existing kind cred reference hash = .ok none) :
    s.txs.get? ⟨kind, cred, reference, none⟩ = none := by
  simp only [existing, hcorrect] at h
  cases hget : s.txs.get? ⟨kind, cred, reference, none⟩ with
  | none => rfl
  | some i =>
    rw [hget, Option.bind_some, List.getElem?_eq_getElem (htable _ i hget)] at h
    simp only at h
    split_ifs at h <;> cases h

theorem checkLimits_ok {amount : Nat} {d : Direction} (hweak : s.config.weak.ignoreLimits = false)
    (h : s.checkLimits cred amount d = .ok ()) {daily : Nat} (hdaily : parseAmount s.config.limits.daily = some daily) :
    s.volume cred d + amount ≤ daily := by
  unfold checkLimits at h
  rw [hweak] at h
  simp only [Bool.false_eq_true, if_false] at h
  replace h := guard_ok h
  rw [hdaily] at h
  by_contra hover
  rw [if_pos (by simpa using hover)] at h
  cases h

/-- The frame of a request that passes its checks, unless a client set the fields of its transaction. -/
theorem Opened.ok {f : Frame} (h : Opened W s f) (hmass : s.config.weak.massAssignment = false) : f.Ok := by
  cases h with
  | payout cred body r amount h =>
    have htx : s.payoutTx W cred r amount body = s.newTx .payout cred r.reference amount (s.config.fee amount)
        (some r.provider) r.destination.value (W.hashOf body) r.note := by
      unfold payoutTx
      rw [hmass]
      rfl
    constructor
    · simp only [payoutFrame, htx]
      rfl
    · simp only [payoutFrame, htx]
      exact ⟨rfl, rfl, rfl⟩
  | utility cred body r amount h hfunding =>
    refine ⟨rfl, rfl, rfl, ?_⟩
    show decide (r.funding.type = .wallet) = true
    simpa using hfunding
  | transfer cred body r amount h => exact ⟨rfl, rfl, rfl⟩

theorem Opened.checked {f : Frame} (h : Opened W s f) :
    s.existing f.tx.kind f.tx.credential f.tx.reference f.tx.bodyHash = .ok none ∧
      s.checkLimits f.tx.credential f.tx.amount .out = .ok () := by
  cases h with
  | payout cred body r amount h =>
    have hfields : (s.payoutTx W cred r amount body).kind = .payout ∧ (s.payoutTx W cred r amount body).credential = cred ∧
        (s.payoutTx W cred r amount body).reference = r.reference ∧
          (s.payoutTx W cred r amount body).bodyHash = W.hashOf body ∧ (s.payoutTx W cred r amount body).amount = amount := by
      unfold payoutTx
      simp only
      split_ifs <;> exact ⟨rfl, rfl, rfl, rfl, rfl⟩
    simp only [payoutFrame]
    rw [hfields.1, hfields.2.1, hfields.2.2.1, hfields.2.2.2.1, hfields.2.2.2.2]
    exact payoutRequest_ok h
  | utility cred body r amount h hfunding => exact utilityRequest_ok h
  | transfer cred body r amount h => exact transferRequest_ok h

/-! ### Postings -/

theorem Same.books (h : Same s s') : Books s s' none where
  ledger := by rw [h.ledger, Option.toList_none, List.append_nil]
  opening := fun id => (h.wallets id).2.2
  balance := fun id => by
    rw [(h.wallets id).1]
    simp [ledgerSum]

theorem createCollection_books : Books s (s.createCollection W cred body).2 none := by
  unfold createCollection
  split
  · exact .refl
  · exact .refl
  · exact .of_eq rfl rfl rfl

theorem paidFor_books (d : Debit) :
    Books s (s.paidFor d) (some ⟨s.seq + 2, d.cred, -(d.amount : Int), d.ref, d.kind⟩) :=
  @Books.quiet_left _ _ s.bumpSeq (s.bumpSeq.pay d ((s.walletOf d.cred).balance - d.amount)) _
    (.of_eq rfl rfl rfl) (Books.post (by rw [sub_eq_add_neg]; rfl) rfl)

/-- What a create call posts when it goes on: a transfer arrives. -/
def arrival (s : Sim Body) (f : Frame) : Option LedgerEntry :=
  match f.create with
  | .transfer handle => some ⟨s.seq + 1, handle, f.tx.amount, f.tx.reference, .transferIn⟩
  | _ => none

theorem finishUtility_books (tx : Tx) : Books s (s.finishUtility tx) none :=
  (@Books.of_eq _ s (((s.register tx).noteVolume tx.credential tx.amount .out).emit tx.credential
    "utility_purchase.accepted" (.tx tx.id tx.utilityView)) rfl rfl rfl).quiet_left ((Books.ensureWallet tx.credential).quiet_left (.of_eq rfl rfl rfl))

theorem finish_books (f : Frame) : Books s (s.finish f).2 (s.arrival f) := by
  cases hf : f.create with
  | payout provider value payer =>
    simp only [finish, arrival, hf, finishPayout]
    have hregister : Books s (((s.register f.tx).noteVolume f.tx.credential f.tx.amount .out).emit f.tx.credential
        "payout.accepted" (.tx f.tx.id f.tx.view)) none := .of_eq rfl rfl rfl
    split_ifs
    · exact hregister.quiet_left (.of_eq rfl rfl rfl)
    · exact hregister.quiet_left ((Books.ensureWallet f.tx.credential).quiet_left (.of_eq rfl rfl rfl))
  | utility =>
    simp only [finish, arrival, hf]
    exact finishUtility_books f.tx
  | transfer handle =>
    simp only [finish, arrival, hf]
    exact (Books.credit handle f.tx.amount f.tx.reference .transferIn).quiet_right (.of_eq rfl rfl rfl)

/-- What a callback posts. -/
def income (s : Sim Body) : Callback → Option LedgerEntry
  | .collectionFinal tx cred amount fee outcome =>
    if outcome = .ok then
      s.heap[tx]?.map fun t => ⟨s.seq + 1, cred, (applyFee amount fee t.feeBearer).recipientAmount, t.reference, .collection⟩
    else none
  | .payoutRefund tx cred payer =>
    some ⟨s.seq + 1, cred, payer, (s.heap[tx]?.map (·.reference)).getD "", .payoutRefund⟩
  | .utilityRefund tx cred amount fee =>
    some ⟨s.seq + 1, cred, (amount + fee : Nat), (s.heap[tx]?.map (·.reference)).getD "", .utilityRefund⟩
  | _ => none

theorem fireCallback_books (cb : Callback) : Books s (s.fireCallback cb) (s.income cb) := by
  cases cb with
  | collectionDispatched tx => exact .setStatus ..
  | collectionFinal tx cred amount fee outcome =>
    cases ht : s.heap[tx]? with
    | none =>
      have hincome : s.income (.collectionFinal tx cred amount fee outcome) = none := by
        simp only [income, ht]
        split_ifs <;> rfl
      simp only [hincome, fireCallback, ht]
      exact .setStatus ..
    | some t =>
      cases outcome with
      | ok =>
        have hincome : s.income (.collectionFinal tx cred amount fee .ok) =
            some ⟨s.seq + 1, cred, (applyFee amount fee t.feeBearer).recipientAmount, t.reference, .collection⟩ := by
          simp [income, ht]
        simp only [hincome, fireCallback, ht]
        exact (Books.credit cred _ t.reference .collection).quiet_right ((Books.update ..).quiet_left (.setStatus ..))
      | fail | failRefund | wrongPin =>
        simp only [fireCallback, ht]
        exact .setStatus ..
  | payoutInReview tx => exact .setStatus ..
  | payoutDispatching tx => exact .setStatus ..
  | payoutFinal tx cred payer half outcome =>
    simp only [fireCallback, income]
    split_ifs
    · exact (Books.release cred payer).quiet_left (.setStatus ..)
    · exact (Books.setStatus ..).quiet_left (.of_eq rfl rfl rfl)
  | payoutRefund tx cred payer =>
    exact ((Books.release cred payer).quiet_left (Books.credit ..)).quiet_right (.setStatus ..)
  | utilityStarted tx walletFunded => exact .setStatus ..
  | utilityFinal tx cred amount fee walletFunded half =>
    simp only [fireCallback, income]
    split
    · refine @Books.quiet_left _ _ { (if walletFunded then s.release cred (amount + fee) else s) with
        utilityDeliveries := (if walletFunded then s.release cred (amount + fee) else s).utilityDeliveries + 1 } _ _ ?_ (.setStatus ..)
      split_ifs
      · exact (Books.release cred (amount + fee)).quiet_left (.of_eq rfl rfl rfl)
      · exact .of_eq rfl rfl rfl
    · split_ifs
      · exact (Books.setStatus ..).quiet_left (.of_eq rfl rfl rfl)
      · exact .setStatus ..
  | utilityRefund tx cred amount fee =>
    exact ((Books.release cred (amount + fee)).quiet_left (Books.credit ..)).quiet_right (.setStatus ..)

theorem setBalance_books {amount : String} {target : Nat} (h : parseAmount amount = some target) :
    Books s (s.setBalance cred amount).2 (some ⟨s.seq + 1, cred, target - s.balance cred, "control", .testAdjustment⟩) := by
  simp only [setBalance, h]
  refine Books.post ?_ rfl
  show (target : Int) = s.balance cred + (target - s.balance cred)
  omega

/-! ### Reservations -/

theorem reserved_putWallet (id id' : String) (w : Wallet) :
    (s.putWallet id w).reserved id' = if id = id' then w.reserved else s.reserved id' := by
  simp only [reserved, walletOf_putWallet]
  split_ifs <;> rfl

theorem reserved_of_eq (hwallets : s'.wallets = s.wallets) (id : String) : s'.reserved id = s.reserved id := by
  simp only [reserved, walletOf, hwallets]
  cases s.wallets.get? id <;> rfl

theorem reserved_setStatus (i : Nat) (status : TxStatus) (type : String) (final : Bool) (reason : Option String)
    (id : String) : (s.setStatus i status type final reason).reserved id = s.reserved id := by
  obtain ⟨events, h⟩ := setStatus_eq (s := s) i status type final reason
  rw [h]
  exact reserved_of_eq rfl id

theorem reserved_ensureWallet (cred id : String) : (s.ensureWallet cred).reserved id = s.reserved id :=
  ((Same.ensureWallet cred).wallets id).2.1

theorem reserved_credit (cred : String) (amount : Int) (ref : String) (kind : LedgerKind) (id : String) :
    (s.credit cred amount ref kind).reserved id = s.reserved id := by
  have hpost : (s.credit cred amount ref kind).reserved id =
      (s.putWallet cred { s.walletOf cred with balance := (s.walletOf cred).balance + amount }).reserved id :=
    reserved_of_eq rfl id
  rw [hpost, reserved_putWallet]
  split_ifs with h
  · rw [← h]
    rfl
  · rfl

theorem reserved_release (cred : String) (amount : Nat) (id : String) :
    (s.release cred amount).reserved id = s.reserved id - if cred = id then (amount : Int) else 0 := by
  rw [release, reserved_putWallet]
  split_ifs with h
  · rw [← h]
    rfl
  · exact (sub_zero _).symm

theorem reserved_paidFor (d : Debit) (id : String) :
    (s.paidFor d).reserved id = s.reserved id + if d.cred = id ∧ d.reserve = true then (d.amount : Int) else 0 := by
  have hpost : (s.paidFor d).reserved id = (s.bumpSeq.putWallet d.cred { s.walletOf d.cred with
      balance := (s.walletOf d.cred).balance - d.amount
      reserved := if d.reserve then (s.walletOf d.cred).reserved + d.amount else (s.walletOf d.cred).reserved }).reserved id :=
    reserved_of_eq rfl id
  rw [hpost, reserved_putWallet]
  by_cases h : d.cred = id
  · subst h
    cases hreserve : d.reserve <;> simp [reserved]
  · rw [if_neg h, if_neg fun hboth => h hboth.1, add_zero]
    exact reserved_of_eq rfl id

theorem reserved_createCollection (id : String) : (s.createCollection W cred body).2.reserved id = s.reserved id := by
  unfold createCollection
  split
  · rfl
  · rfl
  · exact reserved_of_eq rfl id

theorem reserved_finishUtility (tx : Tx) (id : String) : (s.finishUtility tx).reserved id = s.reserved id := by
  have hwallets : (s.finishUtility tx).reserved id = ((((s.register tx).noteVolume tx.credential tx.amount .out).emit
      tx.credential "utility_purchase.accepted" (.tx tx.id tx.utilityView)).ensureWallet tx.credential).reserved id := reserved_of_eq rfl id
  rw [hwallets, reserved_ensureWallet]
  exact reserved_of_eq rfl id

theorem reserved_finish (f : Frame) (id : String) : (s.finish f).2.reserved id = s.reserved id := by
  cases hf : f.create with
  | payout provider value payer =>
    simp only [finish, hf, finishPayout]
    split_ifs
    · exact reserved_of_eq rfl id
    · have hwallet : ((((s.register f.tx).noteVolume f.tx.credential f.tx.amount .out).emit f.tx.credential
          "payout.accepted" (.tx f.tx.id f.tx.view)).ensureWallet f.tx.credential).reserved id = s.reserved id := by
        rw [reserved_ensureWallet]
        exact reserved_of_eq rfl id
      exact (reserved_of_eq rfl id).trans hwallet
  | utility =>
    simp only [finish, hf]
    exact reserved_finishUtility f.tx id
  | transfer handle =>
    simp only [finish, hf]
    exact (reserved_of_eq rfl id).trans (reserved_credit handle f.tx.amount f.tx.reference .transferIn id)

/-- What a callback gives back of a reservation. -/
def released (s : Sim Body) : Callback → Option (String × Nat)
  | .payoutFinal _ cred payer _ outcome => if outcome = .ok then some (cred, payer) else none
  | .payoutRefund _ cred payer => some (cred, payer)
  | .utilityFinal _ cred amount fee walletFunded _ =>
    if s.config.otherNumbers = .succeed ∧ walletFunded then some (cred, amount + fee) else none
  | .utilityRefund _ cred amount fee => some (cred, amount + fee)
  | _ => none

theorem reserved_fireCallback (cb : Callback) (id : String) : (s.fireCallback cb).reserved id =
    s.reserved id - ((s.released cb).map fun r => if r.1 = id then (r.2 : Int) else 0).getD 0 := by
  cases cb with
  | collectionDispatched tx => exact (reserved_setStatus ..).trans (sub_zero _).symm
  | collectionFinal tx cred amount fee outcome =>
    refine Eq.trans ?_ (sub_zero _).symm
    cases outcome with
    | ok =>
      cases ht : s.heap[tx]? with
      | none =>
        simp only [fireCallback, ht]
        exact reserved_setStatus ..
      | some t =>
        simp only [fireCallback, ht]
        rw [reserved_setStatus]
        exact (reserved_of_eq rfl id).trans (reserved_credit cred _ t.reference .collection id)
    | fail | failRefund | wrongPin =>
      cases ht : s.heap[tx]? <;> simp only [fireCallback, ht] <;> exact reserved_setStatus ..
  | payoutInReview tx => exact (reserved_setStatus ..).trans (sub_zero _).symm
  | payoutDispatching tx => exact (reserved_setStatus ..).trans (sub_zero _).symm
  | payoutFinal tx cred payer half outcome =>
    simp only [fireCallback, released]
    split_ifs
    · rw [reserved_setStatus, reserved_release]
      rfl
    · refine Eq.trans ?_ (sub_zero _).symm
      exact (reserved_of_eq rfl id).trans (reserved_setStatus tx .failed "payout.status_changed" false (some "declined") id)
  | payoutRefund tx cred payer =>
    rw [fireCallback, reserved_setStatus, reserved_credit, reserved_release]
    rfl
  | utilityStarted tx walletFunded => exact (reserved_setStatus ..).trans (sub_zero _).symm
  | utilityFinal tx cred amount fee walletFunded half =>
    simp only [fireCallback, released]
    cases s.config.otherNumbers with
    | succeed =>
      simp only
      rw [reserved_setStatus]
      cases walletFunded with
      | false => exact (reserved_of_eq rfl id).trans (sub_zero _).symm
      | true =>
        simp only [if_true, true_and]
        exact (reserved_of_eq rfl id).trans (reserved_release cred (amount + fee) id)
    | fail =>
      simp only [reduceCtorEq, false_and, if_false]
      refine Eq.trans ?_ (sub_zero _).symm
      split_ifs
      · exact (reserved_of_eq rfl id).trans
          (reserved_setStatus tx .failed "utility_purchase.status_changed" false (some "vend_failed") id)
      · exact reserved_setStatus ..
  | utilityRefund tx cred amount fee =>
    rw [fireCallback, reserved_setStatus, reserved_credit, reserved_release]
    rfl

theorem reserved_setBalance (amount : String) (id : String) : (s.setBalance cred amount).2.reserved id = s.reserved id := by
  unfold setBalance
  split
  · rfl
  · next target h =>
    have hpost : ((s.putWallet cred { s.walletOf cred with balance := target }).post cred
        (target - (s.walletOf cred).balance) "control" .testAdjustment).reserved id =
          (s.putWallet cred { s.walletOf cred with balance := target }).reserved id := reserved_of_eq rfl id
    refine hpost.trans ?_
    rw [reserved_putWallet]
    split_ifs with hid
    · rw [← hid]
      rfl
    · rfl

/-! ### Settlement -/

def markSettled (t : Tx) : Tx := { t with settlementStatus := some .settled }

/-- A settlement run that is not a repetition: it is recorded in any case, and pays out a positive total. -/
structure Settles (s s' : Sim Body) (cred reference : String) : Prop where
  config : s'.config = s.config
  now : s'.now = s.now
  seq : s.seq ≤ s'.seq
  heap : s'.heap = if 0 < s.net cred then s.heap.modifyAll (s.due cred) markSettled else s.heap
  txs : s'.txs = s.txs
  effects : s'.effects = s.effects
  runs : s'.settlementRuns =
    s.settlementRuns ++ [⟨s.seq + 1, reference, cred, (s.due cred).length, s.net cred, s.now⟩]
  dailyOut : s'.dailyOut = s.dailyOut
  timers : s'.timers = s.timers
  calls : s'.calls = s.calls
  books : Books s s'
    (if 0 < s.net cred then some ⟨s.seq + 2, cred, -s.net cred, settlementId (s.seq + 1), .settlement⟩ else none)
  reserved : ∀ id, s'.reserved id = s.reserved id

theorem foldl_update (is : List Nat) (f : Tx → Tx) :
    is.foldl (fun s i => s.update i f) s = { s with heap := s.heap.modifyAll is f } := by
  induction is generalizing s with
  | nil => rfl
  | cons i is ih =>
    rw [List.foldl_cons, ih]
    rfl

/-- The due collections marked, before the wallet is paid from. -/
def marked (s : Sim Body) (cred : String) : Sim Body :=
  { s.bumpSeq with heap := s.heap.modifyAll (s.due cred) markSettled }

theorem settle_eq (hnet : 0 < s.net cred) : s.settle cred =
    ((s.marked cred).putWallet cred { s.walletOf cred with balance := (s.walletOf cred).balance - s.net cred }).post cred
      (-s.net cred) (settlementId (s.seq + 1)) .settlement := by
  simp only [settle, if_pos hnet, foldl_update]
  rfl

theorem settle_books : Books s (s.settle cred)
    (if 0 < s.net cred then some ⟨s.seq + 2, cred, -s.net cred, settlementId (s.seq + 1), .settlement⟩ else none) := by
  split_ifs with hnet
  · rw [settle_eq hnet]
    refine @Books.quiet_left _ _ (s.marked cred) _ _ (.of_eq rfl rfl rfl) (Books.post ?_ rfl)
    rw [sub_eq_add_neg]
    rfl
  · rw [settle, if_neg hnet]
    exact .of_eq rfl rfl rfl

theorem reserved_settle (id : String) : (s.settle cred).reserved id = s.reserved id := by
  by_cases hnet : 0 < s.net cred
  · rw [settle_eq hnet]
    have hpost : (((s.marked cred).putWallet cred { s.walletOf cred with
        balance := (s.walletOf cred).balance - s.net cred }).post cred (-s.net cred) (settlementId (s.seq + 1))
          .settlement).reserved id = ((s.marked cred).putWallet cred { s.walletOf cred with
            balance := (s.walletOf cred).balance - s.net cred }).reserved id := reserved_of_eq rfl id
    rw [hpost, reserved_putWallet]
    split_ifs with hid
    · rw [← hid]
      rfl
    · exact reserved_of_eq rfl id
  · rw [settle, if_neg hnet]
    exact reserved_of_eq rfl id

theorem settleNow_eq {r : SettleNowRequest} (h : parse (W.settleNow body) = .ok r) (hpolicy : s.policy.isSome)
    (hnew : s.settlementRuns.find? (fun x => x.reference = r.reference && x.cred = cred) = none) :
    ∃ events, (s.settleNow W cred body).2 =
      { s.settle cred with
        settlementRuns := (s.settle cred).settlementRuns ++
          [⟨s.seq + 1, r.reference, cred, (s.due cred).length, s.net cred, s.now⟩]
        events } := by
  obtain ⟨policy, hpolicy⟩ := Option.isSome_iff_exists.1 hpolicy
  simp only [settleNow, h, hpolicy, hnew]
  exact ⟨_, rfl⟩

theorem settleNow_settles {r : SettleNowRequest} (h : parse (W.settleNow body) = .ok r) (hpolicy : s.policy.isSome)
    (hnew : s.settlementRuns.find? (fun x => x.reference = r.reference && x.cred = cred) = none) :
    Settles s (s.settleNow W cred body).2 cred r.reference := by
  obtain ⟨events, heq⟩ := @settleNow_eq _ _ _ cred _ _ h hpolicy hnew
  have hbooks := @Books.quiet_right _ _ _ (s.settleNow W cred body).2 _ (@settle_books _ s cred)
    (by rw [heq]; exact .of_eq rfl rfl rfl)
  have hreserved (id : String) : (s.settleNow W cred body).2.reserved id = s.reserved id := by
    rw [heq]
    exact (reserved_of_eq rfl id).trans (reserved_settle id)
  rw [heq] at hbooks hreserved ⊢
  by_cases hnet : 0 < s.net cred
  · rw [settle_eq hnet] at hbooks hreserved ⊢
    exact ⟨rfl, rfl, Nat.le_succ_of_le (Nat.le_succ _), (if_pos hnet).symm, rfl, rfl, rfl, rfl, rfl, rfl, hbooks, hreserved⟩
  · have hsettle : s.settle cred = s.bumpSeq := if_neg hnet
    rw [hsettle] at hbooks hreserved ⊢
    exact ⟨rfl, rfl, Nat.le_succ _, (if_neg hnet).symm, rfl, rfl, rfl, rfl, rfl, rfl, hbooks, hreserved⟩

/-! ### Configurations -/

/-- A new configuration has the property. -/
def Label.keeps (P : SimConfig → Prop) : Label Body → Prop
  | .patchConfig config => P config
  | _ => True

instance {P : SimConfig → Prop} [DecidablePred P] : (l : Label Body) → Decidable (l.keeps P)
  | .patchConfig config => inferInstanceAs (Decidable (P config))
  | .createCollection .. | .createPayout .. | .createPayoutBatch .. | .createUtilityPurchase .. | .createTransfer ..
  | .resume _ | .timer | .elapse _ | .settleNow .. | .putPolicy _ | .deletePolicy | .setBalance .. | .wallet _ =>
    isTrue trivial

variable {l : Label Body}

theorem createCollection_config (cred : String) (body : Body) : (s.createCollection W cred body).2.config = s.config ∧
    (s.createCollection W cred body).2.calls = s.calls := by
  unfold createCollection
  split <;> exact ⟨rfl, rfl⟩

theorem setBalance_config (cred amount : String) : (s.setBalance cred amount).2.config = s.config ∧
    (s.setBalance cred amount).2.calls = s.calls := by
  unfold setBalance
  split <;> exact ⟨rfl, rfl⟩

theorem finish_config (f : Frame) : (s.finish f).2.config = s.config := by
  cases hf : f.create with
  | payout provider value payer =>
    simp only [finish, hf, finishPayout]
    split_ifs <;> rfl
  | utility =>
    simp only [finish, hf]
    rfl
  | transfer handle =>
    simp only [finish, hf]
    rfl

/-- The configuration is the one before, or the one that the label brings. -/
theorem Trans.keeps {P : SimConfig → Prop} (h : Trans W s l s') (hP : P s.config) (hl : l.keeps P) : P s'.config := by
  cases h with
  | quiet l hcalm hsame hpending => rwa [hsame.config]
  | elapse ms => exact hP
  | patchConfig config => exact hl
  | collect cred body r amount h => rwa [(createCollection_config cred body).1]
  | start l f hcalm hopens hopened hfunds hsame hpending => rwa [hsame.config]
  | finish i f hcalm hsame hpending =>
    rwa [hsame.config, finish_config]
  | direct cred body r amount h hfunding => exact hP
  | fire t ts h hdue => rwa [(fireCallback_fires (s := { s with timers := ts }) t.callback).config]
  | settle cred body r h hpolicy hnew => rwa [(settleNow_settles h hpolicy hnew).config]
  | setBalance cred amount target h => rwa [(setBalance_config cred amount).1]

theorem Trans.noRace (h : Trans W s l s') (hrace : s.NoRace) (hl : l.keeps (·.raceBug = false)) : s'.NoRace := by
  refine ⟨h.keeps hrace.config hl, ?_⟩
  have hsame {t : Sim Body} (hcalls : t.calls = s.calls) : t.Calm := by
    rw [Calm, hcalls]
    exact hrace.calm
  cases h with
  | quiet l hcalm hsame hpending => exact hcalm
  | elapse ms => exact hrace.calm
  | patchConfig config => exact hrace.calm
  | collect cred body r amount h => exact hsame (createCollection_config cred body).2
  | start l f hcalm hopens hopened hfunds hsame hpending => exact hcalm
  | finish i f hcalm hsame hpending => exact hcalm
  | direct cred body r amount h hfunding => exact hrace.calm
  | fire t ts h hdue => exact hsame (fireCallback_fires (s := { s with timers := ts }) t.callback).calls
  | settle cred body r h hpolicy hnew => exact hsame (settleNow_settles h hpolicy hnew).calls
  | setBalance cred amount target h => exact hsame (setBalance_config cred amount).2

theorem init_noRace {config : SimConfig} (h : config.raceBug = false) (now : Time) : (Sim.init Body config now).NoRace :=
  ⟨h, fun _ hc => (List.not_mem_nil hc).elim⟩

end Sim

end Simulator

end CronMonitor
