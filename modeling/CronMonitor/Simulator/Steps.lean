import CronMonitor.Simulator.Books
import CronMonitor.Lib.Heap

/-!
# What a step of the simulator does

`Trans W s l s'` lists the ways in which a label takes `s` to `s'` when the race window is closed. A create call that
is paid waits in `pending` until it goes on and puts its transaction in the table.
-/

namespace CronMonitor

namespace Simulator

variable {Body : Type}

/-- The key of a transaction while references count. -/
def Tx.key (tx : Tx) : TxKey := ⟨tx.kind, tx.credential, tx.reference, none⟩

def Tx.split (tx : Tx) : FeeSplit := applyFee tx.amount tx.fee tx.feeBearer

namespace Call

/-- The frame of a call that is paid and has not gone on. -/
def paid : Call Body → List Frame
  | .debiting f .paid _ => [f]
  | _ => []

def isRacing : Call Body → Bool
  | .debiting _ (.racing _) _ => true
  | _ => false

@[simp] theorem paid_batching (b : Batch Body) (last : Except SimError Tx) : (batching b last).paid = [] := rfl

end Call

namespace Sim

variable {W : Wire Body} {s s' t : Sim Body}

def pending (s : Sim Body) : List Frame := s.calls.flatMap Call.paid

def reserved (s : Sim Body) (id : String) : Int := (s.walletOf id).reserved

/-- No debit is asleep in the race window. -/
def Calm (s : Sim Body) : Prop := ∀ c ∈ s.calls, c.isRacing = false

/-- Nor will one be. -/
structure NoRace (s : Sim Body) : Prop where
  config : s.config.raceBug = false
  calm : s.Calm

/-- Nothing has changed but the calls, the batches, the events and what counts nothing here. -/
structure Same (s s' : Sim Body) : Prop where
  config : s'.config = s.config
  now : s'.now = s.now
  seq : s.seq ≤ s'.seq
  heap : s'.heap = s.heap
  txs : s'.txs = s.txs
  ledger : s'.ledger = s.ledger
  effects : s'.effects = s.effects
  runs : s'.settlementRuns = s.settlementRuns
  dailyOut : s'.dailyOut = s.dailyOut
  timers : s'.timers = s.timers
  wallets : ∀ id, s'.balance id = s.balance id ∧ s'.reserved id = s.reserved id ∧ s'.opening id = s.opening id

theorem Same.refl : Same s s := ⟨rfl, rfl, le_rfl, rfl, rfl, rfl, rfl, rfl, rfl, rfl, fun _ => ⟨rfl, rfl, rfl⟩⟩

theorem Same.ensureWallet (id : String) : Same s (s.ensureWallet id) := by
  refine ⟨rfl, rfl, le_rfl, rfl, rfl, rfl, rfl, rfl, rfl, rfl, fun id' => ?_⟩
  simp only [balance, reserved, opening, Sim.ensureWallet, walletOf_putWallet]
  split_ifs with h
  · rw [h]
    exact ⟨rfl, rfl, rfl⟩
  · exact ⟨rfl, rfl, rfl⟩

/-- A change of the calls alone. -/
theorem Same.withCalls (h : Same s t) (calls : List (Call Body)) : Same s { t with calls } :=
  ⟨h.config, h.now, h.seq, h.heap, h.txs, h.ledger, h.effects, h.runs, h.dailyOut, h.timers, h.wallets⟩

theorem Same.bumpSeq (h : Same s t) : Same s t.bumpSeq :=
  ⟨h.config, h.now, Nat.le_succ_of_le h.seq, h.heap, h.txs, h.ledger, h.effects, h.runs, h.dailyOut, h.timers, h.wallets⟩

theorem Same.trans {u : Sim Body} (h : Same s t) (h' : Same t u) : Same s u where
  config := h'.config.trans h.config
  now := h'.now.trans h.now
  seq := h.seq.trans h'.seq
  heap := h'.heap.trans h.heap
  txs := h'.txs.trans h.txs
  ledger := h'.ledger.trans h.ledger
  effects := h'.effects.trans h.effects
  runs := h'.runs.trans h.runs
  dailyOut := h'.dailyOut.trans h.dailyOut
  timers := h'.timers.trans h.timers
  wallets := fun id => by
    rw [(h'.wallets id).1, (h'.wallets id).2.1, (h'.wallets id).2.2]
    exact h.wallets id

/-! ### The calls that wait -/

theorem pending_set {i : Nat} {c c' : Call Body} (h : s.calls[i]? = some c) :
    (c.paid ++ ({ t with calls := s.calls.set i c' } : Sim Body).pending).Perm (c'.paid ++ s.pending) := by
  obtain ⟨hi, rfl⟩ := List.getElem?_eq_some_iff.1 h
  have hold := (List.getElem_cons_eraseIdx_perm hi).flatMap_right Call.paid
  have hnew := (List.set_perm_cons_eraseIdx hi c').flatMap_right Call.paid
  rw [List.flatMap_cons] at hold hnew
  have hswap : (s.calls[i].paid ++ (c'.paid ++ (s.calls.eraseIdx i).flatMap Call.paid)).Perm
      (c'.paid ++ (s.calls[i].paid ++ (s.calls.eraseIdx i).flatMap Call.paid)) := List.perm_append_comm_assoc ..
  exact (hnew.append_left _).trans (hswap.trans (hold.append_left _))

theorem pending_erase {i : Nat} {c : Call Body} (h : s.calls[i]? = some c) :
    (c.paid ++ ({ t with calls := s.calls.eraseIdx i } : Sim Body).pending).Perm s.pending := by
  obtain ⟨hi, rfl⟩ := List.getElem?_eq_some_iff.1 h
  exact (List.getElem_cons_eraseIdx_perm hi).flatMap_right Call.paid

theorem pending_append (c : Call Body) (h : t.calls = s.calls) :
    ({ t with calls := t.calls ++ [c] } : Sim Body).pending = s.pending ++ c.paid := by
  simp [pending, List.flatMap_append, h]

/-! ### Payments -/

/-- The frames that an operation makes out of a request that passes its checks. -/
inductive Opened (W : Wire Body) (s : Sim Body) : Frame → Prop
  | payout (cred : String) (body : Body) (r : PayoutRequest) (amount : Nat)
      (h : s.payoutRequest W cred body = .ok (.inr (r, amount))) : Opened W s (s.payoutFrame W cred r amount body)
  | utility (cred : String) (body : Body) (r : UtilityPurchaseRequest) (amount : Nat)
      (h : s.utilityRequest W cred body = .ok (.inr (r, amount))) (hfunding : r.funding.type = .wallet) :
      Opened W s (s.utilityFrame cred r amount (W.hashOf body))
  | transfer (cred : String) (body : Body) (r : TransferRequest) (amount : Nat)
      (h : s.transferRequest W cred body = .ok (.inr (r, amount))) :
      Opened W s (s.transferFrame cred r amount (W.hashOf body))

def paidFrame : Except Thrown (Begun Body) → Option Frame
  | .ok (.awaits _ f .paid) => some f
  | _ => none

def openedItem (W : Wire Body) (s : Sim Body) (b : Batch Body) : Option Frame :=
  b.rest.head?.bind fun item => paidFrame (s.beginPayout W b.cred item.body)

/-- The frame that a step pays for and leaves waiting. -/
def opens (W : Wire Body) (s : Sim Body) : Label Body → Option Frame
  | .createPayout cred body => paidFrame (s.beginPayout W cred body)
  | .createPayoutBatch cred body =>
    match s.batchRequest W cred body with
    | .ok (.inr b) => s.openedItem W b
    | _ => none
  | .createUtilityPurchase cred body =>
    match s.utilityRequest W cred body with
    | .ok (.inr (r, amount)) =>
      if r.funding.type = .wallet then paidFrame (.ok (s.await (s.utilityFrame cred r amount (W.hashOf body)))) else none
    | _ => none
  | .createTransfer cred body => paidFrame (s.beginTransfer W cred body)
  | .resume i =>
    match s.calls[i]? with
    | some (.batching b _) => s.openedItem W b
    | _ => none
  | _ => none

/-- The state after `newTx` and a debit that is paid. -/
def paidFor (s : Sim Body) (d : Debit) : Sim Body := s.bumpSeq.pay d ((s.walletOf d.cred).balance - d.amount)

inductive Trans (W : Wire Body) (s : Sim Body) : Label Body → Sim Body → Prop
  | quiet (l : Label Body) {s' : Sim Body} (hcalm : s'.Calm) (hsame : Same s s')
      (hpending : s'.pending.Perm s.pending) : Trans W s l s'
  | elapse (ms : Nat) : Trans W s (.elapse ms) { s with now := s.now + ms }
  | patchConfig (config : SimConfig) : Trans W s (.patchConfig config) { s with config }
  | collect (cred : String) (body : Body) (r : CollectionRequest) (amount : Nat)
      (h : s.collectionRequest W cred body = .ok (.inr (r, amount))) :
      Trans W s (.createCollection cred body) (s.createCollection W cred body).2
  | start (l : Label Body) (f : Frame) {s' : Sim Body} (hcalm : s'.Calm) (hopens : s.opens W l = some f) (hopened : Opened W s f)
      (hfunds : (f.debit.amount : Int) ≤ s.balance f.debit.cred) (hsame : Same (s.paidFor f.debit) s')
      (hpending : s'.pending.Perm (f :: s.pending)) : Trans W s l s'
  | finish (i : Nat) (f : Frame) {s' : Sim Body} (hcalm : s'.Calm) (hsame : Same (s.finish f).2 s')
      (hpending : s.pending.Perm (f :: s'.pending)) : Trans W s (.resume i) s'
  | direct (cred : String) (body : Body) (r : UtilityPurchaseRequest) (amount : Nat)
      (h : s.utilityRequest W cred body = .ok (.inr (r, amount))) (hfunding : r.funding.type ≠ .wallet) :
      Trans W s (.createUtilityPurchase cred body) (s.bumpSeq.finishUtility (s.utilityTx cred r amount (W.hashOf body)))
  | fire (t : Timer) (ts : List Timer) (h : s.timers = t :: ts) (hdue : t.deadline ≤ s.now) :
      Trans W s .timer ({ s with timers := ts }.fireCallback t.callback)
  | settle (cred : String) (body : Body) (r : SettleNowRequest) (h : parse (W.settleNow body) = .ok r)
      (hpolicy : s.policy.isSome)
      (hnew : s.settlementRuns.find? (fun x => x.reference = r.reference && x.cred = cred) = none) :
      Trans W s (.settleNow cred body) (s.settleNow W cred body).2
  | setBalance (cred amount : String) (target : Nat) (h : parseAmount amount = some target) :
      Trans W s (.setBalance cred amount) (s.setBalance cred amount).2

/-! ### Every step is one of them -/

theorem NoRace.paid (hrace : s.NoRace) {i : Nat} {f : Frame} {state : DebitState} {b : Option (Batch Body)}
    (h : s.calls[i]? = some (.debiting f state b)) : state = .paid ∨ state = .refused := by
  have hcall := hrace.calm _ (List.mem_of_getElem? h)
  cases state with
  | racing seen => cases hcall
  | paid => exact .inl rfl
  | refused => exact .inr rfl

/-- A debit is refused, or the wallet has the amount and is paid from. -/
theorem debit_cases (hrace : s.config.raceBug = false) (d : Debit) :
    s.bumpSeq.debit d = (s.bumpSeq.ensureWallet d.cred, .refused) ∨
      (d.amount : Int) ≤ s.balance d.cred ∧ s.bumpSeq.debit d = (s.paidFor d, .paid) := by
  unfold debit
  simp only [show s.bumpSeq.config.raceBug = false from hrace, Bool.false_eq_true, if_false]
  split_ifs with hlow
  · exact .inl rfl
  · exact .inr ⟨not_lt.1 hlow, rfl⟩

/-- Where an operation stands that has come to its first await, or has ended before. -/
inductive Started (W : Wire Body) (s : Sim Body) : Except Thrown (Begun Body) → Prop
  | error (e : Thrown) : Started W s (.error e)
  | replies (tx : Tx) : Started W s (.ok (.replies tx))
  | refused (f : Frame) {s' : Sim Body} (h : Same s s') (hcalls : s'.calls = s.calls) :
      Started W s (.ok (.awaits s' f .refused))
  | paid (f : Frame) (hopened : Opened W s f) (hfunds : (f.debit.amount : Int) ≤ s.balance f.debit.cred) :
      Started W s (.ok (.awaits (s.paidFor f.debit) f .paid))

theorem await_started (hrace : s.config.raceBug = false) {f : Frame} (hopened : Opened W s f) :
    Started W s (.ok (s.await f)) := by
  unfold await
  rcases debit_cases hrace f.debit with hdebit | ⟨hfunds, hdebit⟩
  · rw [hdebit]
    exact .refused f (Same.refl.bumpSeq.trans (.ensureWallet _)) rfl
  · rw [hdebit]
    exact .paid f hopened hfunds

theorem beginPayout_started (hrace : s.config.raceBug = false) (cred : String) (body : Body) :
    Started W s (s.beginPayout W cred body) := by
  unfold beginPayout
  cases h : s.payoutRequest W cred body with
  | error e => exact .error e
  | ok r =>
    cases r with
    | inl dup => exact .replies dup
    | inr p => exact await_started hrace (.payout cred body p.1 p.2 h)

theorem beginTransfer_started (hrace : s.config.raceBug = false) (cred : String) (body : Body) :
    Started W s (s.beginTransfer W cred body) := by
  unfold beginTransfer
  cases h : s.transferRequest W cred body with
  | error e => exact .error e
  | ok r =>
    cases r with
    | inl dup => exact .replies dup
    | inr p => exact await_started hrace (.transfer cred body p.1 p.2 h)

theorem Calm.append (h : s.Calm) {c : Call Body} (hc : c.isRacing = false) (hcalls : t.calls = s.calls) :
    ({ t with calls := t.calls ++ [c] } : Sim Body).Calm := by
  intro c' hc'
  rcases List.mem_append.1 hc' with hc' | hc'
  · exact h c' (hcalls ▸ hc')
  · exact List.mem_singleton.1 hc' ▸ hc

/-- A call of its own that has come to its first await. -/
theorem Started.trans {l : Label Body} {begun : Except Thrown (Begun Body)} (h : Started W s begun) (hcalm : s.Calm)
    (hopens : s.opens W l = paidFrame begun) : Trans W s l (s.started begun) := by
  cases h with
  | error e => exact .quiet l hcalm .refl (.refl _)
  | replies tx => exact .quiet l hcalm .refl (.refl _)
  | refused f hsame hcalls =>
    exact .quiet l (hcalm.append rfl hcalls) (hsame.withCalls _)
      (.of_eq ((pending_append _ hcalls).trans (List.append_nil _)))
  | paid f hopened hfunds =>
    refine .start l f (hcalm.append rfl rfl) hopens hopened hfunds (Same.refl.withCalls _) ?_
    exact (List.Perm.of_eq (pending_append (t := s.paidFor f.debit) _ rfl)).trans List.perm_append_comm

/-- What the next item of a batch comes to: nothing new, or a payout that is paid. -/
inductive ItemStarted (W : Wire Body) (s : Sim Body) (b : Batch Body) : Sim Body × Option (Call Body) → Prop
  | none {s' : Sim Body} (h : Same s s') (hcalls : s'.calls = s.calls) : ItemStarted W s b (s', none)
  | some {s' : Sim Body} (c : Call Body) (h : Same s s') (hcalls : s'.calls = s.calls) (hpaid : c.paid = [])
      (hrace : c.isRacing = false) : ItemStarted W s b (s', some c)
  | paid (f : Frame) (b' : Batch Body) (hopens : s.openedItem W b = .some f) (hopened : Opened W s f)
      (hfunds : (f.debit.amount : Int) ≤ s.balance f.debit.cred) :
      ItemStarted W s b (s.paidFor f.debit, .some (.debiting f .paid (.some b')))

theorem nextItem_started (hrace : s.config.raceBug = false) (b : Batch Body) : ItemStarted W s b (s.nextItem W b) := by
  unfold nextItem
  cases hrest : b.rest with
  | nil => exact .none (Same.refl.bumpSeq.trans ⟨rfl, rfl, le_rfl, rfl, rfl, rfl, rfl, rfl, rfl, rfl, fun _ => ⟨rfl, rfl, rfl⟩⟩) rfl
  | cons item rest =>
    have hopens : s.openedItem W b = paidFrame (s.beginPayout W b.cred item.body) := by
      simp [openedItem, hrest]
    simp only
    generalize hbegun : s.beginPayout W b.cred item.body = begun at hopens
    cases hbegun ▸ beginPayout_started (W := W) hrace b.cred item.body with
    | error e =>
      cases e with
      | sim e => exact .some _ .refl rfl rfl rfl
      | crash message => exact .none .refl rfl
    | replies tx => exact .some _ .refl rfl rfl rfl
    | refused f hsame hcalls => exact .some _ hsame hcalls rfl rfl
    | paid f hopened hfunds => exact .paid f _ hopens hopened hfunds

theorem beginBatch_trans (hrace : s.NoRace) (cred : String) (body : Body) :
    Trans W s (.createPayoutBatch cred body) (s.beginBatch W cred body) := by
  have hopens : s.opens W (.createPayoutBatch cred body) =
      match s.batchRequest W cred body with
      | .ok (.inr b) => s.openedItem W b
      | _ => none := rfl
  unfold beginBatch
  split
  · exact .quiet _ hrace.calm .refl (.refl _)
  · exact .quiet _ hrace.calm .refl (.refl _)
  · next b h =>
    rw [h] at hopens
    generalize hitem : s.nextItem W b = item
    cases hitem ▸ nextItem_started (W := W) hrace.config b with
    | none hsame hcalls =>
      exact .quiet _ (by rw [Calm, hcalls]; exact hrace.calm) hsame (.of_eq (by rw [pending, hcalls, pending]))
    | some c hsame hcalls hpaid hc =>
      exact .quiet _ (hrace.calm.append hc hcalls) (hsame.withCalls _)
        (.of_eq (by rw [pending_append c hcalls, hpaid, List.append_nil]))
    | paid f b' hopen hopened hfunds =>
      refine .start _ f (hrace.calm.append rfl rfl) (hopens.trans hopen) hopened hfunds (Same.refl.withCalls _) ?_
      exact (List.Perm.of_eq (pending_append (t := s.paidFor f.debit) _ rfl)).trans List.perm_append_comm

theorem beginUtility_trans (hrace : s.NoRace) (cred : String) (body : Body) :
    Trans W s (.createUtilityPurchase cred body) (s.beginUtility W cred body) := by
  have hopens : s.opens W (.createUtilityPurchase cred body) =
      match s.utilityRequest W cred body with
      | .ok (.inr (r, amount)) =>
        if r.funding.type = .wallet then paidFrame (.ok (s.await (s.utilityFrame cred r amount (W.hashOf body)))) else none
      | _ => none := rfl
  unfold beginUtility
  split
  · exact .quiet _ hrace.calm .refl (.refl _)
  · exact .quiet _ hrace.calm .refl (.refl _)
  · next r amount h =>
    rw [h] at hopens
    simp only at hopens ⊢
    split_ifs at hopens ⊢ with hfunding
    · exact (await_started hrace.config (.utility cred body r amount h hfunding)).trans hrace.calm hopens
    · exact .direct cred body r amount h hfunding

theorem Calm.set (h : s.Calm) {c : Call Body} (hc : c.isRacing = false) (i : Nat) (hcalls : t.calls = s.calls) :
    ({ t with calls := t.calls.set i c } : Sim Body).Calm := by
  intro c' hc'
  rcases List.mem_or_eq_of_mem_set hc' with hc' | rfl
  · exact h c' (hcalls ▸ hc')
  · exact hc

theorem Calm.erase (h : s.Calm) (i : Nat) (hcalls : t.calls = s.calls) :
    ({ t with calls := t.calls.eraseIdx i } : Sim Body).Calm := fun c' hc' =>
  h c' (hcalls ▸ List.mem_of_mem_eraseIdx hc')

/-- The call of a debit that has settled ends, or its batch goes on. -/
theorem settled_spec {i : Nat} {f : Frame} {batch : Option (Batch Body)} {state : DebitState} {result : Except SimError Tx}
    (hcalm : s.Calm) (h : s.calls[i]? = some (.debiting f state batch)) (hcalls : t.calls = s.calls) :
    (t.settled i batch result).Calm ∧ Same t (t.settled i batch result) ∧
      ((Call.debiting f state batch).paid ++ (t.settled i batch result).pending).Perm s.pending := by
  unfold settled
  cases batch with
  | none => exact ⟨hcalm.erase i hcalls, Same.refl.withCalls _, by simpa only [hcalls] using pending_erase h⟩
  | some b =>
    refine ⟨hcalm.set rfl i hcalls, Same.refl.withCalls _, ?_⟩
    have hperm := @pending_set _ _ t _ _ (.batching b result) h
    rwa [Call.paid_batching, List.nil_append, ← hcalls] at hperm

theorem finish_calls (f : Frame) : (s.finish f).2.calls = s.calls := by
  cases hf : f.create with
  | payout provider value payer =>
    simp only [finish, hf, finishPayout]
    split_ifs <;> rfl
  | utility =>
    simp only [finish, hf]
    rfl
  | transfer handle =>
    simp only [finish, hf]
    rfl

theorem resume_trans (hrace : s.NoRace) {i : Nat} (h : s.resume W i = some s') : Trans W s (.resume i) s' := by
  obtain ⟨c, hc, hs'⟩ := Option.map_eq_some_iff.1 h
  subst hs'
  cases c with
  | debiting f state batch =>
    rcases hrace.paid hc with rfl | rfl
    · obtain ⟨hcalm, hsame, hperm⟩ := @settled_spec _ _ (s.finish f).2 _ _ _ _ (.ok (s.finish f).1) hrace.calm hc
        (finish_calls f)
      exact .finish i f hcalm hsame hperm.symm
    · obtain ⟨hcalm, hsame, hperm⟩ := @settled_spec _ _ s _ _ _ _ (.error insufficient) hrace.calm hc rfl
      exact .quiet _ hcalm hsame hperm
  | batching b last =>
    have hopens : s.opens W (.resume i) = s.openedItem W b := by
      simp only [opens, hc]
    simp only
    generalize hitem : s.nextItem W { b with done := b.done ++ [(b.current, last)] } = item
    cases hitem ▸ nextItem_started (W := W) hrace.config { b with done := b.done ++ [(b.current, last)] } with
    | none hsame hcalls =>
      refine .quiet _ (hrace.calm.erase i hcalls) (hsame.withCalls _) ?_
      simp only [hcalls]
      exact pending_erase hc
    | some c hsame hcalls hpaid hcRace =>
      refine .quiet _ (hrace.calm.set hcRace i hcalls) (hsame.withCalls _) ?_
      have hperm := @pending_set _ _ s _ _ c hc
      rw [hpaid] at hperm
      simp only [hcalls]
      exact hperm
    | paid f b' hopen hopened hfunds =>
      exact .start _ f (hrace.calm.set rfl i rfl) (hopens.trans hopen) hopened hfunds (Same.refl.withCalls _)
        (pending_set hc)

theorem putPolicy_same (body : Body) : (s.putPolicy W body).2.calls = s.calls ∧ Same s (s.putPolicy W body).2 := by
  unfold putPolicy
  split
  · exact ⟨rfl, .refl⟩
  · simp only
    split_ifs
    · exact ⟨rfl, .refl⟩
    · exact ⟨rfl, rfl, rfl, le_rfl, rfl, rfl, rfl, rfl, rfl, rfl, rfl, fun _ => ⟨rfl, rfl, rfl⟩⟩

theorem NoRace.unchanged (hrace : s.NoRace) (l : Label Body) (h : s' = s) : Trans W s l s' := by
  rw [h]
  exact .quiet l hrace.calm .refl (.refl _)

theorem step_trans (hrace : s.NoRace) {l : Label Body} (h : s.step W l = some s') : Trans W s l s' := by
  cases l with
  | createCollection cred body =>
    cases h
    cases hreq : s.collectionRequest W cred body with
    | error e => exact hrace.unchanged _ (by simp only [createCollection, hreq])
    | ok r =>
      cases r with
      | inl dup => exact hrace.unchanged _ (by simp only [createCollection, hreq])
      | inr p => exact .collect cred body p.1 p.2 hreq
  | createPayout cred body =>
    cases h
    exact (beginPayout_started hrace.config cred body).trans hrace.calm rfl
  | createPayoutBatch cred body =>
    cases h
    exact beginBatch_trans hrace cred body
  | createUtilityPurchase cred body =>
    cases h
    exact beginUtility_trans hrace cred body
  | createTransfer cred body =>
    cases h
    exact (beginTransfer_started hrace.config cred body).trans hrace.calm rfl
  | resume i => exact resume_trans hrace h
  | timer =>
    simp only [step, fireTimer] at h
    split at h
    · cases h
    · next t ts htimers =>
      obtain ⟨hdue, heq⟩ := Option.ite_none_right_eq_some.1 h
      obtain rfl := Option.some.inj heq
      exact .fire t ts htimers hdue
  | elapse ms =>
    cases h
    exact .elapse ms
  | settleNow cred body =>
    cases h
    cases hparse : parse (W.settleNow body) with
    | error e => exact hrace.unchanged _ (by simp only [settleNow, hparse])
    | ok r =>
      cases hpolicy : s.policy with
      | none => exact hrace.unchanged _ (by simp only [settleNow, hparse, hpolicy])
      | some policy =>
        cases hfind : s.settlementRuns.find? (fun x => x.reference = r.reference && x.cred = cred) with
        | none => exact .settle cred body r hparse (by rw [hpolicy]; rfl) hfind
        | some run => exact hrace.unchanged _ (by simp only [settleNow, hparse, hpolicy, hfind])
  | putPolicy body =>
    cases h
    obtain ⟨hcalls, hsame⟩ := putPolicy_same (W := W) (s := s) body
    exact .quiet _ (by rw [Calm, hcalls]; exact hrace.calm) hsame (.of_eq (by rw [pending, hcalls, pending]))
  | deletePolicy =>
    cases h
    exact .quiet _ hrace.calm ⟨rfl, rfl, le_rfl, rfl, rfl, rfl, rfl, rfl, rfl, rfl, fun _ => ⟨rfl, rfl, rfl⟩⟩ (.refl _)
  | setBalance cred amount =>
    cases h
    cases hamount : parseAmount amount with
    | none => exact hrace.unchanged _ (by simp only [setBalance, hamount])
    | some target => exact .setBalance cred amount target hamount
  | wallet cred =>
    cases h
    exact .quiet _ hrace.calm (.ensureWallet cred) (.refl _)
  | patchConfig config =>
    cases h
    exact .patchConfig config

/-! ### Registration -/

/-- The timers that a plan of delays and callbacks sets. -/
def schedule (now : Time) (plan : List (Nat × Callback)) (timers : List Timer) : List Timer :=
  plan.foldl (fun timers p => insertTimer ⟨now + timerDelay p.1, p.2⟩ timers) timers

/-- A transaction goes to the end of the heap and into the table; its effect and its volume are noted, and its timers
set. -/
structure Registers (s s' : Sim Body) (tx : Tx) (plan : List (Nat × Callback)) : Prop where
  config : s'.config = s.config
  now : s'.now = s.now
  seq : s.seq ≤ s'.seq
  heap : s'.heap = s.heap ++ [tx]
  txs : ∃ key, s'.txs = s.txs.set key s.heap.length ∧ key.kind = tx.kind ∧
    match s.config.idempotency with
    | .correct => key = tx.key
    | .broken => ∃ n, key.seq = some n ∧ s.seq < n ∧ n ≤ s'.seq
  effects : s'.effects = s.effects.set tx.key ((s.effects.get? tx.key).getD 0 + 1)
  runs : s'.settlementRuns = s.settlementRuns
  dailyOut : s'.dailyOut =
    if tx.kind = .collection then s.dailyOut else s.dailyOut.set tx.credential (s.volume tx.credential .out + tx.amount)
  timers : s'.timers = schedule s.now plan s.timers

theorem Registers.same {tx : Tx} {plan : List (Nat × Callback)} (h : Registers s t tx plan) (h' : Same t s') :
    Registers s s' tx plan where
  config := h'.config.trans h.config
  now := h'.now.trans h.now
  seq := h.seq.trans h'.seq
  heap := h'.heap.trans h.heap
  txs := by
    obtain ⟨key, htxs, hkind, hkey⟩ := h.txs
    refine ⟨key, h'.txs.trans htxs, hkind, ?_⟩
    split at hkey
    · exact hkey
    · obtain ⟨n, hn, hlt, hle⟩ := hkey
      exact ⟨n, hn, hlt, hle.trans h'.seq⟩
  effects := h'.effects.trans h.effects
  runs := h'.runs.trans h.runs
  dailyOut := h'.dailyOut.trans h.dailyOut
  timers := h'.timers.trans h.timers

/-- `register` itself, the volume and the timers apart. -/
theorem register_key (tx : Tx) : ∃ key, (s.register tx).txs = s.txs.set key s.heap.length ∧ key.kind = tx.kind ∧
    match s.config.idempotency with
    | .correct => key = tx.key
    | .broken => ∃ n, key.seq = some n ∧ s.seq < n ∧ n ≤ (s.register tx).seq := by
  unfold register
  cases s.config.idempotency with
  | correct => exact ⟨tx.key, rfl, rfl, rfl⟩
  | broken => exact ⟨_, rfl, rfl, s.seq + 1, rfl, Nat.lt_succ_self _, le_rfl⟩

theorem register_seq (tx : Tx) : s.seq ≤ (s.register tx).seq := by
  unfold register
  cases s.config.idempotency
  · exact le_rfl
  · exact Nat.le_succ _

/-- The plan of a collection. -/
def collectionPlan (s : Sim Body) (tx : Tx) (outcome : Outcome) : List (Nat × Callback) :=
  [(s.config.resolveDelayMs / 2, .collectionDispatched s.heap.length),
    (s.config.resolveDelayMs, .collectionFinal s.heap.length tx.credential tx.amount tx.fee outcome)]

def payoutPlan (s : Sim Body) (tx : Tx) (provider value : String) (payer : Nat) : List (Nat × Callback) :=
  if (s.config.payoutReviewThreshold.bind parseAmount).any (· ≤ tx.amount) then
    [(s.config.resolveDelayMs, .payoutInReview s.heap.length)]
  else
    [(s.config.resolveDelayMs / 2, .payoutDispatching s.heap.length),
      (s.config.resolveDelayMs, .payoutFinal s.heap.length tx.credential payer (s.config.resolveDelayMs / 2)
        (s.fixtureOutcome .payout provider value))]

def utilityPlan (s : Sim Body) (tx : Tx) : List (Nat × Callback) :=
  [(s.config.resolveDelayMs / 2, .utilityStarted s.heap.length tx.walletFunded),
    (s.config.resolveDelayMs, .utilityFinal s.heap.length tx.credential tx.amount tx.fee tx.walletFunded
      (s.config.resolveDelayMs / 2))]

/-- The plan of a create call that goes on. -/
def plan (s : Sim Body) (f : Frame) : List (Nat × Callback) :=
  match f.create with
  | .payout provider value payer => s.payoutPlan f.tx provider value payer
  | .utility => s.utilityPlan f.tx
  | .transfer _ => []

theorem Registers.of_bumpSeq {tx : Tx} {plan : List (Nat × Callback)} (h : Registers s.bumpSeq t tx plan) :
    Registers s t tx plan where
  config := h.config
  now := h.now
  seq := (Nat.le_succ _).trans h.seq
  heap := h.heap
  txs := by
    obtain ⟨key, htxs, hkind, hkey⟩ := h.txs
    refine ⟨key, htxs, hkind, ?_⟩
    rw [show s.bumpSeq.config = s.config from rfl] at hkey
    split at hkey
    · exact hkey
    · obtain ⟨n, hn, hlt, hle⟩ := hkey
      exact ⟨n, hn, (Nat.lt_succ_self _).trans hlt, hle⟩
  effects := h.effects
  runs := h.runs
  dailyOut := h.dailyOut
  timers := h.timers

theorem createCollection_registers {cred : String} {body : Body} {r : CollectionRequest} {amount : Nat}
    (h : s.collectionRequest W cred body = .ok (.inr (r, amount))) :
    Registers s (s.createCollection W cred body).2 (s.collectionTx cred r amount (W.hashOf body))
      (s.collectionPlan (s.collectionTx cred r amount (W.hashOf body))
        (s.fixtureOutcome .collection r.provider r.payer.value)) := by
  refine Registers.of_bumpSeq ?_
  simp only [createCollection, h]
  have hseq := register_seq (s := s.bumpSeq) (s.collectionTx cred r amount (W.hashOf body))
  have hkey := register_key (s := s.bumpSeq) (s.collectionTx cred r amount (W.hashOf body))
  exact ⟨rfl, rfl, hseq, rfl, hkey, rfl, rfl, rfl, rfl⟩

theorem finishPayout_registers {tx : Tx} (hkind : tx.kind ≠ .collection) (provider value : String) (payer : Nat) :
    Registers s (s.finishPayout tx provider value payer) tx (s.payoutPlan tx provider value payer) := by
  have hdaily : (if tx.kind = .collection then s.dailyOut else
      s.dailyOut.set tx.credential (s.volume tx.credential .out + tx.amount)) =
        s.dailyOut.set tx.credential (s.volume tx.credential .out + tx.amount) := if_neg hkind
  by_cases hreview : (s.config.payoutReviewThreshold.bind parseAmount).any (· ≤ tx.amount) = true
  · have heq : s.finishPayout tx provider value payer = (((s.register tx).noteVolume tx.credential tx.amount .out).emit
        tx.credential "payout.accepted" (.tx tx.id tx.view)).later s.config.resolveDelayMs (.payoutInReview s.heap.length) :=
      if_pos hreview
    rw [heq, payoutPlan, if_pos hreview]
    exact ⟨rfl, rfl, register_seq tx, rfl, register_key tx, rfl, rfl, hdaily.symm, rfl⟩
  · have heq : s.finishPayout tx provider value payer = (((((s.register tx).noteVolume tx.credential tx.amount .out).emit
        tx.credential "payout.accepted" (.tx tx.id tx.view)).ensureWallet tx.credential).later (s.config.resolveDelayMs / 2)
          (.payoutDispatching s.heap.length)).later s.config.resolveDelayMs (.payoutFinal s.heap.length tx.credential payer
            (s.config.resolveDelayMs / 2) (s.fixtureOutcome .payout provider value)) := if_neg hreview
    rw [heq, payoutPlan, if_neg hreview]
    exact ⟨rfl, rfl, register_seq tx, rfl, register_key tx, rfl, rfl, hdaily.symm, rfl⟩

theorem finishUtility_registers {tx : Tx} (hkind : tx.kind ≠ .collection) :
    Registers s (s.finishUtility tx) tx (s.utilityPlan tx) :=
  ⟨rfl, rfl, register_seq tx, rfl, register_key tx, rfl, rfl, (if_neg hkind).symm, rfl⟩

theorem finishTransfer_registers {tx : Tx} (hkind : tx.kind ≠ .collection) (handle : String) :
    Registers s (s.finishTransfer tx handle) { tx with status := .completed, completedAt := some s.now } [] where
  config := rfl
  now := rfl
  seq := (Nat.le_succ _).trans (register_seq (s := s.credit handle tx.amount tx.reference .transferIn) tx)
  heap := by
    show (s.heap ++ [tx]).modify s.heap.length _ = _
    rw [List.modify_append_last]
  txs := by
    obtain ⟨key, htxs, hkey⟩ := register_key (s := s.credit handle tx.amount tx.reference .transferIn) tx
    refine ⟨key, htxs, hkey.1, ?_⟩
    have hkey := hkey.2
    rw [show (s.credit handle tx.amount tx.reference .transferIn).config = s.config from rfl] at hkey
    split at hkey
    · exact hkey
    · obtain ⟨n, hn, hlt, hle⟩ := hkey
      exact ⟨n, hn, (Nat.lt_succ_self _).trans hlt, hle⟩
  effects := rfl
  runs := rfl
  dailyOut := (if_neg hkind).symm
  timers := rfl

/-- A create call that goes on registers the transaction that it replies with. -/
theorem finish_registers {f : Frame} (hkind : f.tx.kind ≠ .collection) :
    Registers s (s.finish f).2 (s.finish f).1 (s.plan f) := by
  cases hf : f.create with
  | payout provider value payer =>
    simp only [finish, plan, hf]
    exact finishPayout_registers hkind provider value payer
  | utility =>
    simp only [finish, plan, hf]
    exact finishUtility_registers hkind
  | transfer handle =>
    simp only [finish, plan, hf]
    exact finishTransfer_registers hkind handle

/-! ### Timers -/

end Sim

/-- What `setStatus` makes of a transaction. -/
def Tx.withStatus (now : Time) (status : TxStatus) (final : Bool) (failureReason : Option String) (t : Tx) : Tx :=
  { t with
    status
    failureReason := failureReason <|> t.failureReason
    completedAt := if final then some now else t.completedAt }

namespace Callback

/-- What a callback makes of its transaction. -/
def apply (config : SimConfig) (now : Time) : Callback → Tx → Tx
  | collectionDispatched _ => Tx.withStatus now .dispatched false none
  | collectionFinal _ _ _ _ outcome => fun t =>
    if outcome = .ok then { t with settlementStatus := some .eligible }.withStatus now .settled true none
    else t.withStatus now .failed true (some (if outcome = .wrongPin then "wrong_pin" else "declined"))
  | payoutInReview _ => Tx.withStatus now .inReview false none
  | payoutDispatching _ => Tx.withStatus now .dispatching false none
  | payoutFinal _ _ _ _ outcome =>
    if outcome = .ok then Tx.withStatus now .delivered true none else Tx.withStatus now .failed false (some "declined")
  | payoutRefund .. => Tx.withStatus now .refunded true none
  | utilityStarted _ walletFunded =>
    Tx.withStatus now (if walletFunded then .vending else .awaitingPayment) false none
  | utilityFinal .. =>
    match config.otherNumbers with
    | .succeed => Tx.withStatus now .delivered true none
    | .fail => Tx.withStatus now .failed false (some "vend_failed")
  | utilityRefund .. => Tx.withStatus now .refunded true none

/-- The timer that a callback sets. -/
def next (config : SimConfig) : Callback → List (Nat × Callback)
  | payoutFinal tx cred payer half outcome => if outcome = .ok then [] else [(max 1 half, payoutRefund tx cred payer)]
  | utilityFinal tx cred amount fee walletFunded half =>
    match config.otherNumbers with
    | .succeed => []
    | .fail => if walletFunded then [(max 1 half, utilityRefund tx cred amount fee)] else []
  | _ => []

end Callback

namespace Sim

variable {s s' : Sim Body}

/-- A callback changes its transaction and sets the timer it needs; wallets and ledger are not looked at. -/
structure Fires (s s' : Sim Body) (cb : Callback) : Prop where
  config : s'.config = s.config
  now : s'.now = s.now
  seq : s.seq ≤ s'.seq
  heap : s'.heap = s.heap.modify cb.tx (cb.apply s.config s.now)
  txs : s'.txs = s.txs
  effects : s'.effects = s.effects
  runs : s'.settlementRuns = s.settlementRuns
  dailyOut : s'.dailyOut = s.dailyOut
  timers : s'.timers = schedule s.now (cb.next s.config) s.timers
  calls : s'.calls = s.calls

theorem setStatus_eq (i : Nat) (status : TxStatus) (type : String) (final : Bool) (reason : Option String) :
    ∃ events, s.setStatus i status type final reason =
      { s with heap := s.heap.modify i (Tx.withStatus s.now status final reason), events } := by
  unfold setStatus emitTx
  split
  · exact ⟨_, rfl⟩
  · exact ⟨_, rfl⟩

theorem fireCallback_fires (cb : Callback) : Fires s (s.fireCallback cb) cb := by
  cases cb with
  | collectionDispatched tx =>
    obtain ⟨events, h⟩ := setStatus_eq (s := s) tx .dispatched "collection.status_changed" false none
    rw [fireCallback, h]
    exact ⟨rfl, rfl, le_rfl, rfl, rfl, rfl, rfl, rfl, rfl, rfl⟩
  | collectionFinal tx cred amount fee outcome =>
    by_cases hok : outcome = .ok
    · subst hok
      cases ht : s.heap[tx]? with
      | none =>
        obtain ⟨events, h⟩ := setStatus_eq (s := s) tx .failed "collection.status_changed" true (some "declined")
        have hmodify (f : Tx → Tx) : s.heap.modify tx f = s.heap := List.modify_eq_self (List.getElem?_eq_none_iff.1 ht)
        simp only [fireCallback, ht]
        rw [show (if (Outcome.ok = Outcome.wrongPin) then "wrong_pin" else "declined") = "declined" from rfl, h]
        refine ⟨rfl, rfl, le_rfl, ?_, rfl, rfl, rfl, rfl, rfl, rfl⟩
        exact (hmodify _).trans (hmodify _).symm
      | some t =>
        obtain ⟨events, h⟩ := setStatus_eq (s := (s.credit cred (applyFee amount fee t.feeBearer).recipientAmount
          t.reference .collection).update tx fun t => { t with settlementStatus := some .eligible }) tx .settled
            "collection.status_changed" true none
        simp only [fireCallback, ht]
        rw [h]
        exact ⟨rfl, rfl, Nat.le_succ _, List.modify_modify_eq .., rfl, rfl, rfl, rfl, rfl, rfl⟩
    · have hfire : s.fireCallback (.collectionFinal tx cred amount fee outcome) = s.setStatus tx .failed
          "collection.status_changed" true (some (if outcome = .wrongPin then "wrong_pin" else "declined")) := by
        cases outcome with
        | ok => exact absurd rfl hok
        | fail | failRefund | wrongPin => cases ht : s.heap[tx]? <;> simp only [fireCallback, ht]
      obtain ⟨events, h⟩ := setStatus_eq (s := s) tx .failed "collection.status_changed" true
        (some (if outcome = .wrongPin then "wrong_pin" else "declined"))
      have happly : (Callback.collectionFinal tx cred amount fee outcome).apply s.config s.now =
          Tx.withStatus s.now .failed true (some (if outcome = .wrongPin then "wrong_pin" else "declined")) :=
        funext fun t => if_neg hok
      rw [hfire, h]
      exact ⟨rfl, rfl, le_rfl, by rw [happly]; rfl, rfl, rfl, rfl, rfl, rfl, rfl⟩
  | payoutInReview tx =>
    obtain ⟨events, h⟩ := setStatus_eq (s := s) tx .inReview "payout.status_changed" false none
    rw [fireCallback, h]
    exact ⟨rfl, rfl, le_rfl, rfl, rfl, rfl, rfl, rfl, rfl, rfl⟩
  | payoutDispatching tx =>
    obtain ⟨events, h⟩ := setStatus_eq (s := s) tx .dispatching "payout.status_changed" false none
    rw [fireCallback, h]
    exact ⟨rfl, rfl, le_rfl, rfl, rfl, rfl, rfl, rfl, rfl, rfl⟩
  | payoutFinal tx cred payer half outcome =>
    by_cases hok : outcome = .ok
    · obtain ⟨events, h⟩ := setStatus_eq (s := s.release cred payer) tx .delivered "payout.status_changed" true none
      have happly : (Callback.payoutFinal tx cred payer half outcome).apply s.config s.now =
          Tx.withStatus s.now .delivered true none := if_pos hok
      have hnext : (Callback.payoutFinal tx cred payer half outcome).next s.config = [] := if_pos hok
      rw [fireCallback, if_pos hok, h]
      exact ⟨rfl, rfl, le_rfl, by rw [happly]; rfl, rfl, rfl, rfl, rfl, by rw [hnext]; rfl, rfl⟩
    · obtain ⟨events, h⟩ := setStatus_eq (s := s) tx .failed "payout.status_changed" false (some "declined")
      have happly : (Callback.payoutFinal tx cred payer half outcome).apply s.config s.now =
          Tx.withStatus s.now .failed false (some "declined") := if_neg hok
      have hnext : (Callback.payoutFinal tx cred payer half outcome).next s.config =
          [(max 1 half, .payoutRefund tx cred payer)] := if_neg hok
      rw [fireCallback, if_neg hok, h]
      exact ⟨rfl, rfl, le_rfl, by rw [happly]; rfl, rfl, rfl, rfl, rfl, by rw [hnext]; rfl, rfl⟩
  | payoutRefund tx cred payer =>
    obtain ⟨events, h⟩ := setStatus_eq (s := (s.release cred payer).credit cred payer
      ((s.heap[tx]?.map (·.reference)).getD "") .payoutRefund) tx .refunded "payout.status_changed" true none
    rw [fireCallback, h]
    exact ⟨rfl, rfl, Nat.le_succ _, rfl, rfl, rfl, rfl, rfl, rfl, rfl⟩
  | utilityStarted tx walletFunded =>
    obtain ⟨events, h⟩ := setStatus_eq (s := s) tx (if walletFunded then .vending else .awaitingPayment)
      "utility_purchase.status_changed" false none
    rw [fireCallback, h]
    exact ⟨rfl, rfl, le_rfl, rfl, rfl, rfl, rfl, rfl, rfl, rfl⟩
  | utilityFinal tx cred amount fee walletFunded half =>
    simp only [fireCallback]
    cases hother : s.config.otherNumbers with
    | succeed =>
      have hnext : (Callback.utilityFinal tx cred amount fee walletFunded half).next s.config = [] := by
        simp only [Callback.next, hother]
      have happly : (Callback.utilityFinal tx cred amount fee walletFunded half).apply s.config s.now =
          Tx.withStatus s.now .delivered true none := by
        simp only [Callback.apply, hother]
      simp only
      cases walletFunded with
      | false =>
        obtain ⟨events, h⟩ := setStatus_eq (s := { s with utilityDeliveries := s.utilityDeliveries + 1 }) tx .delivered
          "utility_purchase.status_changed" true none
        rw [if_neg (by decide), h]
        exact ⟨rfl, rfl, le_rfl, by rw [happly]; rfl, rfl, rfl, rfl, rfl, by rw [hnext]; rfl, rfl⟩
      | true =>
        obtain ⟨events, h⟩ := setStatus_eq
          (s := { s.release cred (amount + fee) with utilityDeliveries := (s.release cred (amount + fee)).utilityDeliveries + 1 })
            tx .delivered "utility_purchase.status_changed" true none
        rw [if_pos rfl, h]
        exact ⟨rfl, rfl, le_rfl, by rw [happly]; rfl, rfl, rfl, rfl, rfl, by rw [hnext]; rfl, rfl⟩
    | fail =>
      have happly : (Callback.utilityFinal tx cred amount fee walletFunded half).apply s.config s.now =
          Tx.withStatus s.now .failed false (some "vend_failed") := by
        simp only [Callback.apply, hother]
      obtain ⟨events, h⟩ := setStatus_eq (s := s) tx .failed "utility_purchase.status_changed" false (some "vend_failed")
      simp only
      rw [h]
      cases walletFunded with
      | false =>
        have hnext : (Callback.utilityFinal tx cred amount fee false half).next s.config = [] := by
          simp only [Callback.next, hother]
          rfl
        rw [if_neg (by decide)]
        exact ⟨rfl, rfl, le_rfl, by rw [happly]; rfl, rfl, rfl, rfl, rfl, by rw [hnext]; rfl, rfl⟩
      | true =>
        have hnext : (Callback.utilityFinal tx cred amount fee true half).next s.config =
            [(max 1 half, .utilityRefund tx cred amount fee)] := by
          simp only [Callback.next, hother]
          rfl
        rw [if_pos rfl]
        exact ⟨rfl, rfl, le_rfl, by rw [happly]; rfl, rfl, rfl, rfl, rfl, by rw [hnext]; rfl, rfl⟩
  | utilityRefund tx cred amount fee =>
    obtain ⟨events, h⟩ := setStatus_eq (s := (s.release cred (amount + fee)).credit cred (amount + fee)
      ((s.heap[tx]?.map (·.reference)).getD "") .utilityRefund) tx .refunded "utility_purchase.status_changed" true none
    rw [fireCallback, h]
    exact ⟨rfl, rfl, Nat.le_succ _, rfl, rfl, rfl, rfl, rfl, rfl, rfl⟩

end Sim

end Simulator

end CronMonitor
