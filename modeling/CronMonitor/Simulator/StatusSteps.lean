import CronMonitor.Simulator.AccountSteps

/-!
# What a step does to the transactions and tells of them

`Moves` lists the ways in which a step other than a new configuration changes the transactions, the timers and the events
about transactions, whether the race window is open or not: nothing of them changes, a create call comes to its debit, a
transaction is registered, a callback fires, or a settlement run marks collections. Each registered or changed status is told with one event of the
transaction's credential; a transfer is told to its handle as well.
-/

namespace CronMonitor

namespace Simulator

variable {Body : Type}

/-- The frame of a call at its debit. -/
def Call.frames : Call Body → List Frame
  | .debiting f _ _ => [f]
  | .batching _ _ => []

/-- Whose event it is, the transaction that it tells of, and what it shows of it. -/
def SimEvent.tells (e : SimEvent) : Option (String × Nat × TxView) :=
  match e.data with
  | .tx tx view => some (e.cred, tx, view)
  | .run _ => none

/-- What a change of its status tells of a transaction. -/
def Tx.news (t : Tx) : String × Nat × TxView := (t.credential, t.id, t.viewFor)

/-- A create call whose transaction is as the server made it. -/
structure Frame.Plain (f : Frame) : Prop where
  reason : f.tx.failureReason = none
  dated : f.tx.completedAt = none
  create : match f.create with
    | .payout _ _ _ => f.tx.kind = .payout ∧ f.tx.status = .accepted
    | .utility => f.tx.kind = .utilityPurchase ∧ f.tx.status = .accepted ∧ f.tx.walletFunded = true
    | .transfer handle => f.tx.kind = .transfer ∧ f.tx.credential ≠ handle

theorem Frame.Plain.kind {f : Frame} (h : f.Plain) : f.tx.kind ≠ .collection := by
  have hcreate := h.create
  cases hf : f.create <;> rw [hf] at hcreate <;> simp [hcreate.1]

/-- The events that a create call emits when it goes on. -/
def Frame.told (f : Frame) (tx : Tx) : List (String × Nat × TxView) :=
  match f.create with
  | .payout _ _ _ => [(tx.credential, tx.id, tx.view)]
  | .utility => [(tx.credential, tx.id, tx.utilityView)]
  | .transfer handle => [(tx.credential, tx.id, tx.transferView), (handle, tx.id, tx.transferView)]

namespace Sim

variable {W : Wire Body} {s s' t : Sim Body}

def frames (s : Sim Body) : List Frame := s.calls.flatMap Call.frames

/-- The events about transactions. -/
def told (s : Sim Body) : List (String × Nat × TxView) := s.events.filterMap SimEvent.tells

/-- Transactions, timers and what is told of them are as they were. -/
structure Still (s s' : Sim Body) : Prop where
  config : s'.config = s.config
  heap : s'.heap = s.heap
  timers : s'.timers = s.timers
  told : s'.told = s.told
  seq : s.seq ≤ s'.seq

inductive Moves (s s' : Sim Body) : Prop
  | still (h : Still s s') (hframes : s'.frames.Subperm s.frames)
  | opens (f : Frame) (h : Still s s') (hid : f.tx.id = s.seq + 1) (hseq : s.seq + 1 ≤ s'.seq) (hplain : f.Plain)
      (hframes : s'.frames.Subperm (f :: s.frames))
  | collects (tx : Tx) (outcome : Outcome) (hid : tx.id = s.seq + 1) (hseq : s.seq + 1 ≤ s'.seq)
      (hkind : tx.kind = .collection) (hstatus : tx.status = .accepted) (hdated : tx.completedAt = none)
      (hreason : tx.failureReason = none) (h : Registers s s' tx (s.collectionPlan tx outcome))
      (htold : s'.told = s.told ++ [tx.news]) (hframes : s'.frames.Subperm s.frames)
  | buys (tx : Tx) (hid : tx.id = s.seq + 1) (hseq : s.seq + 1 ≤ s'.seq) (hkind : tx.kind = .utilityPurchase)
      (hstatus : tx.status = .accepted) (hdated : tx.completedAt = none) (hreason : tx.failureReason = none)
      (h : Registers s s' tx (s.utilityPlan tx)) (htold : s'.told = s.told ++ [tx.news])
      (hframes : s'.frames.Subperm s.frames)
  | finishes (f : Frame) (h : Registers s s' (s.finish f).1 (s.plan f))
      (htold : s'.told = s.told ++ f.told (s.finish f).1) (hframes : (f :: s'.frames).Subperm s.frames)
  | fires (t : Timer) (ts : List Timer) (h : s.timers = t :: ts) (hfires : Fires { s with timers := ts } s' t.callback)
      (htold : ∀ tx, s.heap[t.callback.tx]? = some tx → s'.told = s.told ++
        [(t.callback.apply s.config s.now tx).news]) (hframes : s'.frames = s.frames)
  | settles (cred reference : String) (h : Settles s s' cred reference) (htold : s'.told = s.told)

/-! ### Nothing moves -/

theorem Still.refl : Still s s := ⟨rfl, rfl, rfl, rfl, le_rfl⟩

theorem Still.trans (h : Still s t) (h' : Still t s') : Still s s' :=
  ⟨h'.config.trans h.config, h'.heap.trans h.heap, h'.timers.trans h.timers, h'.told.trans h.told, h.seq.trans h'.seq⟩

/-- What a debit does, before and after its race window. -/
theorem still_debit (d : Debit) : Still s (s.debit d).1 ∧ (s.debit d).1.calls = s.calls := by
  unfold debit
  simp only
  split_ifs
  · exact ⟨⟨rfl, rfl, rfl, rfl, le_rfl⟩, rfl⟩
  · exact ⟨⟨rfl, rfl, rfl, rfl, le_rfl⟩, rfl⟩
  · exact ⟨⟨rfl, rfl, rfl, rfl, Nat.le_succ _⟩, rfl⟩

theorem still_debitRaced (d : Debit) (seen : Int) : Still s (s.debitRaced d seen).1 ∧ (s.debitRaced d seen).1.calls = s.calls := by
  unfold debitRaced
  split_ifs
  · exact ⟨.refl, rfl⟩
  · exact ⟨⟨rfl, rfl, rfl, rfl, Nat.le_succ _⟩, rfl⟩

theorem Still.withCalls (h : Still s t) (calls : List (Call Body)) : Still s { t with calls } :=
  ⟨h.config, h.heap, h.timers, h.told, h.seq⟩

theorem subperm_frames (hcalls : t.calls = s.calls) : t.frames.Subperm s.frames := by
  rw [frames, hcalls]
  exact List.Subperm.refl _

theorem frames_append (c : Call Body) (hcalls : t.calls = s.calls) :
    ({ t with calls := t.calls ++ [c] } : Sim Body).frames = s.frames ++ c.frames := by
  simp [frames, List.flatMap_append, hcalls]

theorem frames_set {i : Nat} {c : Call Body} (c' : Call Body) (h : s.calls[i]? = some c) :
    (c.frames ++ ({ t with calls := s.calls.set i c' } : Sim Body).frames).Perm (c'.frames ++ s.frames) := by
  obtain ⟨hi, rfl⟩ := List.getElem?_eq_some_iff.1 h
  have hold := (List.getElem_cons_eraseIdx_perm hi).flatMap_right Call.frames
  have hnew := (List.set_perm_cons_eraseIdx hi c').flatMap_right Call.frames
  rw [List.flatMap_cons] at hold hnew
  have hswap : (s.calls[i].frames ++ (c'.frames ++ (s.calls.eraseIdx i).flatMap Call.frames)).Perm
      (c'.frames ++ (s.calls[i].frames ++ (s.calls.eraseIdx i).flatMap Call.frames)) := List.perm_append_comm_assoc ..
  exact (hnew.append_left _).trans (hswap.trans (hold.append_left _))

theorem frames_erase {i : Nat} {c : Call Body} (h : s.calls[i]? = some c) :
    (c.frames ++ ({ t with calls := s.calls.eraseIdx i } : Sim Body).frames).Perm s.frames := by
  obtain ⟨hi, rfl⟩ := List.getElem?_eq_some_iff.1 h
  exact (List.getElem_cons_eraseIdx_perm hi).flatMap_right Call.frames

/-! ### Create calls -/

/-- A create operation that comes to its debit has a plain frame with a new id. -/
inductive Awaited (s : Sim Body) : Except Thrown (Begun Body) → Prop
  | error (e : Thrown) : Awaited s (.error e)
  | replies (tx : Tx) : Awaited s (.ok (.replies tx))
  | awaits (f : Frame) (state : DebitState) {s' : Sim Body} (h : Still s s') (hcalls : s'.calls = s.calls)
      (hid : f.tx.id = s.seq + 1) (hseq : s.seq + 1 ≤ s'.seq) (hplain : f.Plain) : Awaited s (.ok (.awaits s' f state))

theorem await_awaited {f : Frame} (hid : f.tx.id = s.seq + 1) (hplain : f.Plain) : Awaited s (.ok (s.await f)) := by
  obtain ⟨hstill, hcalls⟩ := still_debit (s := s.bumpSeq) f.debit
  have hbump : Still s s.bumpSeq := ⟨rfl, rfl, rfl, rfl, Nat.le_succ _⟩
  exact .awaits f _ (hbump.trans hstill) hcalls hid hstill.seq hplain

/-- A business cannot pay its own handle. -/
theorem transferRequest_handle {cred : String} {body : Body} {r : TransferRequest} {amount : Nat}
    (h : s.transferRequest W cred body = .ok (.inr (r, amount))) : cred ≠ r.handle := by
  unfold transferRequest at h
  obtain ⟨r', -, h⟩ := bind_eq_ok h
  replace h := guard_ok h
  obtain ⟨amount', -, h⟩ := bind_eq_ok h
  by_cases hown : r'.handle = cred
  · rw [if_pos hown] at h
    cases h
  · rw [if_neg hown] at h
    replace h := guard_ok h
    obtain ⟨dup, -, h⟩ := bind_eq_ok h
    cases dup with
    | some tx => cases h
    | none =>
      obtain ⟨-, -, h⟩ := bind_eq_ok h
      cases h
      exact fun heq => hown heq.symm

theorem Opened.plain (hmass : s.config.weak.massAssignment = false) {f : Frame} (h : Opened W s f) : f.Plain := by
  cases h with
  | payout cred body r amount h =>
    exact ⟨by simp [payoutFrame, payoutTx, hmass, newTx], by simp [payoutFrame, payoutTx, hmass, newTx],
      by simp [payoutFrame, payoutTx, hmass, newTx]⟩
  | utility cred body r amount h hfunding =>
    exact ⟨rfl, rfl, rfl, rfl, by simp [utilityFrame, utilityTx, Tx.walletFunded, hfunding]⟩
  | transfer cred body r amount h => exact ⟨rfl, rfl, rfl, transferRequest_handle h⟩

theorem Opened.id (hmass : s.config.weak.massAssignment = false) {f : Frame} (h : Opened W s f) :
    f.tx.id = s.seq + 1 := by
  cases h with
  | payout cred body r amount h => simp [payoutFrame, payoutTx, hmass, newTx]
  | utility cred body r amount h hfunding => rfl
  | transfer cred body r amount h => rfl

section Create

variable (hmass : s.config.weak.massAssignment = false) (cred : String) (body : Body)
include hmass

theorem beginPayout_awaited : Awaited s (s.beginPayout W cred body) := by
  unfold beginPayout
  cases h : s.payoutRequest W cred body with
  | error e => exact .error e
  | ok r =>
    rcases r with dup | ⟨r, amount⟩
    · exact .replies dup
    · have hopened : Opened W s (s.payoutFrame W cred r amount body) := .payout cred body r amount h
      exact await_awaited (hopened.id hmass) (hopened.plain hmass)

theorem beginTransfer_awaited : Awaited s (s.beginTransfer W cred body) := by
  unfold beginTransfer
  cases h : s.transferRequest W cred body with
  | error e => exact .error e
  | ok r =>
    rcases r with dup | ⟨r, amount⟩
    · exact .replies dup
    · have hopened : Opened W s (s.transferFrame cred r amount (W.hashOf body)) := .transfer cred body r amount h
      exact await_awaited (hopened.id hmass) (hopened.plain hmass)

end Create

/-- A create call of its own. -/
theorem Awaited.moves {begun : Except Thrown (Begun Body)} (h : Awaited s begun) : Moves s (s.started begun) := by
  cases h with
  | error e => exact .still .refl (List.Subperm.refl _)
  | replies tx => exact .still .refl (List.Subperm.refl _)
  | awaits f state h hcalls hid hseq hplain =>
    refine .opens f (h.withCalls _) hid hseq hplain ?_
    have hframes := frames_append (.debiting f state none) hcalls
    rw [started, hframes]
    exact (@List.perm_append_comm _ s.frames _).subperm

theorem collects_moves {cred : String} {body : Body} {r : CollectionRequest} {amount : Nat}
    (h : s.collectionRequest W cred body = .ok (.inr (r, amount))) : Moves s (s.createCollection W cred body).2 := by
  refine .collects _ _ rfl ?_ rfl rfl rfl rfl (createCollection_registers h) ?_ ?_
  · simp only [createCollection, h]
    exact register_seq (s := s.bumpSeq) (s.collectionTx cred r amount (W.hashOf body))
  · simp only [createCollection, h]
    exact List.filterMap_append
  · simp only [createCollection, h]
    exact List.Subperm.refl _

theorem buys_moves {cred : String} {body : Body} {r : UtilityPurchaseRequest} {amount : Nat} :
    Moves s (s.bumpSeq.finishUtility (s.utilityTx cred r amount (W.hashOf body))) := by
  have hkind : (s.utilityTx cred r amount (W.hashOf body)).kind ≠ .collection := by simp [utilityTx, newTx]
  have hreg : Registers s.bumpSeq _ _ _ := finishUtility_registers hkind
  refine .buys _ rfl hreg.seq rfl rfl rfl rfl (.of_bumpSeq hreg) ?_ (List.Subperm.refl _)
  exact List.filterMap_append

/-! ### Batches -/

/-- The next item of a batch, or its end. -/
inductive ItemAwaited (s : Sim Body) : Sim Body × Option (Call Body) → Prop
  | none {s' : Sim Body} (h : Still s s') (hcalls : s'.calls = s.calls) : ItemAwaited s (s', none)
  | goes (b : Batch Body) (last : Except SimError Tx) : ItemAwaited s (s, some (.batching b last))
  | awaits (f : Frame) (state : DebitState) (b : Option (Batch Body)) {s' : Sim Body} (h : Still s s')
      (hcalls : s'.calls = s.calls) (hid : f.tx.id = s.seq + 1) (hseq : s.seq + 1 ≤ s'.seq) (hplain : f.Plain) :
      ItemAwaited s (s', some (.debiting f state b))

theorem nextItem_awaited (hmass : s.config.weak.massAssignment = false) (b : Batch Body) : ItemAwaited s (s.nextItem W b) := by
  unfold nextItem
  cases hrest : b.rest with
  | nil => exact .none ⟨rfl, rfl, rfl, rfl, Nat.le_succ _⟩ rfl
  | cons item rest =>
    have hbegun := beginPayout_awaited (W := W) hmass b.cred item.body
    simp only
    generalize s.beginPayout W b.cred item.body = begun at hbegun
    cases hbegun with
    | error e =>
      cases e with
      | sim e => exact .goes _ _
      | crash message => exact .none .refl rfl
    | replies tx => exact .goes _ _
    | awaits f state h hcalls hid hseq hplain => exact .awaits f state _ h hcalls hid hseq hplain

theorem beginBatch_moves (hmass : s.config.weak.massAssignment = false) (cred : String) (body : Body) :
    Moves s (s.beginBatch W cred body) := by
  unfold beginBatch
  split
  · exact .still .refl (List.Subperm.refl _)
  · exact .still .refl (List.Subperm.refl _)
  · next b h =>
    have hitem := nextItem_awaited (W := W) hmass b
    generalize s.nextItem W b = item at hitem
    cases hitem with
    | none h hcalls => exact .still h (subperm_frames hcalls)
    | goes b last =>
      refine .still (Still.refl.withCalls _) ?_
      rw [frames_append (.batching b last) rfl]
      simp only [Call.frames, List.append_nil]
      exact List.Subperm.refl _
    | awaits f state b h hcalls hid hseq hplain =>
      refine .opens f (h.withCalls _) hid hseq hplain ?_
      rw [frames_append (.debiting f state b) hcalls]
      exact (@List.perm_append_comm _ s.frames _).subperm

/-! ### Calls that go on -/

theorem settled_moves {i : Nat} {f : Frame} {state : DebitState} {batch : Option (Batch Body)}
    (h : s.calls[i]? = some (.debiting f state batch)) (result : Except SimError Tx) :
    Still s (s.settled i batch result) ∧ (f :: (s.settled i batch result).frames).Perm s.frames := by
  unfold settled
  cases batch with
  | none => exact ⟨Still.refl.withCalls _, frames_erase h⟩
  | some b => exact ⟨Still.refl.withCalls _, frames_set (.batching b result) h⟩

theorem finish_told (f : Frame) : (s.finish f).2.told = s.told ++ f.told (s.finish f).1 := by
  cases hf : f.create with
  | payout provider value payer =>
    simp only [finish, Frame.told, hf, finishPayout]
    split_ifs <;> exact List.filterMap_append
  | utility =>
    simp only [finish, Frame.told, hf]
    exact List.filterMap_append
  | transfer handle =>
    simp only [finish, Frame.told, hf]
    have hfirst : (s.finishTransfer f.tx handle).events = s.events ++ [_, _] := List.append_assoc ..
    rw [told, hfirst]
    exact List.filterMap_append

theorem resume_moves (hmass : s.config.weak.massAssignment = false) (hplain : ∀ f ∈ s.frames, f.Plain) {i : Nat}
    (h : s.resume W i = some s') : Moves s s' := by
  obtain ⟨c, hc, hs'⟩ := Option.map_eq_some_iff.1 h
  subst hs'
  cases c with
  | debiting f state batch =>
    cases state with
    | racing seen =>
      obtain ⟨hstill, hcalls⟩ := still_debitRaced (s := s) f.debit seen
      refine .still (hstill.withCalls _) ?_
      simp only [hcalls]
      have hperm := @frames_set _ _ (s.debitRaced f.debit seen).1 _ _
        (.debiting f (s.debitRaced f.debit seen).2 batch) hc
      exact ((List.perm_append_left_iff [f]).1 hperm).subperm
    | paid =>
      have hf : f ∈ s.frames := List.mem_flatMap.2 ⟨_, List.mem_of_getElem? hc, List.mem_singleton_self f⟩
      have hreg : Registers s (s.finish f).2 (s.finish f).1 (s.plan f) := finish_registers (hplain f hf).kind
      have hcalls : (s.finish f).2.calls[i]? = some (.debiting f .paid batch) := (finish_calls f).symm ▸ hc
      obtain ⟨hstill, hperm⟩ := settled_moves hcalls (.ok (s.finish f).1)
      have hsame : Same (s.finish f).2 ((s.finish f).2.settled i batch (.ok (s.finish f).1)) := by
        unfold settled
        cases batch <;> exact Same.refl.withCalls _
      refine .finishes f (hreg.same hsame) (hstill.told.trans (finish_told f)) ?_
      rw [frames, frames, finish_calls] at hperm
      exact hperm.subperm
    | refused =>
      obtain ⟨hstill, hperm⟩ := settled_moves hc (.error insufficient)
      exact .still hstill ((List.sublist_cons_self f _).subperm.trans hperm.subperm)
  | batching b last =>
    simp only
    have hitem := nextItem_awaited (W := W) hmass { b with done := b.done ++ [(b.current, last)] }
    generalize s.nextItem W { b with done := b.done ++ [(b.current, last)] } = item at hitem
    cases hitem with
    | none h hcalls =>
      refine .still (h.withCalls _) ?_
      simp only [hcalls]
      exact (frames_erase hc).subperm
    | goes b last =>
      refine .still (Still.refl.withCalls _) ?_
      exact (frames_set (.batching b last) hc).subperm
    | awaits f state b h hcalls hid hseq hplain =>
      refine .opens f (h.withCalls _) hid hseq hplain ?_
      simp only [hcalls]
      exact (frames_set (.debiting f state b) hc).subperm

/-! ### All steps -/

theorem beginUtility_moves (hmass : s.config.weak.massAssignment = false) (cred : String) (body : Body) :
    Moves s (s.beginUtility W cred body) := by
  unfold beginUtility
  split
  · exact .still .refl (List.Subperm.refl _)
  · exact .still .refl (List.Subperm.refl _)
  · next r amount h =>
    simp only
    split_ifs with hfunding
    · have hopened : Opened W s (s.utilityFrame cred r amount (W.hashOf body)) := .utility cred body r amount h hfunding
      exact (await_awaited (hopened.id hmass) (hopened.plain hmass)).moves
    · exact buys_moves

theorem setStatus_told {i : Nat} {t : Tx} (ht : s.heap[i]? = some t) (status : TxStatus) (type : String) (final : Bool)
    (reason : Option String) : (s.setStatus i status type final reason).told =
      s.told ++ [(t.withStatus s.now status final reason).news] := by
  have hget : (s.update i (Tx.withStatus s.now status final reason)).heap[i]? =
      some (t.withStatus s.now status final reason) := by
    simp [update, ht]
  have hset : s.setStatus i status type final reason =
      (s.update i (Tx.withStatus s.now status final reason)).emitTx i type := rfl
  rw [hset, emitTx, hget]
  exact List.filterMap_append

theorem fireCallback_told {cb : Callback} {t : Tx} (ht : s.heap[cb.tx]? = some t) :
    (s.fireCallback cb).told = s.told ++ [(cb.apply s.config s.now t).news] := by
  cases cb with
  | collectionDispatched tx => exact setStatus_told ht ..
  | collectionFinal tx cred amount fee outcome =>
    simp only [Callback.tx] at ht
    cases outcome with
    | ok =>
      simp only [fireCallback, ht, Callback.apply]
      have hget : ((s.credit cred (applyFee amount fee t.feeBearer).recipientAmount t.reference .collection).update tx
          fun t => { t with settlementStatus := some .eligible }).heap[tx]? =
            some { t with settlementStatus := some .eligible } := by
        simp [update, credit, post, putWallet, ht]
      exact setStatus_told hget ..
    | fail | failRefund | wrongPin =>
      simp only [fireCallback, ht, Callback.apply]
      exact setStatus_told ht ..
  | payoutInReview tx => exact setStatus_told ht ..
  | payoutDispatching tx => exact setStatus_told ht ..
  | payoutFinal tx cred payer half outcome =>
    simp only [fireCallback, Callback.apply]
    split_ifs
    · exact setStatus_told (s := s.release cred payer) ht ..
    · exact setStatus_told ht ..
  | payoutRefund tx cred payer =>
    exact setStatus_told (s := (s.release cred payer).credit cred payer ((s.heap[tx]?.map (·.reference)).getD "")
      .payoutRefund) ht ..
  | utilityStarted tx walletFunded => exact setStatus_told ht ..
  | utilityFinal tx cred amount fee walletFunded half =>
    simp only [fireCallback, Callback.apply]
    cases s.config.otherNumbers with
    | succeed =>
      cases walletFunded with
      | false => exact setStatus_told (s := { s with utilityDeliveries := s.utilityDeliveries + 1 }) ht ..
      | true =>
        exact setStatus_told (s := { s.release cred (amount + fee) with
          utilityDeliveries := (s.release cred (amount + fee)).utilityDeliveries + 1 }) ht ..
    | fail => cases walletFunded <;> exact setStatus_told ht ..
  | utilityRefund tx cred amount fee =>
    exact setStatus_told (s := (s.release cred (amount + fee)).credit cred (amount + fee)
      ((s.heap[tx]?.map (·.reference)).getD "") .utilityRefund) ht ..

theorem Moves.config (h : Moves s s') : s'.config = s.config := by
  cases h with
  | still h hframes => exact h.config
  | opens f h hid hseq hplain hframes => exact h.config
  | collects tx outcome hid hseq hkind hstatus hdated hreason h htold hframes => exact h.config
  | buys tx hid hseq hkind hstatus hdated hreason h htold hframes => exact h.config
  | finishes f h htold hframes => exact h.config
  | fires u ts h hfires htold hframes => exact hfires.config
  | settles cred reference h htold => exact h.config

theorem frames_of_calls (hcalls : s'.calls = s.calls) : s'.frames = s.frames := by
  rw [frames, hcalls, frames]

theorem foldl_update_told (f : Tx → Tx) (is : List Nat) : (is.foldl (fun s i => s.update i f) s).told = s.told := by
  induction is generalizing s with
  | nil => rfl
  | cons i is ih => exact ih

theorem settleNow_told (cred : String) (body : Body) : (s.settleNow W cred body).2.told = s.told := by
  unfold settleNow
  split
  · rfl
  · rfl
  · split
    · rfl
    · have hsettle : (s.settle cred).told = s.told := by
        unfold settle
        split_ifs
        · exact foldl_update_told _ _
        · rfl
      exact (List.filterMap_append).trans ((List.append_nil _).trans hsettle)

theorem setBalance_still (cred amount : String) :
    Still s (s.setBalance cred amount).2 ∧ (s.setBalance cred amount).2.calls = s.calls := by
  unfold setBalance
  split
  · exact ⟨.refl, rfl⟩
  · exact ⟨⟨rfl, rfl, rfl, rfl, Nat.le_succ _⟩, rfl⟩

theorem putPolicy_still (body : Body) :
    Still s (s.putPolicy W body).2 ∧ (s.putPolicy W body).2.calls = s.calls := by
  unfold putPolicy
  split
  · exact ⟨.refl, rfl⟩
  · simp only
    split_ifs <;> exact ⟨⟨rfl, rfl, rfl, rfl, le_rfl⟩, rfl⟩

theorem step_moves (hmass : s.config.weak.massAssignment = false) (hplain : ∀ f ∈ s.frames, f.Plain) {l : Label Body}
    (h : s.step W l = some s') (hl : ∀ config, l ≠ .patchConfig config) : Moves s s' := by
  have hquiet {t : Sim Body} (ht : t = s) : Moves s t := by
    rw [ht]
    exact .still .refl (List.Subperm.refl _)
  cases l with
  | createCollection cred body =>
    cases h
    cases hreq : s.collectionRequest W cred body with
    | error e => exact hquiet (by simp only [createCollection, hreq])
    | ok r =>
      rcases r with dup | ⟨r, amount⟩
      · exact hquiet (by simp only [createCollection, hreq])
      · exact collects_moves hreq
  | createPayout cred body =>
    cases h
    exact (beginPayout_awaited hmass cred body).moves
  | createPayoutBatch cred body =>
    cases h
    exact beginBatch_moves hmass cred body
  | createUtilityPurchase cred body =>
    cases h
    exact beginUtility_moves hmass cred body
  | createTransfer cred body =>
    cases h
    exact (beginTransfer_awaited hmass cred body).moves
  | resume i => exact resume_moves hmass hplain h
  | timer =>
    simp only [step, fireTimer] at h
    split at h
    · cases h
    · next u ts htimers =>
      obtain ⟨-, heq⟩ := Option.ite_none_right_eq_some.1 h
      obtain rfl := Option.some.inj heq
      have hfires := fireCallback_fires (s := { s with timers := ts }) u.callback
      exact .fires u ts htimers hfires (fun tx htx => fireCallback_told (s := { s with timers := ts }) htx)
        (frames_of_calls hfires.calls)
  | elapse ms =>
    cases h
    exact .still ⟨rfl, rfl, rfl, rfl, le_rfl⟩ (List.Subperm.refl _)
  | settleNow cred body =>
    cases h
    cases hparse : parse (W.settleNow body) with
    | error e => exact hquiet (by simp only [settleNow, hparse])
    | ok r =>
      cases hpolicy : s.policy with
      | none => exact hquiet (by simp only [settleNow, hparse, hpolicy])
      | some policy =>
        cases hfind : s.settlementRuns.find? (fun x => x.reference = r.reference && x.cred = cred) with
        | none =>
          exact .settles cred r.reference (settleNow_settles hparse (by rw [hpolicy]; rfl) hfind) (settleNow_told cred body)
        | some run => exact hquiet (by simp only [settleNow, hparse, hpolicy, hfind])
  | putPolicy body =>
    cases h
    obtain ⟨hstill, hcalls⟩ := putPolicy_still (W := W) (s := s) body
    exact .still hstill (subperm_frames hcalls)
  | deletePolicy =>
    cases h
    exact .still ⟨rfl, rfl, rfl, rfl, le_rfl⟩ (List.Subperm.refl _)
  | setBalance cred amount =>
    cases h
    obtain ⟨hstill, hcalls⟩ := setBalance_still (s := s) cred amount
    exact .still hstill (subperm_frames hcalls)
  | wallet cred =>
    cases h
    exact .still ⟨rfl, rfl, rfl, rfl, le_rfl⟩ (List.Subperm.refl _)
  | patchConfig config => exact absurd rfl (hl config)

end Sim

end Simulator

end CronMonitor
