import CronMonitor.Simulator.Ops
import CronMonitor.Lib.Walks

/-!
# `transactions` and `listEvents`: cursors

Both list what the simulator has in the order in which it came. The cursor of `transactions` is an offset into the
entries that pass the filter, the cursor of `listEvents` the id of the last event returned. An item is named by its
key in the table, or by its place among the events; how it is rendered is left out.
-/

namespace CronMonitor

namespace Simulator

open Runs Walks

def Kind.text : Kind → String
  | collection => "collection"
  | payout => "payout"
  | utilityPurchase => "utility_purchase"
  | transfer => "transfer"

def TxStatus.text : TxStatus → String
  | accepted => "accepted"
  | pending => "pending"
  | dispatched => "dispatched"
  | settled => "settled"
  | failed => "failed"
  | dispatching => "dispatching"
  | delivered => "delivered"
  | refunded => "refunded"
  | inReview => "in_review"
  | awaitingPayment => "awaiting_payment"
  | vending => "vending"
  | completed => "completed"
  | other text => text

/-- What `Number(Buffer.from(cursor, 'base64url').toString())` makes of a cursor. -/
inductive TxCursor
  | offset (n : Nat)
  /-- It is not an integer, or negative. -/
  | invalid
deriving DecidableEq, Repr

structure TxQuery where
  kind : Option String
  status : Option String
  limit : Nat

namespace TxQuery

/-- An empty parameter filters nothing. -/
def ofKind (q : TxQuery) (kind : Kind) : Bool :=
  match q.kind with
  | none => true
  | some k => k = "" || (if k = "utility" then kind = .utilityPurchase else k = kind.text)

def ofStatus (q : TxQuery) (status : TxStatus) : Bool :=
  match q.status with
  | none => true
  | some t => t = "" || status.text = t

def hasStatus (q : TxQuery) : Bool := q.status.getD "" ≠ ""

def selects (q : TxQuery) (cred : String) (t : Tx) : Bool :=
  decide (t.credential = cred) && q.ofKind t.kind && q.ofStatus t.status

theorem ofStatus_of_hasStatus {q : TxQuery} (h : q.hasStatus = false) (status : TxStatus) : q.ofStatus status = true := by
  unfold ofStatus
  cases hq : q.status with
  | none => rfl
  | some t =>
    have ht : t = "" := by simpa [hasStatus, hq] using h
    simp [ht]

end TxQuery

/-- `evt_` and the bytes drawn for the `n`-th event. -/
def eventId (random : Nat → String) (n : Nat) : String := "evt_" ++ random n

theorem eventId_ne_empty (random : Nat → String) (n : Nat) : eventId random n ≠ "" := by
  intro h
  have hlen := congrArg String.length h
  rw [eventId, String.length_append] at hlen
  exact absurd hlen (by simp)

theorem eventId_injective {random : Nat → String} (h : Function.Injective random) :
    Function.Injective (eventId random) := by
  intro m n hmn
  exact h (String.append_right_inj _ |>.1 hmn)

namespace Sim

variable {Body : Type}

/-- The entries of the table that pass the filter. -/
def matching (s : Sim Body) (cred : String) (q : TxQuery) : List (TxKey × Nat) :=
  s.txs.entries.filter fun e => s.heap[e.2]?.any (q.selects cred)

def transactions (s : Sim Body) (cred : String) (q : TxQuery) (cursor : Option TxCursor) :
    Except SimError (List (TxKey × Nat) × Option TxCursor) :=
  match cursor.getD (.offset 0) with
  | .invalid => .error ⟨.invalidInput, "cursor is invalid"⟩
  | .offset start =>
    .ok (((s.matching cred q).drop start).take q.limit,
      if start + q.limit < (s.matching cred q).length then some (.offset (start + q.limit)) else none)

/-- The events of a credential, each with its place among all events. -/
def eventsOf (s : Sim Body) (cred : String) : List (SimEvent × Nat) := s.events.zipIdx.filter fun e => e.1.cred = cred

/-- Where the page after an event starts. -/
def eventsFrom (s : Sim Body) (random : Nat → String) (cred : String) (after : Option String) : Option Nat :=
  if after.getD "" = "" then some 0
  else ((s.eventsOf cred).findIdx? fun e => eventId random e.2 = after.getD "").map (· + 1)

def listEvents (s : Sim Body) (random : Nat → String) (cred : String) (limit : Nat) (after : Option String) :
    Except SimError (List (SimEvent × Nat) × Option String) :=
  match s.eventsFrom random cred after with
  | none => .error ⟨.invalidInput, "after is not one of your events"⟩
  | some start =>
    let page := ((s.eventsOf cred).drop start).take limit
    .ok (page, if start + limit < (s.eventsOf cred).length then page.getLast?.map (eventId random ·.2) else none)

/-! ### What the table and the events keep -/

/-- Every entry of the table has a transaction of its own, of the kind and the credential that the key names. -/
structure Named (s : Sim Body) : Prop where
  named : ∀ e ∈ s.txs.entries, ∃ t, s.heap[e.2]? = some t ∧ t.kind = e.1.kind ∧ t.credential = e.1.credential
  nodup : s.txs.values.Nodup

/-- Keys and events are added at the end. A transaction that is there stays under its key, if it stays. -/
structure Grows (s s' : Sim Body) : Prop where
  heap : s.heap.length ≤ s'.heap.length
  keys : s.txs.keys <+: s'.txs.keys
  entries : ∀ e ∈ s'.txs.entries, e.2 < s.heap.length → e ∈ s.txs.entries
  table : s.Named → s'.Named
  events : s.events <+: s'.events

variable {s s' t : Sim Body} {W : Wire Body}

theorem init_named (config : SimConfig) (now : Time) : (Sim.init Body config now).Named :=
  ⟨fun _ he => absurd he (by simp [Sim.init, OrderedMap.empty]), List.nodup_nil⟩

theorem Grows.of_eq (hheap : s'.heap = s.heap) (htxs : s'.txs = s.txs) (hevents : s.events <+: s'.events) : Grows s s' where
  heap := by rw [hheap]
  keys := by rw [htxs]
  entries := fun e he _ => htxs ▸ he
  table := fun h => ⟨by rw [htxs, hheap]; exact h.named, by rw [htxs]; exact h.nodup⟩
  events := hevents

theorem Grows.refl : Grows s s := .of_eq rfl rfl List.prefix_rfl

theorem Grows.trans (h : Grows s s') (h' : Grows s' t) : Grows s t where
  heap := h.heap.trans h'.heap
  keys := h.keys.trans h'.keys
  entries := fun e he hlt => h.entries e (h'.entries e he (Nat.lt_of_lt_of_le hlt h.heap)) hlt
  table := fun htable => h'.table (h.table htable)
  events := h.events.trans h'.events

/-- A change of the calls alone. -/
theorem Grows.withCalls (h : Grows s t) (calls : List (Call Body)) : Grows s { t with calls } :=
  h.trans (.of_eq rfl rfl List.prefix_rfl)

theorem Grows.emit (cred type : String) (data : EventData) : Grows s (s.emit cred type data) :=
  .of_eq rfl rfl (List.prefix_append ..)

theorem Grows.pay (d : Debit) (balance : Int) : Grows s (s.pay d balance) := .of_eq rfl rfl List.prefix_rfl

theorem Grows.update {i : Nat} {f : Tx → Tx}
    (hf : ∀ t, s.heap[i]? = some t → (f t).kind = t.kind ∧ (f t).credential = t.credential) :
    Grows s (s.update i f) where
  heap := by simp [Sim.update]
  keys := List.prefix_rfl
  entries := fun e he _ => he
  table := fun h => by
    refine ⟨fun e he => ?_, h.nodup⟩
    obtain ⟨t, ht, hkind, hcred⟩ := h.named e he
    simp only [Sim.update, List.getElem?_modify, ht]
    by_cases hi : i = e.2
    · subst hi
      obtain ⟨hk, hc⟩ := hf t ht
      exact ⟨f t, by simp, hk.trans hkind, hc.trans hcred⟩
    · exact ⟨t, by simp [hi], hkind, hcred⟩
  events := List.prefix_rfl

/-- A new key goes to the end; a key that is there gets the new transaction. -/
theorem Grows.register (tx : Tx) : Grows s (s.register tx) := by
  obtain ⟨key, htxs, hkind, hcred⟩ : ∃ key : TxKey, (s.register tx).txs = s.txs.set key s.heap.length ∧
      tx.kind = key.kind ∧ tx.credential = key.credential := by
    unfold Sim.register
    cases s.config.idempotency with
    | correct => exact ⟨_, rfl, rfl, rfl⟩
    | broken => exact ⟨_, rfl, rfl, rfl⟩
  have hheap : (s.register tx).heap = s.heap ++ [tx] := rfl
  have hmem : ∀ e ∈ (s.register tx).txs.entries, e = (key, s.heap.length) ∨ e.1 ≠ key ∧ e ∈ s.txs.entries := by
    rintro ⟨k, i⟩ he
    rw [htxs, ← OrderedMap.get?_eq_some_iff, OrderedMap.get?_set] at he
    by_cases hk : key = k
    · rw [if_pos hk] at he
      exact .inl (Prod.ext hk.symm (Option.some.inj he).symm)
    · rw [if_neg hk] at he
      exact .inr ⟨fun h => hk h.symm, OrderedMap.get?_eq_some_iff.1 he⟩
  refine ⟨?_, ?_, ?_, ?_, List.prefix_rfl⟩
  · rw [hheap, List.length_append]
    exact Nat.le_add_right ..
  · rw [htxs]
    by_cases hk : key ∈ s.txs.keys
    · rw [OrderedMap.keys_set_of_mem hk]
    · rw [OrderedMap.keys_set_of_not_mem hk]
      exact List.prefix_append ..
  · intro e he hlt
    rcases hmem e he with rfl | ⟨-, hold⟩
    · exact absurd hlt (Nat.lt_irrefl _)
    · exact hold
  · intro h
    refine ⟨fun e he => ?_, ?_⟩
    · rw [hheap]
      rcases hmem e he with rfl | ⟨-, hold⟩
      · exact ⟨tx, by simp, hkind, hcred⟩
      · obtain ⟨t, ht, hk, hc⟩ := h.named e hold
        exact ⟨t, by rw [List.getElem?_append_left (List.getElem?_eq_some_iff.1 ht).1]; exact ht, hk, hc⟩
    · refine List.Nodup.map_on (fun e he e' he' hval => ?_) (List.Nodup.of_map Prod.fst (s.register tx).txs.nodup)
      have hlt : ∀ e ∈ s.txs.entries, e.2 < s.heap.length := by
        intro e he
        obtain ⟨t, ht, -⟩ := h.named e he
        exact (List.getElem?_eq_some_iff.1 ht).1
      rcases hmem e he with rfl | ⟨-, hold⟩
      · rcases hmem e' he' with rfl | ⟨-, hold'⟩
        · rfl
        · exact absurd (hlt e' hold') (by rw [← hval]; exact Nat.lt_irrefl _)
      · rcases hmem e' he' with rfl | ⟨-, hold'⟩
        · exact absurd (hlt e hold) (by rw [hval]; exact Nat.lt_irrefl _)
        · exact List.inj_on_of_nodup_map h.nodup hold hold' hval

theorem Grows.emitTx (i : Nat) (type : String) : Grows s (s.emitTx i type) := by
  unfold Sim.emitTx
  split
  · exact .refl
  · exact .emit ..

theorem Grows.setStatus (i : Nat) (status : TxStatus) (type : String) (final : Bool) (reason : Option String) :
    Grows s (s.setStatus i status type final reason) := by
  refine Grows.trans ?_ (.emitTx ..)
  exact .update fun _ _ => ⟨rfl, rfl⟩

theorem Grows.noteVolume (cred : String) (amount : Nat) (d : Direction) : Grows s (s.noteVolume cred amount d) := by
  cases d
  · exact .of_eq rfl rfl List.prefix_rfl
  · exact .of_eq rfl rfl List.prefix_rfl

/-! ### The operations -/

theorem bumpSeq_grows (s : Sim Body) : Grows s s.bumpSeq := .of_eq rfl rfl List.prefix_rfl

theorem debit_grows (d : Debit) : Grows s (s.debit d).1 := by
  simp only [debit]
  split_ifs
  · exact .of_eq rfl rfl List.prefix_rfl
  · exact .of_eq rfl rfl List.prefix_rfl
  · exact .pay ..

theorem debitRaced_grows (d : Debit) (seen : Int) : Grows s (s.debitRaced d seen).1 := by
  simp only [debitRaced]
  split_ifs
  · exact .refl
  · exact .pay ..

theorem createCollection_grows (cred : String) (body : Body) : Grows s (s.createCollection W cred body).2 := by
  unfold createCollection
  split
  · exact .refl
  · exact .refl
  · exact ((((bumpSeq_grows s).trans (.register _)).trans (.noteVolume ..)).trans (.emit ..)).trans (.of_eq rfl rfl List.prefix_rfl)

theorem finishPayout_grows (tx : Tx) (provider value : String) (payer : Nat) :
    Grows s (s.finishPayout tx provider value payer) := by
  have hemit : Grows s (((s.register tx).noteVolume tx.credential tx.amount .out).emit tx.credential "payout.accepted"
      (.tx tx.id tx.view)) := ((Grows.register tx).trans (.noteVolume ..)).trans (.emit ..)
  unfold finishPayout
  dsimp only
  split_ifs
  · exact hemit.trans (.of_eq rfl rfl List.prefix_rfl)
  · exact hemit.trans (.of_eq rfl rfl List.prefix_rfl)

theorem finishUtility_grows (tx : Tx) : Grows s (s.finishUtility tx) :=
  (((Grows.register tx).trans (.noteVolume ..)).trans (.emit ..)).trans (.of_eq rfl rfl List.prefix_rfl)

theorem finishTransfer_grows (tx : Tx) (handle : String) : Grows s (s.finishTransfer tx handle) := by
  have hcredit : Grows s (s.credit handle tx.amount tx.reference .transferIn) := .of_eq rfl rfl List.prefix_rfl
  refine ((((hcredit.trans (.register tx)).trans (.noteVolume ..)).trans (.update ?_)).trans (.emit ..)).trans (.emit ..)
  intro t ht
  have ht : (s.heap ++ [tx])[s.heap.length]? = some t := ht
  obtain rfl : tx = t := by simpa using ht
  exact ⟨rfl, rfl⟩

theorem finish_grows (f : Frame) : Grows s (s.finish f).2 := by
  cases hf : f.create with
  | payout provider value payer =>
    simp only [finish, hf]
    exact finishPayout_grows ..
  | utility =>
    simp only [finish, hf]
    exact finishUtility_grows ..
  | transfer handle =>
    simp only [finish, hf]
    exact finishTransfer_grows ..

/-- What a create operation has done when it comes to its first await. -/
def Begun.Grown (s : Sim Body) (begun : Except Thrown (Begun Body)) : Prop :=
  ∀ s' frame state, begun = .ok (.awaits s' frame state) → Grows s s'

theorem await_grows (f : Frame) : Begun.Grown s (.ok (s.await f)) := by
  intro s' frame state h
  obtain ⟨rfl, -, -⟩ := Begun.awaits.inj (Except.ok.inj h)
  exact (bumpSeq_grows s).trans (debit_grows _)

theorem beginPayout_grows (cred : String) (body : Body) : Begun.Grown s (s.beginPayout W cred body) := by
  unfold beginPayout
  rcases s.payoutRequest W cred body with e | dup | ⟨r, amount⟩
  · exact fun _ _ _ h => nomatch h
  · exact fun _ _ _ h => nomatch h
  · exact await_grows _

theorem beginTransfer_grows (cred : String) (body : Body) : Begun.Grown s (s.beginTransfer W cred body) := by
  unfold beginTransfer
  rcases s.transferRequest W cred body with e | dup | ⟨r, amount⟩
  · exact fun _ _ _ h => nomatch h
  · exact fun _ _ _ h => nomatch h
  · exact await_grows _

theorem started_grows {begun : Except Thrown (Begun Body)} (h : Begun.Grown s begun) : Grows s (s.started begun) := by
  unfold started
  split
  · exact .refl
  · exact .refl
  · exact (h _ _ _ rfl).withCalls _

theorem beginUtility_grows (cred : String) (body : Body) : Grows s (s.beginUtility W cred body) := by
  unfold beginUtility
  split
  · exact .refl
  · exact .refl
  · dsimp only
    split_ifs
    · exact started_grows (await_grows _)
    · exact (bumpSeq_grows s).trans (finishUtility_grows _)

theorem nextItem_grows (b : Batch Body) : Grows s (s.nextItem W b).1 := by
  unfold nextItem
  split
  · exact .of_eq rfl rfl List.prefix_rfl
  · dsimp only
    have hbegun := beginPayout_grows (s := s) (W := W) b.cred
    split
    · exact .refl
    · exact .refl
    · exact .refl
    · exact hbegun _ _ _ _ ‹_›

theorem beginBatch_grows (cred : String) (body : Body) : Grows s (s.beginBatch W cred body) := by
  unfold beginBatch
  split
  · exact .refl
  · exact .refl
  · rename_i b _
    have hitem := nextItem_grows (s := s) (W := W) b
    rcases hb : s.nextItem W b with ⟨s', _ | call⟩
    · rw [hb] at hitem
      exact hitem
    · rw [hb] at hitem
      exact hitem.withCalls _

theorem settled_grows (h : Grows s t) (i : Nat) (batch : Option (Batch Body)) (result : Except SimError Tx) :
    Grows s (t.settled i batch result) := by
  cases batch with
  | none => exact h.withCalls _
  | some b => exact h.withCalls _

theorem resume_grows {i : Nat} (h : s.resume W i = some s') : Grows s s' := by
  obtain ⟨call, -, rfl⟩ := Option.map_eq_some_iff.1 h
  rcases call with ⟨frame, seen | _ | _, batch⟩ | ⟨b, last⟩
  · exact (debitRaced_grows ..).withCalls _
  · exact settled_grows (finish_grows _) ..
  · exact settled_grows .refl ..
  · have hitem := nextItem_grows (s := s) (W := W) { b with done := b.done ++ [(b.current, last)] }
    dsimp only
    rcases hb : s.nextItem W { b with done := b.done ++ [(b.current, last)] } with ⟨s', _ | call⟩
    · rw [hb] at hitem
      exact hitem.withCalls _
    · rw [hb] at hitem
      exact hitem.withCalls _

theorem fireCallback_grows (cb : Callback) : Grows s (s.fireCallback cb) := by
  cases cb with
  | collectionDispatched tx => exact .setStatus ..
  | collectionFinal tx cred amount fee outcome =>
    simp only [fireCallback]
    split
    · refine Grows.trans (Grows.trans ?_ (.update fun _ _ => ?_)) (.setStatus ..)
      · exact .of_eq rfl rfl List.prefix_rfl
      · exact ⟨rfl, rfl⟩
    · exact .setStatus ..
  | payoutInReview tx => exact .setStatus ..
  | payoutDispatching tx => exact .setStatus ..
  | payoutFinal tx cred payer half outcome =>
    simp only [fireCallback]
    split_ifs
    · refine Grows.trans ?_ (.setStatus ..)
      exact .of_eq rfl rfl List.prefix_rfl
    · exact (Grows.setStatus ..).trans (.of_eq rfl rfl List.prefix_rfl)
  | payoutRefund tx cred payer =>
    refine Grows.trans ?_ (.setStatus ..)
    exact .of_eq rfl rfl List.prefix_rfl
  | utilityStarted tx walletFunded => exact .setStatus ..
  | utilityFinal tx cred amount fee walletFunded half =>
    simp only [fireCallback]
    split
    · refine Grows.trans ?_ (.setStatus ..)
      split_ifs
      · exact .of_eq rfl rfl List.prefix_rfl
      · exact .of_eq rfl rfl List.prefix_rfl
    · split_ifs
      · exact (Grows.setStatus ..).trans (.of_eq rfl rfl List.prefix_rfl)
      · exact .setStatus ..
  | utilityRefund tx cred amount fee =>
    refine Grows.trans ?_ (.setStatus ..)
    exact .of_eq rfl rfl List.prefix_rfl

theorem fireTimer_grows (h : s.fireTimer = some s') : Grows s s' := by
  unfold fireTimer at h
  split at h
  · cases h
  · split_ifs at h
    obtain rfl := Option.some.inj h
    refine Grows.trans ?_ (fireCallback_grows _)
    exact .of_eq rfl rfl List.prefix_rfl

theorem marks_grows (is : List Nat) :
    Grows s (is.foldl (fun s i => s.update i fun t => { t with settlementStatus := some .settled }) s) := by
  induction is generalizing s with
  | nil => exact .refl
  | cons i is ih =>
    refine Grows.trans ?_ ih
    exact .update fun _ _ => ⟨rfl, rfl⟩

theorem settle_grows (cred : String) : Grows s (s.settle cred) := by
  unfold settle
  split_ifs
  · exact ((bumpSeq_grows s).trans (marks_grows _)).trans (.of_eq rfl rfl List.prefix_rfl)
  · exact bumpSeq_grows s

theorem settleNow_grows (cred : String) (body : Body) : Grows s (s.settleNow W cred body).2 := by
  unfold settleNow
  split
  · exact .refl
  · exact .refl
  · split
    · exact .refl
    · refine Grows.trans ((settle_grows cred).trans ?_) (.emit ..)
      exact .of_eq rfl rfl List.prefix_rfl

theorem putPolicy_grows (body : Body) : Grows s (s.putPolicy W body).2 := by
  unfold putPolicy
  split
  · exact .refl
  · split_ifs
    · exact .refl
    · exact .of_eq rfl rfl List.prefix_rfl

theorem setBalance_grows (cred amount : String) : Grows s (s.setBalance cred amount).2 := by
  unfold setBalance
  split
  · exact .refl
  · exact .of_eq rfl rfl List.prefix_rfl

theorem step_grows {l : Label Body} (h : s.step W l = some s') : Grows s s' := by
  cases l with
  | resume i => exact resume_grows h
  | timer => exact fireTimer_grows h
  | createCollection cred body =>
    obtain rfl := Option.some.inj h
    exact createCollection_grows ..
  | createPayout cred body =>
    obtain rfl := Option.some.inj h
    exact started_grows (beginPayout_grows cred body)
  | createPayoutBatch cred body =>
    obtain rfl := Option.some.inj h
    exact beginBatch_grows ..
  | createUtilityPurchase cred body =>
    obtain rfl := Option.some.inj h
    exact beginUtility_grows ..
  | createTransfer cred body =>
    obtain rfl := Option.some.inj h
    exact started_grows (beginTransfer_grows cred body)
  | settleNow cred body =>
    obtain rfl := Option.some.inj h
    exact settleNow_grows ..
  | putPolicy body =>
    obtain rfl := Option.some.inj h
    exact putPolicy_grows ..
  | setBalance cred amount =>
    obtain rfl := Option.some.inj h
    exact setBalance_grows ..
  | elapse ms =>
    obtain rfl := Option.some.inj h
    exact .of_eq rfl rfl List.prefix_rfl
  | deletePolicy =>
    obtain rfl := Option.some.inj h
    exact .of_eq rfl rfl List.prefix_rfl
  | wallet cred =>
    obtain rfl := Option.some.inj h
    exact .of_eq rfl rfl List.prefix_rfl
  | patchConfig config =>
    obtain rfl := Option.some.inj h
    exact .of_eq rfl rfl List.prefix_rfl

end Sim

end Simulator

end CronMonitor
