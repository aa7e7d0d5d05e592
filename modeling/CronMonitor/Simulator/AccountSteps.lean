import CronMonitor.Simulator.Accounts
import CronMonitor.Lib.Calls

/-!
# Wallets and transactions agree

`Places` is what holds of the table and of the paid calls in any case. `Accounts` ties what the wallets reserve and what is posted to them to the transactions and to the paid calls that wait;
every step keeps it while the race window is closed, no client sets the fields of its payment and half a delay is over
no later than the delay. `Table` says that the table has every transaction. It is lost where two calls with one reference
both pass their checks before the first of them goes on (`Apart`).
-/

namespace CronMonitor

namespace Simulator

variable {Body : Type}

/-- Half the delay is not over after the delay: `setTimeout` takes a delay beyond `2 ^ 31 - 1` for one millisecond. -/
def SimConfig.HalfFirst (c : SimConfig) : Prop := timerDelay (c.resolveDelayMs / 2) ≤ timerDelay c.resolveDelayMs

instance (c : SimConfig) : Decidable c.HalfFirst := inferInstanceAs (Decidable (_ ≤ _))

/-- What paid calls that wait took from a wallet. -/
def paidBy (fs : List Frame) (id : String) : Int :=
  (fs.map fun f => if f.tx.credential = id then (f.tx.outlay : Int) else 0).sum

/-- What of it they reserved. -/
def heldBy (fs : List Frame) (id : String) : Int :=
  (fs.map fun f => if f.tx.credential = id ∧ f.tx.kind ≠ .transfer then (f.tx.outlay : Int) else 0).sum

theorem paidBy_append (fs gs : List Frame) (id : String) : paidBy (fs ++ gs) id = paidBy fs id + paidBy gs id := by
  simp [paidBy]

theorem heldBy_append (fs gs : List Frame) (id : String) : heldBy (fs ++ gs) id = heldBy fs id + heldBy gs id := by
  simp [heldBy]

theorem paidBy_perm {fs gs : List Frame} (h : fs.Perm gs) (id : String) : paidBy fs id = paidBy gs id :=
  (h.map _).sum_eq

theorem heldBy_perm {fs gs : List Frame} (h : fs.Perm gs) (id : String) : heldBy fs id = heldBy gs id :=
  (h.map _).sum_eq

theorem paidBy_singleton (f : Frame) (id : String) :
    paidBy [f] id = if f.tx.credential = id then (f.tx.outlay : Int) else 0 := by
  simp [paidBy]

theorem heldBy_singleton (f : Frame) (id : String) :
    heldBy [f] id = if f.tx.credential = id ∧ f.tx.kind ≠ .transfer then (f.tx.outlay : Int) else 0 := by
  simp [heldBy]

namespace Sim

variable {W : Wire Body} {s s' t : Sim Body} {l : Label Body}

/-! ### Places -/

/-- The paid calls that wait pay for their transactions, and the table names transactions, each once. -/
structure Places (s : Sim Body) : Prop where
  frames : ∀ f ∈ s.pending, f.Ok
  nodup : s.txs.values.Nodup
  inHeap : ∀ j ∈ s.txs.values, j < s.heap.length

theorem init_places (config : SimConfig) (now : Time) : (Sim.init Body config now).Places where
  frames := List.forall_mem_nil _
  nodup := List.nodup_nil
  inHeap := List.forall_mem_nil _

theorem Places.of_eq (h : s.Places) (hheap : s'.heap.length = s.heap.length) (htxs : s'.txs = s.txs)
    (hpending : s'.pending.Perm s.pending) : s'.Places where
  frames f hf := h.frames f (hpending.mem_iff.1 hf)
  nodup := htxs ▸ h.nodup
  inHeap := by
    rw [hheap, htxs]
    exact h.inHeap

theorem Places.registers (h : s.Places) {tx : Tx} {plan : List (Nat × Callback)} (hreg : Registers s s' tx plan)
    (hpending : ∀ f ∈ s'.pending, f ∈ s.pending) : s'.Places := by
  have hvalues : s.heap.length ∉ s.txs.values := fun hmem => lt_irrefl _ (h.inHeap _ hmem)
  obtain ⟨key, htxs, -, -⟩ := hreg.txs
  refine ⟨fun f hf => h.frames f (hpending f hf), ?_, fun j hj => ?_⟩
  · rw [htxs]
    exact OrderedMap.nodup_values_set h.nodup hvalues
  · rw [hreg.heap, List.length_append, List.length_singleton]
    rw [htxs] at hj
    obtain ⟨k, hk⟩ := OrderedMap.mem_values_iff.1 hj
    rw [OrderedMap.get?_set] at hk
    split_ifs at hk
    · obtain rfl := Option.some.inj hk
      exact Nat.lt_succ_self _
    · exact (h.inHeap j (OrderedMap.mem_values_iff.2 ⟨k, hk⟩)).trans (Nat.lt_succ_self _)

theorem pending_createCollection (cred : String) (body : Body) :
    (s.createCollection W cred body).2.pending = s.pending := by
  rw [pending, (createCollection_config cred body).2, pending]

theorem pending_fireCallback (cb : Callback) : (s.fireCallback cb).pending = s.pending := by
  rw [pending, (fireCallback_fires cb).calls, pending]

theorem Settles.pending {cred reference : String} (h : Settles s s' cred reference) : s'.pending = s.pending := by
  rw [Sim.pending, h.calls, Sim.pending]

theorem Settles.length {cred reference : String} (h : Settles s s' cred reference) : s'.heap.length = s.heap.length := by
  rw [h.heap]
  split_ifs
  · exact List.length_modifyAll ..
  · rfl

theorem pending_setBalance (cred amount : String) : (s.setBalance cred amount).2.pending = s.pending := by
  rw [pending, (setBalance_config cred amount).2, pending]

theorem setBalance_rest (cred amount : String) : (s.setBalance cred amount).2.timers = s.timers ∧
    (s.setBalance cred amount).2.heap = s.heap ∧ (s.setBalance cred amount).2.txs = s.txs := by
  unfold Sim.setBalance
  split <;> exact ⟨rfl, rfl, rfl⟩

theorem Trans.places (h : Trans W s l s') (hp : s.Places) (hmass : s.config.weak.massAssignment = false) : s'.Places := by
  cases h with
  | quiet l hcalm hsame hpending => exact hp.of_eq (by rw [hsame.heap]) hsame.txs hpending
  | elapse ms => exact hp.of_eq rfl rfl (.refl _)
  | patchConfig config => exact hp.of_eq rfl rfl (.refl _)
  | collect cred body r amount hreq =>
    exact hp.registers (createCollection_registers hreq) fun f hf => pending_createCollection (W := W) cred body ▸ hf
  | start l f hcalm hopens hopened hfunds hsame hpending =>
    refine ⟨fun g hg => ?_, ?_, ?_⟩
    · rcases List.mem_cons.1 (hpending.mem_iff.1 hg) with rfl | hg
      · exact hopened.ok hmass
      · exact hp.frames g hg
    · rw [hsame.txs]
      exact hp.nodup
    · rw [hsame.heap, hsame.txs]
      exact hp.inHeap
  | finish i f hcalm hsame hpending =>
    have hf : f.Ok := hp.frames f (hpending.mem_iff.2 List.mem_cons_self)
    exact hp.registers ((finish_registers hf.kind).same hsame) fun g hg =>
      hpending.mem_iff.2 (List.mem_cons_of_mem f hg)
  | direct cred body r amount hreq hfunding =>
    have hbump : s.bumpSeq.Places := hp.of_eq rfl rfl (.refl _)
    exact hbump.registers (finishUtility_registers (by simp [utilityTx, newTx])) fun f hf => hf
  | fire u ts htimers hdue =>
    have hfires := fireCallback_fires (s := { s with timers := ts }) u.callback
    exact hp.of_eq (by rw [hfires.heap, List.length_modify]) hfires.txs (.of_eq (pending_fireCallback u.callback))
  | settle cred body r hparse hpolicy hnew =>
    have hs : Settles s (s.settleNow W cred body).2 cred r.reference := settleNow_settles hparse hpolicy hnew
    exact hp.of_eq hs.length hs.txs (.of_eq hs.pending)
  | setBalance cred amount target ht =>
    obtain ⟨-, hheap, htxs⟩ := setBalance_rest (s := s) cred amount
    exact hp.of_eq (by rw [hheap]) htxs (.of_eq (pending_setBalance cred amount))

/-! ### Accounts -/

/-- Every transaction stands where its timers say, and what is reserved in the wallets and posted to them is what the
transactions hold and have moved, together with the paid calls that wait. -/
structure Accounts (s : Sim Body) : Prop where
  ordered : Ordered s.timers
  stands : ∀ i t, s.heap[i]? = some t → Stands i t (waiting s.timers i)
  strays : ∀ u ∈ s.timers, u.callback.tx < s.heap.length
  reserved : ∀ id, s.reserved id = (s.heap.map (·.held id)).sum + heldBy s.pending id
  posted : ∀ id, posted s.ledger id = (s.heap.map (·.moved id)).sum - paidBy s.pending id

theorem init_accounts (config : SimConfig) (now : Time) : (Sim.init Body config now).Accounts where
  ordered := .nil
  stands i t ht := by cases ht
  strays := List.forall_mem_nil _
  reserved id := rfl
  posted id := rfl

theorem Accounts.same (h : s.Accounts) (hsame : Same s s') (hpending : s'.pending.Perm s.pending) : s'.Accounts where
  ordered := hsame.timers ▸ h.ordered
  stands := by
    rw [hsame.heap, hsame.timers]
    exact h.stands
  strays := by
    rw [hsame.heap, hsame.timers]
    exact h.strays
  reserved id := by rw [(hsame.wallets id).2.1, h.reserved, hsame.heap, heldBy_perm hpending]
  posted id := by rw [hsame.ledger, h.posted, hsame.heap, paidBy_perm hpending]

theorem Accounts.start (h : s.Accounts) {f : Frame} (hf : f.Ok) (hsame : Same (s.paidFor f.debit) s')
    (hpending : s'.pending.Perm (f :: s.pending)) : s'.Accounts where
  ordered := by
    rw [hsame.timers]
    exact h.ordered
  stands := by
    rw [hsame.heap, hsame.timers]
    exact h.stands
  strays := by
    rw [hsame.heap, hsame.timers]
    exact h.strays
  reserved id := by
    rw [(hsame.wallets id).2.1, reserved_paidFor, h.reserved, hsame.heap, heldBy_perm hpending, ← List.singleton_append,
      heldBy_append, heldBy_singleton, hf.debit]
    simp only [decide_eq_true_eq]
    rw [add_assoc, add_comm (heldBy s.pending id)]
    rfl
  posted id := by
    have hkind : f.tx.kind.outlayKind ≠ .testAdjustment := by cases f.tx.kind <;> simp [Kind.outlayKind]
    rw [hsame.ledger, (paidFor_books f.debit).ledger, posted_append, h.posted, hsame.heap, paidBy_perm hpending,
      ← List.singleton_append, paidBy_append, paidBy_singleton, hf.debit, posted_entry hkind]
    simp only
    show (s.heap.map (·.moved id)).sum - paidBy s.pending id + _ = (s.heap.map (·.moved id)).sum - _
    split_ifs <;> omega

/-- A transaction is put in the table, and what a paid call took for it (`fs`) becomes what it holds and has moved. -/
theorem Accounts.registers (h : s.Accounts) {tx : Tx} {plan : List (Nat × Callback)} (hreg : Registers s s' tx plan)
    (fs : List Frame) (hpending : s.pending.Perm (fs ++ s'.pending)) (htx : ∀ p ∈ plan, p.2.tx = s.heap.length)
    (hplan : plan.Pairwise fun p q => timerDelay p.1 ≤ timerDelay q.1) (hstands : Stands s.heap.length tx (plan.map Prod.snd))
    (hreserved : ∀ id, s'.reserved id = s.reserved id) (hheld : ∀ id, tx.held id = heldBy fs id) {m : Option LedgerEntry}
    (hledger : s'.ledger = s.ledger ++ m.toList)
    (hmoved : ∀ id, tx.moved id = Simulator.posted m.toList id - paidBy fs id) : s'.Accounts := by
  have hnew : waiting s.timers s.heap.length = [] := waiting_eq_nil.2 fun u hu => (h.strays u hu).ne
  refine ⟨?_, fun i t ht => ?_, fun u hu => ?_, fun id => ?_, fun id => ?_⟩
  · rw [hreg.timers]
    exact schedule_ordered h.ordered
  · rw [hreg.heap] at ht
    rw [hreg.timers]
    rcases List.getElem?_concat_cases ht with ht | ⟨rfl, rfl⟩
    · have hi := (List.getElem?_eq_some_iff.1 ht).1
      rw [waiting_schedule_of_ne h.ordered fun p hp => (htx p hp).trans_ne hi.ne']
      exact h.stands i t ht
    · rw [waiting_schedule h.ordered htx hplan fun u hu hi => absurd hi (h.strays u hu).ne, hnew]
      exact hstands
  · rw [hreg.heap, List.length_append, List.length_singleton]
    rw [hreg.timers] at hu
    rcases mem_schedule.1 hu with hu | ⟨p, hp, rfl⟩
    · exact (h.strays u hu).trans (Nat.lt_succ_self _)
    · exact (htx p hp).trans_lt (Nat.lt_succ_self _)
  · rw [hreserved, h.reserved, hreg.heap, List.map_append, List.sum_append, List.map_singleton, List.sum_singleton,
      heldBy_perm hpending, heldBy_append, hheld]
    omega
  · rw [hledger, posted_append, h.posted, hreg.heap, List.map_append, List.sum_append, List.map_singleton,
      List.sum_singleton, paidBy_perm hpending, paidBy_append, hmoved]
    omega

/-! ### The plans -/

theorem collection_held {tx : Tx} (hkind : tx.kind = .collection) (id : String) : tx.held id = heldBy [] id :=
  Tx.held_of_not_reserves (Tx.reserves_collection hkind)

theorem Accounts.collect (h : s.Accounts) (hhalf : s.config.HalfFirst) {cred : String} {body : Body}
    {r : CollectionRequest} {amount : Nat} (hreq : s.collectionRequest W cred body = .ok (.inr (r, amount))) :
    (s.createCollection W cred body).2.Accounts := by
  refine h.registers (createCollection_registers hreq) [] (.of_eq (pending_createCollection cred body).symm) ?_ ?_ ?_
    reserved_createCollection (collection_held rfl) createCollection_books.ledger fun id => ?_
  · simp [collectionPlan, Callback.tx]
  · simpa [collectionPlan, SimConfig.HalfFirst] using hhalf
  · exact .collecting [.collectionDispatched s.heap.length] _ rfl (by simp [collectionTx, newTx]) rfl (.inr rfl)
  · rw [posted_nothing]
    simp [Tx.moved, collectionTx, newTx, paidBy]

theorem payoutPlan_tx (tx : Tx) (provider value : String) (payer : Nat) :
    ∀ p ∈ s.payoutPlan tx provider value payer, p.2.tx = s.heap.length := by
  unfold payoutPlan
  split_ifs <;> simp [Callback.tx]

theorem payoutPlan_pairwise (hhalf : s.config.HalfFirst) (tx : Tx) (provider value : String) (payer : Nat) :
    (s.payoutPlan tx provider value payer).Pairwise fun p q => timerDelay p.1 ≤ timerDelay q.1 := by
  unfold payoutPlan
  split_ifs
  · exact List.pairwise_singleton _ _
  · simpa [SimConfig.HalfFirst] using hhalf

theorem payoutPlan_stands {tx : Tx} (hkind : tx.kind = .payout) (hstatus : tx.status = .accepted) (provider value : String)
    {payer : Nat} (hpayer : payer = tx.outlay) :
    Stands s.heap.length tx ((s.payoutPlan tx provider value payer).map Prod.snd) := by
  have hopen : tx.isOpen := by simp [Tx.isOpen, hstatus]
  unfold payoutPlan
  split_ifs
  · exact .reviewing _ hkind hopen (.inr rfl)
  · rw [hpayer]
    exact .paying [.payoutDispatching s.heap.length] _ _ hkind hopen (.inr rfl)

/-- A frame is as much as its transaction holds, and it is paid. -/
theorem accepted_held {f : Frame} (hstatus : f.tx.status = .accepted) (hreserves : f.tx.reserves)
    (hkind : f.tx.kind ≠ .transfer) (id : String) : f.tx.held id = heldBy [f] id := by
  have hopen : f.tx.isOpen := by simp [Tx.isOpen, hstatus]
  rw [heldBy_singleton, Tx.held_of_isOpen hopen]
  simp only [hreserves, hkind, ne_eq, not_false_eq_true, and_true]

theorem accepted_moved {f : Frame} (hstatus : f.tx.status = .accepted) (hreserves : f.tx.reserves)
    (hkind : f.tx.kind = .payout ∨ f.tx.kind = .utilityPurchase) (id : String) :
    f.tx.moved id = Simulator.posted (none : Option LedgerEntry).toList id - paidBy [f] id := by
  rw [posted_nothing, paidBy_singleton]
  rcases hkind with hkind | hkind <;> simp only [Tx.moved, hkind, hstatus, hreserves] <;> split_ifs <;> simp_all

theorem Accounts.finish (h : s.Accounts) (hhalf : s.config.HalfFirst) {f : Frame} (hf : f.Ok)
    (hsame : Same (s.finish f).2 s') (hpending : s.pending.Perm (f :: s'.pending)) : s'.Accounts := by
  have hreg : Registers s s' (s.finish f).1 (s.plan f) := (finish_registers hf.kind).same hsame
  have hreserved (id : String) : s'.reserved id = s.reserved id := (hsame.wallets id).2.1.trans (reserved_finish f id)
  have hledger : s'.ledger = s.ledger ++ (s.arrival f).toList := hsame.ledger.trans (finish_books f).ledger
  have hcreate := hf.create
  cases hf' : f.create with
  | payout provider value payer =>
    rw [hf'] at hcreate
    obtain ⟨hkind, hstatus, hpayer⟩ := hcreate
    have hreserves := Tx.reserves_payout hkind
    simp only [Sim.finish, plan, hf'] at hreg
    refine h.registers hreg [f] hpending (payoutPlan_tx f.tx provider value payer)
      (payoutPlan_pairwise hhalf f.tx provider value payer)
      (payoutPlan_stands hkind hstatus provider value hpayer) hreserved
      (accepted_held hstatus hreserves (by simp [hkind])) hledger fun id => ?_
    simp only [arrival, hf']
    exact accepted_moved hstatus hreserves (.inl hkind) id
  | utility =>
    rw [hf'] at hcreate
    obtain ⟨hkind, hstatus, hfunded⟩ := hcreate
    have hreserves := (Tx.reserves_utility hkind).trans hfunded
    have hopen : f.tx.isOpen := by simp [Tx.isOpen, hstatus]
    simp only [Sim.finish, plan, hf'] at hreg
    refine h.registers hreg [f] hpending (by simp [utilityPlan, Callback.tx])
      (by simpa [utilityPlan, SimConfig.HalfFirst] using hhalf)
      (.vending [.utilityStarted s.heap.length f.tx.walletFunded] _ hkind hopen (.inr rfl)) hreserved
      (accepted_held hstatus hreserves (by simp [hkind])) hledger fun id => ?_
    simp only [arrival, hf']
    exact accepted_moved hstatus hreserves (.inr hkind) id
  | transfer handle =>
    rw [hf'] at hcreate
    obtain ⟨hkind, hparty⟩ := hcreate
    simp only [Sim.finish, plan, hf'] at hreg
    refine h.registers hreg [f] hpending (List.forall_mem_nil _) .nil (.transferred hkind) hreserved (fun id => ?_)
      hledger fun id => ?_
    · rw [heldBy_singleton, Tx.held_of_not_reserves]
      · simp [hkind]
      · simp [Tx.reserves, hkind]
    · have hposted : Simulator.posted (s.arrival f).toList id = if handle = id then (f.tx.amount : Int) else 0 := by
        simp only [arrival, hf']
        exact posted_entry (by simp) id
      rw [hposted, paidBy_singleton]
      simp [Tx.moved, Tx.outlay, hkind, hparty]

theorem Accounts.direct (h : s.Accounts) (hhalf : s.config.HalfFirst) {tx : Tx} (hkind : tx.kind = .utilityPurchase)
    (hstatus : tx.status = .accepted) (hfunded : tx.walletFunded = false) : (s.finishUtility tx).Accounts := by
  have hreserves := (Tx.reserves_utility hkind).trans hfunded
  have hopen : tx.isOpen := by simp [Tx.isOpen, hstatus]
  refine h.registers (finishUtility_registers (by simp [hkind])) [] (.refl _) (by simp [utilityPlan, Callback.tx])
    (by simpa [utilityPlan, SimConfig.HalfFirst] using hhalf)
    (.vending [.utilityStarted s.heap.length tx.walletFunded] _ hkind hopen (.inr rfl))
    (reserved_finishUtility tx) (fun id => Tx.held_of_not_reserves hreserves) (finishUtility_books tx).ledger fun id => ?_
  rw [posted_nothing]
  simp [Tx.moved, hkind, hreserves, paidBy]

/-! ### Timers -/

theorem next_pairwise (config : SimConfig) (cb : Callback) :
    (cb.next config).Pairwise fun p q => timerDelay p.1 ≤ timerDelay q.1 := by
  cases cb with
  | payoutFinal tx cred payer half outcome =>
    rw [Callback.next]
    split_ifs
    · exact .nil
    · exact List.pairwise_singleton _ _
  | utilityFinal tx cred amount fee walletFunded half =>
    rw [Callback.next]
    split
    · exact .nil
    · split_ifs
      · exact List.pairwise_singleton _ _
      · exact .nil
  | _ => exact .nil

theorem waiting_cons_self (u : Timer) (ts : List Timer) :
    waiting (u :: ts) u.callback.tx = u.callback :: waiting ts u.callback.tx := by
  simp [waiting]

theorem waiting_cons_of_ne {u : Timer} {i : Nat} (h : u.callback.tx ≠ i) (ts : List Timer) :
    waiting (u :: ts) i = waiting ts i := by
  simp [waiting, h]

theorem Accounts.fire (h : s.Accounts) {u : Timer} {ts : List Timer} (htimers : s.timers = u :: ts) :
    ({ s with timers := ts }.fireCallback u.callback).Accounts := by
  obtain ⟨i, hi⟩ : ∃ i, u.callback.tx = i := ⟨_, rfl⟩
  have hlt : i < s.heap.length := hi ▸ h.strays u (by rw [htimers]; exact List.mem_cons_self)
  have hget : s.heap[i]? = some s.heap[i] := List.getElem?_eq_getElem hlt
  obtain ⟨hfirst, hordered⟩ := List.pairwise_cons.1 (htimers ▸ h.ordered)
  have hstands : Stands i s.heap[i] (u.callback :: waiting ts i) := by
    have hall := h.stands i _ hget
    have hwaiting := waiting_cons_self u ts
    rw [hi] at hwaiting
    rwa [htimers, hwaiting] at hall
  have hfires := fireCallback_fires (s := { s with timers := ts }) u.callback
  have hfired := fired_of_stands (s := { s with timers := ts }) hstands hget
  have hpending : ({ s with timers := ts }.fireCallback u.callback).pending = s.pending := pending_fireCallback u.callback
  have hheap := hfires.heap
  rw [hi] at hheap
  have hlast : ∀ v ∈ ts, v.callback.tx = i → ∀ p ∈ u.callback.next s.config, v.deadline ≤ s.now + timerDelay p.1 := by
    intro v hv hvi p hp
    rcases hfired.last with hrest | hnone
    · exact absurd hvi (waiting_eq_nil.1 hrest v hv)
    · rw [hnone] at hp
      cases hp
  refine ⟨?_, fun j t ht => ?_, fun v hv => ?_, fun id => ?_, fun id => ?_⟩
  · rw [hfires.timers]
    exact schedule_ordered hordered
  · rw [hheap] at ht
    rw [hfires.timers]
    by_cases hij : i = j
    · subst hij
      rw [List.getElem?_modify_eq, hget] at ht
      obtain rfl := Option.some.inj ht
      rw [waiting_schedule hordered hfired.next (next_pairwise _ _) hlast]
      exact hfired.stands
    · rw [List.getElem?_modify_ne _ _ hij] at ht
      have hj := h.stands j t ht
      rw [htimers, waiting_cons_of_ne (hi.trans_ne hij)] at hj
      rw [waiting_schedule_of_ne hordered fun p hp => (hfired.next p hp).trans_ne hij]
      exact hj
  · rw [hheap, List.length_modify]
    rw [hfires.timers] at hv
    rcases mem_schedule.1 hv with hv | ⟨p, hp, rfl⟩
    · exact h.strays v (by rw [htimers]; exact List.mem_cons_of_mem u hv)
    · exact (hfired.next p hp).trans_lt hlt
  · have hheld := hfired.held id
    have hold : ({ s with timers := ts } : Sim Body).reserved id = s.reserved id := reserved_of_eq rfl id
    rw [reserved_fireCallback, hheap, hpending, List.sum_map_modify hget, hold, h.reserved, hheld]
    simp only
    omega
  · have hmoved := hfired.moved id
    rw [(fireCallback_books (s := { s with timers := ts }) u.callback).ledger, posted_append, hheap, hpending,
      List.sum_map_modify hget, hmoved]
    have hold := h.posted id
    simp only at hold ⊢
    omega

/-! ### Settlements -/

theorem mem_due {cred : String} {i : Nat} (h : i ∈ s.due cred) : ∃ t, s.heap[i]? = some t ∧
    t.credential = cred ∧ t.kind = .collection ∧ t.status = .settled ∧ t.settlementStatus = some .eligible := by
  obtain ⟨t, ht, hdue⟩ := (Option.any_eq_true _ _).1 (List.mem_filter.1 h).2
  simp only [Bool.and_eq_true, decide_eq_true_eq] at hdue
  exact ⟨t, ht, hdue.1.1.1, hdue.1.1.2, hdue.1.2, hdue.2⟩

/-- A collection that has settled waits for nothing. -/
theorem nil_of_settled {i : Nat} {t : Tx} {cbs : List Callback} (h : Stands i t cbs) (hkind : t.kind = .collection)
    (hstatus : t.status = .settled) : cbs = [] := by
  cases h with
  | collecting early outcome hkind' hne hnot hearly => exact absurd hstatus hne
  | collected hkind' hiff => rfl
  | paying early half outcome hkind' | reviewing cbs hkind' | vending early half hkind' | payoutFailed hkind'
  | vendFailed hkind' => cases hkind.symm.trans hkind'
  | paid hkind' => rfl
  | vended hkind' => rfl
  | transferred hkind' => rfl

theorem moved_markSettled {t : Tx} (hkind : t.kind = .collection) (helig : t.settlementStatus = some .eligible)
    (hstatus : t.status = .settled) (id : String) :
    (markSettled t).moved id - t.moved id = (if t.credential = id then -1 else 0) * t.split.recipientAmount := by
  have hafter : (markSettled t).moved id = 0 := by
    have hmarked : (markSettled t).kind = .collection ∧ (markSettled t).status = .settled ∧
      (markSettled t).settlementStatus = some .settled := ⟨hkind, hstatus, rfl⟩
    simp [Tx.moved, hmarked]
  rw [hafter]
  by_cases hid : t.credential = id
  · simp [Tx.moved, hkind, helig, hstatus, hid]
  · simp [Tx.moved, hkind, hid]

theorem recipientAmount_eq {i : Nat} {t : Tx} (h : s.heap[i]? = some t) : s.recipientAmount i = t.split.recipientAmount := by
  rw [recipientAmount, h]
  rfl

/-- What the marks on the due collections move is what the run pays out. -/
theorem sum_moved_due (cred id : String) : ((s.due cred).map fun i =>
    (s.heap[i]?.map fun t => (markSettled t).moved id - t.moved id).getD 0).sum =
      if cred = id then -s.net cred else 0 := by
  have hterms : ((s.due cred).map fun i => (s.heap[i]?.map fun t => (markSettled t).moved id - t.moved id).getD 0) =
      (s.due cred).map fun i => (if cred = id then -1 else 0) * s.recipientAmount i := by
    refine List.map_congr_left fun i hi => ?_
    obtain ⟨t, ht, rfl, hkind, hstatus, helig⟩ := mem_due hi
    rw [ht, Option.map_some, Option.getD_some, moved_markSettled hkind helig hstatus, recipientAmount_eq ht]
  rw [hterms, List.sum_map_mul_left, ← net]
  split_ifs <;> simp

theorem Places.nodup_due (h : s.Places) (cred : String) : (s.due cred).Nodup := h.nodup.filter _

theorem Accounts.settle (h : s.Accounts) {cred reference : String} (hnodup : (s.due cred).Nodup)
    (hs : Settles s s' cred reference) : s'.Accounts := by
  refine ⟨?_, fun i t ht => ?_, fun u hu => ?_, fun id => ?_, fun id => ?_⟩
  · rw [hs.timers]
    exact h.ordered
  · rw [hs.timers]
    rw [hs.heap] at ht
    split_ifs at ht with hnet
    · rw [List.getElem?_modifyAll hnodup] at ht
      split_ifs at ht with hi
      · obtain ⟨t₀, ht₀, -, hkind, hstatus, -⟩ := mem_due hi
        rw [ht₀, Option.map_some] at ht
        obtain rfl := Option.some.inj ht
        rw [nil_of_settled (h.stands i t₀ ht₀) hkind hstatus]
        exact .collected hkind (iff_of_true hstatus (by simp [markSettled]))
      · exact h.stands i t ht
    · exact h.stands i t ht
  · rw [hs.length]
    exact h.strays u (hs.timers ▸ hu)
  · rw [hs.reserved, h.reserved, hs.pending, hs.heap]
    split_ifs
    · rw [List.sum_map_modifyAll hnodup]
      have hzero : ((s.due cred).map fun i => (s.heap[i]?.map fun t => (markSettled t).held id - t.held id).getD 0).sum = 0 := by
        refine List.sum_eq_zero fun x hx => ?_
        obtain ⟨i, hi, rfl⟩ := List.mem_map.1 hx
        obtain ⟨t, ht, -⟩ := mem_due hi
        rw [ht]
        exact sub_self (t.held id)
      rw [hzero, add_zero]
    · rfl
  · rw [hs.books.ledger, posted_append, h.posted, hs.pending, hs.heap]
    split_ifs with hnet
    · rw [List.sum_map_modifyAll hnodup, sum_moved_due, posted_entry (by simp)]
      simp only
      omega
    · rw [posted_nothing, add_zero]

/-! ### All steps -/

theorem Accounts.setBalance (h : s.Accounts) {cred amount : String} {target : Nat}
    (ht : parseAmount amount = some target) : (s.setBalance cred amount).2.Accounts := by
  have hbooks : Books s (s.setBalance cred amount).2 _ := setBalance_books ht
  have hpending := pending_setBalance (s := s) cred amount
  obtain ⟨htimers, hheap, -⟩ := setBalance_rest (s := s) cred amount
  refine ⟨htimers ▸ h.ordered, ?_, ?_, fun id => ?_, fun id => ?_⟩
  · rw [hheap, htimers]
    exact h.stands
  · rw [hheap, htimers]
    exact h.strays
  · rw [reserved_setBalance, h.reserved, hheap, hpending]
  · rw [hbooks.ledger, posted_append, h.posted, hheap, hpending, Option.toList_some, posted_singleton]
    simp

/-- What the law asks of the configurations, at any time. -/
structure Kept (c : SimConfig) : Prop where
  race : c.raceBug = false
  mass : c.weak.massAssignment = false
  half : c.HalfFirst

theorem Trans.accounts (h : Trans W s l s') (ha : s.Accounts) (hp : s.Places) (hc : Kept s.config) : s'.Accounts := by
  cases h with
  | quiet l hcalm hsame hpending => exact ha.same hsame hpending
  | elapse ms =>
    have hreserved (id : String) : ({ s with now := s.now + ms } : Sim Body).reserved id = s.reserved id :=
      @reserved_of_eq _ s { s with now := s.now + ms } rfl id
    exact ⟨ha.ordered, ha.stands, ha.strays, fun id => (hreserved id).trans (ha.reserved id), ha.posted⟩
  | patchConfig config =>
    have hreserved (id : String) : ({ s with config } : Sim Body).reserved id = s.reserved id :=
      @reserved_of_eq _ s { s with config } rfl id
    exact ⟨ha.ordered, ha.stands, ha.strays, fun id => (hreserved id).trans (ha.reserved id), ha.posted⟩
  | collect cred body r amount hreq => exact ha.collect hc.half hreq
  | start l f hcalm hopens hopened hfunds hsame hpending => exact ha.start (hopened.ok hc.mass) hsame hpending
  | finish i f hcalm hsame hpending =>
    have hf : f.Ok := hp.frames f (hpending.mem_iff.2 List.mem_cons_self)
    exact ha.finish hc.half hf hsame hpending
  | direct cred body r amount hreq hfunding =>
    have hbump : s.bumpSeq.Accounts := ha.same Same.refl.bumpSeq (.refl _)
    refine hbump.direct hc.half rfl (by simp [utilityTx, newTx]) ?_
    simpa [Tx.walletFunded, utilityTx] using hfunding
  | fire u ts htimers hdue => exact ha.fire htimers
  | settle cred body r hparse hpolicy hnew => exact ha.settle (hp.nodup_due cred) (settleNow_settles hparse hpolicy hnew)
  | setBalance cred amount target ht => exact ha.setBalance ht

/-! ### The table -/

/-- The transaction that a label puts in the table at once: a utility purchase that no wallet pays for. -/
def direct (W : Wire Body) (s : Sim Body) : Label Body → Option Tx
  | .createUtilityPurchase cred body =>
    match s.utilityRequest W cred body with
    | .ok (.inr (r, amount)) =>
      if r.funding.type = .wallet then none else some (s.utilityTx cred r amount (W.hashOf body))
    | _ => none
  | _ => none

/-- No paid call waits with the reference of a payment that passes its checks. -/
def Apart (W : Wire Body) (s : Sim Body) (l : Label Body) : Prop :=
  (∀ f ∈ s.opens W l, ∀ g ∈ s.pending, g.tx.key ≠ f.tx.key) ∧
    ∀ tx ∈ s.direct W l, ∀ g ∈ s.pending, g.tx.key ≠ tx.key

instance (W : Wire Body) (s : Sim Body) (l : Label Body) : Decidable (s.Apart W l) :=
  inferInstanceAs (Decidable (_ ∧ _))

/-- Every transaction is in the table, and the paid calls that wait will be, each under a key of its own. -/
structure Table (s : Sim Body) : Prop where
  all : ∀ j < s.heap.length, j ∈ s.txs.values
  keys : (s.pending.map (·.tx.key)).Nodup
  absent : ∀ f ∈ s.pending, s.txs.get? f.tx.key = none

theorem init_table (config : SimConfig) (now : Time) : (Sim.init Body config now).Table where
  all _ hj := absurd hj (Nat.not_lt_zero _)
  keys := List.nodup_nil
  absent := List.forall_mem_nil _

theorem Table.of_eq (h : s.Table) (hheap : s'.heap.length = s.heap.length) (htxs : s'.txs = s.txs)
    (hpending : s'.pending.Perm s.pending) : s'.Table where
  all := by
    rw [hheap, htxs]
    exact h.all
  keys := (hpending.map _).nodup_iff.2 h.keys
  absent f hf := htxs ▸ h.absent f (hpending.mem_iff.1 hf)

theorem existing_absent (hp : s.Places) (hcorrect : s.config.idempotency = .correct) {kind : Kind}
    {cred reference hash : String} (h : s.existing kind cred reference hash = .ok none) :
    s.txs.get? ⟨kind, cred, reference, none⟩ = none :=
  existing_none hcorrect (fun _ _ hk => hp.inHeap _ (OrderedMap.mem_values_iff.2 ⟨_, hk⟩)) h

theorem Table.start (h : s.Table) {f : Frame} (habsent : s.txs.get? f.tx.key = none)
    (hapart : ∀ g ∈ s.pending, g.tx.key ≠ f.tx.key) (hsame : Same (s.paidFor f.debit) s')
    (hpending : s'.pending.Perm (f :: s.pending)) : s'.Table where
  all := by
    rw [hsame.heap, hsame.txs]
    exact h.all
  keys := by
    refine (hpending.map _).nodup_iff.2 (List.nodup_cons.2 ⟨fun hmem => ?_, h.keys⟩)
    obtain ⟨g, hg, hkey⟩ := List.mem_map.1 hmem
    exact hapart g hg hkey
  absent g hg := by
    rw [hsame.txs]
    rcases List.mem_cons.1 (hpending.mem_iff.1 hg) with rfl | hg
    · exact habsent
    · exact h.absent g hg

theorem Table.registers (h : s.Table) (hcorrect : s.config.idempotency = .correct) {tx : Tx}
    {plan : List (Nat × Callback)} (hreg : Registers s s' tx plan) (habsent : s.txs.get? tx.key = none) (fs : List Frame)
    (hpending : s.pending.Perm (fs ++ s'.pending)) (hother : ∀ g ∈ s'.pending, g.tx.key ≠ tx.key) : s'.Table := by
  obtain ⟨key, htxs, -, hkey⟩ := hreg.txs
  rw [hcorrect] at hkey
  obtain rfl : key = tx.key := hkey
  refine ⟨fun j hj => ?_, ?_, fun g hg => ?_⟩
  · rw [hreg.heap, List.length_append, List.length_singleton] at hj
    rw [htxs, OrderedMap.values_set_of_absent habsent]
    rcases Nat.lt_succ_iff_lt_or_eq.1 hj with hj | rfl
    · exact List.mem_append_left _ (h.all j hj)
    · exact List.mem_append_right _ (List.mem_singleton_self _)
  · have hkeys := (hpending.map (·.tx.key)).nodup_iff.1 h.keys
    rw [List.map_append] at hkeys
    exact (List.nodup_append.1 hkeys).2.1
  · rw [htxs, OrderedMap.get?_set, if_neg (hother g hg).symm]
    exact h.absent g (hpending.mem_iff.2 (List.mem_append_right fs hg))

theorem finish_key (f : Frame) : (s.finish f).1.key = f.tx.key := by
  cases hf : f.create with
  | payout provider value payer | utility => simp only [Sim.finish, hf]
  | transfer handle =>
    simp only [Sim.finish, hf]
    rfl

theorem Trans.table (h : Trans W s l s') (ht : s.Table) (hp : s.Places) (hcorrect : s.config.idempotency = .correct)
    (hapart : s.Apart W l) : s'.Table := by
  cases h with
  | quiet l hcalm hsame hpending => exact ht.of_eq (by rw [hsame.heap]) hsame.txs hpending
  | elapse ms => exact ht.of_eq rfl rfl (.refl _)
  | patchConfig config => exact ht.of_eq rfl rfl (.refl _)
  | collect cred body r amount hreq =>
    have hpending := pending_createCollection (W := W) (s := s) cred body
    refine ht.registers hcorrect (createCollection_registers hreq) (existing_absent hp hcorrect (collectionRequest_ok hreq))
      [] (.of_eq hpending.symm) fun g hg hkey => ?_
    exact (hp.frames g (hpending ▸ hg)).kind (congrArg TxKey.kind hkey)
  | start l f hcalm hopens hopened hfunds hsame hpending =>
    exact ht.start (existing_absent hp hcorrect hopened.checked.1) (hapart.1 f hopens) hsame hpending
  | finish i f hcalm hsame hpending =>
    have hf : f ∈ s.pending := hpending.mem_iff.2 List.mem_cons_self
    have hreg : Registers s s' (s.finish f).1 (s.plan f) := (finish_registers (hp.frames f hf).kind).same hsame
    have hkeys := (hpending.map (·.tx.key)).nodup_iff.1 ht.keys
    refine ht.registers hcorrect hreg ((finish_key f).symm ▸ ht.absent f hf) [f] hpending fun g hg hkey => ?_
    exact (List.nodup_cons.1 hkeys).1 (List.mem_map.2 ⟨g, hg, hkey.trans (finish_key f)⟩)
  | direct cred body r amount hreq hfunding =>
    have hdirect : s.direct W (.createUtilityPurchase cred body) = some (s.utilityTx cred r amount (W.hashOf body)) := by
      simp only [Sim.direct, hreq, if_neg hfunding]
    have hbump : s.bumpSeq.Table := ht.of_eq rfl rfl (.refl _)
    exact hbump.registers hcorrect (finishUtility_registers (by simp [utilityTx, newTx]))
      (existing_absent hp hcorrect (utilityRequest_ok hreq).1) [] (.refl _) (hapart.2 _ hdirect)
  | fire u ts htimers hdue =>
    have hfires := fireCallback_fires (s := { s with timers := ts }) u.callback
    exact ht.of_eq (by rw [hfires.heap, List.length_modify]) hfires.txs (.of_eq (pending_fireCallback u.callback))
  | settle cred body r hparse hpolicy hnew =>
    have hs : Settles s (s.settleNow W cred body).2 cred r.reference := settleNow_settles hparse hpolicy hnew
    exact ht.of_eq hs.length hs.txs (.of_eq hs.pending)
  | setBalance cred amount target ht' =>
    obtain ⟨-, hheap, htxs⟩ := setBalance_rest (s := s) cred amount
    exact ht.of_eq (by rw [hheap]) htxs (.of_eq (pending_setBalance cred amount))

end Sim

end Simulator

end CronMonitor
