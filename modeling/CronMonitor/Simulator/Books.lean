import CronMonitor.Simulator.Ops

/-!
# Balances and the ledger

`Books s s' m` says that between `s` and `s'` the ledger got the entry `m`, if any, and that the balances moved
by exactly that entry. With `raceBug` off every step of the simulator makes at most one entry, and `Step` says
for which entries the balance was looked at before.
-/

namespace CronMonitor

namespace Simulator

variable {Body : Type}

def ledgerSum (ledger : List LedgerEntry) (id : String) : Int := ((ledger.filter (·.wallet = id)).map (·.delta)).sum

theorem ledgerSum_append (l l' : List LedgerEntry) (id : String) :
    ledgerSum (l ++ l') id = ledgerSum l id + ledgerSum l' id := by
  simp [ledgerSum]

theorem ledgerSum_singleton (e : LedgerEntry) (id : String) :
    ledgerSum [e] id = if e.wallet = id then e.delta else 0 := by
  by_cases h : e.wallet = id
  · simp [ledgerSum, h]
  · simp [ledgerSum, h]

namespace Sim

variable {W : Wire Body} {s s' t : Sim Body} {m : Option LedgerEntry}

/-- The balance of a wallet, which is the opening balance until there is one. -/
def balance (s : Sim Body) (id : String) : Int := (s.walletOf id).balance

def opening (s : Sim Body) (id : String) : Int := (s.walletOf id).opening

structure Books (s s' : Sim Body) (m : Option LedgerEntry) : Prop where
  ledger : s'.ledger = s.ledger ++ m.toList
  opening : ∀ id, s'.opening id = s.opening id
  balance : ∀ id, s'.balance id = s.balance id + ledgerSum m.toList id

theorem Books.of_eq (hledger : s'.ledger = s.ledger) (hwallets : s'.wallets = s.wallets)
    (hconfig : s'.config = s.config) : Books s s' none := by
  have hwallet : ∀ id, s'.opening id = s.opening id ∧ s'.balance id = s.balance id := by
    intro id
    simp only [Sim.opening, Sim.balance, walletOf, hwallets, hconfig]
    cases s.wallets.get? id <;> exact ⟨rfl, rfl⟩
  exact ⟨by rw [hledger, Option.toList_none, List.append_nil], fun id => (hwallet id).1,
    fun id => by rw [(hwallet id).2]; simp [ledgerSum]⟩

theorem Books.refl : Books s s none := Books.of_eq rfl rfl rfl

theorem Books.quiet_left (h : Books s s' none) (h' : Books s' t m) : Books s t m where
  ledger := by
    rw [h'.ledger, h.ledger]
    simp
  opening := fun id => (h'.opening id).trans (h.opening id)
  balance := by
    intro id
    rw [h'.balance, h.balance]
    simp [ledgerSum]

theorem Books.quiet_right (h : Books s s' m) (h' : Books s' t none) : Books s t m where
  ledger := by
    rw [h'.ledger, h.ledger]
    simp
  opening := fun id => (h'.opening id).trans (h.opening id)
  balance := by
    intro id
    rw [h'.balance, h.balance]
    simp [ledgerSum]

/-! ### The primitives -/

theorem walletOf_putWallet (id id' : String) (w : Wallet) :
    (s.putWallet id w).walletOf id' = if id = id' then w else s.walletOf id' := by
  simp only [walletOf, putWallet, OrderedMap.get?_set]
  split_ifs <;> rfl

/-- A wallet that keeps its balance. -/
theorem Books.putWallet {id : String} {w : Wallet} (hbalance : w.balance = s.balance id)
    (hopening : (w.opening : Int) = s.opening id) : Books s (s.putWallet id w) none where
  ledger := by simp [Sim.putWallet]
  opening := by
    intro id'
    simp only [Sim.opening, walletOf_putWallet]
    split_ifs with h
    · subst h
      exact hopening
    · rfl
  balance := by
    intro id'
    simp only [Sim.balance, walletOf_putWallet]
    split_ifs with h
    · subst h
      show w.balance = s.balance id + _
      simpa [ledgerSum] using hbalance
    · simp [ledgerSum]

/-- A wallet whose balance moves by what is posted. -/
theorem Books.post {id ref : String} {delta : Int} {kind : LedgerKind} {w : Wallet}
    (hbalance : w.balance = s.balance id + delta) (hopening : (w.opening : Int) = s.opening id) :
    Books s ((s.putWallet id w).post id delta ref kind) (some ⟨s.seq + 1, id, delta, ref, kind⟩) where
  ledger := rfl
  opening := by
    intro id'
    show (((s.putWallet id w).walletOf id').opening : Int) = _
    rw [walletOf_putWallet]
    split_ifs with h
    · subst h
      exact hopening
    · rfl
  balance := by
    intro id'
    show ((s.putWallet id w).walletOf id').balance = _
    rw [walletOf_putWallet, Option.toList_some, ledgerSum_singleton]
    split_ifs with h
    · subst h
      exact hbalance
    · simp [Sim.balance]

theorem Books.ensureWallet (id : String) : Books s (s.ensureWallet id) none := Books.putWallet rfl rfl

theorem Books.release (cred : String) (amount : Nat) : Books s (s.release cred amount) none := Books.putWallet rfl rfl

theorem Books.credit (cred : String) (amount : Int) (ref : String) (kind : LedgerKind) :
    Books s (s.credit cred amount ref kind) (some ⟨s.seq + 1, cred, amount, ref, kind⟩) := Books.post rfl rfl

theorem Books.emit (cred type : String) (data : EventData) : Books s (s.emit cred type data) none :=
  Books.of_eq rfl rfl rfl

theorem Books.update (i : Nat) (f : Tx → Tx) : Books s (s.update i f) none := Books.of_eq rfl rfl rfl

theorem Books.emitTx (i : Nat) (type : String) : Books s (s.emitTx i type) none := by
  unfold Sim.emitTx
  split
  · exact Books.refl
  · exact Books.emit _ _ _

theorem Books.setStatus (i : Nat) (status : TxStatus) (type : String) (final : Bool) (reason : Option String) :
    Books s (s.setStatus i status type final reason) none := by
  unfold Sim.setStatus
  exact (Books.update i _).quiet_left (Books.emitTx i type)

end Sim

end Simulator

end CronMonitor
