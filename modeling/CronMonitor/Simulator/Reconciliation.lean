import CronMonitor.Simulator.AccountSteps

/-!
# Reconciliation

What a wallet reserves and what is posted to it, from the transaction table. Both agree with the table whenever no create
call waits, unless two calls with one reference passed their checks side by side: both are debited, and the second
transaction takes the place of the first in the table.
-/

namespace CronMonitor

namespace Simulator

variable {Body : Type}

namespace Sim
open Runs

variable {W : Wire Body} {s s' : Sim Body} {l : Label Body}

/-! ### Sums over the table -/

/-- The transactions of the table. -/
def registered (s : Sim Body) : List Tx := s.txs.values.filterMap (s.heap[·]?)

def tableSum (s : Sim Body) (p : Tx → Bool) (f : Tx → Int) : Int := ((s.registered.filter p).map f).sum

/-- The payouts of a wallet that are neither delivered nor refunded, by what their payer pays. -/
def openPayouts (s : Sim Body) (id : String) : Int :=
  s.tableSum (fun t => t.kind = .payout && t.credential = id && t.isOpen) fun t => t.split.payerAmount

/-- The utility purchases that a wallet pays for and that are neither delivered nor refunded, by amount and fee. -/
def openUtilities (s : Sim Body) (id : String) : Int :=
  s.tableSum (fun t => t.kind = .utilityPurchase && t.walletFunded && t.credential = id && t.isOpen) fun t =>
    t.amount + t.fee

def collected (s : Sim Body) (id : String) : Int :=
  s.tableSum (fun t => t.kind = .collection && t.credential = id && t.status = .settled) fun t => t.split.recipientAmount

def settledOut (s : Sim Body) (id : String) : Int :=
  s.tableSum (fun t => t.kind = .collection && t.credential = id && t.settlementStatus = some .settled) fun t =>
    t.split.recipientAmount

def paidOut (s : Sim Body) (id : String) : Int :=
  s.tableSum (fun t => t.kind = .payout && t.credential = id && t.status ≠ .refunded) fun t => t.split.payerAmount

def purchased (s : Sim Body) (id : String) : Int :=
  s.tableSum (fun t => t.kind = .utilityPurchase && t.walletFunded && t.credential = id && t.status ≠ .refunded) fun t =>
    t.amount + t.fee

def transferredOut (s : Sim Body) (id : String) : Int :=
  s.tableSum (fun t => t.kind = .transfer && t.credential = id) fun t => t.amount

def transferredIn (s : Sim Body) (id : String) : Int :=
  s.tableSum (fun t => t.kind = .transfer && t.party = some id) fun t => t.amount

theorem tableSum_eq (p : Tx → Bool) (f : Tx → Int) :
    s.tableSum p f = (s.registered.map fun t => if p t then f t else 0).sum := by
  rw [tableSum]
  induction s.registered with
  | nil => rfl
  | cons t ts ih =>
    rw [List.filter_cons, List.map_cons, List.sum_cons, ← ih]
    split_ifs
    · rw [List.map_cons, List.sum_cons]
    · rw [zero_add]

theorem held_eq (t : Tx) (id : String) : t.held id =
    (if t.kind = .payout && t.credential = id && t.isOpen then (t.split.payerAmount : Int) else 0) +
      if t.kind = .utilityPurchase && t.walletFunded && t.credential = id && t.isOpen then (t.amount + t.fee : Int)
      else 0 := by
  cases hkind : t.kind with
  | collection | transfer => simp [Tx.held, Tx.reserves, hkind]
  | payout => simp [Tx.held, Tx.reserves, Tx.outlay, hkind]
  | utilityPurchase => cases hfunded : t.walletFunded <;> simp [Tx.held, Tx.reserves, Tx.outlay, hkind, hfunded]

theorem moved_eq (t : Tx) (id : String) : t.moved id =
    (if t.kind = .collection && t.credential = id && t.status = .settled then t.split.recipientAmount else 0) -
      (if t.kind = .collection && t.credential = id && t.settlementStatus = some .settled then t.split.recipientAmount
        else 0) -
      (if t.kind = .payout && t.credential = id && t.status ≠ .refunded then (t.split.payerAmount : Int) else 0) -
      (if t.kind = .utilityPurchase && t.walletFunded && t.credential = id && t.status ≠ .refunded then
        (t.amount + t.fee : Int) else 0) -
      (if t.kind = .transfer && t.credential = id then (t.amount : Int) else 0) +
      if t.kind = .transfer && t.party = some id then (t.amount : Int) else 0 := by
  cases hkind : t.kind with
  | collection => by_cases hid : t.credential = id <;> simp [Tx.moved, hkind, hid]
  | payout => by_cases hid : t.credential = id ∧ t.status ≠ .refunded <;> simp [Tx.moved, Tx.reserves, Tx.outlay, hkind, hid]
  | utilityPurchase =>
    cases hfunded : t.walletFunded
    · simp [Tx.moved, Tx.reserves, hkind, hfunded]
    · by_cases hid : t.credential = id ∧ t.status ≠ .refunded <;>
        simp [Tx.moved, Tx.reserves, Tx.outlay, hkind, hfunded, hid]
  | transfer =>
    simp only [Tx.moved, hkind]
    simp
    ring

theorem sum_held (id : String) :
    (s.registered.map (·.held id)).sum = s.openPayouts id + s.openUtilities id := by
  simp only [openPayouts, openUtilities, tableSum_eq]
  induction s.registered with
  | nil => rfl
  | cons t ts ih =>
    simp only [List.map_cons, List.sum_cons]
    rw [ih, held_eq t]
    ring

theorem sum_moved (id : String) : (s.registered.map (·.moved id)).sum =
    s.collected id - s.settledOut id - s.paidOut id - s.purchased id - s.transferredOut id + s.transferredIn id := by
  simp only [collected, settledOut, paidOut, purchased, transferredOut, transferredIn, tableSum_eq]
  induction s.registered with
  | nil => rfl
  | cons t ts ih =>
    simp only [List.map_cons, List.sum_cons]
    rw [ih, moved_eq t]
    ring

/-- With nothing lost the table is the heap in another order. -/
theorem registered_perm (hp : s.Places) (ht : s.Table) : s.registered.Perm s.heap :=
  List.perm_filterMap_getElem? hp.nodup fun j => ⟨hp.inHeap j, ht.all j⟩

/-! ### Every state of a run -/

/-- What the laws ask of the configurations: references count, the race window is closed, and no client sets the fields
of its payment. -/
structure Ruled (c : SimConfig) : Prop where
  idempotency : c.idempotency = .correct
  kept : Kept c

instance (c : SimConfig) : Decidable (Ruled c) :=
  decidable_of_iff (c.idempotency = .correct ∧ c.raceBug = false ∧ c.weak.massAssignment = false ∧ c.HalfFirst)
    ⟨fun h => ⟨h.1, h.2.1, h.2.2.1, h.2.2.2⟩, fun h => ⟨h.idempotency, h.kept.race, h.kept.mass, h.kept.half⟩⟩

/-- The invariant of the runs in which no reference is used twice side by side. -/
structure Settled (s : Sim Body) : Prop where
  config : Ruled s.config
  calm : s.Calm
  places : s.Places
  accounts : s.Accounts
  table : s.Table

theorem init_settled {config : SimConfig} (h : Ruled config) (now : Time) : (Sim.init Body config now).Settled :=
  ⟨h, (init_noRace h.kept.race now).calm, init_places config now, init_accounts config now, init_table config now⟩

theorem Settled.step (h : s.Settled) (hstep : s.step W l = some s') (hl : l.keeps Ruled) (hapart : s.Apart W l) :
    s'.Settled := by
  have hrace : s.NoRace := ⟨h.config.kept.race, h.calm⟩
  have htrans := step_trans hrace hstep
  have hconfig : Ruled s'.config := htrans.keeps h.config hl
  have hlrace : l.keeps (·.raceBug = false) := by
    cases l with
    | patchConfig config => exact hl.kept.race
    | _ => trivial
  exact ⟨hconfig, (htrans.noRace hrace hlrace).calm, htrans.places h.places h.config.kept.mass,
    htrans.accounts h.accounts h.places h.config.kept, htrans.table h.table h.places h.config.idempotency hapart⟩

theorem pending_of_calls (h : s.calls = []) : s.pending = [] := by
  rw [pending, h]
  rfl

/-- What a wallet reserves is what its open payments hold. -/
structure ReservesOpen (s : Sim Body) (id : String) : Prop where
  sum : s.reserved id = s.openPayouts id + s.openUtilities id
  nonneg : 0 ≤ s.reserved id
  final : (∀ t ∈ s.registered, t.credential = id → t.reserves → ¬ t.isOpen) → s.reserved id = 0

/-- What is posted to a wallet, the adjustments apart, is what the table says. -/
def PostsTable (s : Sim Body) (id : String) : Prop := posted s.ledger id =
  s.collected id - s.settledOut id - s.paidOut id - s.purchased id - s.transferredOut id + s.transferredIn id

theorem held_nonneg (t : Tx) (id : String) : 0 ≤ t.held id := by
  rw [Tx.held]
  split_ifs
  · exact Int.natCast_nonneg t.outlay
  · exact le_rfl

theorem Settled.reservesOpen (h : s.Settled) (hcalls : s.calls = []) (id : String) : s.ReservesOpen id := by
  have hsum : s.reserved id = (s.registered.map (·.held id)).sum := by
    rw [h.accounts.reserved, pending_of_calls hcalls, ((registered_perm h.places h.table).map _).sum_eq]
    exact add_zero _
  refine ⟨hsum.trans (sum_held id), ?_, fun hfinal => ?_⟩
  · rw [hsum]
    exact List.sum_nonneg (List.forall_mem_map.2 fun t _ => held_nonneg t id)
  · rw [hsum]
    refine List.sum_eq_zero (List.forall_mem_map.2 fun t ht => if_neg ?_)
    rintro ⟨hid, hreserves, hopen⟩
    exact hfinal t ht hid hreserves hopen

theorem Settled.postsTable (h : s.Settled) (hcalls : s.calls = []) (id : String) : s.PostsTable id := by
  rw [PostsTable, h.accounts.posted, pending_of_calls hcalls, ← sum_moved,
    ((registered_perm h.places h.table).map _).sum_eq]
  exact sub_zero _

theorem settled_along {config : SimConfig} (hconfig : Ruled config) (now : Time) {tr : List (Label Body)}
    (hkeeps : ∀ l ∈ tr, l.keeps Ruled)
    (hapart : Along (step W) (fun s l _ => s.Apart W l) (.init Body config now) tr) :
    Throughout (step W) Settled (.init Body config now) tr := by
  have hlabels : Along (step W) (fun _ l _ => l.keeps Ruled) (.init Body config now) tr := .of_labels hkeeps
  refine ⟨init_settled hconfig now, (hlabels.and hapart).under_inv (init_settled hconfig now) ?_⟩
  intro s l s' hs hstep hC
  have hs' := hs.step hstep hC.1 hC.2
  exact ⟨hs', hs'⟩

/-- Reserved funds are those of the open payments, in every state in which no create call waits. -/
theorem reserved_funds (W : Wire Body) (config : SimConfig) (now : Time) (tr : List (Label Body)) (hconfig : Ruled config)
    (hkeeps : ∀ l ∈ tr, l.keeps Ruled) (hapart : Along (step W) (fun s l _ => s.Apart W l) (.init Body config now) tr) :
    Throughout (step W) (fun s => s.calls = [] → ∀ id, s.ReservesOpen id) (.init Body config now) tr := by
  have hsettled := settled_along hconfig now hkeeps hapart
  exact ⟨fun hcalls => hsettled.1.reservesOpen hcalls, hsettled.2.mono fun _ _ _ _ h hcalls => h.reservesOpen hcalls⟩

/-- A payout of 10.00. -/
def payTen (reference : String) : Label Form :=
  .createPayout "shop" (.payout ⟨reference, "10.00", "GHS", "mtn", ⟨.msisdn, "0240000000"⟩, none⟩)

/-- Two payouts side by side, and a transfer once they are delivered. -/
def payouts (second : String) : List (Label Form) :=
  [payTen "p1", payTen second, .resume 0, .resume 0, .elapse 50, .timer, .timer, .timer, .timer,
    .createTransfer "shop" (.transfer ⟨"t1", "acme-store", "5.00", "GHS"⟩), .resume 0]

theorem reserved_funds_apart : Throughout (step formWire) (fun s => s.calls = [] → ∀ id, s.ReservesOpen id)
    (.init Form SimConfig.default 0) (payouts "p2") :=
  reserved_funds formWire SimConfig.default 0 _ (by decide) (by decide) (by decide +kernel)

/-- Both payouts with one reference reserve, and the table has one of them. -/
theorem reserved_twice : ∃ s, run (step formWire) (.init Form SimConfig.default 0) [payTen "p1", payTen "p1", .resume 0, .resume 0] =
    some s ∧ Ruled s.config ∧ s.config.weak = ⟨false, false, false⟩ ∧ s.calls = [] ∧ s.reserved "shop" = 2020 ∧
      s.openPayouts "shop" + s.openUtilities "shop" = 1010 := by
  obtain ⟨s, hr, hs⟩ := Option.map_eq_some_iff.1 (show (run (step formWire) (.init Form SimConfig.default 0)
    [payTen "p1", payTen "p1", .resume 0, .resume 0]).map (fun s => (decide (Ruled s.config), s.config.weak, s.calls.length,
      s.reserved "shop", s.openPayouts "shop" + s.openUtilities "shop")) =
        some (true, ⟨false, false, false⟩, 0, 2020, 1010) by decide +kernel)
  simp only [Prod.mk.injEq, decide_eq_true_eq, List.length_eq_zero_iff] at hs
  exact ⟨s, hr, hs⟩

/-! ### Balances -/

/-- Every balance is the opening balance and what is posted since. -/
def Balanced (s : Sim Body) : Prop := ∀ id, s.balance id = s.opening id + ledgerSum s.ledger id

theorem Books.balanced {m : Option LedgerEntry} (h : Books s s' m) (hs : s.Balanced) : s'.Balanced := by
  intro id
  rw [h.balance, h.opening, h.ledger, ledgerSum_append, hs id]
  omega

theorem patchConfig_balanced (hs : s.Balanced) (config : SimConfig) : ({ s with config } : Sim Body).Balanced := by
  intro id
  have hid := hs id
  cases hget : s.wallets.get? id with
  | none =>
    simp only [balance, opening, walletOf, hget] at hid ⊢
    simpa using hid
  | some w =>
    simp only [balance, opening, walletOf, hget] at hid ⊢
    exact hid

theorem Trans.balanced (h : Trans W s l s') (hs : s.Balanced) : s'.Balanced := by
  cases h with
  | quiet l hcalm hsame hpending => exact hsame.books.balanced hs
  | elapse ms => exact (@Books.of_eq _ s { s with now := s.now + ms } rfl rfl rfl).balanced hs
  | patchConfig config => exact patchConfig_balanced hs config
  | collect cred body r amount h => exact createCollection_books.balanced hs
  | start l f hcalm hopens hopened hfunds hsame hpending =>
    exact ((paidFor_books f.debit).quiet_right hsame.books).balanced hs
  | finish i f hcalm hsame hpending => exact ((finish_books f).quiet_right hsame.books).balanced hs
  | direct cred body r amount h hfunding =>
    have hbooks := (@Books.of_eq _ s s.bumpSeq rfl rfl rfl).quiet_left
      (finishUtility_books (s.utilityTx cred r amount (W.hashOf body)))
    exact hbooks.balanced hs
  | fire t ts htimers hdue =>
    have hbooks := (@Books.of_eq _ s { s with timers := ts } rfl rfl rfl).quiet_left (fireCallback_books t.callback)
    exact hbooks.balanced hs
  | settle cred body r hparse hpolicy hnew => exact (settleNow_settles hparse hpolicy hnew).books.balanced hs
  | setBalance cred amount target h => exact (setBalance_books h).balanced hs

theorem balanced_along {config : SimConfig} (hrace : config.raceBug = false) (now : Time) {tr : List (Label Body)}
    (hkeeps : ∀ l ∈ tr, l.keeps (·.raceBug = false)) : Throughout (step W) Balanced (.init Body config now) tr := by
  have hlabels : Along (step W) (fun _ l _ => l.keeps (·.raceBug = false)) (.init Body config now) tr := .of_labels hkeeps
  have h₀ : (Sim.init Body config now).NoRace ∧ (Sim.init Body config now).Balanced :=
    ⟨init_noRace hrace now, fun id => (add_zero _).symm⟩
  refine ⟨h₀.2, hlabels.under_inv (I := fun s => s.NoRace ∧ s.Balanced) h₀ fun s l s' hI hstep hl => ?_⟩
  have htrans := step_trans hI.1 hstep
  exact ⟨⟨htrans.noRace hI.1 hl, htrans.balanced hI.2⟩, htrans.balanced hI.2⟩

/-- With the race window closed every balance is the opening balance and the ledger, whatever the configurations; with
references that count, what is posted agrees with the table whenever no create call waits. -/
theorem ledger_reconciles (W : Wire Body) (config : SimConfig) (now : Time) (tr : List (Label Body))
    (hrace : config.raceBug = false) (hkeeps : ∀ l ∈ tr, l.keeps (·.raceBug = false)) :
    Throughout (step W) Balanced (.init Body config now) tr ∧
      (Ruled config → (∀ l ∈ tr, l.keeps Ruled) →
        Along (step W) (fun s l _ => s.Apart W l) (.init Body config now) tr →
          Throughout (step W) (fun s => s.calls = [] → ∀ id, s.PostsTable id) (.init Body config now) tr) := by
  refine ⟨balanced_along hrace now hkeeps, fun hconfig hruled hapart => ?_⟩
  have hsettled := settled_along hconfig now hruled hapart
  exact ⟨fun hcalls => hsettled.1.postsTable hcalls, hsettled.2.mono fun _ _ _ _ h hcalls => h.postsTable hcalls⟩

theorem ledger_reconciles_apart : Throughout (step formWire) Balanced (.init Form SimConfig.default 0) (payouts "p2") ∧
    Throughout (step formWire) (fun s => s.calls = [] → ∀ id, s.PostsTable id) (.init Form SimConfig.default 0)
      (payouts "p2") := by
  have h := ledger_reconciles formWire SimConfig.default 0 (payouts "p2") rfl (by decide)
  exact ⟨h.1, h.2 (by decide) (by decide) (by decide +kernel)⟩

/-- Both payouts with one reference are posted. -/
theorem posted_twice : ∃ s, run (step formWire) (.init Form SimConfig.default 0) (payouts "p1") = some s ∧
    Ruled s.config ∧ s.config.weak = ⟨false, false, false⟩ ∧ s.calls = [] ∧ posted s.ledger "shop" = -2520 ∧
      s.collected "shop" - s.settledOut "shop" - s.paidOut "shop" - s.purchased "shop" - s.transferredOut "shop" +
        s.transferredIn "shop" = -1510 := by
  obtain ⟨s, hr, hs⟩ := Option.map_eq_some_iff.1 (show (run (step formWire) (.init Form SimConfig.default 0)
    (payouts "p1")).map (fun s => (decide (Ruled s.config), s.config.weak, s.calls.length, posted s.ledger "shop",
      s.collected "shop" - s.settledOut "shop" - s.paidOut "shop" - s.purchased "shop" - s.transferredOut "shop" +
        s.transferredIn "shop")) = some (true, ⟨false, false, false⟩, 0, -2520, -1510) by decide +kernel)
  simp only [Prod.mk.injEq, decide_eq_true_eq, List.length_eq_zero_iff] at hs
  exact ⟨s, hr, hs⟩

end Sim

end Simulator

end CronMonitor
