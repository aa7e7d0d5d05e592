import CronMonitor.Simulator.Money

/-!
# Overdrafts

A debit looks at the balance before it takes from it. A settlement does not, nor does the credit of a collection whose
fee is larger than its amount. The balances stay at zero or above as long as these two are covered.
-/

namespace CronMonitor

namespace Simulator

variable {Body : Type}

/-- The transaction, wallet, amount and fee of a collection that a callback credits. -/
def Callback.collected : Callback → Option (Nat × String × Nat × Nat)
  | .collectionFinal tx cred amount fee .ok => some (tx, cred, amount, fee)
  | _ => none

namespace Sim
open Runs

variable {W : Wire Body} {s s' : Sim Body} {l : Label Body}

/-- `state().negativeBalances`. -/
def negativeBalances (s : Sim Body) : List String := (s.wallets.entries.filter (·.2.balance < 0)).map Prod.fst

/-- `settleNow` makes a run: the request is well formed, there is a policy, and the reference is new. -/
def makesRun (W : Wire Body) (s : Sim Body) (cred : String) (body : Body) : Bool :=
  match W.settleNow body with
  | .ok r => s.policy.isSome && (s.settlementRuns.find? fun x => x.reference = r.reference && x.cred = cred).isNone
  | .error _ => false

/-- A settlement run pays no more than the wallet has; nor does a collection, where its fee is more than its amount. -/
def Covered (W : Wire Body) (s : Sim Body) : Label Body → Prop
  | .settleNow cred body => s.makesRun W cred body = true → s.net cred ≤ s.balance cred
  | .timer => ∀ timer ∈ s.timers.head?, ∀ c ∈ timer.callback.collected, ∀ t ∈ s.heap[c.1]?,
      0 ≤ s.balance c.2.1 + (applyFee c.2.2.1 c.2.2.2 t.feeBearer).recipientAmount
  | _ => True

/-- No wallet has less than nothing. -/
def Solvent (s : Sim Body) : Prop := ∀ id, 0 ≤ s.balance id

theorem balance_of_absent {id : String} (h : s.wallets.get? id = none) : s.balance id = s.opening id ∧ 0 ≤ s.balance id := by
  simp only [balance, opening, walletOf, h]
  exact ⟨rfl, Int.natCast_nonneg _⟩

theorem solvent_iff : s.Solvent ↔ s.negativeBalances = [] := by
  rw [negativeBalances, List.map_eq_nil_iff, List.filter_eq_nil_iff]
  constructor
  · intro h e he hneg
    have hbalance := h e.1
    simp only [balance, walletOf, OrderedMap.get?_eq_some_iff.2 he, Option.getD_some] at hbalance
    exact absurd hbalance (not_le.2 (of_decide_eq_true hneg))
  · intro h id
    cases hget : s.wallets.get? id with
    | none => exact (balance_of_absent hget).2
    | some w =>
      have hw := h (id, w) (OrderedMap.get?_eq_some_iff.1 hget)
      simp only [balance, walletOf, hget, Option.getD_some]
      simpa using hw

/-- After one entry the balances are as they should be exactly when that of its wallet is. -/
theorem Books.solvent_iff {m : Option LedgerEntry} (h : Books s s' m) (hs : s.Solvent) :
    s'.Solvent ↔ ∀ e ∈ m, 0 ≤ s.balance e.wallet + e.delta := by
  cases m with
  | none =>
    refine ⟨fun _ => nofun, fun _ id => ?_⟩
    rw [h.balance]
    simpa [ledgerSum] using hs id
  | some e =>
    constructor
    · intro hs' e' he'
      obtain rfl := Option.mem_some.1 he'
      have hid := hs' e.wallet
      rwa [h.balance, Option.toList_some, ledgerSum_singleton, if_pos rfl] at hid
    · intro he id
      rw [h.balance, Option.toList_some, ledgerSum_singleton]
      split_ifs with hid
      · rw [← hid]
        exact he e rfl
      · rw [add_zero]
        exact hs id

theorem Books.solvent {m : Option LedgerEntry} (h : Books s s' m) (hs : s.Solvent) (hm : ∀ e ∈ m, 0 ≤ e.delta) :
    s'.Solvent :=
  (h.solvent_iff hs).2 fun e he => add_nonneg (hs e.wallet) (hm e he)

theorem patchConfig_solvent (hs : s.Solvent) (config : SimConfig) : ({ s with config } : Sim Body).Solvent := by
  intro id
  cases hget : s.wallets.get? id with
  | none => exact (balance_of_absent (s := { s with config }) hget).2
  | some w =>
    have hid := hs id
    simp only [balance, walletOf, hget, Option.getD_some] at hid ⊢
    exact hid

/-- A call of `settleNow` that makes no run changes nothing. -/
theorem settleNow_unchanged {cred : String} {body : Body} (h : s.makesRun W cred body = false) :
    (s.settleNow W cred body).2 = s := by
  unfold makesRun at h
  unfold settleNow
  cases hparse : W.settleNow body with
  | error e => rfl
  | ok r =>
    rw [hparse] at h
    cases hpolicy : s.policy with
    | none => rfl
    | some policy =>
      cases hfind : s.settlementRuns.find? fun x => x.reference = r.reference && x.cred = cred with
      | none => simp [hpolicy, hfind] at h
      | some run => simp only [parse, hfind]

theorem settleNow_solvent_iff (hs : s.Solvent) (cred : String) (body : Body) :
    (s.settleNow W cred body).2.Solvent ↔ s.Covered W (.settleNow cred body) := by
  unfold Covered
  cases hrun : s.makesRun W cred body with
  | false =>
    rw [settleNow_unchanged hrun]
    exact ⟨fun _ h => absurd (hrun.symm.trans h) Bool.false_ne_true, fun _ => hs⟩
  | true =>
    have hmakes := hrun
    unfold makesRun at hmakes
    split at hmakes
    · next r hparse =>
      rw [Bool.and_eq_true, Option.isNone_iff_eq_none] at hmakes
      have hbooks := (settleNow_settles (by rw [hparse]; rfl) hmakes.1 hmakes.2).books
      rw [hbooks.solvent_iff hs]
      split_ifs with hnet
      · constructor
        · intro he _
          have := he _ rfl
          simp only at this
          omega
        · intro hle e he
          obtain rfl := Option.mem_some.1 he
          have := hle hrun
          simp only
          omega
      · exact ⟨fun _ _ => (not_lt.1 hnet).trans (hs cred), fun _ => nofun⟩
    · cases hmakes

theorem income_nonneg {cb : Callback} (h : cb.collected = none) : ∀ e ∈ s.income cb, 0 ≤ e.delta := by
  intro e he
  cases cb with
  | collectionFinal tx cred amount fee outcome =>
    have hok : outcome ≠ .ok := by
      rintro rfl
      cases h
    rw [income, if_neg hok] at he
    cases he
  | payoutRefund tx cred payer =>
    obtain rfl := Option.mem_some.1 he
    exact Int.natCast_nonneg payer
  | utilityRefund tx cred amount fee =>
    obtain rfl := Option.mem_some.1 he
    exact Int.natCast_nonneg (amount + fee)
  | _ => cases he

theorem fireTimer_solvent_iff (hs : s.Solvent) (h : s.fireTimer = some s') : s'.Solvent ↔ s.Covered W .timer := by
  unfold fireTimer at h
  split at h
  · cases h
  · next t ts htimers =>
    obtain ⟨-, heq⟩ := Option.ite_none_right_eq_some.1 h
    obtain rfl := Option.some.inj heq
    have hincome : ({ s with timers := ts } : Sim Body).income t.callback = s.income t.callback := by
      cases t.callback <;> rfl
    have hbooks := (@Books.of_eq _ s { s with timers := ts } rfl rfl rfl).quiet_left
      (fireCallback_books t.callback)
    rw [hbooks.solvent_iff hs, hincome]
    simp only [Covered, htimers, List.head?_cons, Option.mem_some_iff, forall_eq']
    cases hcb : t.callback.collected with
    | none => exact iff_of_true (fun e he => add_nonneg (hs e.wallet) (income_nonneg hcb e he)) nofun
    | some c =>
      have hfinal : t.callback = .collectionFinal c.1 c.2.1 c.2.2.1 c.2.2.2 .ok := by
        unfold Callback.collected at hcb
        split at hcb
        · next heq =>
          cases hcb
          exact heq
        · cases hcb
      simp only [hfinal, income, if_true, Option.mem_def, Option.map_eq_some_iff]
      constructor
      · intro he c' hc' t ht
        obtain rfl := Option.some.inj hc'
        exact he _ ⟨t, ht, rfl⟩
      · rintro he e ⟨t, ht, rfl⟩
        exact he c rfl t ht

/-- Any other step is covered by what it checks. -/
theorem Trans.solvent (h : Trans W s l s') (hs : s.Solvent) (htimer : l ≠ .timer)
    (hsettle : ∀ cred body, l ≠ .settleNow cred body) : s'.Solvent := by
  cases h with
  | quiet l hcalm hsame hpending => exact hsame.books.solvent hs nofun
  | elapse ms => exact (@Books.of_eq _ s { s with now := s.now + ms } rfl rfl rfl).solvent hs nofun
  | patchConfig config => exact patchConfig_solvent hs config
  | collect cred body r amount h => exact createCollection_books.solvent hs nofun
  | start l f hcalm hopens hopened hfunds hsame hpending =>
    have hbooks := (paidFor_books (s := s) f.debit).quiet_right hsame.books
    refine (hbooks.solvent_iff hs).2 fun e he => ?_
    obtain rfl := Option.mem_some.1 he
    simp only
    omega
  | finish i f hcalm hsame hpending =>
    have hbooks := (finish_books (s := s) f).quiet_right hsame.books
    refine hbooks.solvent hs fun e he => ?_
    unfold arrival at he
    split at he
    · obtain rfl := Option.mem_some.1 he
      exact Int.natCast_nonneg f.tx.amount
    · cases he
  | direct cred body r amount h hfunding =>
    have hbooks := (@Books.of_eq _ s s.bumpSeq rfl rfl rfl).quiet_left
      (finishUtility_books (s.utilityTx cred r amount (W.hashOf body)))
    exact hbooks.solvent hs nofun
  | fire t ts htimers hdue => exact absurd rfl htimer
  | settle cred body r hparse hpolicy hnew => exact absurd rfl (hsettle cred body)
  | setBalance cred amount target h =>
    refine ((setBalance_books h).solvent_iff hs).2 fun e he => ?_
    obtain rfl := Option.mem_some.1 he
    simp only
    omega

/-- A step leaves the wallets solvent exactly when it is covered. -/
theorem step_solvent_iff (hrace : s.NoRace) (hs : s.Solvent) (h : s.step W l = some s') :
    s'.Solvent ↔ s.Covered W l := by
  cases l with
  | timer => exact fireTimer_solvent_iff hs h
  | settleNow cred body =>
    cases h
    exact settleNow_solvent_iff hs cred body
  | _ => exact iff_of_true ((step_trans hrace h).solvent hs nofun nofun) trivial

/-! ### Runs -/

/-- With the race window closed, whatever the configurations: no balance is ever negative exactly when every settlement
and every collection is covered. -/
theorem no_overdraft_iff (W : Wire Body) (config : SimConfig) (now : Time) (tr : List (Label Body))
    (hconfig : config.raceBug = false) (hkeeps : ∀ l ∈ tr, l.keeps (·.raceBug = false)) :
    Throughout (step W) (fun s => s.negativeBalances = []) (.init Body config now) tr ↔
      Along (step W) (fun s l _ => s.Covered W l) (.init Body config now) tr := by
  have hlabels : Along (step W) (fun _ l _ => l.keeps (·.raceBug = false)) (.init Body config now) tr :=
    .of_labels hkeeps
  have h₀ : (Sim.init Body config now).NoRace ∧ (Sim.init Body config now).Solvent :=
    ⟨init_noRace hconfig now, fun id => (balance_of_absent rfl).2⟩
  have hcongr : Along (step W) (fun _ l s' => l.keeps (·.raceBug = false) ∧ s'.negativeBalances = []) (.init Body config now) tr ↔
      Along (step W) (fun s l _ => l.keeps (·.raceBug = false) ∧ s.Covered W l) (.init Body config now) tr := by
    refine along_congr (I := fun s => s.NoRace ∧ s.Solvent) h₀ fun s l s' hI hstep => ⟨?_, fun ⟨hl, hs'⟩ => ?_⟩
    · rw [← solvent_iff, step_solvent_iff hI.1 hI.2 hstep]
    · exact ⟨(step_trans hI.1 hstep).noRace hI.1 hl, solvent_iff.2 hs'⟩
  constructor
  · intro h
    exact (hcongr.1 (hlabels.and h.2)).mono fun _ _ _ _ hC => hC.2
  · intro h
    exact ⟨solvent_iff.1 h₀.2, (hcongr.2 (hlabels.and h)).mono fun _ _ _ _ hC => hC.2⟩

/-! ### A settlement after the money is gone -/

instance (W : Wire Body) (s : Sim Body) : (l : Label Body) → Decidable (s.Covered W l)
  | .settleNow cred body => inferInstanceAs (Decidable (s.makesRun W cred body = true → s.net cred ≤ s.balance cred))
  | .timer => inferInstanceAs (Decidable (∀ timer ∈ s.timers.head?, ∀ c ∈ timer.callback.collected, ∀ t ∈ s.heap[c.1]?,
      0 ≤ s.balance c.2.1 + (applyFee c.2.2.1 c.2.2.2 t.feeBearer).recipientAmount))
  | .createCollection .. | .createPayout .. | .createPayoutBatch .. | .createUtilityPurchase .. | .createTransfer ..
  | .resume _ | .elapse _ | .putPolicy _ | .deletePolicy | .setBalance .. | .wallet _ | .patchConfig _ => isTrue trivial

/-- Wallets that start with nothing. -/
def emptyWallets : SimConfig := { SimConfig.default with openingBalance := "0.00" }

/-- A collection of 100.00 settles, a transfer takes `amount` of it, and a settlement run follows. -/
def collectSpendSettle (amount : String) : List (Label Form) :=
  [.createCollection "shop" (.collection ⟨"c1", "100.00", "GHS", "mtn", ⟨.msisdn, "0240000000"⟩, none⟩),
    .elapse 50, .timer, .timer, .createTransfer "shop" (.transfer ⟨"t1", "acme-store", amount, "GHS"⟩), .resume 0,
    .putPolicy (.policy ⟨.momo, "on_demand_only", none⟩), .settleNow "shop" (.settleNow ⟨"s1"⟩)]

theorem no_overdraft_iff_refused : Throughout (step formWire) (fun s => s.negativeBalances = [])
    (.init Form emptyWallets 0) (collectSpendSettle "160.00") :=
  (no_overdraft_iff formWire emptyWallets 0 _ rfl (by decide)).2 (by decide +kernel)

theorem settlement_overdraws : ∃ s, run (step formWire) (.init Form emptyWallets 0) (collectSpendSettle "60.00") = some s ∧
    s.config.raceBug = false ∧ s.config.weak = ⟨false, false, false⟩ ∧ s.negativeBalances = ["shop"] := by
  obtain ⟨s, hr, hs⟩ := Option.map_eq_some_iff.1 (show (run (step formWire) (.init Form emptyWallets 0)
    (collectSpendSettle "60.00")).map (fun s => (s.config.raceBug, s.config.weak, s.negativeBalances)) =
      some (false, ⟨false, false, false⟩, ["shop"]) by decide +kernel)
  simp only [Prod.mk.injEq] at hs
  exact ⟨s, hr, hs⟩

end Sim

end Simulator

end CronMonitor
