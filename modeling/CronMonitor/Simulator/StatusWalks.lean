import CronMonitor.Simulator.StatusSteps
import CronMonitor.Simulator.Reconciliation

/-!
# The life of a transaction

Whatever calls run at once, with the race window open or closed and references ignored or not: the events of a
transaction, in their order, tell a walk through the statuses of its kind (`Tx.after`) that ends where it stands, and each
of them repeats what it shows of the deal (`TxView.deal`). While something may follow, a timer waits for the transaction
(`Awaits`).
-/

namespace CronMonitor

namespace Simulator

open Runs

variable {Body : Type}

/-- Where transactions of a kind go from a status. A payout stays in review, and a purchase that no wallet paid for is
not refunded. -/
def Kind.after (funded : Bool) : Kind → TxStatus → List TxStatus
  | .collection, .accepted => [.dispatched]
  | .collection, .dispatched => [.settled, .failed]
  | .payout, .accepted => [.dispatching, .inReview]
  | .payout, .dispatching => [.delivered, .failed]
  | .payout, .failed => [.refunded]
  | .utilityPurchase, .accepted => if funded then [.vending] else [.awaitingPayment]
  | .utilityPurchase, .vending | .utilityPurchase, .awaitingPayment => [.delivered, .failed]
  | .utilityPurchase, .failed => if funded then [.refunded] else []
  | _, _ => []

namespace Tx

/-- The status that a transaction is first told with. -/
def first (t : Tx) : TxStatus := if t.kind = .transfer then .completed else .accepted

/-- The status of a utility purchase between the two timers. -/
def started (t : Tx) : TxStatus := if t.walletFunded then .vending else .awaitingPayment

/-- Where a transaction goes from a status. -/
def after (t : Tx) : TxStatus → List TxStatus := Kind.after t.walletFunded t.kind

/-- The statuses with which a transaction is completed; a purchase that no wallet paid for never is when it fails. -/
def isFinal (t : Tx) : Bool :=
  match t.kind with
  | .collection => t.status = .settled || t.status = .failed
  | .payout | .utilityPurchase => t.status = .delivered || t.status = .refunded
  | .transfer => t.status = .completed

/-- What never changes of a transaction. -/
def deal (t : Tx) : Tx :=
  { t with status := .accepted, failureReason := none, completedAt := none, settlementStatus := none }

/-- A transaction has the time of its completion when it is completed, and a reason when it has failed. -/
structure Sound (t : Tx) : Prop where
  completed : t.completedAt.isSome = t.isFinal
  reason : t.failureReason.isSome ↔ t.status = .failed ∨ t.status = .refunded

end Tx

/-- The statuses with which a body gives the time of completion: those of purchases and transfers have no such member. -/
def Kind.dates : Kind → TxStatus → Bool
  | .collection, status => status = .settled || status = .failed
  | .payout, status => status = .delivered || status = .refunded
  | .utilityPurchase, _ | .transfer, _ => false

namespace TxView

/-- What never changes of what is shown. -/
def deal (v : TxView) : TxView :=
  { v with status := .accepted, failureReason := none, completedAt := none, settlementStatus := none }

/-- The members that come and go with the status. -/
structure Sound (kind : Kind) (v : TxView) : Prop where
  completed : v.completedAt.isSome = kind.dates v.status
  reason : v.failureReason.isSome ↔ v.status = .failed ∨ v.status = .refunded

end TxView

namespace Tx

/-- What has been shown of a transaction so far. -/
structure Life (t : Tx) (shown : List TxView) : Prop where
  deal : ∀ v ∈ shown, v.deal = t.viewFor.deal
  sound : ∀ v ∈ shown, v.Sound t.kind
  first : ∀ v ∈ shown.head?, v.status = t.first
  path : (shown.map (·.status)).IsChain fun a b => b ∈ t.after a
  last : ∃ v ∈ shown.getLast?, v.status = t.status ∧ v.completedAt = t.viewFor.completedAt ∧
    v.failureReason = t.viewFor.failureReason

theorem kind_of_deal {t u : Tx} (h : t.deal = u.deal) : t.kind = u.kind := by
  have hkind := congrArg Tx.kind h
  exact hkind

theorem credential_of_deal {t u : Tx} (h : t.deal = u.deal) : t.credential = u.credential := by
  have hcred := congrArg Tx.credential h
  exact hcred

theorem id_of_deal {t u : Tx} (h : t.deal = u.deal) : t.id = u.id := by
  have hid := congrArg Tx.id h
  exact hid

theorem funded_of_deal {t u : Tx} (h : t.deal = u.deal) : t.walletFunded = u.walletFunded := by
  have hextra : t.deal.extra = u.deal.extra := congrArg Tx.extra h
  exact congrArg (fun extra => extra.any (·.funding.type = .wallet)) hextra

theorem after_of_deal {t u : Tx} (h : t.deal = u.deal) : t.after = u.after := by
  rw [after, kind_of_deal h, funded_of_deal h, after]

theorem viewFor_status (t : Tx) : t.viewFor.status = t.status := by
  unfold viewFor
  split <;> rfl

theorem viewFor_payout {t : Tx} (h : t.kind = .payout) : t.viewFor = t.view := by rw [viewFor, h]

theorem viewFor_utilityPurchase {t : Tx} (h : t.kind = .utilityPurchase) : t.viewFor = t.utilityView := by rw [viewFor, h]

theorem viewFor_transfer {t : Tx} (h : t.kind = .transfer) : t.viewFor = t.transferView := by rw [viewFor, h]

theorem viewFor_deal_self (t : Tx) : t.viewFor.deal = t.deal.viewFor.deal := by
  cases hkind : t.kind <;> simp only [viewFor, hkind, show t.deal.kind = t.kind from rfl] <;> rfl

theorem viewFor_deal {t u : Tx} (h : t.deal = u.deal) : t.viewFor.deal = u.viewFor.deal := by
  rw [viewFor_deal_self, h, ← viewFor_deal_self]

/-- A transfer is shown once, and it is not shown to fail. -/
theorem Sound.viewFor {t : Tx} (h : t.Sound) (htransfer : t.kind = .transfer → t.status = .completed) :
    t.viewFor.Sound t.kind := by
  have hcompleted := h.completed
  refine ⟨?_, ?_⟩
  · rw [viewFor_status]
    cases hkind : t.kind <;> simp_all [Tx.viewFor, view, utilityView, transferView, isFinal, Kind.dates]
  · rw [viewFor_status]
    cases hkind : t.kind with
    | transfer => simp [Tx.viewFor, hkind, transferView, htransfer hkind]
    | collection | payout | utilityPurchase => simpa only [Tx.viewFor, hkind, view, utilityView] using h.reason

/-- A transaction that is shown for the first time. -/
theorem Life.singleton {t : Tx} (hsound : t.Sound) (hfirst : t.status = t.first) : Life t [t.viewFor] where
  deal v hv := by rw [List.mem_singleton.1 hv]
  sound v hv := by
    rw [List.mem_singleton.1 hv]
    exact hsound.viewFor fun hkind => by rw [hfirst, Tx.first, if_pos hkind]
  first v hv := by
    obtain rfl := Option.mem_some_iff.1 hv
    exact (viewFor_status t).trans hfirst
  path := .singleton _
  last := ⟨t.viewFor, rfl, viewFor_status t, rfl, rfl⟩

/-- And once more. -/
theorem Life.snoc {t u : Tx} {shown : List TxView} (h : Life t shown) (hdeal : u.deal = t.deal) (hsound : u.Sound)
    (hedge : u.status ∈ t.after t.status) : Life u (shown ++ [u.viewFor]) := by
  obtain ⟨e, he, hstatus, -, -⟩ := h.last
  have hkind : u.kind = t.kind := kind_of_deal hdeal
  refine ⟨fun v hv => ?_, fun v hv => ?_, fun v hv => ?_, ?_, u.viewFor, by simp, viewFor_status u, rfl, rfl⟩
  · rcases List.mem_append.1 hv with hv | hv
    · exact (h.deal v hv).trans (viewFor_deal hdeal).symm
    · rw [List.mem_singleton.1 hv]
  · rcases List.mem_append.1 hv with hv | hv
    · rw [hkind]
      exact h.sound v hv
    · rw [List.mem_singleton.1 hv]
      refine hsound.viewFor fun htransfer => ?_
      -- nothing comes after the first status of a transfer
      rw [after, ← hkind, htransfer] at hedge
      cases hedge
  · have hne : shown ≠ [] := by
      rintro rfl
      cases he
    rw [List.head?_append_of_ne_nil _ hne] at hv
    rw [h.first v hv, Tx.first, Tx.first, kind_of_deal hdeal]
  · rw [after_of_deal hdeal, List.map_append]
    refine List.isChain_append.2 ⟨h.path, .singleton _, fun x hx y hy => ?_⟩
    rw [List.getLast?_map, Option.mem_def.1 he] at hx
    obtain rfl := Option.mem_some_iff.1 hx
    obtain rfl := Option.mem_some_iff.1 hy
    simp only
    rw [hstatus, viewFor_status]
    exact hedge

/-- A settlement run shows nothing. -/
theorem Life.settled {t : Tx} {shown : List TxView} (h : Life t shown) : Life (Sim.markSettled t) shown := by
  obtain ⟨v, hv, hstatus, hcompleted, hreason⟩ := h.last
  have hshown : (Sim.markSettled t).viewFor.completedAt = t.viewFor.completedAt ∧
      (Sim.markSettled t).viewFor.failureReason = t.viewFor.failureReason := by
    cases hkind : t.kind <;> simp only [viewFor, hkind, show (Sim.markSettled t).kind = t.kind from rfl] <;> exact ⟨rfl, rfl⟩
  exact ⟨fun v hv => (h.deal v hv).trans (viewFor_deal (show t.deal = (Sim.markSettled t).deal from rfl)), h.sound, h.first,
    h.path, v, hv, hstatus, hcompleted.trans hshown.1.symm, hreason.trans hshown.2.symm⟩

end Tx

/-! ### Timers -/

/-- The callbacks that wait for a transaction, by its status. -/
inductive Awaits (i : Nat) (t : Tx) : List Callback → Prop
  | collectionAccepted (cred : String) (amount fee : Nat) (outcome : Outcome) (hkind : t.kind = .collection)
      (hstatus : t.status = .accepted) :
      Awaits i t [.collectionDispatched i, .collectionFinal i cred amount fee outcome]
  | collectionSent (cred : String) (amount fee : Nat) (outcome : Outcome) (hkind : t.kind = .collection)
      (hstatus : t.status = .dispatched) : Awaits i t [.collectionFinal i cred amount fee outcome]
  | payoutAccepted (cred : String) (payer half : Nat) (outcome : Outcome) (hkind : t.kind = .payout)
      (hstatus : t.status = .accepted) : Awaits i t [.payoutDispatching i, .payoutFinal i cred payer half outcome]
  | payoutHeld (hkind : t.kind = .payout) (hstatus : t.status = .accepted) : Awaits i t [.payoutInReview i]
  | payoutSent (cred : String) (payer half : Nat) (outcome : Outcome) (hkind : t.kind = .payout)
      (hstatus : t.status = .dispatching) : Awaits i t [.payoutFinal i cred payer half outcome]
  | payoutFailed (cred : String) (payer : Nat) (hkind : t.kind = .payout) (hstatus : t.status = .failed) :
      Awaits i t [.payoutRefund i cred payer]
  | utilityAccepted (cred : String) (amount fee half : Nat) (hkind : t.kind = .utilityPurchase)
      (hstatus : t.status = .accepted) :
      Awaits i t [.utilityStarted i t.walletFunded, .utilityFinal i cred amount fee t.walletFunded half]
  | utilityStarted (cred : String) (amount fee half : Nat) (hkind : t.kind = .utilityPurchase)
      (hstatus : t.status = t.started) : Awaits i t [.utilityFinal i cred amount fee t.walletFunded half]
  | utilityFailed (cred : String) (amount fee : Nat) (hkind : t.kind = .utilityPurchase) (hstatus : t.status = .failed)
      (hfunded : t.walletFunded = true) : Awaits i t [.utilityRefund i cred amount fee]
  | ended (h : t.after t.status = []) : Awaits i t []

theorem deal_apply (c : SimConfig) (now : Time) (cb : Callback) (t : Tx) : (cb.apply c now t).deal = t.deal := by
  cases cb with
  | collectionFinal tx cred amount fee outcome | payoutFinal tx cred payer half outcome =>
    simp only [Callback.apply]
    split_ifs <;> rfl
  | utilityFinal tx cred amount fee walletFunded half =>
    simp only [Callback.apply]
    cases c.otherNumbers <;> rfl
  | _ => rfl

/-- What the callback that is due next makes of its transaction. -/
structure Goes (c : SimConfig) (now : Time) (i : Nat) (t : Tx) (cb : Callback) (rest : List Callback) : Prop where
  tx : cb.tx = i
  edge : (cb.apply c now t).status ∈ t.after t.status
  sound : t.Sound → (cb.apply c now t).Sound
  awaits : Awaits i (cb.apply c now t) (rest ++ (cb.next c).map Prod.snd)
  last : rest = [] ∨ cb.next c = []
  next : ∀ p ∈ cb.next c, p.2.tx = i

section Callbacks

variable {c : SimConfig} {now : Time} {i : Nat} {t : Tx} {cb : Callback} {rest : List Callback}

/-- A callback that gives a status and sets no timer. -/
theorem Goes.still {status : TxStatus} {final : Bool} {reason : Option String} (htx : cb.tx = i)
    (happly : cb.apply c now t = t.withStatus now status final reason) (hnext : cb.next c = [])
    (hedge : status ∈ t.after t.status) (hsound : t.Sound → (t.withStatus now status final reason).Sound)
    (hawaits : Awaits i (t.withStatus now status final reason) rest) : Goes c now i t cb rest where
  tx := htx
  edge := by
    rw [happly]
    exact hedge
  sound := by
    rw [happly]
    exact hsound
  awaits := by
    rw [happly, hnext, List.map_nil, List.append_nil]
    exact hawaits
  last := .inr hnext
  next := by
    rw [hnext]
    exact List.forall_mem_nil _

/-- A callback that gives a status and sets one timer, when it is the last. -/
theorem Goes.failed {status : TxStatus} {final : Bool} {reason : Option String} {ms : Nat} {cb' : Callback}
    (htx : cb.tx = i) (happly : cb.apply c now t = t.withStatus now status final reason)
    (hnext : cb.next c = [(ms, cb')]) (htx' : cb'.tx = i) (hedge : status ∈ t.after t.status)
    (hsound : t.Sound → (t.withStatus now status final reason).Sound)
    (hawaits : Awaits i (t.withStatus now status final reason) [cb']) : Goes c now i t cb [] where
  tx := htx
  edge := by
    rw [happly]
    exact hedge
  sound := by
    rw [happly]
    exact hsound
  awaits := by
    rw [happly, hnext]
    exact hawaits
  last := .inl rfl
  next := by
    rw [hnext]
    exact List.forall_mem_singleton.2 htx'

/-- A status that is neither a failure nor final, or final with its time. -/
theorem Tx.Sound.goes (h : t.Sound) {status : TxStatus} {final : Bool} (hopen : t.isFinal = false)
    (hbefore : t.status ≠ .failed ∧ t.status ≠ .refunded)
    (hstatus : status ≠ .failed ∧ status ≠ .refunded) (hfinal : (t.withStatus now status final none).isFinal = final) :
    (t.withStatus now status final none).Sound := by
  have hcompleted := h.completed
  rw [hopen] at hcompleted
  refine ⟨?_, ?_⟩
  · rw [hfinal]
    cases final
    · exact hcompleted
    · rfl
  · have hreason : (t.withStatus now status final none).failureReason = t.failureReason := rfl
    rw [hreason]
    refine iff_of_false (fun hsome => ?_) fun h => h.elim hstatus.1 hstatus.2
    exact (h.reason.1 hsome).elim hbefore.1 hbefore.2

theorem Tx.Sound.fails (h : t.Sound) {final : Bool} {reason : String} (hopen : t.isFinal = false)
    (hfinal : (t.withStatus now .failed final (some reason)).isFinal = final) :
    (t.withStatus now .failed final (some reason)).Sound := by
  have hcompleted := h.completed
  rw [hopen] at hcompleted
  refine ⟨?_, iff_of_true rfl (.inl rfl)⟩
  rw [hfinal]
  cases final
  · exact hcompleted
  · rfl

theorem Tx.Sound.refunds (h : t.Sound) (hstatus : t.status = .failed)
    (hkind : t.kind = .payout ∨ t.kind = .utilityPurchase) : (t.withStatus now .refunded true none).Sound := by
  refine ⟨?_, iff_of_true (h.reason.2 (.inl hstatus)) (.inr rfl)⟩
  rcases hkind with hkind | hkind <;> simp [withStatus, isFinal, hkind]

/-- The callback that waits first for a transaction fires. -/
theorem goes_of_awaits (h : Awaits i t (cb :: rest)) : Goes c now i t cb rest := by
  generalize hcbs : cb :: rest = cbs at h
  cases h with
  | collectionAccepted cred amount fee outcome hkind hstatus =>
    cases hcbs
    refine .still rfl rfl rfl (by simp [Tx.after, Kind.after, hkind, hstatus]) (fun hsound => ?_)
      (.collectionSent cred amount fee outcome hkind rfl)
    exact hsound.goes (by simp [Tx.isFinal, hkind, hstatus]) (by simp [hstatus]) (by simp)
      (by simp [Tx.isFinal, hkind])
  | collectionSent cred amount fee outcome hkind hstatus =>
    cases hcbs
    have hopen : t.isFinal = false := by simp [Tx.isFinal, hkind, hstatus]
    by_cases hok : outcome = .ok
    · subst hok
      refine ⟨rfl, by simp [Tx.after, Kind.after, Callback.apply, hkind, hstatus], fun hsound => ?_,
        .ended (by simp [Tx.after, Kind.after, Callback.apply, hkind]), .inl rfl, List.forall_mem_nil _⟩
      have hgoes : (t.withStatus now .settled true none).Sound :=
        hsound.goes hopen (by simp [hstatus]) (by simp) (by simp [Tx.isFinal, hkind])
      exact ⟨hgoes.completed, hgoes.reason⟩
    · have happly : (Callback.collectionFinal i cred amount fee outcome).apply c now t =
          t.withStatus now .failed true (some (if outcome = .wrongPin then "wrong_pin" else "declined")) := if_neg hok
      refine .still rfl happly rfl (by simp [Tx.after, Kind.after, hkind, hstatus]) (fun hsound => ?_)
        (.ended (by simp [Tx.after, Kind.after, hkind]))
      exact hsound.fails hopen (by simp [Tx.isFinal, hkind])
  | payoutAccepted cred payer half outcome hkind hstatus =>
    cases hcbs
    refine .still rfl rfl rfl (by simp [Tx.after, Kind.after, hkind, hstatus]) (fun hsound => ?_)
      (.payoutSent cred payer half outcome hkind rfl)
    exact hsound.goes (by simp [Tx.isFinal, hkind, hstatus]) (by simp [hstatus]) (by simp)
      (by simp [Tx.isFinal, hkind])
  | payoutHeld hkind hstatus =>
    cases hcbs
    refine .still rfl rfl rfl (by simp [Tx.after, Kind.after, hkind, hstatus]) (fun hsound => ?_)
      (.ended (by simp [Tx.after, Kind.after, hkind]))
    exact hsound.goes (by simp [Tx.isFinal, hkind, hstatus]) (by simp [hstatus]) (by simp)
      (by simp [Tx.isFinal, hkind])
  | payoutSent cred payer half outcome hkind hstatus =>
    cases hcbs
    have hopen : t.isFinal = false := by simp [Tx.isFinal, hkind, hstatus]
    by_cases hok : outcome = .ok
    · have happly : (Callback.payoutFinal i cred payer half outcome).apply c now t =
          t.withStatus now .delivered true none := by rw [Callback.apply, if_pos hok]
      refine .still rfl happly (if_pos hok) (by simp [Tx.after, Kind.after, hkind, hstatus]) (fun hsound => ?_)
        (.ended (by simp [Tx.after, Kind.after, hkind]))
      exact hsound.goes hopen (by simp [hstatus]) (by simp) (by simp [Tx.isFinal, hkind])
    · have happly : (Callback.payoutFinal i cred payer half outcome).apply c now t =
          t.withStatus now .failed false (some "declined") := by rw [Callback.apply, if_neg hok]
      refine .failed rfl happly (if_neg hok) rfl (by simp [Tx.after, Kind.after, hkind, hstatus]) (fun hsound => ?_)
        (.payoutFailed cred payer hkind rfl)
      exact hsound.fails hopen (by simp [Tx.isFinal, hkind])
  | payoutFailed cred payer hkind hstatus =>
    cases hcbs
    exact .still rfl rfl rfl (by simp [Tx.after, Kind.after, hkind, hstatus])
      (fun hsound => hsound.refunds hstatus (.inl hkind)) (.ended (by simp [Tx.after, Kind.after, hkind]))
  | utilityAccepted cred amount fee half hkind hstatus =>
    cases hcbs
    have happly : (Callback.utilityStarted i t.walletFunded).apply c now t = t.withStatus now t.started false none := rfl
    have hstarted : t.started = .vending ∨ t.started = .awaitingPayment := by
      unfold Tx.started
      split_ifs
      · exact .inl rfl
      · exact .inr rfl
    refine .still rfl happly rfl ?_ (fun hsound => ?_) (.utilityStarted cred amount fee half hkind rfl)
    · simp only [Tx.after, Kind.after, hkind, hstatus, Tx.started]
      split_ifs <;> exact List.mem_singleton_self _
    · refine hsound.goes (by simp [Tx.isFinal, hkind, hstatus]) (by simp [hstatus]) ?_ ?_
      · rcases hstarted with h | h <;> simp [h]
      · rcases hstarted with h | h <;> simp [Tx.isFinal, hkind, h]
  | utilityStarted cred amount fee half hkind hstatus =>
    cases hcbs
    have hstarted : t.status = .vending ∨ t.status = .awaitingPayment := by
      rw [hstatus, Tx.started]
      split_ifs
      · exact .inl rfl
      · exact .inr rfl
    have hopen : t.isFinal = false := by
      rcases hstarted with h | h <;> simp [Tx.isFinal, hkind, h]
    have hbefore : t.status ≠ .failed ∧ t.status ≠ .refunded := by
      rcases hstarted with h | h <;> simp [h]
    have hafter : t.after t.status = [.delivered, .failed] := by
      rcases hstarted with h | h <;> simp [Tx.after, Kind.after, hkind, h]
    cases hother : c.otherNumbers with
    | succeed =>
      have happly : (Callback.utilityFinal i cred amount fee t.walletFunded half).apply c now t =
          t.withStatus now .delivered true none := by simp only [Callback.apply, hother]
      refine .still rfl happly (by simp only [Callback.next, hother]) (by simp [hafter]) (fun hsound => ?_)
        (.ended (by simp [Tx.after, Kind.after, hkind]))
      exact hsound.goes hopen hbefore (by simp) (by simp [Tx.isFinal, hkind])
    | fail =>
      have happly : (Callback.utilityFinal i cred amount fee t.walletFunded half).apply c now t =
          t.withStatus now .failed false (some "vend_failed") := by simp only [Callback.apply, hother]
      cases hfunded : t.walletFunded with
      | false =>
        rw [hfunded] at happly
        refine .still rfl happly (by simp [Callback.next, hother]) (by simp [hafter]) (fun hsound => ?_) (.ended ?_)
        · exact hsound.fails hopen (by simp [Tx.isFinal, hkind])
        · have hkept : (t.withStatus now .failed false (some "vend_failed")).walletFunded = t.walletFunded := rfl
          simp [Tx.after, Kind.after, hkind, hkept, hfunded]
      | true =>
        rw [hfunded] at happly
        have hnext : (Callback.utilityFinal i cred amount fee true half).next c =
            [(max 1 half, .utilityRefund i cred amount fee)] := by simp only [Callback.next, hother, if_true]
        refine .failed rfl happly hnext rfl (by simp [hafter]) (fun hsound => ?_)
          (.utilityFailed cred amount fee hkind rfl hfunded)
        exact hsound.fails hopen (by simp [Tx.isFinal, hkind])
  | utilityFailed cred amount fee hkind hstatus hfunded =>
    cases hcbs
    exact .still rfl rfl rfl (by simp [Tx.after, Kind.after, hkind, hstatus, hfunded])
      (fun hsound => hsound.refunds hstatus (.inr hkind)) (.ended (by simp [Tx.after, Kind.after, hkind]))
  | ended h => cases hcbs

end Callbacks

theorem Awaits.nil_iff {i : Nat} {t : Tx} {cbs : List Callback} (h : Awaits i t cbs) : cbs = [] ↔ t.after t.status = [] := by
  cases h with
  | ended h => exact iff_of_true rfl h
  | utilityAccepted cred amount fee half hkind hstatus =>
    cases hfunded : t.walletFunded <;> simp [Tx.after, Kind.after, hkind, hstatus, hfunded]
  | utilityStarted cred amount fee half hkind hstatus =>
    cases hfunded : t.walletFunded <;> simp [Tx.after, Kind.after, Tx.started, hkind, hstatus, hfunded]
  | utilityFailed cred amount fee hkind hstatus hfunded => simp [Tx.after, Kind.after, hkind, hstatus, hfunded]
  | collectionAccepted cred amount fee outcome hkind hstatus | collectionSent cred amount fee outcome hkind hstatus =>
    simp [Tx.after, Kind.after, hkind, hstatus]
  | payoutAccepted cred payer half outcome hkind hstatus | payoutHeld hkind hstatus
  | payoutSent cred payer half outcome hkind hstatus | payoutFailed cred payer hkind hstatus =>
    simp [Tx.after, Kind.after, hkind, hstatus]

theorem Awaits.of_deal {i : Nat} {t u : Tx} {cbs : List Callback} (h : Awaits i t cbs) (hdeal : u.deal = t.deal)
    (hstatus : u.status = t.status) : Awaits i u cbs := by
  have hkind := Tx.kind_of_deal hdeal
  have hfunded := Tx.funded_of_deal hdeal
  cases h with
  | collectionAccepted cred amount fee outcome hk hs =>
    exact .collectionAccepted cred amount fee outcome (hkind.trans hk) (hstatus.trans hs)
  | collectionSent cred amount fee outcome hk hs =>
    exact .collectionSent cred amount fee outcome (hkind.trans hk) (hstatus.trans hs)
  | payoutAccepted cred payer half outcome hk hs =>
    exact .payoutAccepted cred payer half outcome (hkind.trans hk) (hstatus.trans hs)
  | payoutHeld hk hs => exact .payoutHeld (hkind.trans hk) (hstatus.trans hs)
  | payoutSent cred payer half outcome hk hs =>
    exact .payoutSent cred payer half outcome (hkind.trans hk) (hstatus.trans hs)
  | payoutFailed cred payer hk hs => exact .payoutFailed cred payer (hkind.trans hk) (hstatus.trans hs)
  | utilityAccepted cred amount fee half hk hs =>
    rw [← hfunded]
    exact .utilityAccepted cred amount fee half (hkind.trans hk) (hstatus.trans hs)
  | utilityStarted cred amount fee half hk hs =>
    rw [← hfunded]
    refine .utilityStarted cred amount fee half (hkind.trans hk) (hstatus.trans (hs.trans ?_))
    rw [Tx.started, ← hfunded, Tx.started]
  | utilityFailed cred amount fee hk hs hf =>
    exact .utilityFailed cred amount fee (hkind.trans hk) (hstatus.trans hs) (hfunded.trans hf)
  | ended h => exact .ended (by rw [hstatus, Tx.after_of_deal hdeal, h])

/-! ### The events of a transaction -/

/-- What is shown of a transaction to its credential, in order. -/
def tale (told : List (String × Nat × TxView)) (t : Tx) : List TxView :=
  (told.filter fun p => p.1 = t.credential && p.2.1 = t.id).map (·.2.2)

theorem tale_append (told told' : List (String × Nat × TxView)) (t : Tx) : tale (told ++ told') t = tale told t ++ tale told' t := by
  simp [tale]

theorem tale_of_ne {told : List (String × Nat × TxView)} {t : Tx} (h : ∀ p ∈ told, p.2.1 ≠ t.id) : tale told t = [] := by
  rw [tale, List.filter_eq_nil_iff.2, List.map_nil]
  intro p hp
  simp [h p hp]

theorem tale_of_deal {told : List (String × Nat × TxView)} {t u : Tx} (h : u.deal = t.deal) : tale told u = tale told t := by
  rw [tale, Tx.credential_of_deal h, Tx.id_of_deal h, tale]

theorem tale_news (t : Tx) : tale [t.news] t = [t.viewFor] := by
  simp [tale, Tx.news]

namespace Sim

variable {W : Wire Body} {s s' : Sim Body}

def history (s : Sim Body) (t : Tx) : List TxView := tale s.told t

def ids (s : Sim Body) : List Nat := s.heap.map (·.id)

/-- The invariant of all runs. -/
structure Lives (s : Sim Body) : Prop where
  ordered : Ordered s.timers
  strays : ∀ u ∈ s.timers, u.callback.tx < s.heap.length
  plain : ∀ f ∈ s.frames, f.Plain
  fresh : (s.ids ++ s.frames.map (·.tx.id)).Nodup
  below : ∀ id ∈ s.ids ++ s.frames.map (·.tx.id), id ≤ s.seq
  deals : ∀ p ∈ s.told, ∃ t ∈ s.heap, p.2.1 = t.id ∧ p.2.2.deal = t.viewFor.deal
  awaits : ∀ i t, s.heap[i]? = some t → Awaits i t (waiting s.timers i)
  life : ∀ t ∈ s.heap, t.Sound ∧ t.Life (s.history t)

theorem init_lives (config : SimConfig) (now : Time) : (Sim.init Body config now).Lives where
  ordered := .nil
  strays := List.forall_mem_nil _
  plain := List.forall_mem_nil _
  fresh := List.nodup_nil
  below := List.forall_mem_nil _
  deals := List.forall_mem_nil _
  awaits i t ht := by cases ht
  life := List.forall_mem_nil _

theorem fresh_subperm (xs : List Nat) {fs gs : List Frame} (h : fs.Subperm gs) :
    (xs ++ fs.map (·.tx.id)).Subperm (xs ++ gs.map (·.tx.id)) := by
  obtain ⟨l, hperm, hsub⟩ := h
  exact ⟨xs ++ l.map (·.tx.id), (hperm.map _).append_left xs, (hsub.map _).append_left xs⟩

theorem nodup_subperm {xs ys : List Nat} (h : xs.Subperm ys) (hys : ys.Nodup) : xs.Nodup := by
  obtain ⟨l, hperm, hsub⟩ := h
  exact hperm.nodup_iff.1 (hsub.nodup hys)

/-- Frames that go, or that come with a new id. -/
theorem Lives.frames (h : s.Lives) (hstill : Still s s') (hplain : ∀ f ∈ s'.frames, f.Plain)
    (hfresh : (s.ids ++ s'.frames.map (·.tx.id)).Nodup)
    (hbelow : ∀ id ∈ s.ids ++ s'.frames.map (·.tx.id), id ≤ s'.seq) : s'.Lives := by
  have hids : s'.ids = s.ids := by rw [ids, hstill.heap, ids]
  refine ⟨?_, ?_, hplain, hids ▸ hfresh, hids ▸ hbelow, ?_, ?_, ?_⟩
  · rw [hstill.timers]
    exact h.ordered
  · rw [hstill.timers, hstill.heap]
    exact h.strays
  · rw [hstill.told, hstill.heap]
    exact h.deals
  · rw [hstill.timers, hstill.heap]
    exact h.awaits
  · intro t ht
    rw [history, hstill.told]
    exact h.life t (hstill.heap ▸ ht)

theorem Lives.still (h : s.Lives) (hstill : Still s s') (hframes : s'.frames.Subperm s.frames) : s'.Lives := by
  have hsub := fresh_subperm s.ids hframes
  exact h.frames hstill (fun f hf => h.plain f (hframes.subset hf)) (nodup_subperm hsub h.fresh)
    fun id hid => (h.below id (hsub.subset hid)).trans hstill.seq

/-- A new id goes in front. -/
theorem Lives.next (h : s.Lives) {fs : List Frame} (hframes : fs.Subperm s.frames) :
    ((s.seq + 1) :: (s.ids ++ fs.map (·.tx.id))).Nodup := by
  have hsub := fresh_subperm s.ids hframes
  refine List.nodup_cons.2 ⟨fun hmem => ?_, nodup_subperm hsub h.fresh⟩
  have hle := h.below _ (hsub.subset hmem)
  omega

theorem Lives.opens (h : s.Lives) {f : Frame} (hstill : Still s s') (hid : f.tx.id = s.seq + 1) (hseq : s.seq + 1 ≤ s'.seq)
    (hplain : f.Plain) (hframes : s'.frames.Subperm (f :: s.frames)) : s'.Lives := by
  have hsub := fresh_subperm s.ids hframes
  have hperm : (s.ids ++ (f :: s.frames).map (·.tx.id)).Perm ((s.seq + 1) :: (s.ids ++ s.frames.map (·.tx.id))) := by
    rw [List.map_cons, hid]
    exact List.perm_middle
  refine h.frames hstill (fun g hg => ?_) (nodup_subperm hsub (hperm.nodup_iff.2 (h.next (List.Subperm.refl _))))
    fun id hmem => ?_
  · rcases List.mem_cons.1 (hframes.subset hg) with rfl | hg
    · exact hplain
    · exact h.plain g hg
  · rcases List.mem_cons.1 (hperm.mem_iff.1 (hsub.subset hmem)) with rfl | hmem
    · exact hseq
    · exact (h.below id hmem).trans ((Nat.le_succ _).trans hseq)

theorem Lives.registers (h : s.Lives) {tx : Tx} {plan : List (Nat × Callback)} {told : List (String × Nat × TxView)}
    (hreg : Registers s s' tx plan) (htold : s'.told = s.told ++ told) (hown : tale told tx = [tx.viewFor])
    (hdeals : ∀ p ∈ told, p.2 = (tx.id, tx.viewFor)) (hsound : tx.Sound) (hfirst : tx.status = tx.first)
    (hfresh : (tx.id :: (s.ids ++ s'.frames.map (·.tx.id))).Nodup)
    (hbelow : ∀ id ∈ tx.id :: (s.ids ++ s'.frames.map (·.tx.id)), id ≤ s'.seq) (hplain : ∀ f ∈ s'.frames, f.Plain)
    (htx : ∀ p ∈ plan, p.2.tx = s.heap.length) (hplan : plan.Pairwise fun p q => timerDelay p.1 ≤ timerDelay q.1)
    (hawaits : Awaits s.heap.length tx (plan.map Prod.snd)) : s'.Lives := by
  have hnew : waiting s.timers s.heap.length = [] := waiting_eq_nil.2 fun u hu => (h.strays u hu).ne
  have hids : s'.ids = s.ids ++ [tx.id] := by rw [ids, hreg.heap, List.map_append, ids, List.map_singleton]
  have hperm : (s'.ids ++ s'.frames.map (·.tx.id)).Perm (tx.id :: (s.ids ++ s'.frames.map (·.tx.id))) := by
    rw [hids, List.append_assoc]
    exact List.perm_middle
  have hother : ∀ t ∈ s.heap, t.id ≠ tx.id := by
    intro t ht heq
    refine (List.nodup_cons.1 hfresh).1 (List.mem_append_left _ ?_)
    exact heq ▸ List.mem_map_of_mem ht
  refine ⟨?_, fun u hu => ?_, hplain, hperm.nodup_iff.2 hfresh, fun id hid => hbelow id (hperm.mem_iff.1 hid),
    fun p hp => ?_, fun i t ht => ?_, fun t ht => ?_⟩
  · rw [hreg.timers]
    exact schedule_ordered h.ordered
  · rw [hreg.heap, List.length_append, List.length_singleton]
    rw [hreg.timers] at hu
    rcases mem_schedule.1 hu with hu | ⟨p, hp, rfl⟩
    · exact (h.strays u hu).trans (Nat.lt_succ_self _)
    · exact (htx p hp).trans_lt (Nat.lt_succ_self _)
  · rw [hreg.heap]
    rw [htold] at hp
    rcases List.mem_append.1 hp with hp | hp
    · obtain ⟨t, ht, hdeal⟩ := h.deals p hp
      exact ⟨t, List.mem_append_left _ ht, hdeal⟩
    · exact ⟨tx, List.mem_append_right _ (List.mem_singleton_self _), by rw [hdeals p hp]; exact ⟨rfl, rfl⟩⟩
  · rw [hreg.heap] at ht
    rw [hreg.timers]
    rcases List.getElem?_concat_cases ht with ht | ⟨rfl, rfl⟩
    · have hi := (List.getElem?_eq_some_iff.1 ht).1
      rw [waiting_schedule_of_ne h.ordered fun p hp => (htx p hp).trans_ne hi.ne']
      exact h.awaits i t ht
    · rw [waiting_schedule h.ordered htx hplan fun u hu hi => absurd hi (h.strays u hu).ne, hnew]
      exact hawaits
  · rw [history, htold, tale_append]
    rw [hreg.heap] at ht
    rcases List.mem_append.1 ht with ht | ht
    · have hnone : tale told t = [] := by
        refine tale_of_ne fun p hp => ?_
        rw [hdeals p hp]
        exact (hother t ht).symm
      rw [hnone, List.append_nil]
      exact h.life t ht
    · obtain rfl := List.mem_singleton.1 ht
      have hnone : tale s.told t = [] := by
        refine tale_of_ne fun p hp heq => ?_
        obtain ⟨u, hu, hid, -⟩ := h.deals p hp
        exact hother u hu (hid.symm.trans heq)
      rw [hnone, hown]
      exact ⟨hsound, .singleton hsound hfirst⟩

/-! ### Registrations -/

theorem plan_awaits {tx : Tx} (hkind : tx.kind = .payout) (hstatus : tx.status = .accepted) (provider value : String)
    (payer : Nat) : Awaits s.heap.length tx ((s.payoutPlan tx provider value payer).map Prod.snd) := by
  unfold payoutPlan
  split_ifs
  · exact .payoutHeld hkind hstatus
  · exact .payoutAccepted _ _ _ _ hkind hstatus

/-- A transaction that has just been accepted. -/
theorem accepted_sound {tx : Tx} (hkind : tx.kind ≠ .transfer) (hstatus : tx.status = .accepted)
    (hdated : tx.completedAt = none) (hreason : tx.failureReason = none) : tx.Sound ∧ tx.status = tx.first := by
  refine ⟨⟨?_, ?_⟩, ?_⟩
  · rw [hdated, Tx.isFinal]
    cases hkind' : tx.kind <;> simp_all
  · simp [hreason, hstatus]
  · rw [hstatus, Tx.first, if_neg hkind]

theorem Lives.accepts (h : s.Lives) {tx : Tx} {plan : List (Nat × Callback)}
    (hid : tx.id = s.seq + 1) (hseq : s.seq + 1 ≤ s'.seq) (hkind : tx.kind ≠ .transfer) (hstatus : tx.status = .accepted)
    (hdated : tx.completedAt = none) (hreason : tx.failureReason = none) (hreg : Registers s s' tx plan)
    (htold : s'.told = s.told ++ [tx.news]) (hframes : s'.frames.Subperm s.frames)
    (htx : ∀ p ∈ plan, p.2.tx = s.heap.length) (hplan : plan.Pairwise fun p q => timerDelay p.1 ≤ timerDelay q.1)
    (hawaits : Awaits s.heap.length tx (plan.map Prod.snd)) : s'.Lives := by
  obtain ⟨hsound, hfirst⟩ := accepted_sound hkind hstatus hdated hreason
  have hsub := fresh_subperm s.ids hframes
  refine h.registers hreg htold (tale_news tx) (List.forall_mem_singleton.2 rfl) hsound hfirst (hid ▸ h.next hframes)
    (fun id hmem => ?_) (fun f hf => h.plain f (hframes.subset hf)) htx hplan hawaits
  rcases List.mem_cons.1 hmem with rfl | hmem
  · exact hid.trans_le hseq
  · exact (h.below id (hsub.subset hmem)).trans ((Nat.le_succ _).trans hseq)

theorem Lives.finishes (h : s.Lives) (hhalf : s.config.HalfFirst) {f : Frame} (hreg : Registers s s' (s.finish f).1 (s.plan f))
    (htold : s'.told = s.told ++ f.told (s.finish f).1) (hframes : (f :: s'.frames).Subperm s.frames) : s'.Lives := by
  have hplain : f.Plain := h.plain f (hframes.subset List.mem_cons_self)
  have hid : (s.finish f).1.id = f.tx.id := by
    unfold finish
    split <;> rfl
  have hsub := fresh_subperm s.ids hframes
  have hperm : (s.ids ++ (f :: s'.frames).map (·.tx.id)).Perm ((s.finish f).1.id :: (s.ids ++ s'.frames.map (·.tx.id))) := by
    rw [hid]
    exact List.perm_middle
  have hfresh := hperm.nodup_iff.1 (nodup_subperm hsub h.fresh)
  have hbelow : ∀ id ∈ (s.finish f).1.id :: (s.ids ++ s'.frames.map (·.tx.id)), id ≤ s'.seq := fun id hmem =>
    (h.below id (hsub.subset (hperm.mem_iff.2 hmem))).trans hreg.seq
  have hrest : ∀ g ∈ s'.frames, g.Plain := fun g hg => h.plain g (hframes.subset (List.mem_cons_of_mem f hg))
  have hcreate := hplain.create
  cases hf : f.create with
  | payout provider value payer =>
    rw [hf] at hcreate
    obtain ⟨hkind, hstatus⟩ := hcreate
    obtain ⟨hsound, hfirst⟩ := accepted_sound (by simp [hkind]) hstatus hplain.dated hplain.reason
    simp only [Frame.told, finish, plan, hf, ← Tx.viewFor_payout hkind] at hreg htold hfresh hbelow
    exact h.registers hreg htold (tale_news f.tx) (List.forall_mem_singleton.2 rfl) hsound hfirst hfresh hbelow hrest
      (payoutPlan_tx f.tx provider value payer) (payoutPlan_pairwise hhalf f.tx provider value payer)
      (plan_awaits hkind hstatus provider value payer)
  | utility =>
    rw [hf] at hcreate
    obtain ⟨hkind, hstatus, -⟩ := hcreate
    obtain ⟨hsound, hfirst⟩ := accepted_sound (by simp [hkind]) hstatus hplain.dated hplain.reason
    simp only [Frame.told, finish, plan, hf, ← Tx.viewFor_utilityPurchase hkind] at hreg htold hfresh hbelow
    exact h.registers hreg htold (tale_news f.tx) (List.forall_mem_singleton.2 rfl) hsound hfirst hfresh hbelow hrest
      (by simp [utilityPlan, Callback.tx]) (by simpa [utilityPlan, SimConfig.HalfFirst] using hhalf)
      (.utilityAccepted _ _ _ _ hkind hstatus)
  | transfer handle =>
    rw [hf] at hcreate
    obtain ⟨hkind, hhandle⟩ := hcreate
    simp only [Frame.told, finish, plan, hf] at hreg htold hfresh hbelow
    have hview := Tx.viewFor_transfer (t := { f.tx with status := .completed, completedAt := some s.now }) hkind
    refine h.registers hreg htold ?_ (by simp [hview]) ⟨by simp [Tx.isFinal, hkind], by simp [hplain.reason]⟩
      (by simp [Tx.first, hkind]) hfresh hbelow hrest (List.forall_mem_nil _) .nil (.ended (by simp [Tx.after, Kind.after, hkind]))
    simp [tale, hhandle.symm, hview]

/-! ### Timers and settlements -/

theorem Lives.fires (h : s.Lives) {u : Timer} {ts : List Timer} (htimers : s.timers = u :: ts)
    (hfires : Fires { s with timers := ts } s' u.callback)
    (htold : ∀ tx, s.heap[u.callback.tx]? = some tx → s'.told = s.told ++
      [(u.callback.apply s.config s.now tx).news]) (hframes : s'.frames = s.frames) : s'.Lives := by
  obtain ⟨i, hi⟩ : ∃ i, u.callback.tx = i := ⟨_, rfl⟩
  have hlt : i < s.heap.length := hi ▸ h.strays u (by rw [htimers]; exact List.mem_cons_self)
  obtain ⟨t, hget⟩ : ∃ t, s.heap[i]? = some t := ⟨_, List.getElem?_eq_getElem hlt⟩
  have hmem : t ∈ s.heap := List.mem_of_getElem? hget
  obtain ⟨-, hordered⟩ := List.pairwise_cons.1 (htimers ▸ h.ordered)
  have hawaits : Awaits i t (u.callback :: waiting ts i) := by
    have hall := h.awaits i t hget
    have hwaiting := waiting_cons_self u ts
    rw [hi] at hwaiting
    rwa [htimers, hwaiting] at hall
  have hgoes : Goes s.config s.now i t u.callback (waiting ts i) := goes_of_awaits hawaits
  have hlast : ∀ v ∈ ts, v.callback.tx = i → ∀ p ∈ u.callback.next s.config, v.deadline ≤ s.now + timerDelay p.1 := by
    intro v hv hvi p hp
    rcases hgoes.last with hrest | hnone
    · exact absurd hvi (waiting_eq_nil.1 hrest v hv)
    · rw [hnone] at hp
      cases hp
  have hdeal : (u.callback.apply s.config s.now t).deal = t.deal := deal_apply s.config s.now u.callback t
  obtain ⟨hsound, hlife⟩ := h.life t hmem
  have hheap : s'.heap = s.heap.modify i (u.callback.apply s.config s.now) := hi ▸ hfires.heap
  have htold' := htold t (by rw [hi]; exact hget)
  have hids : s'.ids = s.ids := by
    rw [ids, hheap, ids]
    exact List.map_modify_of_eq fun a _ => Tx.id_of_deal (deal_apply s.config s.now u.callback a)
  have hplaces : ∀ (j : Nat) (t' : Tx), s'.heap[j]? = some t' →
      (j = i ∧ t' = u.callback.apply s.config s.now t) ∨ (i ≠ j ∧ s.heap[j]? = some t' ∧ t.id ≠ t'.id) := by
    intro j t' ht'
    rw [hheap] at ht'
    by_cases hij : i = j
    · subst hij
      rw [List.getElem?_modify_eq, hget] at ht'
      exact .inl ⟨rfl, (Option.some.inj ht').symm⟩
    · rw [List.getElem?_modify_ne _ _ hij] at ht'
      refine .inr ⟨hij, ht', fun heq => hij ?_⟩
      have hnodup : s.ids.Nodup := (List.nodup_append.1 h.fresh).1
      refine (List.getElem?_inj (by rwa [ids, List.length_map]) hnodup).1 ?_
      rw [ids, List.getElem?_map, List.getElem?_map, hget, ht']
      exact congrArg some heq
  refine ⟨?_, fun v hv => ?_, hframes ▸ h.plain, ?_, ?_, fun p hp => ?_, fun j t' ht' => ?_, fun t' ht' => ?_⟩
  · rw [hfires.timers]
    exact schedule_ordered hordered
  · rw [hheap, List.length_modify]
    rw [hfires.timers] at hv
    rcases mem_schedule.1 hv with hv | ⟨p, hp, rfl⟩
    · exact h.strays v (by rw [htimers]; exact List.mem_cons_of_mem u hv)
    · exact (hgoes.next p hp).trans_lt hlt
  · rw [hids, hframes]
    exact h.fresh
  · rw [hids, hframes]
    exact fun id hid => (h.below id hid).trans hfires.seq
  · have hkept : ∃ t ∈ s.heap, p.2.1 = t.id ∧ p.2.2.deal = t.viewFor.deal := by
      rw [htold'] at hp
      rcases List.mem_append.1 hp with hp | hp
      · exact h.deals p hp
      · obtain rfl := List.mem_singleton.1 hp
        exact ⟨t, hmem, Tx.id_of_deal hdeal, Tx.viewFor_deal hdeal⟩
    obtain ⟨v, hv, hpv⟩ := hkept
    obtain ⟨j, hj⟩ := List.mem_iff_getElem?.1 hv
    rw [hheap]
    refine ⟨if i = j then u.callback.apply s.config s.now v else v, List.mem_iff_getElem?.2 ⟨j, ?_⟩, ?_⟩
    · rw [List.getElem?_modify, hj]
      rfl
    · have hsame : (u.callback.apply s.config s.now v).deal = v.deal := deal_apply s.config s.now u.callback v
      split_ifs
      · rwa [Tx.id_of_deal hsame, Tx.viewFor_deal hsame]
      · exact hpv
  · rw [hfires.timers]
    rcases hplaces j t' ht' with ⟨rfl, rfl⟩ | ⟨hij, hj, -⟩
    · rw [waiting_schedule hordered hgoes.next (next_pairwise _ _) hlast]
      exact hgoes.awaits
    · rw [waiting_schedule_of_ne hordered fun p hp => (hgoes.next p hp).trans_ne hij]
      have hbefore := h.awaits j t' hj
      rwa [htimers, waiting_cons_of_ne (hi.trans_ne hij)] at hbefore
  · obtain ⟨j, hj⟩ := List.mem_iff_getElem?.1 ht'
    rw [history, htold', tale_append]
    rcases hplaces j t' hj with ⟨rfl, rfl⟩ | ⟨hij, hj, hne⟩
    · rw [tale_of_deal hdeal, tale_news]
      exact ⟨hgoes.sound hsound, hlife.snoc hdeal (hgoes.sound hsound) hgoes.edge⟩
    · have hnone : tale [(u.callback.apply s.config s.now t).news] t' = [] :=
        tale_of_ne (List.forall_mem_singleton.2 ((Tx.id_of_deal hdeal).trans_ne hne))
      rw [hnone, List.append_nil]
      exact h.life t' (List.mem_of_getElem? hj)

theorem markSettled_idempotent (t : Tx) : markSettled (markSettled t) = markSettled t := rfl

theorem Lives.settles (h : s.Lives) {cred reference : String} (hs : Settles s s' cred reference)
    (htold : s'.told = s.told) : s'.Lives := by
  have hplaces : ∀ (j : Nat) (t' : Tx), s'.heap[j]? = some t' →
      ∃ t, s.heap[j]? = some t ∧ (t' = t ∨ t' = markSettled t) := by
    intro j t' ht'
    rw [hs.heap] at ht'
    split_ifs at ht'
    · rw [List.getElem?_modifyAll_of_idempotent markSettled_idempotent] at ht'
      split_ifs at ht'
      · obtain ⟨t, ht, rfl⟩ := Option.map_eq_some_iff.1 ht'
        exact ⟨t, ht, .inr rfl⟩
      · exact ⟨t', ht', .inl rfl⟩
    · exact ⟨t', ht', .inl rfl⟩
  have hids : s'.ids = s.ids := by
    refine List.ext_getElem? fun j => ?_
    rw [ids, ids, List.getElem?_map, List.getElem?_map]
    cases hj : s'.heap[j]? with
    | none =>
      have hlen := List.getElem?_eq_none_iff.1 hj
      rw [hs.length] at hlen
      rw [List.getElem?_eq_none_iff.2 hlen]
    | some t' =>
      obtain ⟨t, ht, heq⟩ := hplaces j t' hj
      rw [ht]
      rcases heq with rfl | rfl <;> rfl
  have hframes : s'.frames = s.frames := frames_of_calls hs.calls
  refine ⟨?_, ?_, hframes ▸ h.plain, ?_, ?_, fun p hp => ?_, fun j t' ht' => ?_, fun t' ht' => ?_⟩
  · rw [hs.timers]
    exact h.ordered
  · rw [hs.timers, hs.length]
    exact h.strays
  · rw [hids, hframes]
    exact h.fresh
  · rw [hids, hframes]
    exact fun id hid => (h.below id hid).trans hs.seq
  · obtain ⟨t, ht, hdeal⟩ := h.deals p (htold ▸ hp)
    obtain ⟨j, hj⟩ := List.mem_iff_getElem?.1 ht
    have hlt : j < s'.heap.length := hs.length.symm ▸ (List.getElem?_eq_some_iff.1 hj).1
    obtain ⟨u, hu, heq⟩ := hplaces j _ (List.getElem?_eq_getElem hlt)
    obtain rfl := Option.some.inj (hj.symm.trans hu)
    have hsame : s'.heap[j].deal = t.deal := by
      rcases heq with heq | heq <;> rw [heq]
      rfl
    exact ⟨_, List.getElem_mem hlt, hdeal.1.trans (Tx.id_of_deal hsame).symm, hdeal.2.trans (Tx.viewFor_deal hsame).symm⟩
  · rw [hs.timers]
    obtain ⟨t, ht, rfl | rfl⟩ := hplaces j t' ht'
    · exact h.awaits j _ ht
    · exact (h.awaits j t ht).of_deal rfl rfl
  · rw [history, htold]
    obtain ⟨j, hj⟩ := List.mem_iff_getElem?.1 ht'
    obtain ⟨t, ht, rfl | rfl⟩ := hplaces j t' hj
    · exact h.life _ (List.mem_of_getElem? ht)
    · obtain ⟨hsound, hlife⟩ := h.life t (List.mem_of_getElem? ht)
      exact ⟨⟨hsound.completed, hsound.reason⟩, hlife.settled⟩

/-! ### All runs -/

/-- What the law asks of the configurations, at any time; the race window may be open. -/
structure Timely (c : SimConfig) : Prop where
  mass : c.weak.massAssignment = false
  half : c.HalfFirst

instance : DecidablePred Timely := fun c => decidable_of_iff (c.weak.massAssignment = false ∧ c.HalfFirst)
  ⟨fun h => ⟨h.1, h.2⟩, fun h => ⟨h.1, h.2⟩⟩

theorem Lives.moves (h : s.Lives) (hhalf : s.config.HalfFirst) (hmoves : Moves s s') : s'.Lives := by
  cases hmoves with
  | still hstill hframes => exact h.still hstill hframes
  | opens f hstill hid hseq hplain hframes => exact h.opens hstill hid hseq hplain hframes
  | collects tx outcome hid hseq hkind hstatus hdated hreason hreg htold hframes =>
    exact h.accepts hid hseq (by simp [hkind]) hstatus hdated hreason hreg htold hframes
      (by simp [collectionPlan, Callback.tx]) (by simpa [collectionPlan, SimConfig.HalfFirst] using hhalf)
      (.collectionAccepted _ _ _ _ hkind hstatus)
  | buys tx hid hseq hkind hstatus hdated hreason hreg htold hframes =>
    exact h.accepts hid hseq (by simp [hkind]) hstatus hdated hreason hreg htold hframes
      (by simp [utilityPlan, Callback.tx]) (by simpa [utilityPlan, SimConfig.HalfFirst] using hhalf)
      (.utilityAccepted _ _ _ _ hkind hstatus)
  | finishes f hreg htold hframes => exact h.finishes hhalf hreg htold hframes
  | fires u ts htimers hfires htold hframes => exact h.fires htimers hfires htold hframes
  | settles cred reference hs htold => exact h.settles hs htold

theorem Lives.step {l : Label Body} (h : s.Lives) (hc : Timely s.config) (hstep : s.step W l = some s')
    (hl : l.keeps Timely) : s'.Lives ∧ Timely s'.config := by
  by_cases hpatch : ∃ config, l = .patchConfig config
  · obtain ⟨config, rfl⟩ := hpatch
    cases hstep
    exact ⟨⟨h.ordered, h.strays, h.plain, h.fresh, h.below, h.deals, h.awaits, h.life⟩, hl⟩
  · have hmoves := step_moves hc.mass h.plain hstep fun config heq => hpatch ⟨config, heq⟩
    exact ⟨h.moves hc.half hmoves, hmoves.config ▸ hc⟩

/-- What holds of the transactions and of what is told of them. -/
structure Told (s : Sim Body) : Prop where
  once : s.ids.Nodup
  deals : ∀ p ∈ s.told, ∃ t ∈ s.heap, p.2.1 = t.id ∧ p.2.2.deal = t.viewFor.deal
  life : ∀ t ∈ s.heap, t.Sound ∧ t.Life (s.history t)
  goesOn : ∀ i t, s.heap[i]? = some t → (waiting s.timers i = [] ↔ t.after t.status = [])

theorem Lives.tells (h : s.Lives) : s.Told where
  once := (List.nodup_append.1 h.fresh).1
  deals := h.deals
  life := h.life
  goesOn i t ht := (h.awaits i t ht).nil_iff

/-- In every run, with the race window open or closed: every transaction is told of from its first status on, one allowed
step at a time, to where it stands; and a timer waits for it exactly while it can go on. -/
theorem life_cycle (W : Wire Body) (config : SimConfig) (now : Time) (tr : List (Label Body)) (hconfig : Timely config)
    (hkeeps : ∀ l ∈ tr, l.keeps Timely) : Throughout (step W) Told (.init Body config now) tr := by
  have hlabels : Along (step W) (fun _ l _ => l.keeps Timely) (.init Body config now) tr := .of_labels hkeeps
  have h₀ : (Sim.init Body config now).Lives := init_lives config now
  refine ⟨h₀.tells, hlabels.under_inv (I := fun s => s.Lives ∧ Timely s.config) ⟨h₀, hconfig⟩ ?_⟩
  intro s l s' hs hstep hl
  have hs' := hs.1.step hs.2 hstep hl
  exact ⟨hs', hs'.1.tells⟩

def racingFailures : SimConfig := { SimConfig.default with raceBug := true, otherNumbers := .fail }

/-- Two payouts with one reference, side by side in the race window, until both are refunded. -/
def refundedTwice : List (Label Form) :=
  [payTen "p1", payTen "p1", .resume 0, .resume 1, .resume 0, .resume 0, .elapse 50, .timer, .timer, .timer, .timer,
    .elapse 25, .timer, .timer]

theorem life_cycle_refunded : ((run (step formWire) (.init Form racingFailures 0) refundedTwice).map fun s =>
      s.heap.map fun t => (s.history t).map (·.status)) =
        some [[.accepted, .dispatching, .failed, .refunded], [.accepted, .dispatching, .failed, .refunded]] ∧
    Throughout (step formWire) Told (.init Form racingFailures 0) refundedTwice :=
  ⟨by decide +kernel, life_cycle formWire racingFailures 0 _ (by decide) (by decide)⟩

end Sim

end Simulator

end CronMonitor
