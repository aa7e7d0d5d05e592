import CronMonitor.Simulator.Money

/-!
# The transactions behind the wallets

What a wallet reserves and what is posted to it belongs to its transactions: `Tx.held` is what a transaction holds of a
reservation, `Tx.moved` what it has moved in a wallet so far. Both change only where a callback fires, so the callbacks
that still wait for a transaction say where it stands (`Stands`).
-/

namespace CronMonitor

namespace Simulator

variable {Body : Type}

/-! ### Timers in order -/

section Timers

variable {t : Timer} {ts : List Timer}

def Ordered (ts : List Timer) : Prop := ts.Pairwise fun a b => a.deadline ≤ b.deadline

theorem mem_insertTimer {u : Timer} : u ∈ insertTimer t ts ↔ u = t ∨ u ∈ ts := by
  induction ts with
  | nil => simp [insertTimer]
  | cons v ts ih =>
    rw [insertTimer]
    split_ifs
    · rw [List.mem_cons, ih, List.mem_cons]
      tauto
    · exact List.mem_cons

theorem insertTimer_perm (t : Timer) (ts : List Timer) : (insertTimer t ts).Perm (t :: ts) := by
  induction ts with
  | nil => exact .refl _
  | cons v ts ih =>
    rw [insertTimer]
    split_ifs
    · exact (ih.cons v).trans (.swap t v ts)
    · exact .refl _

theorem insertTimer_of_lt (h : ∀ u ∈ ts, t.deadline < u.deadline) : insertTimer t ts = t :: ts := by
  cases ts with
  | nil => rfl
  | cons u ts => rw [insertTimer, if_neg (not_le.2 (h u List.mem_cons_self))]

theorem insertTimer_of_le (h : ∀ u ∈ ts, u.deadline ≤ t.deadline) : insertTimer t ts = ts ++ [t] := by
  induction ts with
  | nil => rfl
  | cons u ts ih =>
    rw [insertTimer, if_pos (h u List.mem_cons_self), ih fun v hv => h v (List.mem_cons_of_mem u hv)]
    rfl

theorem Ordered.insertTimer (h : Ordered ts) : Ordered (insertTimer t ts) := by
  induction ts with
  | nil => exact List.pairwise_singleton _ _
  | cons u ts ih =>
    obtain ⟨hu, hts⟩ := List.pairwise_cons.1 h
    rw [Simulator.insertTimer]
    split_ifs with hle
    · refine List.pairwise_cons.2 ⟨fun v hv => ?_, ih hts⟩
      rcases mem_insertTimer.1 hv with rfl | hv
      · exact hle
      · exact hu v hv
    · refine List.pairwise_cons.2 ⟨fun v hv => ?_, h⟩
      rcases List.mem_cons.1 hv with rfl | hv
      · exact (not_le.1 hle).le
      · exact (not_le.1 hle).le.trans (hu v hv)

theorem Ordered.filter_insertTimer (h : Ordered ts) (p : Timer → Bool) :
    (Simulator.insertTimer t ts).filter p =
      if p t then Simulator.insertTimer t (ts.filter p) else ts.filter p := by
  induction ts with
  | nil => cases hp : p t <;> simp [Simulator.insertTimer, hp]
  | cons u ts ih =>
    obtain ⟨hu, hts⟩ := List.pairwise_cons.1 h
    rw [Simulator.insertTimer]
    split_ifs with hle hp hp
    · rw [List.filter_cons, ih hts, if_pos hp, List.filter_cons]
      split_ifs
      · rw [Simulator.insertTimer, if_pos hle]
      · rfl
    · rw [List.filter_cons, ih hts, if_neg hp, List.filter_cons]
    · have hlt : ∀ v ∈ (u :: ts).filter p, t.deadline < v.deadline := by
        intro v hv
        rcases List.mem_cons.1 (List.mem_of_mem_filter hv) with rfl | hv
        · exact not_le.1 hle
        · exact (not_le.1 hle).trans_le (hu v hv)
      rw [insertTimer_of_lt hlt, List.filter_cons, if_pos hp]
    · rw [List.filter_cons, if_neg hp]

end Timers

/-- The callbacks that wait for a transaction, the next one first. -/
def waiting (ts : List Timer) (i : Nat) : List Callback := (ts.filter (·.callback.tx = i)).map (·.callback)

theorem waiting_eq_nil {ts : List Timer} {i : Nat} : waiting ts i = [] ↔ ∀ u ∈ ts, u.callback.tx ≠ i := by
  simp [waiting, List.filter_eq_nil_iff]

theorem waiting_insertTimer {t : Timer} {ts : List Timer} (hts : Ordered ts) {i : Nat} (htx : t.callback.tx = i)
    (hlast : ∀ u ∈ ts, u.callback.tx = i → u.deadline ≤ t.deadline) :
    waiting (insertTimer t ts) i = waiting ts i ++ [t.callback] := by
  rw [waiting, hts.filter_insertTimer, if_pos (by simpa using htx), insertTimer_of_le ?_, List.map_append]
  · rfl
  · intro u hu
    obtain ⟨hu, hi⟩ := List.mem_filter.1 hu
    exact hlast u hu (by simpa using hi)

theorem waiting_insertTimer_of_ne {t : Timer} {ts : List Timer} (hts : Ordered ts) {i : Nat} (htx : t.callback.tx ≠ i) :
    waiting (insertTimer t ts) i = waiting ts i := by
  rw [waiting, hts.filter_insertTimer, if_neg (by simpa using htx), waiting]

namespace Sim

section Schedule

variable {now : Time} {plan : List (Nat × Callback)} {ts : List Timer} {i : Nat}

theorem schedule_ordered (h : Ordered ts) : Ordered (schedule now plan ts) := by
  induction plan generalizing ts with
  | nil => exact h
  | cons p plan ih => exact ih h.insertTimer

theorem mem_schedule {u : Timer} :
    u ∈ schedule now plan ts ↔ u ∈ ts ∨ ∃ p ∈ plan, u = ⟨now + timerDelay p.1, p.2⟩ := by
  induction plan generalizing ts with
  | nil => simp [schedule]
  | cons p plan ih =>
    have hcons : u ∈ schedule now (p :: plan) ts ↔ u ∈ schedule now plan (insertTimer ⟨now + timerDelay p.1, p.2⟩ ts) :=
      Iff.rfl
    rw [hcons, ih, mem_insertTimer, List.exists_mem_cons_iff]
    tauto

theorem schedule_perm (now : Time) (plan : List (Nat × Callback)) (ts : List Timer) :
    (schedule now plan ts).Perm (plan.map (fun p => ⟨now + timerDelay p.1, p.2⟩) ++ ts) := by
  induction plan generalizing ts with
  | nil => exact .refl _
  | cons p plan ih =>
    refine (ih (insertTimer ⟨now + timerDelay p.1, p.2⟩ ts)).trans ?_
    exact ((insertTimer_perm _ ts).append_left _).trans List.perm_middle

/-- Timers set for one transaction, in the order in which they fire. -/
theorem waiting_schedule (hts : Ordered ts) (htx : ∀ p ∈ plan, p.2.tx = i)
    (hplan : plan.Pairwise fun p q => timerDelay p.1 ≤ timerDelay q.1)
    (hlast : ∀ u ∈ ts, u.callback.tx = i → ∀ p ∈ plan, u.deadline ≤ now + timerDelay p.1) :
    waiting (schedule now plan ts) i = waiting ts i ++ plan.map Prod.snd := by
  induction plan generalizing ts with
  | nil => simp [schedule]
  | cons p plan ih =>
    obtain ⟨hp, hplan⟩ := List.pairwise_cons.1 hplan
    have hlast' : ∀ u ∈ insertTimer ⟨now + timerDelay p.1, p.2⟩ ts, u.callback.tx = i →
        ∀ q ∈ plan, u.deadline ≤ now + timerDelay q.1 := by
      intro u hu hi q hq
      rcases mem_insertTimer.1 hu with rfl | hu
      · exact add_le_add_right (Int.ofNat_le.2 (hp q hq)) now
      · exact hlast u hu hi q (List.mem_cons_of_mem p hq)
    have hrest := ih hts.insertTimer (fun q hq => htx q (List.mem_cons_of_mem p hq)) hplan hlast'
    rw [waiting_insertTimer hts (htx p List.mem_cons_self) fun u hu hi => hlast u hu hi p List.mem_cons_self] at hrest
    rw [List.append_assoc] at hrest
    exact hrest

theorem waiting_schedule_of_ne (hts : Ordered ts) (htx : ∀ p ∈ plan, p.2.tx ≠ i) :
    waiting (schedule now plan ts) i = waiting ts i := by
  induction plan generalizing ts with
  | nil => rfl
  | cons p plan ih =>
    have hrest := ih (hts.insertTimer (t := ⟨now + timerDelay p.1, p.2⟩)) fun q hq => htx q (List.mem_cons_of_mem p hq)
    rw [waiting_insertTimer_of_ne hts (htx p List.mem_cons_self)] at hrest
    exact hrest

end Schedule

end Sim

/-! ### What a transaction holds and moves -/

namespace Tx

/-- Its outlay was reserved. -/
def reserves (t : Tx) : Bool := t.kind = .payout || t.kind = .utilityPurchase && t.walletFunded

/-- Neither delivered nor refunded. -/
def isOpen (t : Tx) : Bool := t.status ≠ .delivered && t.status ≠ .refunded

/-- What it holds of the reservation of a wallet. -/
def held (t : Tx) (id : String) : Int := if t.credential = id ∧ t.reserves ∧ t.isOpen then t.outlay else 0

/-- What it has moved in a wallet. -/
def moved (t : Tx) (id : String) : Int :=
  match t.kind with
  | .collection =>
    if t.credential = id then
      (if t.status = .settled then t.split.recipientAmount else 0) -
        if t.settlementStatus = some .settled then t.split.recipientAmount else 0
    else 0
  | .payout | .utilityPurchase => if t.credential = id ∧ t.reserves ∧ t.status ≠ .refunded then -t.outlay else 0
  | .transfer => (if t.party = some id then (t.amount : Int) else 0) - if t.credential = id then (t.amount : Int) else 0

end Tx

/-- Where a transaction stands, by the callbacks that wait for it. -/
inductive Stands (i : Nat) (t : Tx) : List Callback → Prop
  | collecting (early : List Callback) (outcome : Outcome) (hkind : t.kind = .collection) (hstatus : t.status ≠ .settled)
      (hnot : t.settlementStatus = some .notEligible) (hearly : early = [] ∨ early = [.collectionDispatched i]) :
      Stands i t (early ++ [.collectionFinal i t.credential t.amount t.fee outcome])
  | collected (hkind : t.kind = .collection) (hstatus : t.status = .settled ↔ t.settlementStatus ≠ some .notEligible) :
      Stands i t []
  | paying (early : List Callback) (half : Nat) (outcome : Outcome) (hkind : t.kind = .payout) (hopen : t.isOpen)
      (hearly : early = [] ∨ early = [.payoutDispatching i]) :
      Stands i t (early ++ [.payoutFinal i t.credential t.outlay half outcome])
  | reviewing (cbs : List Callback) (hkind : t.kind = .payout) (hopen : t.isOpen)
      (hcbs : cbs = [] ∨ cbs = [.payoutInReview i]) : Stands i t cbs
  | paid (hkind : t.kind = .payout) : Stands i t []
  | payoutFailed (hkind : t.kind = .payout) (hopen : t.isOpen) : Stands i t [.payoutRefund i t.credential t.outlay]
  | vending (early : List Callback) (half : Nat) (hkind : t.kind = .utilityPurchase) (hopen : t.isOpen)
      (hearly : early = [] ∨ early = [.utilityStarted i t.walletFunded]) :
      Stands i t (early ++ [.utilityFinal i t.credential t.amount t.fee t.walletFunded half])
  | vended (hkind : t.kind = .utilityPurchase) : Stands i t []
  | vendFailed (hkind : t.kind = .utilityPurchase) (hopen : t.isOpen) (hfunded : t.walletFunded = true) :
      Stands i t [.utilityRefund i t.credential t.amount t.fee]
  | transferred (hkind : t.kind = .transfer) : Stands i t []

/-- The ledger without the adjustments of the test control. -/
def posted (ledger : List LedgerEntry) (id : String) : Int := ledgerSum (ledger.filter (·.kind ≠ .testAdjustment)) id

theorem posted_append (l l' : List LedgerEntry) (id : String) : posted (l ++ l') id = posted l id + posted l' id := by
  rw [posted, List.filter_append, ledgerSum_append, posted, posted]

theorem posted_singleton (e : LedgerEntry) (id : String) :
    posted [e] id = if e.kind ≠ .testAdjustment ∧ e.wallet = id then e.delta else 0 := by
  rw [posted, List.filter_singleton]
  by_cases hkind : e.kind = .testAdjustment
  · simp [hkind, ledgerSum]
  · simp [hkind, ledgerSum_singleton]

section Status

variable {t : Tx} {now : Time} {status : TxStatus} {final : Bool} {reason : Option String} {id : String}

@[simp] theorem Tx.withStatus_kind : (t.withStatus now status final reason).kind = t.kind := rfl

@[simp] theorem Tx.withStatus_credential : (t.withStatus now status final reason).credential = t.credential := rfl

@[simp] theorem Tx.withStatus_status : (t.withStatus now status final reason).status = status := rfl

@[simp] theorem Tx.withStatus_settlementStatus :
    (t.withStatus now status final reason).settlementStatus = t.settlementStatus := rfl

@[simp] theorem Tx.withStatus_outlay : (t.withStatus now status final reason).outlay = t.outlay := rfl

@[simp] theorem Tx.withStatus_split : (t.withStatus now status final reason).split = t.split := rfl

@[simp] theorem Tx.withStatus_reserves : (t.withStatus now status final reason).reserves = t.reserves := rfl

theorem Tx.reserves_collection (h : t.kind = .collection) : t.reserves = false := by
  simp [reserves, h]

theorem Tx.reserves_payout (h : t.kind = .payout) : t.reserves = true := by
  simp [reserves, h]

theorem Tx.reserves_utility (h : t.kind = .utilityPurchase) : t.reserves = t.walletFunded := by
  simp [reserves, h]

theorem Tx.held_of_isOpen (h : t.isOpen) : t.held id = if t.credential = id ∧ t.reserves then (t.outlay : Int) else 0 := by
  simp [held, h]

theorem Tx.isOpen_withStatus (hdelivered : status ≠ .delivered) (hrefunded : status ≠ .refunded) :
    (t.withStatus now status final reason).isOpen := by
  simp [isOpen, hdelivered, hrefunded]

/-- Another status that is open. -/
theorem Tx.held_of_open (h : t.isOpen) (hdelivered : status ≠ .delivered) (hrefunded : status ≠ .refunded) :
    (t.withStatus now status final reason).held id = t.held id := by
  rw [held_of_isOpen h, held_of_isOpen (isOpen_withStatus hdelivered hrefunded)]
  rfl

theorem Tx.held_of_final (h : status = .delivered ∨ status = .refunded) :
    (t.withStatus now status final reason).held id = 0 := by
  rcases h with rfl | rfl <;> simp [held, isOpen]

theorem Tx.held_of_not_reserves (h : t.reserves = false) : t.held id = 0 := by
  simp [held, h]

theorem Tx.ne_refunded (h : t.isOpen) : t.status ≠ .refunded := by
  rw [isOpen, Bool.and_eq_true] at h
  simpa using h.2

/-- A payment moves nothing more with another status than that of a refund. -/
theorem Tx.moved_withStatus (hkind : t.kind = .payout ∨ t.kind = .utilityPurchase) (h : t.status ≠ .refunded)
    (hstatus : status ≠ .refunded) : (t.withStatus now status final reason).moved id = t.moved id := by
  rcases hkind with hkind | hkind <;> simp [moved, hkind, h, hstatus]

theorem Tx.moved_refund (hkind : t.kind = .payout ∨ t.kind = .utilityPurchase) (h : t.status ≠ .refunded)
    (hreserves : t.reserves) : (t.withStatus now .refunded final reason).moved id - t.moved id =
      if t.credential = id then (t.outlay : Int) else 0 := by
  have hafter : (t.withStatus now .refunded final reason).moved id = 0 := by
    rcases hkind with hkind | hkind <;> simp [moved, hkind]
  have hbefore : t.moved id = if t.credential = id then -(t.outlay : Int) else 0 := by
    rcases hkind with hkind | hkind <;> simp [moved, hkind, h, hreserves]
  rw [hafter, hbefore]
  split_ifs <;> simp

end Status

/-! ### What a callback does to them -/

namespace Sim

/-- What the callback that is due next does with its transaction: it goes on, and what it releases and posts is what the
transaction holds less and moves more. -/
structure Fired (s : Sim Body) (i : Nat) (t : Tx) (cb : Callback) (rest : List Callback) : Prop where
  tx : cb.tx = i
  stands : Stands i (cb.apply s.config s.now t) (rest ++ (cb.next s.config).map Prod.snd)
  last : rest = [] ∨ cb.next s.config = []
  next : ∀ p ∈ cb.next s.config, p.2.tx = i
  held : ∀ id, ((s.released cb).map fun r => if r.1 = id then (r.2 : Int) else 0).getD 0 =
    t.held id - (cb.apply s.config s.now t).held id
  moved : ∀ id, posted (s.income cb).toList id = (cb.apply s.config s.now t).moved id - t.moved id

variable {s : Sim Body} {i : Nat} {t : Tx}

/-- A callback that only gives an open status. -/
theorem Fired.open {cb : Callback} {rest : List Callback} {status : TxStatus} {final : Bool} {reason : Option String}
    (htx : cb.tx = i) (happly : cb.apply s.config s.now t = t.withStatus s.now status final reason)
    (hreleased : s.released cb = none) (hincome : s.income cb = none) (hnext : ∀ p ∈ cb.next s.config, p.2.tx = i)
    (hlast : rest = [] ∨ cb.next s.config = []) (hkind : t.kind = .payout ∨ t.kind = .utilityPurchase) (hopen : t.isOpen)
    (hdelivered : status ≠ .delivered) (hrefunded : status ≠ .refunded)
    (hstands : Stands i (t.withStatus s.now status final reason) (rest ++ (cb.next s.config).map Prod.snd)) :
    Fired s i t cb rest where
  tx := htx
  stands := happly ▸ hstands
  last := hlast
  next := hnext
  held id := by
    rw [hreleased, happly, Tx.held_of_open hopen hdelivered hrefunded]
    simp
  moved id := by
    rw [hincome, happly, Tx.moved_withStatus hkind (Tx.ne_refunded hopen) hrefunded]
    simp [posted, ledgerSum]

theorem posted_entry {e : LedgerEntry} (h : e.kind ≠ .testAdjustment) (id : String) :
    posted (some e).toList id = if e.wallet = id then e.delta else 0 := by
  rw [Option.toList_some, posted_singleton]
  simp only [h, ne_eq, not_false_eq_true, true_and]

theorem posted_nothing (id : String) : posted (none : Option LedgerEntry).toList id = 0 := rfl

section Collections

variable (hkind : t.kind = .collection) (hstatus : t.status ≠ .settled) (hnot : t.settlementStatus = some .notEligible)
include hkind hstatus hnot

theorem moved_collection {status : TxStatus} (hne : status ≠ .settled) {final : Bool} {reason : Option String}
    (id : String) : (t.withStatus s.now status final reason).moved id - t.moved id = 0 := by
  simp [Tx.moved, hkind, hstatus, hnot, hne]

theorem fired_collectionDispatched (outcome : Outcome) : Fired s i t (.collectionDispatched i)
    [.collectionFinal i t.credential t.amount t.fee outcome] where
  tx := rfl
  stands := .collecting [] outcome hkind (by simp [Callback.apply]) hnot (.inl rfl)
  last := .inr rfl
  next := List.forall_mem_nil _
  held id := by
    have hreserves := Tx.reserves_collection hkind
    simp [released, Callback.apply, Tx.held, hreserves]
  moved id := (moved_collection hkind hstatus hnot (by simp) id).symm

theorem fired_collectionFinal (ht : s.heap[i]? = some t) (outcome : Outcome) :
    Fired s i t (.collectionFinal i t.credential t.amount t.fee outcome) [] := by
  have hreserves := Tx.reserves_collection hkind
  by_cases hok : outcome = .ok
  · subst hok
    have happly : (Callback.collectionFinal i t.credential t.amount t.fee .ok).apply s.config s.now t =
        { t with settlementStatus := some .eligible }.withStatus s.now .settled true none := rfl
    refine ⟨rfl, ?_, .inl rfl, List.forall_mem_nil _, fun id => ?_, fun id => ?_⟩
    · rw [happly]
      exact .collected hkind (by simp)
    · rw [happly, Tx.held_of_not_reserves hreserves, Tx.held_of_not_reserves]
      · rfl
      · simp [Tx.reserves, hkind]
    · have hincome : s.income (.collectionFinal i t.credential t.amount t.fee .ok) =
          some ⟨s.seq + 1, t.credential, t.split.recipientAmount, t.reference, .collection⟩ := by
        simp only [income, ht, if_true, Option.map_some]
        rfl
      rw [happly, hincome, posted_entry (by simp)]
      simp [Tx.moved, Tx.withStatus, Tx.split, hkind, hstatus, hnot]
  · have happly : (Callback.collectionFinal i t.credential t.amount t.fee outcome).apply s.config s.now t =
        t.withStatus s.now .failed true (some (if outcome = .wrongPin then "wrong_pin" else "declined")) := if_neg hok
    refine ⟨rfl, ?_, .inl rfl, List.forall_mem_nil _, fun id => ?_, fun id => ?_⟩
    · rw [happly]
      exact .collected hkind (by simp [hnot])
    · rw [happly, Tx.held_of_not_reserves hreserves, Tx.held_of_not_reserves (by exact hreserves)]
      rfl
    · rw [happly, moved_collection hkind hstatus hnot (by simp), income, if_neg hok]
      rfl

end Collections

section Payouts

variable (hkind : t.kind = .payout) (hopen : t.isOpen)
include hkind hopen

theorem fired_payoutDispatching (half : Nat) (outcome : Outcome) : Fired s i t (.payoutDispatching i)
    [.payoutFinal i t.credential t.outlay half outcome] :=
  .open rfl rfl rfl rfl (List.forall_mem_nil _) (.inr rfl) (.inl hkind) hopen (by simp) (by simp)
    (.paying [] half outcome hkind (Tx.isOpen_withStatus (by simp) (by simp)) (.inl rfl))

theorem fired_payoutInReview : Fired s i t (.payoutInReview i) [] :=
  .open rfl rfl rfl rfl (List.forall_mem_nil _) (.inr rfl) (.inl hkind) hopen (by simp) (by simp)
    (.reviewing [] hkind (Tx.isOpen_withStatus (by simp) (by simp)) (.inl rfl))

theorem fired_payoutFinal (half : Nat) (outcome : Outcome) :
    Fired s i t (.payoutFinal i t.credential t.outlay half outcome) [] := by
  have hreserves := Tx.reserves_payout hkind
  by_cases hok : outcome = .ok
  · have happly : (Callback.payoutFinal i t.credential t.outlay half outcome).apply s.config s.now t =
        t.withStatus s.now .delivered true none := by rw [Callback.apply, if_pos hok]
    have hnext : (Callback.payoutFinal i t.credential t.outlay half outcome).next s.config = [] := if_pos hok
    refine ⟨rfl, ?_, .inl rfl, ?_, fun id => ?_, fun id => ?_⟩
    · rw [happly, hnext]
      exact .paid hkind
    · rw [hnext]
      exact List.forall_mem_nil _
    · rw [happly, Tx.held_of_final (.inl rfl), Tx.held_of_isOpen hopen, released, if_pos hok]
      simp [hreserves]
    · rw [happly, Tx.moved_withStatus (.inl hkind) (Tx.ne_refunded hopen) (by simp), sub_self]
      rfl
  · have happly : (Callback.payoutFinal i t.credential t.outlay half outcome).apply s.config s.now t =
        t.withStatus s.now .failed false (some "declined") := by rw [Callback.apply, if_neg hok]
    have hnext : (Callback.payoutFinal i t.credential t.outlay half outcome).next s.config =
        [(max 1 half, .payoutRefund i t.credential t.outlay)] := if_neg hok
    refine .open rfl happly (if_neg hok) rfl ?_ (.inl rfl) (.inl hkind) hopen (by simp) (by simp) ?_
    · rw [hnext]
      simp [Callback.tx]
    · rw [hnext]
      exact .payoutFailed hkind (Tx.isOpen_withStatus (by simp) (by simp))

end Payouts

/-- A refund gives back what was reserved and posts it. -/
theorem Fired.refund {cb : Callback} (htx : cb.tx = i) (hkind : t.kind = .payout ∨ t.kind = .utilityPurchase)
    (hopen : t.isOpen) (hreserves : t.reserves)
    (happly : cb.apply s.config s.now t = t.withStatus s.now .refunded true none)
    (hnext : cb.next s.config = []) (hreleased : s.released cb = some (t.credential, t.outlay)) {e : LedgerEntry}
    (hincome : s.income cb = some e) (hwallet : e.wallet = t.credential) (hdelta : e.delta = t.outlay)
    (hadjusts : e.kind ≠ .testAdjustment) (hstands : Stands i (t.withStatus s.now .refunded true none) []) :
    Fired s i t cb [] where
  tx := htx
  stands := by
    rw [happly, hnext]
    exact hstands
  last := .inl rfl
  next := by
    rw [hnext]
    exact List.forall_mem_nil _
  held id := by
    rw [happly, Tx.held_of_final (.inr rfl), Tx.held_of_isOpen hopen, hreleased]
    simp [hreserves]
  moved id := by
    rw [happly, Tx.moved_refund hkind (Tx.ne_refunded hopen) hreserves, hincome, posted_entry hadjusts, hwallet, hdelta]

theorem fired_payoutRefund (hkind : t.kind = .payout) (hopen : t.isOpen) :
    Fired s i t (.payoutRefund i t.credential t.outlay) [] :=
  .refund rfl (.inl hkind) hopen (Tx.reserves_payout hkind) rfl rfl rfl rfl rfl rfl (by simp) (.paid hkind)

section Utilities

variable (hkind : t.kind = .utilityPurchase) (hopen : t.isOpen)
include hkind hopen

theorem fired_utilityStarted (half : Nat) : Fired s i t (.utilityStarted i t.walletFunded)
    [.utilityFinal i t.credential t.amount t.fee t.walletFunded half] := by
  refine .open rfl rfl rfl rfl (List.forall_mem_nil _) (.inr rfl) (.inr hkind) hopen ?_ ?_
    (.vending [] half hkind (Tx.isOpen_withStatus ?_ ?_) (.inl rfl))
  all_goals split_ifs <;> simp

theorem fired_utilityFinal (half : Nat) :
    Fired s i t (.utilityFinal i t.credential t.amount t.fee t.walletFunded half) [] := by
  have hreserves := Tx.reserves_utility hkind
  have houtlay : t.outlay = t.amount + t.fee := by rw [Tx.outlay, hkind]
  cases hother : s.config.otherNumbers with
  | succeed =>
    have happly : (Callback.utilityFinal i t.credential t.amount t.fee t.walletFunded half).apply s.config s.now t =
        t.withStatus s.now .delivered true none := by simp only [Callback.apply, hother]
    have hnext : (Callback.utilityFinal i t.credential t.amount t.fee t.walletFunded half).next s.config = [] := by
      simp only [Callback.next, hother]
    refine ⟨rfl, ?_, .inl rfl, ?_, fun id => ?_, fun id => ?_⟩
    · rw [happly, hnext]
      exact .vended hkind
    · rw [hnext]
      exact List.forall_mem_nil _
    · rw [happly, Tx.held_of_final (.inl rfl), Tx.held_of_isOpen hopen, hreserves, released, hother, houtlay]
      cases hfunded : t.walletFunded <;> simp
    · rw [happly, Tx.moved_withStatus (.inr hkind) (Tx.ne_refunded hopen) (by simp), sub_self]
      rfl
  | fail =>
    have happly : (Callback.utilityFinal i t.credential t.amount t.fee t.walletFunded half).apply s.config s.now t =
        t.withStatus s.now .failed false (some "vend_failed") := by simp only [Callback.apply, hother]
    have hreleased : s.released (.utilityFinal i t.credential t.amount t.fee t.walletFunded half) = none := by
      simp [released, hother]
    cases hfunded : t.walletFunded with
    | false =>
      rw [hfunded] at happly hreleased
      have hnext : (Callback.utilityFinal i t.credential t.amount t.fee false half).next s.config = [] := by
        simp only [Callback.next, hother, Bool.false_eq_true, if_false]
      refine .open rfl happly hreleased rfl ?_ (.inl rfl) (.inr hkind) hopen (by simp) (by simp) ?_
      · rw [hnext]
        exact List.forall_mem_nil _
      · rw [hnext]
        exact .vended hkind
    | true =>
      rw [hfunded] at happly hreleased
      have hnext : (Callback.utilityFinal i t.credential t.amount t.fee true half).next s.config =
          [(max 1 half, .utilityRefund i t.credential t.amount t.fee)] := by
        simp only [Callback.next, hother, if_true]
      refine .open rfl happly hreleased rfl ?_ (.inl rfl) (.inr hkind) hopen (by simp) (by simp) ?_
      · rw [hnext]
        simp [Callback.tx]
      · rw [hnext]
        exact .vendFailed hkind (Tx.isOpen_withStatus (by simp) (by simp)) hfunded

theorem fired_utilityRefund (hfunded : t.walletFunded = true) :
    Fired s i t (.utilityRefund i t.credential t.amount t.fee) [] := by
  have houtlay : t.outlay = t.amount + t.fee := by rw [Tx.outlay, hkind]
  refine .refund rfl (.inr hkind) hopen ((Tx.reserves_utility hkind).trans hfunded) rfl rfl ?_ rfl rfl ?_ (by simp)
    (.vended hkind)
  · rw [houtlay]
    rfl
  · rw [houtlay]

end Utilities

/-- The callback that waits first for a transaction fires. -/
theorem fired_of_stands {cb : Callback} {rest : List Callback} (h : Stands i t (cb :: rest)) (ht : s.heap[i]? = some t) :
    Fired s i t cb rest := by
  generalize hcbs : cb :: rest = cbs at h
  cases h with
  | collecting early outcome hkind hstatus hnot hearly =>
    rcases hearly with rfl | rfl <;> cases hcbs
    · exact fired_collectionFinal hkind hstatus hnot ht outcome
    · exact fired_collectionDispatched hkind hstatus hnot outcome
  | collected hkind hstatus => cases hcbs
  | paying early half outcome hkind hopen hearly =>
    rcases hearly with rfl | rfl <;> cases hcbs
    · exact fired_payoutFinal hkind hopen half outcome
    · exact fired_payoutDispatching hkind hopen half outcome
  | reviewing cbs hkind hopen hwait =>
    rcases hwait with rfl | rfl <;> cases hcbs
    exact fired_payoutInReview hkind hopen
  | paid hkind => cases hcbs
  | payoutFailed hkind hopen =>
    cases hcbs
    exact fired_payoutRefund hkind hopen
  | vending early half hkind hopen hearly =>
    rcases hearly with rfl | rfl <;> cases hcbs
    · exact fired_utilityFinal hkind hopen half
    · exact fired_utilityStarted hkind hopen half
  | vended hkind => cases hcbs
  | vendFailed hkind hopen hfunded =>
    cases hcbs
    exact fired_utilityRefund hkind hopen hfunded
  | transferred hkind => cases hcbs

end Sim

end Simulator

end CronMonitor
