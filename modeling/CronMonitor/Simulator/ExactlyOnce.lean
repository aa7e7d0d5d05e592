import CronMonitor.Simulator.Reconciliation

/-!
# Exactly one effect for a reference

A paid call that waits counts towards the debits of its reference and the volume of its credential before its transaction
is registered. `Apart` keeps two waiting calls from one reference, `Fits` keeps the waiting calls of a credential within
the daily limit; without them the checks of a call look past the calls that wait.
-/

namespace CronMonitor

namespace Simulator

variable {Body : Type}

/-- The debits of a payment. -/
def debits (ledger : List LedgerEntry) (k : TxKey) : Nat :=
  ledger.countP fun e => e.kind = k.kind.outlayKind && e.wallet = k.credential && e.ref = k.reference

theorem debits_append (l : List LedgerEntry) (e : Option LedgerEntry) (k : TxKey) :
    debits (l ++ e.toList) k = debits l k + debits e.toList k :=
  List.countP_append

/-- What is neither an outlay nor a credit of a collection is no debit. -/
theorem debits_other {m : Option LedgerEntry} {k : TxKey} (h : ∀ e ∈ m, e.kind ≠ k.kind.outlayKind) :
    debits m.toList k = 0 := by
  refine List.countP_eq_zero.2 fun e he => ?_
  simp [h e (Option.mem_toList.1 he)]

theorem outlayKind_injective : Function.Injective Kind.outlayKind := by
  intro a b h
  cases a <;> cases b <;> first | rfl | cases h

/-- What the paid calls of a credential that wait will add to its volume. -/
def waitingVolume (fs : List Frame) (cred : String) : Nat :=
  (fs.map fun f => if f.tx.credential = cred then f.tx.amount else 0).sum

theorem waitingVolume_perm {fs gs : List Frame} (h : fs.Perm gs) (cred : String) :
    waitingVolume fs cred = waitingVolume gs cred :=
  (h.map _).sum_eq

theorem waitingVolume_cons (f : Frame) (fs : List Frame) (cred : String) : waitingVolume (f :: fs) cred =
    (if f.tx.credential = cred then f.tx.amount else 0) + waitingVolume fs cred := by
  rw [waitingVolume, List.map_cons, List.sum_cons, waitingVolume]

theorem waitingVolume_eq_zero {fs : List Frame} {cred : String} (h : ∀ f ∈ fs, f.tx.credential ≠ cred) :
    waitingVolume fs cred = 0 :=
  List.sum_eq_zero (List.forall_mem_map.2 fun f hf => if_neg (h f hf))

namespace Sim
open Runs

variable {W : Wire Body} {s s' : Sim Body} {l : Label Body}

/-- `state().duplicateEffects`. -/
def duplicateEffects (s : Sim Body) : Nat := (s.effects.values.map (· - 1)).sum

/-- The payments that pass their checks at a label: the one that is paid and left waiting, or the one that is registered
at once. -/
def passing (W : Wire Body) (s : Sim Body) (l : Label Body) : Option Tx := (s.opens W l).map (·.tx) <|> s.direct W l

/-- Where paid calls of a credential wait, a payment that passes its checks keeps within the daily limit with them. -/
def Fits (W : Wire Body) (s : Sim Body) (l : Label Body) : Prop :=
  ∀ tx ∈ s.passing W l, ∀ daily ∈ parseAmount s.config.limits.daily, ∀ f ∈ s.pending, f.tx.credential = tx.credential →
    s.volume tx.credential .out + waitingVolume s.pending tx.credential + tx.amount ≤ daily

instance (W : Wire Body) (s : Sim Body) (l : Label Body) : Decidable (s.Fits W l) :=
  inferInstanceAs (Decidable (∀ tx ∈ s.passing W l, ∀ daily ∈ parseAmount s.config.limits.daily, ∀ f ∈ s.pending,
    f.tx.credential = tx.credential →
      s.volume tx.credential .out + waitingVolume s.pending tx.credential + tx.amount ≤ daily))

/-- A registered transaction has one effect; its debit is in the ledger since its call was paid. -/
structure Once (s : Sim Body) : Prop where
  effects : ∀ k, s.effects.get? k = (s.txs.get? k).map fun _ => 1
  debits : ∀ k : TxKey, k.kind ≠ .collection → k.seq = none →
    debits s.ledger k ≤ (if (s.txs.get? k).isSome then 1 else 0) + s.pending.countP (·.tx.key = k)

/-- The noted volume and that of the calls that wait is within the daily limit. -/
def WithinDaily (s : Sim Body) : Prop :=
  ∀ daily ∈ parseAmount s.config.limits.daily, ∀ cred, s.volume cred .out + waitingVolume s.pending cred ≤ daily

theorem init_once (config : SimConfig) (now : Time) : (Sim.init Body config now).Once :=
  ⟨fun _ => rfl, fun _ _ _ => Nat.zero_le _⟩

theorem Once.of_eq (h : s.Once) (heffects : s'.effects = s.effects) (htxs : s'.txs = s.txs) {m : Option LedgerEntry}
    (hledger : s'.ledger = s.ledger ++ m.toList)
    (hm : ∀ e ∈ m, ∀ kind, kind ≠ Kind.collection → e.kind ≠ kind.outlayKind) (hpending : s'.pending.Perm s.pending) :
    s'.Once where
  effects := by
    rw [heffects, htxs]
    exact h.effects
  debits k hkind hseq := by
    rw [hledger, debits_append, debits_other fun e he => hm e he k.kind hkind, htxs, hpending.countP_eq]
    exact h.debits k hkind hseq

theorem Once.registers (h : s.Once) (hcorrect : s.config.idempotency = .correct) {tx : Tx}
    {plan : List (Nat × Callback)} (hreg : Registers s s' tx plan) (habsent : s.txs.get? tx.key = none) (fs : List Frame)
    (hpending : s.pending.Perm (fs ++ s'.pending)) (hkey : ∀ f ∈ fs, f.tx.key = tx.key) (hfs : fs.length ≤ 1)
    {m : Option LedgerEntry} (hledger : s'.ledger = s.ledger ++ m.toList)
    (hm : ∀ e ∈ m, ∀ kind, kind ≠ Kind.collection → e.kind ≠ kind.outlayKind) : s'.Once := by
  obtain ⟨key, htxs, -, hkey'⟩ := hreg.txs
  rw [hcorrect] at hkey'
  obtain rfl : key = tx.key := hkey'
  refine ⟨fun k => ?_, fun k hkind hseq => ?_⟩
  · rw [hreg.effects, htxs, OrderedMap.get?_set, OrderedMap.get?_set, h.effects tx.key, habsent]
    split_ifs
    · rfl
    · exact h.effects k
  · have hold := h.debits k hkind hseq
    rw [hledger, debits_append, debits_other fun e he => hm e he k.kind hkind, htxs, OrderedMap.get?_set]
    rw [hpending.countP_eq, List.countP_append] at hold
    by_cases hk : tx.key = k
    · subst hk
      rw [if_pos rfl]
      rw [habsent] at hold
      have hcount : fs.countP (·.tx.key = tx.key) ≤ fs.length := List.countP_le_length
      simp only [Option.isSome_some, Option.isSome_none, if_true, Bool.false_eq_true, if_false] at hold ⊢
      omega
    · rw [if_neg hk]
      have hcount : fs.countP (·.tx.key = k) = 0 := by
        refine List.countP_eq_zero.2 fun f hf => ?_
        simpa [hkey f hf] using hk
      omega

theorem Once.start (h : s.Once) {f : Frame} (hf : f.Ok) (hsame : Same (s.paidFor f.debit) s')
    (hpending : s'.pending.Perm (f :: s.pending)) : s'.Once where
  effects := by
    rw [hsame.effects, hsame.txs]
    exact h.effects
  debits k hkind hseq := by
    have hold := h.debits k hkind hseq
    have hentry : Simulator.debits [⟨s.seq + 2, f.debit.cred, -(f.debit.amount : Int), f.debit.ref, f.debit.kind⟩] k =
        if f.tx.key = k then 1 else 0 := by
      rw [Simulator.debits, List.countP_singleton, hf.debit]
      refine if_congr ?_ rfl rfl
      obtain ⟨kind, credential, reference, seq⟩ := k
      obtain rfl : seq = none := hseq
      simp [Tx.key, outlayKind_injective.eq_iff, and_assoc]
    rw [hsame.ledger, (paidFor_books f.debit).ledger, debits_append, Option.toList_some, hentry, hsame.txs,
      hpending.countP_eq, List.countP_cons]
    have htxs : (s.paidFor f.debit).txs = s.txs := rfl
    rw [htxs]
    simp only [decide_eq_true_eq]
    omega

theorem arrival_kind (f : Frame) : ∀ e ∈ s.arrival f, ∀ kind, kind ≠ Kind.collection → e.kind ≠ kind.outlayKind := by
  intro e he kind _
  unfold arrival at he
  split at he
  · obtain rfl := Option.mem_some.1 he
    cases kind <;> simp [Kind.outlayKind]
  · cases he

theorem income_kind (cb : Callback) : ∀ e ∈ s.income cb, ∀ kind, kind ≠ Kind.collection → e.kind ≠ kind.outlayKind := by
  intro e he kind hkind
  have hcollection : kind.outlayKind ≠ .collection := fun h => hkind (outlayKind_injective h)
  cases cb with
  | collectionFinal tx cred amount fee outcome =>
    rw [income] at he
    split_ifs at he
    · obtain ⟨t, -, rfl⟩ := Option.map_eq_some_iff.1 he
      exact hcollection.symm
    · cases he
  | payoutRefund | utilityRefund =>
    obtain rfl := Option.mem_some.1 he
    cases kind <;> simp [Kind.outlayKind]
  | _ => cases he

theorem Trans.once (h : Trans W s l s') (ho : s.Once) (hp : s.Places) (ht : s.Table)
    (hcorrect : s.config.idempotency = .correct) (hmass : s.config.weak.massAssignment = false) : s'.Once := by
  have hno : ∀ e ∈ (none : Option LedgerEntry), ∀ kind, kind ≠ Kind.collection → e.kind ≠ kind.outlayKind := by
    intro e he
    cases he
  have hledger (ledger : List LedgerEntry) : ledger = ledger ++ (none : Option LedgerEntry).toList :=
    (List.append_nil _).symm
  cases h with
  | quiet l hcalm hsame hpending =>
    exact ho.of_eq hsame.effects hsame.txs (hsame.ledger.trans (hledger _)) hno hpending
  | elapse ms => exact ho.of_eq rfl rfl (hledger _) hno (.refl _)
  | patchConfig config => exact ho.of_eq rfl rfl (hledger _) hno (.refl _)
  | collect cred body r amount hreq =>
    exact ho.registers hcorrect (createCollection_registers hreq)
      (existing_absent hp hcorrect (collectionRequest_ok hreq)) []
      (.of_eq (pending_createCollection cred body).symm) (List.forall_mem_nil _) (Nat.zero_le _)
      createCollection_books.ledger hno
  | start l f hcalm hopens hopened hfunds hsame hpending => exact ho.start (hopened.ok hmass) hsame hpending
  | finish i f hcalm hsame hpending =>
    have hf : f ∈ s.pending := hpending.mem_iff.2 List.mem_cons_self
    have hreg : Registers s s' (s.finish f).1 (s.plan f) := (finish_registers (hp.frames f hf).kind).same hsame
    refine ho.registers hcorrect hreg ((finish_key f).symm ▸ ht.absent f hf) [f] hpending ?_ le_rfl
      (hsame.ledger.trans (finish_books f).ledger) (arrival_kind f)
    intro g hg
    rw [List.mem_singleton.1 hg, finish_key]
  | direct cred body r amount hreq hfunding =>
    have hbump : s.bumpSeq.Once := ho.of_eq rfl rfl (hledger _) hno (.refl _)
    exact hbump.registers hcorrect (finishUtility_registers (by simp [utilityTx, newTx]))
      (existing_absent hp hcorrect (utilityRequest_ok hreq).1) [] (.refl _) (List.forall_mem_nil _) (Nat.zero_le _)
      (finishUtility_books _).ledger hno
  | fire u ts htimers hdue =>
    have hfires := fireCallback_fires (s := { s with timers := ts }) u.callback
    exact ho.of_eq hfires.effects hfires.txs (fireCallback_books (s := { s with timers := ts }) u.callback).ledger
      (income_kind u.callback) (.of_eq (pending_fireCallback u.callback))
  | settle cred body r hparse hpolicy hnew =>
    have hs : Settles s (s.settleNow W cred body).2 cred r.reference := settleNow_settles hparse hpolicy hnew
    refine ho.of_eq hs.effects hs.txs hs.books.ledger ?_ (.of_eq hs.pending)
    intro e he kind _
    split_ifs at he
    · obtain rfl := Option.mem_some.1 he
      cases kind <;> simp [Kind.outlayKind]
    · cases he
  | setBalance cred amount target hamount =>
    obtain ⟨-, -, htxs⟩ := setBalance_rest (s := s) cred amount
    have heffects : (s.setBalance cred amount).2.effects = s.effects := by
      unfold Sim.setBalance
      split <;> rfl
    refine ho.of_eq heffects htxs (setBalance_books hamount).ledger ?_ (.of_eq (pending_setBalance cred amount))
    intro e he kind _
    obtain rfl := Option.mem_some.1 he
    cases kind <;> simp [Kind.outlayKind]

/-! ### The daily limit -/

theorem WithinDaily.of_eq (h : s.WithinDaily) (hconfig : s'.config.limits.daily = s.config.limits.daily)
    (hvolume : ∀ cred, s'.volume cred .out + waitingVolume s'.pending cred =
      s.volume cred .out + waitingVolume s.pending cred) : s'.WithinDaily := by
  intro daily hdaily cred
  rw [hconfig] at hdaily
  rw [hvolume]
  exact h daily hdaily cred

/-- A payment that passes its checks has room: beside the calls that wait, or alone by the check of the limits. -/
theorem Fits.room (h : s.Fits W l) {tx : Tx} (htx : tx ∈ s.passing W l) (hlimits : s.config.weak.ignoreLimits = false)
    (hok : s.checkLimits tx.credential tx.amount .out = .ok ()) {daily : Nat}
    (hdaily : daily ∈ parseAmount s.config.limits.daily) :
    s.volume tx.credential .out + waitingVolume s.pending tx.credential + tx.amount ≤ daily := by
  by_cases hwait : ∃ f ∈ s.pending, f.tx.credential = tx.credential
  · obtain ⟨f, hf, hcred⟩ := hwait
    exact h tx htx daily hdaily f hf hcred
  · rw [waitingVolume_eq_zero fun f hf hcred => hwait ⟨f, hf, hcred⟩, add_zero]
    exact checkLimits_ok hlimits hok hdaily

theorem volume_of_eq (h : s'.dailyOut = s.dailyOut) (cred : String) : s'.volume cred .out = s.volume cred .out := by
  rw [volume, h, volume]

/-- The volume after a registration. -/
theorem Registers.volume {tx : Tx} {plan : List (Nat × Callback)} (h : Registers s s' tx plan)
    (hkind : tx.kind ≠ .collection) (cred : String) :
    s'.volume cred .out = s.volume cred .out + if tx.credential = cred then tx.amount else 0 := by
  rw [Sim.volume, h.dailyOut, if_neg hkind, OrderedMap.get?_set]
  split_ifs with hcred
  · rw [hcred]
    rfl
  · rfl

theorem finish_tx (f : Frame) : (s.finish f).1.credential = f.tx.credential ∧ (s.finish f).1.amount = f.tx.amount ∧
    (s.finish f).1.kind = f.tx.kind := by
  cases hf : f.create <;> simp [Sim.finish, hf]

theorem Trans.withinDaily (h : Trans W s l s') (hw : s.WithinDaily) (hp : s.Places)
    (hlimits : s.config.weak.ignoreLimits = false) (hfits : s.Fits W l)
    (hdaily : s'.config.limits.daily = s.config.limits.daily) : s'.WithinDaily := by
  cases h with
  | quiet l hcalm hsame hpending =>
    exact hw.of_eq hdaily fun cred => by rw [volume_of_eq hsame.dailyOut, waitingVolume_perm hpending]
  | elapse ms => exact hw.of_eq hdaily fun cred => rfl
  | patchConfig config => exact hw.of_eq hdaily fun cred => rfl
  | collect cred body r amount hreq =>
    have hreg := createCollection_registers hreq
    refine hw.of_eq hdaily fun id => ?_
    rw [volume_of_eq (hreg.dailyOut.trans (if_pos rfl)), pending_createCollection]
  | start l f hcalm hopens hopened hfunds hsame hpending =>
    have hpassing : f.tx ∈ s.passing W l := by simp [passing, hopens]
    intro daily hd cred
    rw [hdaily] at hd
    have hvolume : s'.volume cred .out = s.volume cred .out := by
      rw [volume_of_eq hsame.dailyOut]
      rfl
    rw [hvolume, waitingVolume_perm hpending, waitingVolume_cons]
    by_cases hcred : f.tx.credential = cred
    · have hroom := hfits.room hpassing hlimits hopened.checked.2 hd
      rw [hcred] at hroom
      rw [if_pos hcred]
      omega
    · have hrest := hw daily hd cred
      rw [if_neg hcred]
      omega
  | finish i f hcalm hsame hpending =>
    have hf : f.Ok := hp.frames f (hpending.mem_iff.2 List.mem_cons_self)
    have hreg : Registers s s' (s.finish f).1 (s.plan f) := (finish_registers hf.kind).same hsame
    obtain ⟨hcredential, hamount, hkind⟩ := finish_tx (s := s) f
    refine hw.of_eq hdaily fun cred => ?_
    rw [hreg.volume (by rw [hkind]; exact hf.kind), waitingVolume_perm hpending, waitingVolume_cons, hcredential, hamount]
    omega
  | direct cred body r amount hreq hfunding =>
    have hdirect : s.passing W (.createUtilityPurchase cred body) = some (s.utilityTx cred r amount (W.hashOf body)) := by
      simp only [passing, opens, Sim.direct, hreq, if_neg hfunding, Option.map_none]
      rfl
    have hkind : (s.utilityTx cred r amount (W.hashOf body)).kind ≠ .collection := by simp [utilityTx, newTx]
    have hreg := Registers.of_bumpSeq (finishUtility_registers (s := s.bumpSeq) hkind)
    intro daily hd id
    rw [hdaily] at hd
    rw [hreg.volume hkind]
    show s.volume id .out + _ + waitingVolume s.pending id ≤ daily
    split_ifs with hid
    · have hroom := hfits.room hdirect hlimits (utilityRequest_ok hreq).2 hd
      rw [hid] at hroom
      omega
    · exact hw daily hd id
  | fire u ts htimers hdue =>
    have hfires := fireCallback_fires (s := { s with timers := ts }) u.callback
    refine hw.of_eq hdaily fun cred => ?_
    rw [volume_of_eq hfires.dailyOut, pending_fireCallback]
    rfl
  | settle cred body r hparse hpolicy hnew =>
    have hs : Settles s (s.settleNow W cred body).2 cred r.reference := settleNow_settles hparse hpolicy hnew
    exact hw.of_eq hdaily fun id => by rw [volume_of_eq hs.dailyOut, hs.pending]
  | setBalance cred amount target hamount =>
    have hdailyOut : (s.setBalance cred amount).2.dailyOut = s.dailyOut := by
      unfold Sim.setBalance
      split <;> rfl
    exact hw.of_eq hdaily fun id => by rw [volume_of_eq hdailyOut, pending_setBalance]

/-! ### Every run -/

/-- References count, the race window is closed, no weak flag touches payments, and the daily limit is `daily`. -/
structure Strict (daily : String) (c : SimConfig) : Prop where
  idempotency : c.idempotency = .correct
  race : c.raceBug = false
  mass : c.weak.massAssignment = false
  limits : c.weak.ignoreLimits = false
  daily : c.limits.daily = daily

instance (daily : String) (c : SimConfig) : Decidable (Strict daily c) :=
  decidable_of_iff (c.idempotency = .correct ∧ c.raceBug = false ∧ c.weak.massAssignment = false ∧
    c.weak.ignoreLimits = false ∧ c.limits.daily = daily)
    ⟨fun h => ⟨h.1, h.2.1, h.2.2.1, h.2.2.2.1, h.2.2.2.2⟩, fun h => ⟨h.idempotency, h.race, h.mass, h.limits, h.daily⟩⟩

/-- No reference has two debits or two effects, and no credential is over the daily limit. -/
structure ExactlyOnce (s : Sim Body) : Prop where
  debits : ∀ kind, kind ≠ .collection → ∀ cred reference, debits s.ledger ⟨kind, cred, reference, none⟩ ≤ 1
  effects : ∀ k n, s.effects.get? k = some n → n = 1
  duplicateEffects : s.duplicateEffects = 0
  daily : ∀ daily ∈ parseAmount s.config.limits.daily, ∀ cred, s.volume cred .out ≤ daily

theorem Once.debits_le (h : s.Once) (ht : s.Table) {k : TxKey} (hkind : k.kind ≠ .collection) (hseq : k.seq = none) :
    Simulator.debits s.ledger k ≤ 1 := by
  refine (h.debits k hkind hseq).trans ?_
  have hcount : s.pending.countP (·.tx.key = k) ≤ 1 := by
    have hkeys := List.nodup_iff_count_le_one.1 ht.keys k
    rw [List.count, List.countP_map] at hkeys
    refine le_of_eq_of_le (List.countP_congr fun f _ => ?_) hkeys
    simp
  by_cases hzero : s.pending.countP (·.tx.key = k) = 0
  · rw [hzero]
    split_ifs <;> decide
  · obtain ⟨f, hf, hk⟩ := List.countP_pos_iff.1 (Nat.pos_of_ne_zero hzero)
    obtain rfl : f.tx.key = k := by simpa using hk
    rw [ht.absent f hf]
    simpa using hcount

theorem exactlyOnce_of (ho : s.Once) (ht : s.Table) (hw : s.WithinDaily) : s.ExactlyOnce := by
  have heffects : ∀ k n, s.effects.get? k = some n → n = 1 := by
    intro k n hk
    rw [ho.effects, Option.map_eq_some_iff] at hk
    obtain ⟨-, -, rfl⟩ := hk
    rfl
  refine ⟨fun kind hkind cred reference => ho.debits_le ht hkind rfl, heffects, ?_, fun daily hd cred => ?_⟩
  · refine List.sum_eq_zero (List.forall_mem_map.2 fun n hn => ?_)
    obtain ⟨k, hk⟩ := OrderedMap.mem_values_iff.1 hn
    rw [heffects k n hk, Nat.sub_self]
  · exact (Nat.le_add_right _ _).trans (hw daily hd cred)

/-- As long as no payment passes its checks beside a paid call with its reference, or beside paid calls with which it is
over the daily limit, every reference has one effect, and no credential is over the limit. -/
theorem exactly_once (W : Wire Body) (config : SimConfig) (now : Time) (tr : List (Label Body))
    (hconfig : Strict config.limits.daily config) (hkeeps : ∀ l ∈ tr, l.keeps (Strict config.limits.daily))
    (hclear : Along (step W) (fun s l _ => s.Apart W l ∧ s.Fits W l) (.init Body config now) tr) :
    Throughout (step W) ExactlyOnce (.init Body config now) tr := by
  have hlabels : Along (step W) (fun _ l _ => l.keeps (Strict config.limits.daily)) (.init Body config now) tr :=
    .of_labels hkeeps
  let I (s : Sim Body) : Prop := (Strict config.limits.daily s.config ∧ s.Calm) ∧ s.Places ∧ s.Table ∧ s.Once ∧ s.WithinDaily
  have h₀ : I (.init Body config now) := by
    refine ⟨⟨hconfig, (init_noRace hconfig.race now).calm⟩, init_places config now, init_table config now,
      init_once config now, fun daily _ cred => ?_⟩
    exact Nat.zero_le daily
  have hI (s : Sim Body) (h : I s) : s.ExactlyOnce := exactlyOnce_of h.2.2.2.1 h.2.2.1 h.2.2.2.2
  refine ⟨hI _ h₀, (hlabels.and hclear).under_inv (I := I) h₀ ?_⟩
  rintro s l s' ⟨⟨hstrict, hcalm⟩, hplaces, htable, honce, hwithin⟩ hstep ⟨hl, hapart, hfits⟩
  have hrace : s.NoRace := ⟨hstrict.race, hcalm⟩
  have htrans := step_trans hrace hstep
  have hlrace : l.keeps (·.raceBug = false) := by
    cases l with
    | patchConfig config => exact hl.race
    | _ => trivial
  have hstrict' := htrans.keeps hstrict hl
  have hs' : I s' := ⟨⟨hstrict', (htrans.noRace hrace hlrace).calm⟩, htrans.places hplaces hstrict.mass,
    htrans.table htable hplaces hstrict.idempotency hapart,
    htrans.once honce hplaces htable hstrict.idempotency hstrict.mass,
    htrans.withinDaily hwithin hplaces hstrict.limits hfits (hstrict'.daily.trans hstrict.daily.symm)⟩
  exact ⟨hs', hI s' hs'⟩

/-- A daily limit of 15.00. -/
def fifteenADay : SimConfig := { SimConfig.default with limits := ⟨"50000.00", "15.00"⟩ }

theorem exactly_once_refused : Throughout (step formWire) ExactlyOnce (.init Form fifteenADay 0)
    [payTen "p1", .resume 0, payTen "p2", payTen "p1"] :=
  exactly_once formWire fifteenADay 0 _ (by decide) (by decide) (by decide +kernel)

/-- One reference is debited and registered twice, and two payouts of 10.00 are over the limit together. -/
theorem twice_and_over : (∃ s, run (step formWire) (.init Form SimConfig.default 0)
      [payTen "p1", payTen "p1", .resume 0, .resume 0] = some s ∧ debits s.ledger ⟨.payout, "shop", "p1", none⟩ = 2 ∧
        s.duplicateEffects = 1) ∧
    ∃ s, run (step formWire) (.init Form fifteenADay 0) [payTen "p1", payTen "p2", .resume 0, .resume 0] = some s ∧
      parseAmount s.config.limits.daily = some 1500 ∧ s.volume "shop" .out = 2000 := by
  obtain ⟨s, hr, hs⟩ := Option.map_eq_some_iff.1 (show (run (step formWire) (.init Form SimConfig.default 0)
    [payTen "p1", payTen "p1", .resume 0, .resume 0]).map (fun s => (debits s.ledger ⟨.payout, "shop", "p1", none⟩,
      s.duplicateEffects)) = some (2, 1) by decide +kernel)
  obtain ⟨t, hr', ht⟩ := Option.map_eq_some_iff.1 (show (run (step formWire) (.init Form fifteenADay 0)
    [payTen "p1", payTen "p2", .resume 0, .resume 0]).map (fun s => (parseAmount s.config.limits.daily,
      s.volume "shop" .out)) = some (some 1500, 2000) by decide +kernel)
  simp only [Prod.mk.injEq] at hs ht
  exact ⟨⟨s, hr, hs⟩, t, hr', ht⟩

end Sim

end Simulator

end CronMonitor
