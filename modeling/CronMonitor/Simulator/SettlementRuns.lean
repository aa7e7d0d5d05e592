import CronMonitor.Simulator.Settlements

/-!
# What a settlement run reports

A run is recorded as `settled` with the number of collections that were due and their total. It is only paid out, and the
collections are only marked, when the total is positive. Where fees are more than the amounts, the run says `settled` of
collections that stay due, and the next run counts them again.
-/

namespace CronMonitor

namespace Simulator

variable {Body : Type}

namespace Sim
open Runs

variable {W : Wire Body} {s s' : Sim Body} {l : Label Body}

/-- The collections that a label counts in a settlement run. -/
def counted (W : Wire Body) (s : Sim Body) : Label Body → List Nat
  | .settleNow cred body => if s.makesRun W cred body then s.due cred else []
  | _ => []

/-- Where a settlement run is made, what is due comes to more than nothing, or nothing is due. -/
def PaysOut (W : Wire Body) (s : Sim Body) : Label Body → Prop
  | .settleNow cred body => s.makesRun W cred body = true → s.due cred = [] ∨ 0 < s.net cred
  | _ => True

/-- A recorded run has marked as many collections as it counts, and posted minus its total under its own number. -/
def Reported (s s' : Sim Body) : Prop := ∀ run, s'.settlementRuns = s.settlementRuns ++ [run] →
  (newlySettled s s').length = run.itemCount ∧
    ∃ entries, s'.ledger = s.ledger ++ entries ∧ (entries.map (·.delta)).sum = -run.total ∧
      ∀ e ∈ entries, e.kind = .settlement ∧ e.wallet = run.cred ∧ e.ref = settlementId run.id

/-- A reference that has a run already is answered with that run, where there is a policy, and changes nothing. -/
def Repeats (W : Wire Body) (s : Sim Body) : Prop :=
  ∀ cred body r, parse (W.settleNow body) = .ok r → ∀ run ∈ s.settlementRuns, run.cred = cred →
    run.reference = r.reference → s.settleNow W cred body =
      (if s.policy.isSome then .ok ⟨202, .run run⟩ else fail .notFound "no settlement policy exists", s)

/-- What settlements posted to each wallet is minus what was paid out for the marked collections, and references repeat. -/
structure Consistent (W : Wire Body) (s : Sim Body) : Prop where
  posted : ∀ id, settlementSum s.ledger id = -s.settledOut id
  repeats : s.Repeats W

theorem counted_eq_included (h : s.PaysOut W l) : s.counted W l = s.included W l := by
  cases l with
  | settleNow cred body =>
    rw [counted, included]
    cases hruns : s.makesRun W cred body with
    | false => rfl
    | true =>
      rcases h hruns with hdue | hnet
      · simp [hdue]
      · simp [hnet]
  | _ => rfl

/-- The run with a reference is the one that is found. -/
theorem find?_run {runs : List SettlementRun} (h : (runs.map fun run => (run.cred, run.reference)).Nodup)
    {run : SettlementRun} (hrun : run ∈ runs) :
    runs.find? (fun x => x.reference = run.reference && x.cred = run.cred) = some run := by
  cases hfind : runs.find? (fun x => x.reference = run.reference && x.cred = run.cred) with
  | none =>
    have hno := List.find?_eq_none.1 hfind run hrun
    simp at hno
  | some found =>
    have hsame := List.find?_some hfind
    rw [Bool.and_eq_true, decide_eq_true_eq, decide_eq_true_eq] at hsame
    rw [List.inj_on_of_nodup_map h (List.mem_of_find?_eq_some hfind) hrun (Prod.ext hsame.2 hsame.1)]

theorem Sound.repeats (h : s.Sound) : s.Repeats W := by
  rintro cred body r hparse run hrun rfl href
  have hfind := find?_run h.once hrun
  rw [href] at hfind
  unfold settleNow
  rw [hparse]
  cases hpolicy : s.policy with
  | none => rfl
  | some policy => simp only [hfind, Option.isSome_some, if_true]

theorem Sound.consistent (h : s.Sound) : s.Consistent W := ⟨h.paidOut.posted, h.repeats⟩

/-- A run reports what it did exactly if it was paid out, or counted nothing. -/
theorem Settles.reported_iff {cred reference : String} {body : Body} (hs : Settles s s' cred reference) (h : s.Sound)
    (hruns : s.makesRun W cred body = true) : s.Reported s' ↔ s.due cred = [] ∨ 0 < s.net cred := by
  have hmarked : (newlySettled s s').length = if 0 < s.net cred then (s.due cred).length else 0 := by
    rw [((hs.marks h hruns).included).length_eq]
    simp only [included, hruns, Bool.true_and, decide_eq_true_eq]
    split_ifs <;> rfl
  have hledger := hs.books.ledger
  constructor
  · intro hreported
    obtain ⟨hcount, entries, hposted, hsum, -⟩ := hreported _ hs.runs
    by_cases hnet : 0 < s.net cred
    · exact .inr hnet
    · rw [hmarked, if_neg hnet] at hcount
      exact .inl (List.eq_nil_of_length_eq_zero hcount.symm)
  · rintro hpays run hrun
    obtain rfl : run = ⟨s.seq + 1, reference, cred, (s.due cred).length, s.net cred, s.now⟩ := by
      have heq := hs.runs.symm.trans hrun
      simpa using (List.append_cancel_left heq).symm
    by_cases hnet : 0 < s.net cred
    · rw [if_pos hnet] at hmarked hledger
      refine ⟨hmarked, _, hledger, by simp, fun e he => ?_⟩
      obtain rfl := List.mem_singleton.1 he
      exact ⟨rfl, rfl, rfl⟩
    · rw [if_neg hnet] at hmarked hledger
      have hdue := hpays.resolve_right hnet
      refine ⟨by rw [hmarked, hdue]; rfl, [], hledger, ?_, List.forall_mem_nil _⟩
      simp [net, hdue]

theorem Sound.reported_iff (h : s.Sound) (hstep : s.step W l = some s') (hl : l.keeps Plain) :
    s.Reported s' ↔ s.PaysOut W l := by
  by_cases hsettle : ∃ cred body, l = .settleNow cred body
  · obtain ⟨cred, body, rfl⟩ := hsettle
    cases hstep
    cases hruns : s.makesRun W cred body with
    | false =>
      rw [settleNow_unchanged hruns]
      refine iff_of_true (fun run hrun => ?_) fun hmakes => ?_
      · simpa using congrArg List.length hrun
      · rw [hruns] at hmakes
        cases hmakes
    | true =>
      obtain ⟨r, hparse, hpolicy, hnew⟩ := makesRun_spec hruns
      rw [(settleNow_settles hparse hpolicy hnew).reported_iff h hruns]
      exact ⟨fun hpays _ => hpays, fun hpays => hpays hruns⟩
  · have hne : ∀ cred body, l ≠ .settleNow cred body := fun cred body heq => hsettle ⟨cred, body, heq⟩
    have hruns := (step_trans h.noRace hstep).settlementRuns h.places hne
    refine iff_of_true (fun run hrun => ?_) ?_
    · rw [hruns] at hrun
      simpa using congrArg List.length hrun
    · cases l with
      | settleNow cred body => exact absurd rfl (hne cred body)
      | _ => trivial

instance (W : Wire Body) (s : Sim Body) : (l : Label Body) → Decidable (s.PaysOut W l)
  | .settleNow cred body => inferInstanceAs (Decidable (s.makesRun W cred body = true → s.due cred = [] ∨ 0 < s.net cred))
  | .createCollection .. | .createPayout .. | .createPayoutBatch .. | .createUtilityPurchase .. | .createTransfer ..
  | .resume _ | .timer | .elapse _ | .putPolicy _ | .deletePolicy | .setBalance .. | .wallet _ | .patchConfig _ =>
    isTrue trivial

/-- The payee bears the fee, which is ten pesewas at the least. -/
def payeePays : SimConfig := { emptyWallets with feeBearer := .nonInitiator }

/-- A collection of five pesewas settles. -/
def collectFive : List (Label Form) :=
  [.putPolicy (.policy ⟨.momo, "on_demand_only", none⟩),
    .createCollection "shop" (.collection ⟨"c1", "0.05", "GHS", "mtn", ⟨.msisdn, "0240000000"⟩, none⟩), .elapse 50,
    .timer, .timer]

/-- Another one of five cedis settles before the first settlement run; its reference is sent again, and then another
one with nothing due. -/
def settleBoth : List (Label Form) :=
  collectFive ++
    [.createCollection "shop" (.collection ⟨"c2", "5.00", "GHS", "mtn", ⟨.msisdn, "0240000000"⟩, none⟩), .elapse 50,
      .timer, .timer, .settleNow "shop" (.settleNow ⟨"s1"⟩), .settleNow "shop" (.settleNow ⟨"s1"⟩),
      .settleNow "shop" (.settleNow ⟨"s2"⟩)]

/-- Two settlement runs with only the first collection due. -/
def settleTwice : List (Label Form) :=
  collectFive ++ [.settleNow "shop" (.settleNow ⟨"s1"⟩), .settleNow "shop" (.settleNow ⟨"s2"⟩)]

end Sim

end Simulator

end CronMonitor
