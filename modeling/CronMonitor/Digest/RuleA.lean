import CronMonitor.Digest.Service
import CronMonitor.Lib.Runs

/-!
# Rule A

A digest is compared with the latest row of `health_digests`, and broadcasts leave rows there as well. Whether a digest
sends is decided by the level before it if no broadcast came between, or if the broadcast changes nothing: it recorded
the level of the digest before, or the level now is neither of the two.
-/

namespace CronMonitor.Digest

open Runs

inductive DigestLabel
  | statuses (board : List TargetStatusRow)
  | evaluate (w : DigestWorld) (now : Time)
  | broadcast (w : DigestWorld) (now : Time)

/-- The store, and what the runs so far computed: the level of the last digest, and of the last broadcast after it. -/
structure DigestSys where
  store : DigestStore
  evaluated : Option SystemHealthLevel
  broadcasted : Option SystemHealthLevel

def level (env : DigestEnv) (st : DigestStore) : SystemHealthLevel := (buildDigest env st.now st).overallLevel

/-- One run; the clock moves before the next. -/
def step (env : DigestEnv) (s : DigestSys) : DigestLabel × Nat → Option DigestSys
  | (l, elapsed) =>
    let tick (st : DigestStore) : DigestStore := { st with now := st.now + elapsed + 1 }
    match l with
    | .statuses board => some { s with store := tick { s.store with board } }
    | .evaluate w now => some ⟨tick (evaluateDigest env w now s.store).2, some (level env s.store), none⟩
    | .broadcast w now =>
      some ⟨tick (broadcastStatusSms env w now s.store).2, s.evaluated, some (level env s.store)⟩

/-- A digest sends exactly if the level is not the one of the digest before, or `HEALTHY` if there was none. -/
def RuleA (env : DigestEnv) (s : DigestSys) (l : DigestLabel × Nat) (_ : DigestSys) : Prop :=
  ∀ w now elapsed, l = (.evaluate w now, elapsed) →
    ((buildDigest env now s.store).shouldSend = true ↔ level env s.store ≠ s.evaluated.getD .healthy)

/-- At a digest, the last broadcast since the digest before recorded that digest's level, or the level is neither of
the two. -/
def Undisturbed (env : DigestEnv) (s : DigestSys) (l : DigestLabel × Nat) : Prop :=
  match l with
  | (.evaluate _ _, _) => ∀ b ∈ s.broadcasted,
      b = s.evaluated.getD .healthy ∨ level env s.store ≠ b ∧ level env s.store ≠ s.evaluated.getD .healthy
  | _ => True

variable {env : DigestEnv} {st : DigestStore} {s s' : DigestSys}

theorem decideSend_iff {current : SystemHealthLevel} {previous : Option SystemHealthLevel} :
    (decideSend current previous).1 = true ↔ current ≠ previous.getD .healthy := by
  cases previous with
  | none => by_cases h : current = .healthy <;> simp [decideSend, h]
  | some p =>
    by_cases h : p = current
    · simp [decideSend, h]
    · simp [decideSend, h, Ne.symm h]

theorem shouldSend_iff (now : Time) : (buildDigest env now st).shouldSend = true ↔
    level env st ≠ (st.latestDigest.map (·.overallLevel)).getD .healthy := decideSend_iff

/-- The latest row is the one that was saved last, and no row is from the future. -/
structure Chained (s : DigestSys) : Prop where
  latest : s.store.latestDigest.map (·.overallLevel) = s.broadcasted.or s.evaluated
  past : ∀ d ∈ s.store.latestDigest, d.generatedAt < s.store.now

theorem latestDigest_saveDigest (input : HealthDigest) (h : ∀ d ∈ st.latestDigest, d.generatedAt < st.now) :
    (st.saveDigest input).2.latestDigest = some (st.saveDigest input).1 := by
  rw [DigestStore.saveDigest, DigestStore.latestDigest, List.foldl_append]
  cases hl : st.latestDigest with
  | none =>
    rw [DigestStore.latestDigest] at hl
    rw [hl]
    rfl
  | some b =>
    have hpast := h b hl
    rw [DigestStore.latestDigest] at hl
    rw [hl]
    exact if_pos hpast.le

theorem chained_step {l : DigestLabel × Nat} (h : Chained s) (hs : step env s l = some s') : Chained s' := by
  obtain ⟨l, elapsed⟩ := l
  have htick : s.store.now < s.store.now + elapsed + 1 :=
    Int.lt_add_one_iff.2 (Int.le_add_of_nonneg_right (Int.natCast_nonneg elapsed))
  cases l with
  | statuses board =>
    cases hs
    exact ⟨h.latest, fun d hd => (h.past d hd).trans htick⟩
  | evaluate w now =>
    cases hs
    have hlatest : (evaluateDigest env w now s.store).2.latestDigest = some (evaluateDigest env w now s.store).1 :=
      latestDigest_saveDigest _ h.past
    exact ⟨congrArg (Option.map (·.overallLevel)) hlatest, fun d hd => Option.some.inj (hlatest.symm.trans hd) ▸ htick⟩
  | broadcast w now =>
    cases hs
    have hlatest : (broadcastStatusSms env w now s.store).2.latestDigest =
        some (broadcastStatusSms env w now s.store).1 := latestDigest_saveDigest _ h.past
    exact ⟨congrArg (Option.map (·.overallLevel)) hlatest, fun d hd => Option.some.inj (hlatest.symm.trans hd) ▸ htick⟩

theorem ruleA_iff_undisturbed {l : DigestLabel × Nat} (h : Chained s) : RuleA env s l s' ↔ Undisturbed env s l := by
  obtain ⟨l, elapsed⟩ := l
  cases l with
  | statuses board => simp [RuleA, Undisturbed]
  | broadcast w now => simp [RuleA, Undisturbed]
  | evaluate w now =>
    have hiff : RuleA env s (.evaluate w now, elapsed) s' ↔ (level env s.store ≠ (s.broadcasted.or s.evaluated).getD .healthy ↔
        level env s.store ≠ s.evaluated.getD .healthy) := by
      rw [← h.latest]
      constructor
      · exact fun hr => (shouldSend_iff now).symm.trans (hr w now elapsed rfl)
      · rintro hr w' now' elapsed' ⟨⟩
        exact (shouldSend_iff now).trans hr
    rw [hiff]
    show _ ↔ ∀ b ∈ s.broadcasted, _
    cases s.broadcasted with
    | none => simp
    | some b =>
      simp only [Option.mem_some_iff, forall_eq']
      by_cases hb : b = s.evaluated.getD .healthy
      · simp [hb]
      · by_cases hc : level env s.store = b
        · simp [hb, hc]
        · simp [hb, hc]

/-- Before any digest. -/
def init (board : List TargetStatusRow) (contacts : List DigestContact) : DigestSys :=
  ⟨⟨board, contacts, [], 0, 0⟩, none, none⟩

/-- Over every history, Rule A holds of all digests exactly if no broadcast disturbs one. -/
theorem ruleA_iff {board : List TargetStatusRow} {contacts : List DigestContact} {tr : List (DigestLabel × Nat)} :
    Along (step env) (RuleA env) (init board contacts) tr ↔
      Along (step env) (fun s l _ => Undisturbed env s l) (init board contacts) tr :=
  along_congr (I := Chained) ⟨rfl, fun _ hd => nomatch hd⟩ fun _ _ _ h hs =>
    ⟨ruleA_iff_undisturbed h, fun _ => chained_step h hs⟩

def testEnv : DigestEnv := ⟨true, true, none, 30, 60, "iSmart Health", fun _ => ""⟩

def payments (status : HealthStatus) : TargetStatusRow :=
  ⟨"Payments", .paymentStatus, "production", true, true, some status, none, none, none, none⟩

def quietWorld : DigestWorld := ⟨fun _ => ⟨true, ""⟩, fun _ => ⟨true, ""⟩⟩

/-- A service goes down between two digests, and the hourly broadcast sees it first: the digest is silent. -/
theorem ruleA_swallowed : ¬ ∀ (env : DigestEnv) (board : List TargetStatusRow) (contacts : List DigestContact)
    (tr : List (DigestLabel × Nat)), Along (step env) (RuleA env) (init board contacts) tr := by
  intro h
  have hall := along_iff.1 (h testEnv [payments .up] [] [(.evaluate quietWorld 0, 0), (.statuses [payments .down], 0),
    (.broadcast quietWorld 2, 0), (.evaluate quietWorld 3, 0)])
  have hlast := hall [(.evaluate quietWorld 0, 0), (.statuses [payments .down], 0), (.broadcast quietWorld 2, 0)]
    (.evaluate quietWorld 3, 0) [] _ _ rfl rfl rfl quietWorld 3 0 rfl
  cases hlast.2 (by decide)

end CronMonitor.Digest
