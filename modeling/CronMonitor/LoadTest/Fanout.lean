import CronMonitor.LoadTest.Execute
import CronMonitor.LoadTest.Stages
import CronMonitor.Lib.JsonRoundTrip

/-!
# How much one request does

The gate judges a plan by its peak rate times `fanout`. What one request really carries is decided by the `$repeat`
templates of its body, which `expand` of the rendered script (`k6-script.ts`) interprets in every iteration, while the
scheduled rate follows the stages. The filled-in placeholders are a parameter. `expand` also counts: its items are the
innermost templates it has filled in, none where it has met no `$repeat`.
-/

namespace CronMonitor.LoadTest
open Json Utf16

/-- What the script's literal makes of a JSON text. Of an object the own members are kept, and what `node.$repeat` and
`node.template` read, which a member `__proto__` can provide too. -/
inductive Literal (ν : Type)
  | null
  | bool (b : Bool)
  | num (x : ν)
  | str (s : JsString)
  | arr (elements : List (Literal ν))
  | obj (own : List (JsString × Literal ν)) (repeats : Option (Literal ν)) (template : Option (Literal ν))

variable {ν : Type}

namespace Literal

/-- `node.$repeat`; `none` is undefined. -/
def repeats? : Literal ν → Option (Literal ν)
  | obj _ repeats _ => repeats
  | _ => none

/-- `node.template`. -/
def template? : Literal ν → Option (Literal ν)
  | obj _ _ template => template
  | _ => none

def member (key : JsString) (members : List (JsString × Literal ν)) : Option (Literal ν) :=
  (members.reverse.find? (·.1 = key)).map Prod.snd

/-- An object literal: a member `__proto__` becomes the prototype. -/
def object (members : List (JsString × Literal ν)) : Literal ν :=
  let own := members.filter (·.1 ≠ js "__proto__")
  let proto := member (js "__proto__") members
  obj own ((member (js "$repeat") own).or (proto.bind repeats?)) ((member (js "template") own).or (proto.bind template?))

mutual

def ofValue : Value ν → Literal ν
  | .null => null
  | .bool b => bool b
  | .num x => num x
  | .str s => str s
  | .arr xs => arr (ofElements xs)
  | .obj ms => object (ofMembers ms)

def ofElements : List (Value ν) → List (Literal ν)
  | [] => []
  | x :: xs => ofValue x :: ofElements xs

def ofMembers : List (JsString × Value ν) → List (JsString × Literal ν)
  | [] => []
  | (key, v) :: ms => (key, ofValue v) :: ofMembers ms

end

end Literal

/-- How often `for (let i = 0; i < v; i++)` runs: for a number the naturals below it, for anything else what the
coercion makes of it; `none` if that throws or the loop does not end. -/
structure Loop (ν : Type) where
  below : ν → Nat
  coerced : Literal ν → Option Nat

def Loop.passes (L : Loop ν) : Literal ν → Option Nat
  | .num x => some (L.below x)
  | v => L.coerced v

/-- Several counts are added. -/
def addItems : Option Nat → Option Nat → Option Nat
  | none, m => m
  | some n, none => some n
  | some n, some m => some (n + m)

/-- The passes of a `$repeat`, each of which counts what it has filled in. -/
def repeatTemplate (n : Nat) (pass : Nat → Option (Value ν × Option Nat)) : Option (Value ν × Option Nat) :=
  ((List.range n).mapM pass).map fun es => (.arr (es.map Prod.fst), some (es.map fun e => e.2.getD 1).sum)

/-- What an array keeps of an element: the items of a `$repeat` stand for themselves. -/
def spread (node : Literal ν) (e : Value ν) : List (Value ν) :=
  if node.repeats?.isSome then
    match e with
    | .arr items => items
    | _ => []
  else [e]

section Expand
variable (L : Loop ν) (fill : JsString → Option Nat → JsString)

mutual

/-- `expand(node, ctx)`, where of the context only the index varies; `none` if the iteration dies in it. -/
def expand : Literal ν → Option Nat → Option (Value ν × Option Nat)
  | .null, _ => some (.null, none)
  | .bool b, _ => some (.bool b, none)
  | .num x, _ => some (.num x, none)
  | .str s, i => some (.str (fill s i), none)
  | .arr xs, i => (expandElements xs i).map fun e => (.arr e.1, e.2)
  | .obj own repeats template, i =>
    match repeats with
    | some count => (L.passes count).bind fun n => repeatTemplate n fun k => expandTemplate template (some k)
    | none => (expandMembers own i).map fun e => (.obj e.1, e.2)

def expandElements : List (Literal ν) → Option Nat → Option (List (Value ν) × Option Nat)
  | [], _ => some ([], none)
  | x :: xs, i =>
    (expand x i).bind fun e => (expandElements xs i).map fun rest => (spread x e.1 ++ rest.1, addItems e.2 rest.2)

def expandMembers : List (JsString × Literal ν) → Option Nat → Option (List (JsString × Value ν) × Option Nat)
  | [], _ => some ([], none)
  | (key, v) :: ms, i =>
    (expand v i).bind fun e => (expandMembers ms i).map fun rest => ((key, e.1) :: rest.1, addItems e.2 rest.2)

/-- A missing template is undefined, which a JSON array writes as `null`. -/
def expandTemplate : Option (Literal ν) → Option Nat → Option (Value ν × Option Nat)
  | none, _ => some (.null, none)
  | some t, i => expand t i

end

end Expand

/-! ### The multiplicity that is written in a body -/

section Multiplicity
variable (L : Loop ν)

mutual

/-- Nested counts are multiplied, several ones are added. -/
def multiplicity : Literal ν → Option (Option Nat)
  | .null | .bool _ | .num _ | .str _ => some none
  | .arr xs => multiplicityElements xs
  | .obj own repeats template =>
    match repeats with
    | some count => (L.passes count).bind fun n =>
      if n = 0 then some (some 0) else (multiplicityTemplate template).map fun m => some (n * m.getD 1)
    | none => multiplicityMembers own

def multiplicityElements : List (Literal ν) → Option (Option Nat)
  | [] => some none
  | x :: xs => (multiplicity x).bind fun m => (multiplicityElements xs).map (addItems m)

def multiplicityMembers : List (JsString × Literal ν) → Option (Option Nat)
  | [] => some none
  | (_, v) :: ms => (multiplicity v).bind fun m => (multiplicityMembers ms).map (addItems m)

def multiplicityTemplate : Option (Literal ν) → Option (Option Nat)
  | none => some none
  | some t => multiplicity t

end

end Multiplicity

/-! ### A request of the script -/

/-- `CFG.body`: the body of the plan through `JSON.stringify` and the literal. -/
def cfgBody (F : NumberFormat ν) (body : Option (Value ν)) : Literal ν := .ofValue (settle F (body.getD .null))

/-- The items of one request; `none` if its iteration dies before it is sent. -/
def requestItems (F : NumberFormat ν) (L : Loop ν) (fill : JsString → Option Nat → JsString)
    (body : Option (Value ν)) : Option Nat :=
  match cfgBody F body with
  | .null => some 0
  | node => (expand L fill node none).map fun e => e.2.getD 0

/-- The items that the body asks for. -/
def bodyMultiplicity (F : NumberFormat ν) (L : Loop ν) (body : Option (Value ν)) : Option Nat :=
  (multiplicity L (cfgBody F body)).map fun m => m.getD 0

/-! ### What is expanded is what is written -/

theorem repeatTemplate_items {n : Nat} {pass : Nat → Option (Value ν × Option Nat)} {m : Option (Option Nat)}
    (h : ∀ k, (pass k).map Prod.snd = m) : (repeatTemplate n pass).map Prod.snd =
      if n = 0 then some (some 0) else m.map fun m => some (n * m.getD 1) := by
  cases m with
  | none =>
    have hnone : ∀ k, pass k = none := fun k => Option.map_eq_none_iff.1 (h k)
    cases n with
    | zero => rfl
    | succ n =>
      rw [repeatTemplate, List.range_succ_eq_map, List.mapM_cons, hnone]
      rfl
  | some items =>
    have hsome : ∀ k, ∃ v, pass k = some (v, items) := by
      intro k
      obtain ⟨⟨v, items'⟩, hk, rfl⟩ := Option.map_eq_some_iff.1 (h k)
      exact ⟨v, hk⟩
    choose v hv using hsome
    have hpass : pass = fun k => pure (v k, items) := funext hv
    rw [repeatTemplate, hpass, List.mapM_pure]
    have hsum : (((List.range n).map fun k => (v k, items)).map fun e => e.2.getD 1).sum = n * items.getD 1 := by
      rw [List.map_map]
      show ((List.range n).map fun _ => items.getD 1).sum = _
      rw [List.map_const', List.sum_replicate, List.length_range, smul_eq_mul]
    simp only [Option.pure_def, Option.map_some, hsum]
    split
    · subst_vars
      rw [Nat.zero_mul]
    · rfl

section Items
variable (L : Loop ν) (fill : JsString → Option Nat → JsString)

mutual

/-- In every iteration and for every index the items of a node are its multiplicity. -/
theorem expand_items : (node : Literal ν) → (i : Option Nat) →
    (expand L fill node i).map Prod.snd = multiplicity L node
  | .null, _ => by rw [expand, multiplicity]; rfl
  | .bool _, _ => by rw [expand, multiplicity]; rfl
  | .num _, _ => by rw [expand, multiplicity]; rfl
  | .str _, _ => by rw [expand, multiplicity]; rfl
  | .arr xs, i => by
    rw [expand, multiplicity, ← expandElements_items xs i, Option.map_map]
    rfl
  | .obj own (some count) template, i => by
    rw [expand, multiplicity]
    cases L.passes count with
    | none => rfl
    | some n => exact repeatTemplate_items fun k => expandTemplate_items template (some k)
  | .obj own none template, i => by
    rw [expand, multiplicity, ← expandMembers_items own i, Option.map_map]
    rfl

theorem expandElements_items : (xs : List (Literal ν)) → (i : Option Nat) →
    (expandElements L fill xs i).map Prod.snd = multiplicityElements L xs
  | [], _ => by rw [expandElements, multiplicityElements]; rfl
  | x :: xs, i => by
    rw [expandElements, multiplicityElements, ← expand_items x i, ← expandElements_items xs i]
    cases expand L fill x i with
    | none => rfl
    | some e => cases expandElements L fill xs i <;> rfl

theorem expandMembers_items : (ms : List (JsString × Literal ν)) → (i : Option Nat) →
    (expandMembers L fill ms i).map Prod.snd = multiplicityMembers L ms
  | [], _ => by rw [expandMembers, multiplicityMembers]; rfl
  | (key, v) :: ms, i => by
    rw [expandMembers, multiplicityMembers, ← expand_items v i, ← expandMembers_items ms i]
    cases expand L fill v i with
    | none => rfl
    | some e => cases expandMembers L fill ms i <;> rfl

theorem expandTemplate_items : (t : Option (Literal ν)) → (i : Option Nat) →
    (expandTemplate L fill t i).map Prod.snd = multiplicityTemplate L t
  | none, _ => by rw [expandTemplate, multiplicityTemplate]; rfl
  | some t, i => by rw [expandTemplate, multiplicityTemplate, expand_items t i]

end

theorem requestItems_eq (F : NumberFormat ν) (body : Option (Value ν)) :
    requestItems F L fill body = bodyMultiplicity F L body := by
  unfold requestItems bodyMultiplicity
  rw [← expand_items L fill (cfgBody F body) none, Option.map_map]
  split
  case h_1 hnull => rw [hnull, expand]; rfl
  case h_2 => rfl

end Items

/-! ### What the gate is given -/

theorem exists_peak_stage (cfg : PlanConfig) : ∃ s ∈ buildStages cfg, s.target = peakRps cfg := by
  by_contra hnone
  push Not at hnone
  obtain ⟨s, rest, hs, -, htarget⟩ := buildStages_head cfg
  have hpos : 1 ≤ peakRps cfg := htarget.trans (target_le_peakRps (hs ▸ List.mem_cons_self))
  have hle : peakRps cfg ≤ peakRps cfg - 1 := by
    refine foldl_max_le_iff.2 ⟨Nat.zero_le _, fun n hn => ?_⟩
    obtain ⟨s, hs, rfl⟩ := List.mem_map.1 hn
    have h1 := target_le_peakRps hs
    have h2 := hnone s hs
    omega
  omega

/-- The scheduled rate of items stays under the rate that the gate is given exactly when a request carries at most
`fanout` items. -/
theorem judged_iff (cfg : PlanConfig) (moneyMoving : Bool) (items : Nat) :
    (∀ t, 0 ≤ t → scheduledRate 0 (buildStages cfg) t * items ≤ (runPlan cfg moneyMoving).rps) ↔ items ≤ cfg.fanout := by
  have hrps : (runPlan cfg moneyMoving).rps = peakRps cfg * cfg.fanout := by
    show ((peakRps cfg * cfg.fanout : Nat) : ℚ) = _
    push_cast
    rfl
  rw [hrps]
  constructor
  · intro h
    obtain ⟨s, hs, htarget⟩ := exists_peak_stage cfg
    obtain ⟨t, ht, hrate⟩ := scheduledRate_reaches 0 hs fun s hs => buildStages_duration hs
    have hle := h t ht.le
    obtain ⟨s', rest, hs', -, hpos⟩ := buildStages_head cfg
    have hpeak : 1 ≤ peakRps cfg := hpos.trans (target_le_peakRps (hs' ▸ List.mem_cons_self))
    rw [hrate, htarget] at hle
    have hnat : peakRps cfg * items ≤ peakRps cfg * cfg.fanout := by exact_mod_cast hle
    exact Nat.le_of_mul_le_mul_left hnat hpeak
  · intro h t ht
    have hrate : scheduledRate 0 (buildStages cfg) t ≤ peakRps cfg :=
      scheduledRate_le (Nat.cast_nonneg _) (Nat.cast_nonneg _)
        (fun s hs => ⟨buildStages_duration hs, Nat.cast_le.2 (target_le_peakRps hs)⟩) ht
    have hitems : (items : ℚ) ≤ cfg.fanout := Nat.cast_le.2 h
    exact mul_le_mul hrate hitems (Nat.cast_nonneg _) (Nat.cast_nonneg _)

/-- Whatever the iteration, a request carries at most `fanout` items, and the items per second are within what the gate
was given. -/
def GateJudgesMultiplicity (F : NumberFormat ν) (L : Loop ν) (cfg : PlanConfig) (body : Option (Value ν)) : Prop :=
  ∀ fill items, requestItems F L fill body = some items → items ≤ cfg.fanout ∧
    ∀ moneyMoving t, 0 ≤ t → scheduledRate 0 (buildStages cfg) t * items ≤ (runPlan cfg moneyMoving).rps

/-- The gate judges the true multiplicity if and only if the plan declares at least what its body asks for. -/
theorem gate_judges_iff (F : NumberFormat ν) (L : Loop ν) (cfg : PlanConfig) (body : Option (Value ν)) :
    GateJudgesMultiplicity F L cfg body ↔ ∀ m, bodyMultiplicity F L body = some m → m ≤ cfg.fanout := by
  constructor
  · intro h m hm
    exact (h (fun s _ => s) m ((requestItems_eq L _ F body).trans hm)).1
  · intro h fill items hitems
    have hle := h items ((requestItems_eq L fill F body).symm.trans hitems)
    exact ⟨hle, fun moneyMoving => (judged_iff cfg moneyMoving items).2 hle⟩

/-- A money-moving plan that declares one payment a request, with a body of ten. -/
theorem ten_items_declared_as_one :
    let cfg : PlanConfig := ⟨.load, .post, none, true, false, 1, 5, 60, 20, 10, by decide, by decide, by decide, rfl⟩
    let body : Value Nat := .obj [(js "items", .arr [.obj [(js "$repeat", .num 10),
      (js "template", .obj [(js "reference", .str (js "\x7b\x7bref\x7d\x7d"))])]])]
    ¬ GateJudgesMultiplicity decimal ⟨id, fun _ => none⟩ cfg (some body) := by
  intro cfg body h
  have hitems : requestItems decimal ⟨id, fun _ => none⟩ (fun s _ => s) (some body) = some 10 := by decide +kernel
  have hle := (h (fun s _ => s) 10 hitems).1
  revert hle
  decide

end CronMonitor.LoadTest
