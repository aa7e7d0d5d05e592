import CronMonitor.HealthCheck.Validator

/-!
# What a validation rule says

`Meets` is what a rule without parts says of a response, `Verdict` puts a judgement of such rules together to one of a
rule. `evaluate` follows the same rules but for two things: some of them throw (`Throws`), and some judge a response that is
out of the ordinary the other way round (`Misjudged`). So it is right exactly if no part throws and the misjudged parts
make no difference.
-/

namespace CronMonitor.HealthCheck.Validator
open Utf16 Json

variable {ν : Type}

/-! ### The meaning of a rule -/

def isDecimal (segment : JsString) : Bool := segment ≠ [] && segment.all isDigit

/-- A member that an object has of its own, or the element of an array at a decimal index. -/
def ownMember (segment : JsString) : Value ν → Option (Value ν)
  | .obj ms => (Value.obj ms).get? segment
  | .arr xs => if isDecimal segment then xs[readDecimal segment]? else none
  | _ => none

/-- What is at the path. -/
def located (facts : ResponseFacts ν) (path : JsString) : Option (Value ν) :=
  (parsePath path).foldl (fun current segment => current.bind (ownMember segment)) (facts.json.map (·.1))

/-- The number that a value is, or that its text denotes. -/
def denoted (C : NumberReading ν) : Value ν → Option ν
  | .num x => some x
  | .str s => if isBlank s then none else C.numeral s
  | _ => none

mutual

/-- The parts of a rule that are no composites. -/
def leaves : ValidationRule ν → List (ValidationRule ν)
  | .composite _ rules => leavesEach rules
  | rule => [rule]

def leavesEach : List (ValidationRule ν) → List (ValidationRule ν)
  | [] => []
  | rule :: rules => leaves rule ++ leavesEach rules

end

mutual

/-- The verdict of a rule when its parts are judged by `judge`. -/
def Verdict (judge : ValidationRule ν → Prop) : ValidationRule ν → Prop
  | .composite .all rules => VerdictAll judge rules
  | .composite .any rules => VerdictAny judge rules
  | rule => judge rule

def VerdictAll (judge : ValidationRule ν → Prop) : List (ValidationRule ν) → Prop
  | [] => True
  | rule :: rules => Verdict judge rule ∧ VerdictAll judge rules

def VerdictAny (judge : ValidationRule ν → Prop) : List (ValidationRule ν) → Prop
  | [] => False
  | rule :: rules => Verdict judge rule ∨ VerdictAny judge rules

end

/-- The verdict on a response; without any expectation a status of 2xx is one. -/
def ResponseVerdict (judge : ValidationRule ν → Prop) (rule : Option (ValidationRule ν)) (expectedStatus : Option Int)
    (facts : ResponseFacts ν) : Prop :=
  (rule = none → expectedStatus = none → 200 ≤ facts.httpStatus ∧ facts.httpStatus < 300) ∧
    (∀ equals ∈ expectedStatus, (facts.httpStatus : Int) = equals) ∧ ∀ r ∈ rule, Verdict judge r

/-! ### Where the code departs from it -/

def isPrimitive : Value ν → Bool
  | .bool _ | .num _ | .str _ => true
  | _ => false

mutual

/-- `String` throws. -/
def unprintable : Value ν → Bool
  | .arr xs => unprintableElement xs
  | .obj ms => js "toString" ∈ ms.map Prod.fst
  | _ => false

def unprintableElement : List (Value ν) → Bool
  | [] => false
  | x :: xs => unprintable x || unprintableElement xs

end

/-- A part that throws: it reads as a number what has no text, or asks a primitive for members. -/
def Throws (facts : ResponseFacts ν) : ValidationRule ν → Prop
  | .numeric path _ _ => ∃ v, getByPath facts.root path = some (.json v) ∧ unprintable v = true
  | .jsonSchema schema => schema ≠ [] ∧ ∃ v ∈ facts.json.map (·.1), isPrimitive v = true
  | _ => False

section Judgement
variable [LinearOrder ν] (C : NumberReading ν)

/-- What a part says of a response. -/
def Meets (facts : ResponseFacts ν) : ValidationRule ν → Prop
  | .status equals => (facts.httpStatus : Int) = equals
  | .jsonEquals path equals | .jsonPathEquals path equals =>
    ∃ v w, located facts path = some v ∧ equals = some w ∧ alike v w.1 = true
  | .contains value negate => if negate then ¬ value <:+: facts.bodyText else value <:+: facts.bodyText
  | .numeric path op value => ∃ v n, located facts path = some v ∧ denoted C v = some n ∧ op.holds n value = true
  | .jsonSchema schema => ∃ ms, facts.json.map (·.1) = some (.obj ms) ∧ ∀ key ∈ schema, key ∈ ms.map Prod.fst
  | .composite _ _ => False

/-- A part that is judged the other way round: members are in another order than the expected ones, or the text of
something else is the expected one; something that is no number is read as one that satisfies the comparison; the declared
keys are inherited, or those of an array. -/
def Misjudged (facts : ResponseFacts ν) : ValidationRule ν → Prop
  | .jsonEquals path equals | .jsonPathEquals path equals =>
    (∃ v w, located facts path = some v ∧ equals = some w ∧ v ≠ w.1 ∧ alike v w.1 = true) ∨
      ∃ x, getByPath facts.root path = some x ∧ stringify C x = stringify C (expectation equals) ∧
        ¬ ∃ w, equals = some w ∧ located facts path = some w.1
  | .numeric path op value =>
    (∃ x n, getByPath facts.root path = some x ∧ x.number C = .ok (some n) ∧ op.holds n value = true) ∧
      ¬ ∃ v n, located facts path = some v ∧ denoted C v = some n
  | .jsonSchema schema =>
    (∀ key ∈ schema, isIn key (facts.json.map (·.1)) = .ok true) ∧
      ¬ ∃ ms, facts.json.map (·.1) = some (.obj ms) ∧ ∀ key ∈ schema, key ∈ ms.map Prod.fst
  | _ => False

/-- The judgement of the code. -/
def Judged (facts : ResponseFacts ν) (leaf : ValidationRule ν) : Prop := Meets C facts leaf ↔ ¬ Misjudged C facts leaf

end Judgement

variable {C : NumberReading ν} {facts : ResponseFacts ν}

/-! ### Paths -/

theorem not_isSpace_of_isDigit {c : UInt16} (h : isDigit c = true) : isSpace c = false := by
  have hc : 0x30 ≤ c.toNat ∧ c.toNat ≤ 0x39 := by simpa [isDigit] using h
  simp only [isSpace, Text.isWhite, List.mem_cons, List.not_mem_nil, or_false, Bool.or_eq_false_iff,
    decide_eq_false_iff_not, Bool.and_eq_false_iff]
  omega

/-- A decimal index is read as what it is. -/
theorem parseIndex_of_isDecimal {segment : JsString} (h : isDecimal segment = true) :
    parseIndex segment = some (readDecimal segment : Int) := by
  obtain ⟨hne, hall⟩ : segment ≠ [] ∧ segment.all isDigit = true := by simpa [isDecimal] using h
  obtain ⟨c, rest, rfl⟩ := List.exists_cons_of_ne_nil hne
  have hc : isDigit c = true := List.all_eq_true.1 hall c List.mem_cons_self
  have hspace : (c :: rest).dropWhile isSpace = c :: rest := by
    rw [List.dropWhile_cons, not_isSpace_of_isDigit hc]
    rfl
  have hplus : c ≠ 0x2B := by
    rintro rfl
    exact absurd hc (by decide)
  have hminus : c ≠ 0x2D := by
    rintro rfl
    exact absurd hc (by decide)
  have hsign : sign (c :: rest) = c :: rest := by simp [sign, hplus, hminus]
  have htake : (c :: rest).takeWhile isDigit = c :: rest := List.takeWhile_eq_self_iff.2 (List.all_eq_true.1 hall)
  simp [parseIndex, hspace, hsign, htake, hminus]

theorem segment_of_ownMember {segment : JsString} {v w : Value ν} (h : ownMember segment v = some w) :
    Found.segment segment (.json v) = some (.json w) := by
  cases v with
  | null | bool b | num x | str s => cases h
  | arr xs =>
    simp only [ownMember] at h
    split at h
    · rename_i hdecimal
      rw [Found.segment, parseIndex_of_isDecimal hdecimal]
      simp [h]
    · cases h
  | obj ms =>
    have h' : (Value.obj ms).get? segment = some w := h
    rw [Found.segment, h']

theorem foldl_bind_none {α β : Type} (f : α → β → Option β) (segments : List α) :
    segments.foldl (fun current segment => current.bind (f segment)) none = none := by
  induction segments with
  | nil => rfl
  | cons segment segments ih => exact ih

/-- What is at the path is what the code finds there. -/
theorem getByPath_of_located {path : JsString} {v : Value ν} (h : located facts path = some v) :
    getByPath facts.root path = some (.json v) := by
  have walk : ∀ (segments : List JsString) (u : Value ν),
      segments.foldl (fun current segment => current.bind (ownMember segment)) (some u) = some v →
      segments.foldl (fun current segment => current.bind (Found.segment segment)) (some (.json u)) = some (.json v) := by
    intro segments
    induction segments with
    | nil =>
      intro u hu
      obtain rfl := Option.some.inj hu
      rfl
    | cons segment segments ih =>
      intro u hu
      rw [List.foldl_cons, Option.bind_some] at hu ⊢
      cases hstep : ownMember segment u with
      | none =>
        rw [hstep, foldl_bind_none] at hu
        cases hu
      | some u' =>
        rw [hstep] at hu
        rw [segment_of_ownMember hstep]
        exact ih u' hu
  unfold located at h
  unfold getByPath ResponseFacts.root
  cases hjson : facts.json with
  | none =>
    rw [hjson, Option.map_none, foldl_bind_none] at h
    cases h
  | some u =>
    rw [hjson, Option.map_some] at h
    exact walk _ _ h

/-! ### The parts -/

mutual

theorem toText_cases : ∀ v : Value ν, unprintable v = false ∧ (∃ s, toText C v = .ok s) ∨
    unprintable v = true ∧ ∃ e, toText C v = .error e
  | .null | .bool _ | .num _ | .str _ => .inl ⟨rfl, _, rfl⟩
  | .arr xs => by
    rw [unprintable, toText]
    exact joined_cases xs
  | .obj ms => by
    rw [unprintable, toText]
    by_cases h : js "toString" ∈ ms.map Prod.fst
    · exact .inr ⟨decide_eq_true h, _, if_pos h⟩
    · exact .inl ⟨decide_eq_false h, _, if_neg h⟩

theorem joined_cases : ∀ xs : List (Value ν), unprintableElement xs = false ∧ (∃ s, joined C xs = .ok s) ∨
    unprintableElement xs = true ∧ ∃ e, joined C xs = .error e
  | [] => .inl ⟨rfl, _, rfl⟩
  | x :: xs => by
    rw [unprintableElement, joined]
    have hfirst : unprintable x = false ∧ (∃ s, (if isNull x then .ok [] else toText C x) = Except.ok s) ∨
        unprintable x = true ∧ ∃ e, (if isNull x then .ok [] else toText C x) = Except.error e := by
      cases x with
      | null => exact .inl ⟨rfl, _, rfl⟩
      | bool | num | str | arr | obj => exact toText_cases _
    rcases hfirst with ⟨hx, s, hs⟩ | ⟨hx, e, he⟩
    · rcases joined_cases xs with ⟨hxs, t, ht⟩ | ⟨hxs, e, he⟩
      · refine .inl ⟨by rw [hx, hxs]; rfl, if xs.isEmpty then s else s ++ 0x2C :: t, ?_⟩
        simp only [hs, ht]
        rfl
      · refine .inr ⟨by rw [hx, hxs]; rfl, e, ?_⟩
        simp only [hs, he]
        rfl
    · refine .inr ⟨by rw [hx]; rfl, e, ?_⟩
      simp only [he]
      rfl

end

theorem number_cases (x : Found ν) : ((∃ v, x = .json v ∧ unprintable v = true) ∧ ∃ e, x.number C = .error e) ∨
    ¬ (∃ v, x = .json v ∧ unprintable v = true) ∧ (∃ n, x.number C = .ok n) ∧ ∃ s, x.text C = .ok s := by
  have plain {v : Value ν} (h : unprintable v = false) : ¬ ∃ w, (Found.json v : Found ν) = .json w ∧ unprintable w = true := by
    rintro ⟨w, hw, hun⟩
    rw [← Found.json.inj hw, h] at hun
    cases hun
  cases x with
  | undefined | objectPrototype => exact .inr ⟨nofun, ⟨_, rfl⟩, _, rfl⟩
  | function name => exact .inr ⟨nofun, ⟨_, rfl⟩, _, rfl⟩
  | json v =>
    cases v with
    | null | bool b | num y | str s => exact .inr ⟨plain rfl, ⟨_, rfl⟩, _, rfl⟩
    | arr xs | obj ms =>
      rcases toText_cases (C := C) _ with ⟨hun, s, hs⟩ | ⟨hun, e, he⟩
      · exact .inr ⟨plain hun, ⟨toNumber C s, congrArg (Except.map (toNumber C)) hs⟩, s, hs⟩
      · exact .inl ⟨⟨_, rfl, hun⟩, e, congrArg (Except.map (toNumber C)) he⟩

/-- The code reads a denoted number as that. -/
theorem number_of_denoted {v : Value ν} {n : ν} (h : denoted C v = some n) : (Found.json v).number C = .ok (some n) := by
  cases v with
  | null | bool b | arr xs | obj ms => cases h
  | num x => rw [← h]; rfl
  | str s =>
    simp only [denoted] at h
    split at h
    · cases h
    · rename_i hblank
      have hnumber : toNumber C s = some n := by rw [toNumber, if_neg hblank, h]
      rw [← hnumber]
      rfl

/-- Unless it is asked of a primitive, which keys are missing says which are in it. -/
theorem missingKeys_cases (json : Option (Value ν)) (schema : List JsString) :
    (schema ≠ [] ∧ (∃ v ∈ json, isPrimitive v = true) ∧ ∃ e, missingKeys json schema = .error e) ∨
      ¬ (schema ≠ [] ∧ ∃ v ∈ json, isPrimitive v = true) ∧ ∃ missing, missingKeys json schema = .ok missing ∧
        (missing = [] ↔ ∀ key ∈ schema, isIn key json = .ok true) := by
  induction schema with
  | nil => exact .inr ⟨fun h => h.1 rfl, [], rfl, by simp⟩
  | cons key keys ih =>
    rw [missingKeys]
    by_cases hprim : ∃ v ∈ json, isPrimitive v = true
    · refine .inl ⟨List.cons_ne_nil _ _, hprim, .typeError, ?_⟩
      obtain ⟨v, rfl, hv⟩ := hprim
      cases v <;> first | rfl | cases hv
    · have hin : ∃ here, isIn key json = .ok here := by
        rcases json with _ | v
        · exact ⟨_, rfl⟩
        · cases v with
          | null | arr xs | obj ms => exact ⟨_, rfl⟩
          | bool b | num x | str s => exact absurd ⟨_, rfl, rfl⟩ hprim
      obtain ⟨here, hhere⟩ := hin
      obtain ⟨missing, hmissing, hiff⟩ := (ih.resolve_left fun h => hprim h.2.1).2
      refine .inr ⟨fun h => hprim h.2, if here then missing else key :: missing, ?_, ?_⟩
      · simp only [bind, Except.bind, hhere, hmissing]
        split <;> rfl
      · cases here <;> simp [hhere, hiff]

theorem jsonSchema_cases (schema : List JsString) :
    (Throws facts (.jsonSchema schema) ∧ ∃ e, jsonSchemaResult schema facts = .error e) ∨
      ¬ Throws facts (.jsonSchema schema) ∧ ∃ r, jsonSchemaResult schema facts = .ok r ∧
        (r.passed = true ↔ ∀ key ∈ schema, isIn key (facts.json.map (·.1)) = .ok true) := by
  have hthrows : Throws facts (.jsonSchema schema) ↔
      schema ≠ [] ∧ ∃ v ∈ facts.json.map (·.1), isPrimitive v = true := Iff.rfl
  rw [hthrows]
  unfold jsonSchemaResult
  rcases missingKeys_cases (facts.json.map (·.1)) schema with ⟨hne, hprim, e, he⟩ | ⟨hno, missing, hmissing, hiff⟩
  · refine .inl ⟨⟨hne, hprim⟩, e, ?_⟩
    simp only [bind, Except.bind, he]
  · refine .inr ⟨hno, _, by simp only [bind, Except.bind, hmissing]; rfl, ?_⟩
    rw [← hiff]
    simp

/-! ### Rules -/

/-- What `evaluate` does with a rule: it throws if a part does, and otherwise its verdict is that of the parts. -/
def Follows (facts : ResponseFacts ν) (parts : List (ValidationRule ν)) {α : Type}
    (result : Except JsError α) (passes : α → Prop) (verdict : Prop) : Prop :=
  ((∃ leaf ∈ parts, Throws facts leaf) ∧ ∃ e, result = .error e) ∨
    (∀ leaf ∈ parts, ¬ Throws facts leaf) ∧ ∃ r, result = .ok r ∧ (passes r ↔ verdict)

theorem Follows.map {parts : List (ValidationRule ν)} {α β : Type} {x : Except JsError α} {P : α → Prop} {V W : Prop}
    {Q : β → Prop} (h : Follows facts parts x P V) (f : α → β) (hf : ∀ a, (P a ↔ V) → (Q (f a) ↔ W)) :
    Follows facts parts (x.map f) Q W := by
  rcases h with ⟨hthrows, e, rfl⟩ | ⟨hno, a, rfl, ha⟩
  · exact .inl ⟨hthrows, e, rfl⟩
  · exact .inr ⟨hno, f a, rfl, hf a ha⟩

/-- Two results put together throw if one of them does. -/
theorem Follows.cons {ps qs : List (ValidationRule ν)} {α β γ : Type} {x : Except JsError α} {y : Except JsError β}
    {P : α → Prop} {Q : β → Prop} {R : γ → Prop} {V W U : Prop} (hx : Follows facts ps x P V) (hy : Follows facts qs y Q W)
    (f : α → β → γ) (hf : ∀ a b, (P a ↔ V) → (Q b ↔ W) → (R (f a b) ↔ U)) :
    Follows facts (ps ++ qs) (x >>= fun a => y >>= fun b => pure (f a b)) R U := by
  rcases hx with ⟨⟨leaf, hleaf, hthrows⟩, e, rfl⟩ | ⟨hno, a, rfl, ha⟩
  · exact .inl ⟨⟨leaf, List.mem_append_left _ hleaf, hthrows⟩, e, rfl⟩
  · rcases hy with ⟨⟨leaf, hleaf, hthrows⟩, e, rfl⟩ | ⟨hno', b, rfl, hb⟩
    · exact .inl ⟨⟨leaf, List.mem_append_right _ hleaf, hthrows⟩, e, rfl⟩
    · refine .inr ⟨fun leaf hleaf => ?_, f a b, rfl, hf a b ha hb⟩
      exact (List.mem_append.1 hleaf).elim (hno leaf) (hno' leaf)

mutual

theorem verdict_congr {judge judge' : ValidationRule ν → Prop} : ∀ rule : ValidationRule ν,
    (∀ leaf ∈ leaves rule, judge leaf ↔ judge' leaf) → (Verdict judge rule ↔ Verdict judge' rule)
  | .status _, h => h _ (List.mem_singleton_self _)
  | .jsonEquals .., h => h _ (List.mem_singleton_self _)
  | .jsonPathEquals .., h => h _ (List.mem_singleton_self _)
  | .contains .., h => h _ (List.mem_singleton_self _)
  | .numeric .., h => h _ (List.mem_singleton_self _)
  | .jsonSchema _, h => h _ (List.mem_singleton_self _)
  | .composite .all rules, h => (verdictEach_congr rules h).1
  | .composite .any rules, h => (verdictEach_congr rules h).2

theorem verdictEach_congr {judge judge' : ValidationRule ν → Prop} : ∀ rules : List (ValidationRule ν),
    (∀ leaf ∈ leavesEach rules, judge leaf ↔ judge' leaf) →
    (VerdictAll judge rules ↔ VerdictAll judge' rules) ∧ (VerdictAny judge rules ↔ VerdictAny judge' rules)
  | [], _ => ⟨Iff.rfl, Iff.rfl⟩
  | rule :: rules, h => by
    rw [leavesEach, List.forall_mem_append] at h
    have hrule := verdict_congr rule h.1
    obtain ⟨hall, hany⟩ := verdictEach_congr rules h.2
    exact ⟨and_congr hrule hall, or_congr hrule hany⟩

end

/-- The parts of a rule, where there is one. -/
theorem forall_parts {rule : Option (ValidationRule ν)} {p : ValidationRule ν → Prop} :
    (∀ leaf ∈ rule.toList.flatMap leaves, p leaf) ↔ ∀ r ∈ rule, ∀ leaf ∈ leaves r, p leaf := by
  cases rule with
  | none => simp
  | some r => simp

section Parts
variable [LinearOrder ν]

theorem jsonEquals_passed (path : JsString) (equals : Option (Parsed ν)) :
    (jsonEqualsResult C path equals facts).passed = true ↔ Judged C facts (.jsonEquals path equals) := by
  have hcode : (jsonEqualsResult C path equals facts).passed = true ↔
      ∃ x, getByPath facts.root path = some x ∧ stringify C x = stringify C (expectation equals) := by
    simp [jsonEqualsResult, deepEqual, Option.any_eq_true]
  rw [hcode]
  unfold Judged
  by_cases hsame : ∃ w, equals = some w ∧ located facts path = some w.1
  · obtain ⟨w, rfl, hw⟩ := hsame
    have hfound := getByPath_of_located hw
    have hmeets : Meets C facts (.jsonEquals path (some w)) := ⟨w.1, w, hw, rfl, alike_refl w.1 w.2⟩
    have hright : ¬ Misjudged C facts (.jsonEquals path (some w)) := by
      rintro (⟨v, w', hv, hw', hne, -⟩ | ⟨x, -, -, hno⟩)
      · obtain rfl := Option.some.inj hw'
        exact hne (Option.some.inj (hv.symm.trans hw))
      · exact hno ⟨w, rfl, hw⟩
    exact ⟨fun _ => ⟨fun _ => hright, fun _ => hmeets⟩, fun _ => ⟨_, hfound, rfl⟩⟩
  · by_cases hmeets : Meets C facts (.jsonEquals path equals)
    · -- the value is a reordering of the expected one, which has another text
      obtain ⟨v, w, hv, rfl, halike⟩ := hmeets
      have hne : v ≠ w.1 := fun h => hsame ⟨w, rfl, h ▸ hv⟩
      have hmis : Misjudged C facts (.jsonEquals path (some w)) := .inl ⟨v, w, hv, rfl, hne, halike⟩
      have htext : ¬ ∃ x, getByPath facts.root path = some x ∧ stringify C x = stringify C (expectation (some w)) := by
        rintro ⟨x, hx, heq⟩
        obtain rfl := Option.some.inj (hx.symm.trans (getByPath_of_located hv))
        exact hne (eq_of_alike_of_compact w.2 halike (Option.some.inj heq))
      exact iff_of_false htext fun h => h.1 ⟨v, w, hv, rfl, halike⟩ hmis
    · have hiff : (∃ x, getByPath facts.root path = some x ∧ stringify C x = stringify C (expectation equals)) ↔
          Misjudged C facts (.jsonEquals path equals) := by
        constructor
        · rintro ⟨x, hx, heq⟩
          exact .inr ⟨x, hx, heq, hsame⟩
        · rintro (⟨v, w, hv, hw, -, halike⟩ | ⟨x, hx, heq, -⟩)
          · exact absurd ⟨v, w, hv, hw, halike⟩ hmeets
          · exact ⟨x, hx, heq⟩
      rw [hiff]
      tauto

theorem numeric_cases (path : JsString) (op : NumericOp) (value : ν) :
    (Throws facts (.numeric path op value) ∧ ∃ e, numericResult C path op value facts = .error e) ∨
      ¬ Throws facts (.numeric path op value) ∧ ∃ r, numericResult C path op value facts = .ok r ∧
        (r.passed = true ↔
          ∃ x n, getByPath facts.root path = some x ∧ x.number C = .ok (some n) ∧ op.holds n value = true) := by
  unfold numericResult
  cases hlookup : getByPath facts.root path with
  | none =>
    refine .inr ⟨?_, _, rfl, ?_⟩
    · rintro ⟨v, hv, -⟩
      rw [hlookup] at hv
      cases hv
    · simp
  | some x =>
    rcases number_cases (C := C) x with ⟨⟨v, rfl, hun⟩, e, he⟩ | ⟨hno, ⟨n, hn⟩, s, hs⟩
    · refine .inl ⟨⟨v, hlookup, hun⟩, e, ?_⟩
      simp only [Option.getD_some, he]
      rfl
    · have hthrows : ¬ Throws facts (.numeric path op value) := by
        rintro ⟨v, hv, hun⟩
        rw [hlookup] at hv
        exact hno ⟨v, Option.some.inj hv, hun⟩
      have hcode : (∃ y m, some x = some y ∧ y.number C = .ok (some m) ∧ op.holds m value = true) ↔
          n.any (fun m => op.holds m value) = true := by
        rw [Option.any_eq_true]
        constructor
        · rintro ⟨y, m, hy, hm, hop⟩
          obtain rfl := Option.some.inj hy
          rw [hn] at hm
          exact ⟨m, Except.ok.inj hm, hop⟩
        · rintro ⟨m, rfl, hop⟩
          exact ⟨x, m, rfl, hn, hop⟩
      rw [hcode]
      simp only [Option.getD_some, hn, Option.isSome_some, Bool.true_and]
      by_cases hp : n.any (fun m => op.holds m value) = true
      · refine .inr ⟨hthrows, ⟨path ++ 0x20 :: op.label ++ 0x20 :: C.text value, true, none⟩, ?_, by simp [hp]⟩
        simp only [bind, Except.bind, hp, if_true]
        rfl
      · refine .inr ⟨hthrows,
          ⟨path ++ 0x20 :: op.label ++ 0x20 :: C.text value, false, some (js "got " ++ s)⟩, ?_, by simp [hp]⟩
        simp only [bind, Except.bind, hp, hs]
        rfl

theorem numeric_judged (path : JsString) (op : NumericOp) (value : ν) :
    (∃ x n, getByPath facts.root path = some x ∧ x.number C = .ok (some n) ∧ op.holds n value = true) ↔
      Judged C facts (.numeric path op value) := by
  unfold Judged
  by_cases hden : ∃ v n, located facts path = some v ∧ denoted C v = some n
  · have hright : ¬ Misjudged C facts (.numeric path op value) := fun h => h.2 hden
    obtain ⟨v, n, hv, hn⟩ := hden
    have hcode : (∃ x m, getByPath facts.root path = some x ∧ x.number C = .ok (some m) ∧ op.holds m value = true) ↔
        Meets C facts (.numeric path op value) := by
      constructor
      · rintro ⟨x, m, hx, hm, hop⟩
        obtain rfl := Option.some.inj (hx.symm.trans (getByPath_of_located hv))
        rw [number_of_denoted hn] at hm
        obtain rfl := Option.some.inj (Except.ok.inj hm)
        exact ⟨v, n, hv, hn, hop⟩
      · rintro ⟨w, m, hw, hm, hop⟩
        exact ⟨_, m, getByPath_of_located hw, number_of_denoted hm, hop⟩
    rw [hcode]
    exact ⟨fun h => ⟨fun _ => hright, fun _ => h⟩, fun h => h.2 hright⟩
  · have hmeets : ¬ Meets C facts (.numeric path op value) := fun ⟨v, n, hv, hn, _⟩ => hden ⟨v, n, hv, hn⟩
    constructor
    · intro h
      exact iff_of_false hmeets fun hno => hno ⟨h, hden⟩
    · intro h
      by_contra hno
      exact hmeets (h.2 fun hmis => hno hmis.1)

theorem jsonSchema_judged (schema : List JsString) :
    (∀ key ∈ schema, isIn key (facts.json.map (·.1)) = .ok true) ↔ Judged C facts (.jsonSchema schema) := by
  have hown : Meets C facts (.jsonSchema schema) → ∀ key ∈ schema, isIn key (facts.json.map (·.1)) = .ok true := by
    rintro ⟨ms, hms, hall⟩ key hkey
    rw [hms, isIn, decide_eq_true (hall key hkey), Bool.true_or]
  have hmis : Misjudged C facts (.jsonSchema schema) ↔
      (∀ key ∈ schema, isIn key (facts.json.map (·.1)) = .ok true) ∧ ¬ Meets C facts (.jsonSchema schema) := Iff.rfl
  unfold Judged
  rw [hmis]
  tauto

theorem contains_judged (value : JsString) (negate : Bool) :
    (containsResult value negate facts).passed = true ↔ Judged C facts (.contains value negate) := by
  have hmis : ¬ Misjudged C facts (.contains value negate) := id
  unfold Judged
  cases negate
  · simp [containsResult, Meets, hmis]
  · simp [containsResult, Meets, hmis]

theorem status_judged (equals : Int) :
    (statusResult equals facts).passed = true ↔ Judged C facts (.status equals) := by
  have hmis : ¬ Misjudged C facts (.status equals) := id
  simp [statusResult, Judged, Meets, hmis]

theorem leaf_follows {leaf : ValidationRule ν} (hleaf : ∀ mode rules, leaf ≠ .composite mode rules) :
    Follows facts [leaf] (evaluate C facts leaf) (·.passed = true) (Judged C facts leaf) := by
  unfold Follows
  simp only [List.mem_singleton, exists_eq_left, forall_eq]
  cases leaf with
  | status equals => exact .inr ⟨id, _, rfl, status_judged equals⟩
  | contains value negate => exact .inr ⟨id, _, rfl, contains_judged value negate⟩
  | jsonEquals path equals | jsonPathEquals path equals => exact .inr ⟨id, _, rfl, jsonEquals_passed path equals⟩
  | numeric path op value =>
    refine (numeric_cases path op value).imp id fun h => ⟨h.1, ?_⟩
    obtain ⟨r, hr, hiff⟩ := h.2
    exact ⟨r, hr, hiff.trans (numeric_judged path op value)⟩
  | jsonSchema schema =>
    refine (jsonSchema_cases schema).imp id fun h => ⟨h.1, ?_⟩
    obtain ⟨r, hr, hiff⟩ := h.2
    exact ⟨r, hr, hiff.trans (jsonSchema_judged schema)⟩
  | composite mode rules => exact absurd rfl (hleaf mode rules)

mutual

theorem evaluate_follows : ∀ rule : ValidationRule ν,
    Follows facts (leaves rule) (evaluate C facts rule) (·.passed = true) (Verdict (Judged C facts) rule)
  | .status _ => leaf_follows nofun
  | .jsonEquals .. => leaf_follows nofun
  | .jsonPathEquals .. => leaf_follows nofun
  | .contains .. => leaf_follows nofun
  | .numeric .. => leaf_follows nofun
  | .jsonSchema _ => leaf_follows nofun
  | .composite mode rules => by
    have h := evaluateEach_follows rules
    rw [leaves, evaluate]
    cases mode with
    | all => exact h.map (compositeResult .all) fun sub hsub => (hsub.2 trivial).1
    | any => exact h.map (compositeResult .any) fun sub hsub => (hsub.2 trivial).2

theorem evaluateEach_follows : ∀ rules : List (ValidationRule ν),
    Follows facts (leavesEach rules) (evaluateEach C facts rules)
      (fun sub => (sub.all (·.passed) = true ↔ VerdictAll (Judged C facts) rules) ∧
        (sub.any (·.passed) = true ↔ VerdictAny (Judged C facts) rules)) True
  | [] => .inr ⟨nofun, [], rfl, by simp [VerdictAll, VerdictAny]⟩
  | rule :: rules => by
    have hrule := evaluate_follows rule
    have hrules := evaluateEach_follows rules
    rw [leavesEach, evaluateEach]
    refine hrule.cons hrules (fun r sub => r :: sub) fun r sub hr hsub => ?_
    obtain ⟨hall, hany⟩ := hsub.2 trivial
    simp only [List.all_cons, List.any_cons, Bool.and_eq_true, Bool.or_eq_true, VerdictAll, VerdictAny, hr, hall, hany,
      and_self]

end

/-- The response as a whole. -/
theorem validateResponse_follows (rule : Option (ValidationRule ν)) (expectedStatus : Option Int) :
    Follows facts (rule.toList.flatMap leaves) (validateResponse C rule expectedStatus facts) (·.passed = true)
      (ResponseVerdict (Judged C facts) rule expectedStatus facts) := by
  have hstatus (equals : Int) : (statusResult equals facts).passed = true ↔ (facts.httpStatus : Int) = equals := by
    simp [statusResult]
  unfold ResponseVerdict
  cases rule with
  | none =>
    refine .inr ⟨nofun, _, rfl, ?_⟩
    cases expectedStatus with
    | none => simp [implicitResult]
    | some equals => simp [hstatus]
  | some rule =>
    let outcome (r : RuleResult) : ValidationOutcome :=
      let status := (expectedStatus.map fun equals => statusResult equals facts).toList
      let results := if status ++ [r] = [] then [implicitResult facts] else status ++ [r]
      ⟨results.all (·.passed), results⟩
    have heq : validateResponse C (some rule) expectedStatus facts = (evaluate C facts rule).map outcome := by
      unfold validateResponse
      dsimp only
      cases evaluate C facts rule <;> rfl
    rw [heq, Option.toList_some, List.flatMap_singleton]
    refine (evaluate_follows rule).map outcome fun r hr => ?_
    cases expectedStatus with
    | none => simp [outcome, hr]
    | some equals => simp [outcome, hstatus, hr]

/-- Where no part throws and none is misjudged the verdict is what the rule says. -/
theorem validateResponse_means_of_plain {rule : Option (ValidationRule ν)} (expectedStatus : Option Int)
    (h : ∀ r ∈ rule, ∀ leaf ∈ leaves r, ¬ Throws facts leaf ∧ ¬ Misjudged C facts leaf) :
    ∃ o, validateResponse C rule expectedStatus facts = .ok o ∧
      (o.passed = true ↔ ResponseVerdict (Meets C facts) rule expectedStatus facts) := by
  rcases @validateResponse_follows ν C facts _ rule expectedStatus with ⟨⟨leaf, hleaf, hthrows⟩, -⟩ | ⟨-, o, ho, hiff⟩
  · exact absurd hthrows (forall_parts.2 (fun r hr leaf hleaf => (h r hr leaf hleaf).1) leaf hleaf)
  · refine ⟨o, ho, hiff.trans (and_congr_right' (and_congr_right' ?_))⟩
    refine forall₂_congr fun r hr => verdict_congr r fun leaf hleaf => ?_
    exact ⟨fun hj => hj.2 (h r hr leaf hleaf).2, fun hm => iff_of_true hm (h r hr leaf hleaf).2⟩

/-- The verdict is what the rule says exactly if no part throws, and judging the misjudged parts the other way round makes
no difference. -/
theorem validateResponse_means_iff (C : NumberReading ν) (rule : Option (ValidationRule ν)) (expectedStatus : Option Int)
    (facts : ResponseFacts ν) :
    (∃ o, validateResponse C rule expectedStatus facts = .ok o ∧
      (o.passed = true ↔ ResponseVerdict (Meets C facts) rule expectedStatus facts)) ↔
    (∀ r ∈ rule, ∀ leaf ∈ leaves r, ¬ Throws facts leaf) ∧
      (ResponseVerdict (fun leaf => Meets C facts leaf ↔ ¬ Misjudged C facts leaf) rule expectedStatus facts ↔
        ResponseVerdict (Meets C facts) rule expectedStatus facts) := by
  rw [← forall_parts]
  rcases @validateResponse_follows ν C facts _ rule expectedStatus with
    ⟨⟨leaf, hleaf, hthrows⟩, e, he⟩ | ⟨hno, o, ho, hiff⟩
  · refine iff_of_false ?_ fun h => h.1 leaf hleaf hthrows
    rintro ⟨o, ho, -⟩
    rw [he] at ho
    cases ho
  · constructor
    · rintro ⟨o', ho', hiff'⟩
      obtain rfl := Except.ok.inj (ho.symm.trans ho')
      exact ⟨hno, hiff.symm.trans hiff'⟩
    · rintro ⟨-, hsame⟩
      exact ⟨o, ho, hiff.trans hsame⟩

end Parts

/-! ### Three responses that are judged wrongly -/

def naturals : NumberReading Nat where
  toNumberFormat := decimal
  numeral s := if s.all isDigit then some (readDecimal s) else none

/-- A body with two members. -/
def upBody : Parsed Nat :=
  ⟨.obj [(js "status", .str (js "UP")), (js "id", .num 7)], by decide, trivial, trivial, trivial⟩

/-- The same value as the database keeps it, where shorter names come first. -/
def upExpected : Parsed Nat :=
  ⟨.obj [(js "id", .num 7), (js "status", .str (js "UP"))], by decide, trivial, trivial, trivial⟩

def upFacts : ResponseFacts Nat := ⟨200, compact decimal upBody.1, some upBody⟩

def numberFacts : ResponseFacts Nat := ⟨200, js "5", some ⟨.num 5, trivial⟩⟩

/-- The body that is the expected value fails, the check of a number for a key throws, and a key that no body declares is
found in every object. -/
theorem reordered_body_fails :
    ((validateResponse naturals (some (.jsonEquals (js "$") (some upExpected))) none upFacts).map (·.passed) = .ok false ∧
      ResponseVerdict (Meets naturals upFacts) (some (.jsonEquals (js "$") (some upExpected))) none upFacts) ∧
    validateResponse naturals (some (.jsonSchema [js "status"])) none numberFacts = .error .typeError ∧
    ((validateResponse naturals (some (.jsonSchema [js "toString"])) none upFacts).map (·.passed) = .ok true ∧
      ¬ ResponseVerdict (Meets naturals upFacts) (some (.jsonSchema [js "toString"])) none upFacts) := by
  refine ⟨⟨by decide +kernel, nofun, nofun, ?_⟩, by decide +kernel, by decide +kernel, ?_⟩
  · rintro r hr
    cases hr
    exact ⟨upBody.1, upExpected, rfl, rfl, by decide +kernel⟩
  · rintro ⟨-, -, h⟩
    obtain ⟨ms, hms, hall⟩ := h _ rfl
    cases hms
    exact absurd (hall _ List.mem_cons_self) (by decide)

end CronMonitor.HealthCheck.Validator
