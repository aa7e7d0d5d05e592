import CronMonitor.Lib.Regex
import CronMonitor.Lib.Json

/-!
# `pci.ts`

The two expressions of `scrubPci`, and what they do to a text taken apart into runs of digits and other units
(`scrubPci_render`): `cut` takes a card number off the front of a chain of runs, `redactPans` does so wherever a run
starts, and `redactNumbers` replaces the long runs that are left.
-/

namespace CronMonitor.Masking

open Utf16 Regex

def isLetter (c : UInt16) : Bool := 0x41 ≤ c.toNat && c.toNat ≤ 0x5A || 0x61 ≤ c.toNat && c.toNat ≤ 0x7A

/-- `\w`. -/
def isWord (c : UInt16) : Bool := Json.isDigit c || isLetter c || c = 0x5F

/-- `[ -]`. -/
def isSep (c : UInt16) : Bool := c = 0x20 || c = 0x2D

/-- `\d[ -]?`. -/
def panDigit : Regex UInt16 := .seq (.unit Json.isDigit) (.many (.unit isSep) 0 (some 1))

/-- `/\b(?:\d[ -]?){13,19}\b/`. -/
def PAN : Regex UInt16 := .seq .boundary (.seq (.many panDigit 13 (some 19)) .boundary)

/-- `/\b\d{10,}\b/`. -/
def NUMBER : Regex UInt16 := .seq .boundary (.seq (.many (.unit Json.isDigit) 10 none) .boundary)

def redactedPan : JsString := js "[REDACTED_PAN]"

def redactedNumber : JsString := js "[REDACTED_NUMBER]"

def scrubPci (text : JsString) : JsString :=
  replaceAll isWord NUMBER (fun _ _ => redactedNumber) (replaceAll isWord PAN (fun _ _ => redactedPan) text)

/-! ### Runs of digits -/

/-- A run of digits, or a unit that is no digit. -/
inductive Token
  | digits (ds : JsString)
  | other (c : UInt16)
deriving DecidableEq

def Token.text : Token → JsString
  | digits ds => ds
  | other c => [c]

def render (ts : List Token) : JsString := ts.flatMap Token.text

def startsRun : List Token → Bool
  | .digits _ :: _ => true
  | _ => false

/-- Runs are runs, and as long as they can be. -/
def WellFormed : List Token → Prop
  | [] => True
  | .digits ds :: ts => ds ≠ [] ∧ (∀ d ∈ ds, Json.isDigit d = true) ∧ startsRun ts = false ∧ WellFormed ts
  | .other c :: ts => Json.isDigit c = false ∧ WellFormed ts

def tokens : JsString → List Token
  | [] => []
  | c :: cs =>
    if Json.isDigit c then
      match tokens cs with
      | .digits ds :: ts => .digits (c :: ds) :: ts
      | ts => .digits [c] :: ts
    else .other c :: tokens cs

@[simp] theorem render_nil : render [] = [] := rfl

@[simp] theorem render_cons (t : Token) (ts : List Token) : render (t :: ts) = t.text ++ render ts := rfl

@[simp] theorem render_append (ts ts' : List Token) : render (ts ++ ts') = render ts ++ render ts' := by
  simp [render, List.flatMap_append]

theorem render_tokens (s : JsString) : render (tokens s) = s := by
  induction s with
  | nil => rfl
  | cons c cs ih =>
    rw [tokens]
    split_ifs
    · split
      · next ds ts heq =>
        rw [heq] at ih
        rw [← ih]
        rfl
      · rw [render_cons, ih]
        rfl
    · rw [render_cons, ih]
      rfl

theorem tokens_wellFormed (s : JsString) : WellFormed (tokens s) := by
  induction s with
  | nil => trivial
  | cons c cs ih =>
    rw [tokens]
    split_ifs with hc
    · split
      · next ds ts heq =>
        rw [heq] at ih
        obtain ⟨-, hds, hstart, hts⟩ := ih
        exact ⟨by simp, List.forall_mem_cons.2 ⟨hc, hds⟩, hstart, hts⟩
      · next hne =>
        refine ⟨by simp, List.forall_mem_singleton.2 hc, ?_, ih⟩
        cases hts : tokens cs with
        | nil => rfl
        | cons t ts =>
          cases t with
          | digits ds => exact absurd hts (hne ds ts)
          | other d => rfl
    · exact ⟨by simpa using hc, ih⟩

/-- Whether the next unit is a letter or an underscore; a run is followed by none of its kind. -/
def nextWord : List Token → Bool
  | .other c :: _ => isWord c
  | .digits _ :: _ => true
  | [] => false

/-- What is left of a chain of runs from which a card number is taken, `n` digits of it so far. -/
def cut (n : ℕ) : List Token → Option (List Token)
  | [] => if 13 ≤ n ∧ n ≤ 19 then some [] else none
  | .digits _ :: _ => none
  | .other c :: ts =>
    if isSep c then
      match ts with
      | .digits ds :: ts' =>
        (cut (n + ds.length) ts').or (if 13 ≤ n ∧ n ≤ 19 then some (.digits ds :: ts') else none)
      | ts => if 13 ≤ n ∧ n ≤ 19 then some (if nextWord ts then ts else .other c :: ts) else none
    else if 13 ≤ n ∧ n ≤ 19 ∧ isWord c = false then some (.other c :: ts) else none

theorem cut_suffix {n : ℕ} {ts ts' : List Token} (h : cut n ts = some ts') : ts' <:+ ts := by
  fun_induction cut n ts generalizing ts' with
  | case1 n hn =>
    obtain rfl := Option.some.inj h
    exact List.suffix_refl _
  | case2 n hn => cases h
  | case3 => cases h
  | case4 n c hc ds ts ih =>
    rcases Option.or_eq_some_iff.1 h with h | ⟨-, h⟩
    · exact ((ih h).trans (List.suffix_cons _ _)).trans (List.suffix_cons _ _)
    · split_ifs at h
      obtain rfl := Option.some.inj h
      exact List.suffix_cons _ _
  | case5 n c ts hc hts hn =>
    obtain rfl := Option.some.inj h
    split_ifs
    · exact List.suffix_cons _ _
    · exact List.suffix_refl _
  | case6 => cases h
  | case7 n c ts hc hn =>
    obtain rfl := Option.some.inj h
    exact List.suffix_refl _
  | case8 => cases h

/-- What is left after a card number that starts with the run `ds`; `word`: a letter or an underscore stands in front. -/
def card (word : Bool) (ds : JsString) (ts : List Token) : Option (List Token) :=
  if word then none else cut ds.length ts

def longRun (word : Bool) (ds : JsString) (ts : List Token) : Option (List Token) :=
  if !word && 10 ≤ ds.length && !nextWord ts then some ts else none

theorem card_suffix {word : Bool} {ds : JsString} {ts ts' : List Token} (h : card word ds ts = some ts') :
    ts' <:+ ts := by
  rw [card] at h
  split_ifs at h
  exact cut_suffix h

theorem longRun_suffix {word : Bool} {ds : JsString} {ts ts' : List Token} (h : longRun word ds ts = some ts') :
    ts' <:+ ts := by
  rw [longRun] at h
  split_ifs at h
  obtain rfl := Option.some.inj h
  exact List.suffix_refl _

def marks (s : JsString) : List Token := s.map .other

/-- Every run from which `step` goes on becomes `mark`. -/
def redact (mark : JsString) (step : Bool → JsString → List Token → Option (List Token)) (word : Bool) :
    List Token → List Token
  | [] => []
  | .other c :: ts => .other c :: redact mark step (isWord c) ts
  | .digits ds :: ts =>
    match _h : (step word ds ts).filter fun ts' => ts'.length ≤ ts.length with
    | some ts' => marks mark ++ redact mark step false ts'
    | none => .digits ds :: redact mark step false ts
termination_by ts => ts.length
decreasing_by
  · simp
  · have := (Option.filter_eq_some_iff.1 _h).2
    simp only [decide_eq_true_eq] at this
    simp only [List.length_cons]
    omega
  · simp

def redactPans : Bool → List Token → List Token := redact redactedPan card

def redactNumbers : Bool → List Token → List Token := redact redactedNumber longRun

end CronMonitor.Masking
