import CronMonitor.Masking.Body
import CronMonitor.Lib.JsonEnds

/-!
# What a masked body says of its secrets

The secrets of a value are the strings under secret keys. `fill` overwrites them by strings of one unit that are written in
the same length, and two values are twins if they are the same after that. Twins have the same masked body and the same
masked value exactly if no secret lies deeper than `maskJson` goes and, where the text is clipped, none of a secret's
units is in what is left of it.
-/

namespace CronMonitor.Masking

open Utf16 Regex Json

variable {ν : Type} {F : NumberFormat ν}

/-! ### Secrets -/

/-- The units that a string's contents take in a text. -/
def writtenLength (s : JsString) : ℕ := (quoteBody s).length

mutual

/-- The value with every string under a secret key overwritten; `secret` says whether it stands under one. -/
def fill (c : UInt16) (secret : Bool) : Value ν → Value ν
  | .str s => .str (if secret then List.replicate (writtenLength s) c else s)
  | .arr xs => .arr (fillElements c secret xs)
  | .obj ms => .obj (fillMembers c secret ms)
  | .null => .null
  | .bool b => .bool b
  | .num x => .num x

def fillElements (c : UInt16) (secret : Bool) : List (Value ν) → List (Value ν)
  | [] => []
  | x :: xs => fill c secret x :: fillElements c secret xs

def fillMembers (c : UInt16) (secret : Bool) : List (JsString × Value ν) → List (JsString × Value ν)
  | [] => []
  | (key, v) :: ms => (key, fill c (secret || isSecretKey key) v) :: fillMembers c secret ms

end

/-- Two values that differ at most in strings under secret keys, which are written in the same length. -/
def Twin (v w : Value ν) : Prop := fill 0x78 false v = fill 0x78 false w

mutual

/-- The units that secrets take in the text of a value. -/
def secretUnits (secret : Bool) : Value ν → ℕ
  | .str s => if secret then writtenLength s else 0
  | .arr xs => secretUnitsElements secret xs
  | .obj ms => secretUnitsMembers secret ms
  | .null => 0
  | .bool _ => 0
  | .num _ => 0

def secretUnitsElements (secret : Bool) : List (Value ν) → ℕ
  | [] => 0
  | x :: xs => secretUnits secret x + secretUnitsElements secret xs

def secretUnitsMembers (secret : Bool) : List (JsString × Value ν) → ℕ
  | [] => 0
  | (key, v) :: ms => secretUnits (secret || isSecretKey key) v + secretUnitsMembers secret ms

end

mutual

/-- The units of secrets that are deeper than `maskJson` goes. -/
def exposed (depth : ℕ) : Value ν → ℕ
  | .arr xs => if 12 < depth then secretUnitsElements false xs else exposedElements (depth + 1) xs
  | .obj ms => if 12 < depth then secretUnitsMembers false ms else exposedMembers (depth + 1) ms
  | .str _ => 0
  | .null => 0
  | .bool _ => 0
  | .num _ => 0

def exposedElements (depth : ℕ) : List (Value ν) → ℕ
  | [] => 0
  | x :: xs => exposed depth x + exposedElements depth xs

/-- A member with a secret key is masked, and a member `__proto__` is gone. -/
def exposedMembers (depth : ℕ) : List (JsString × Value ν) → ℕ
  | [] => 0
  | (key, v) :: ms =>
    (if key = js "__proto__" ∨ isSecretKey key then 0 else exposed depth v) + exposedMembers depth ms

end

section Marks
variable (F : NumberFormat ν)

mutual

/-- Which units of the text of a value belong to a secret. -/
def secretMarks (secret : Bool) : Value ν → List Bool
  | .str s =>
    if secret then false :: (List.replicate (writtenLength s) true ++ [false]) else List.replicate (quote s).length false
  | .arr [] => [false, false]
  | .arr (x :: xs) => false :: (secretMarks secret x ++ secretMarksElements secret xs ++ [false])
  | .obj [] => [false, false]
  | .obj ((key, v) :: ms) =>
    false :: (List.replicate ((quote key).length + 1) false ++ secretMarks (secret || isSecretKey key) v ++
      secretMarksMembers secret ms ++ [false])
  | .null => List.replicate (compact F .null).length false
  | .bool b => List.replicate (compact F (.bool b)).length false
  | .num x => List.replicate (compact F (.num x)).length false

def secretMarksElements (secret : Bool) : List (Value ν) → List Bool
  | [] => []
  | x :: xs => false :: (secretMarks secret x ++ secretMarksElements secret xs)

def secretMarksMembers (secret : Bool) : List (JsString × Value ν) → List Bool
  | [] => []
  | (key, v) :: ms =>
    false :: (List.replicate ((quote key).length + 1) false ++ secretMarks (secret || isSecretKey key) v ++ secretMarksMembers secret ms)

end

end Marks

/-! ### Overwritten strings -/

/-- A unit that is written as it is. -/
def IsBare (c : UInt16) : Prop := quoteUnit c = [c] ∧ isHigh c = false

variable {c : UInt16} {secret : Bool}

theorem quoteBody_replicate (hc : IsBare c) (n : ℕ) : quoteBody (List.replicate n c) = List.replicate n c := by
  match n with
  | 0 => rfl
  | 1 => exact hc.1
  | n + 2 =>
    rw [List.replicate_succ, List.replicate_succ, quoteBody, hc.2, Bool.false_and, if_neg Bool.false_ne_true, hc.1,
      ← List.replicate_succ, quoteBody_replicate hc (n + 1)]
    rfl

theorem writtenLength_replicate (hc : IsBare c) (n : ℕ) : writtenLength (List.replicate n c) = n := by
  rw [writtenLength, quoteBody_replicate hc, List.length_replicate]

theorem quoteUnit_ne_nil (c : UInt16) : quoteUnit c ≠ [] := by
  unfold quoteUnit
  split
  · exact List.cons_ne_nil _ _
  · split_ifs <;> exact List.cons_ne_nil _ _

theorem writtenLength_eq_zero {s : JsString} (h : writtenLength s = 0) : s = [] := by
  match s with
  | [] => rfl
  | [d] => exact absurd (List.length_eq_zero_iff.1 h) (quoteUnit_ne_nil d)
  | d :: e :: s =>
    have hnil := List.length_eq_zero_iff.1 h
    rw [quoteBody] at hnil
    split_ifs at hnil
    exact absurd (List.append_eq_nil_iff.1 hnil).1 (quoteUnit_ne_nil d)

mutual

theorem fill_fill {d : UInt16} (hd : IsBare d) : ∀ (secret : Bool) (v : Value ν), fill c secret (fill d secret v) = fill c secret v
  | secret, .str s => by
    cases secret
    · rfl
    · simp only [fill, if_true, writtenLength_replicate hd]
  | secret, .arr xs => by simp only [fill, fillElements_fill hd secret xs]
  | secret, .obj ms => by simp only [fill, fillMembers_fill hd secret ms]
  | _, .null => by simp only [fill]
  | _, .bool _ => by simp only [fill]
  | _, .num _ => by simp only [fill]

theorem fillElements_fill {d : UInt16} (hd : IsBare d) : ∀ (secret : Bool) (xs : List (Value ν)),
    fillElements c secret (fillElements d secret xs) = fillElements c secret xs
  | _, [] => rfl
  | secret, x :: xs => by simp only [fillElements, fill_fill hd secret x, fillElements_fill hd secret xs]

theorem fillMembers_fill {d : UInt16} (hd : IsBare d) : ∀ (secret : Bool) (ms : List (JsString × Value ν)),
    fillMembers c secret (fillMembers d secret ms) = fillMembers c secret ms
  | _, [] => rfl
  | secret, (key, v) :: ms => by simp only [fillMembers, fill_fill hd _ v, fillMembers_fill hd secret ms]

end

mutual

theorem secretUnits_fill (hc : IsBare c) : ∀ (secret : Bool) (v : Value ν), secretUnits secret (fill c secret v) = secretUnits secret v
  | secret, .str s => by
    cases secret
    · rfl
    · simp only [fill, secretUnits, if_true, writtenLength_replicate hc]
  | secret, .arr xs => by simp only [fill, secretUnits, secretUnitsElements_fill hc secret xs]
  | secret, .obj ms => by simp only [fill, secretUnits, secretUnitsMembers_fill hc secret ms]
  | _, .null => by simp only [fill]
  | _, .bool _ => by simp only [fill]
  | _, .num _ => by simp only [fill]

theorem secretUnitsElements_fill (hc : IsBare c) : ∀ (secret : Bool) (xs : List (Value ν)),
    secretUnitsElements secret (fillElements c secret xs) = secretUnitsElements secret xs
  | _, [] => rfl
  | secret, x :: xs => by
    simp only [fillElements, secretUnitsElements, secretUnits_fill hc secret x, secretUnitsElements_fill hc secret xs]

theorem secretUnitsMembers_fill (hc : IsBare c) : ∀ (secret : Bool) (ms : List (JsString × Value ν)),
    secretUnitsMembers secret (fillMembers c secret ms) = secretUnitsMembers secret ms
  | _, [] => rfl
  | secret, (key, v) :: ms => by
    simp only [fillMembers, secretUnitsMembers, secretUnits_fill hc _ v, secretUnitsMembers_fill hc secret ms]

end

mutual

theorem exposed_fill (hc : IsBare c) : ∀ (depth : ℕ) (v : Value ν), exposed depth (fill c false v) = exposed depth v
  | depth, .arr xs => by
    simp only [fill, exposed, secretUnitsElements_fill hc, exposedElements_fill hc (depth + 1) xs]
  | depth, .obj ms => by
    simp only [fill, exposed, secretUnitsMembers_fill hc, exposedMembers_fill hc (depth + 1) ms]
  | _, .str _ => by simp only [fill, exposed]
  | _, .null => by simp only [fill]
  | _, .bool _ => by simp only [fill]
  | _, .num _ => by simp only [fill]

theorem exposedElements_fill (hc : IsBare c) : ∀ (depth : ℕ) (xs : List (Value ν)),
    exposedElements depth (fillElements c false xs) = exposedElements depth xs
  | _, [] => rfl
  | depth, x :: xs => by
    simp only [fillElements, exposedElements, exposed_fill hc depth x, exposedElements_fill hc depth xs]

theorem exposedMembers_fill (hc : IsBare c) : ∀ (depth : ℕ) (ms : List (JsString × Value ν)),
    exposedMembers depth (fillMembers c false ms) = exposedMembers depth ms
  | _, [] => rfl
  | depth, (key, v) :: ms => by
    simp only [fillMembers, exposedMembers, exposedMembers_fill hc depth ms]
    split_ifs with hkey
    · rfl
    · rw [Bool.false_or, eq_false_of_ne_true fun h => hkey (.inr h), exposed_fill hc depth v]

end

/-! ### What is masked -/

/-- The value of a member without a secret key: a string of it is masked however deep it is. -/
def maskMember (depth : ℕ) : Value ν → Value ν
  | .str s => .str (scrubPci s)
  | v => maskJson depth v

theorem maskMembers_cons (depth : ℕ) (key : JsString) (v : Value ν) (ms : List (JsString × Value ν)) :
    maskMembers depth ((key, v) :: ms) =
      if key = js "__proto__" then maskMembers depth ms
      else (key, if isSecretKey key then .str MASK else maskMember depth v) :: maskMembers depth ms := by
  cases v <;> simp only [maskMembers, maskMember]

/-- What holds of the masked value and of strings holds of the member. -/
theorem maskMember_fill {depth : ℕ} {v : Value ν} (h : maskJson depth (fill c false v) = maskJson depth v) :
    maskMember depth (fill c false v) = maskMember depth v := by
  cases v with
  | str s => simp only [fill, Bool.false_eq_true, if_false]
  | arr xs => simpa only [fill, maskMember] using h
  | obj ms => simpa only [fill, maskMember] using h
  | null => rw [fill]
  | bool b => rw [fill]
  | num x => rw [fill]

mutual

theorem fill_of_secretUnits_eq_zero : ∀ (secret : Bool) (v : Value ν), secretUnits secret v = 0 → fill c secret v = v
  | secret, .str s, h => by
    cases secret
    · rfl
    · rw [secretUnits, if_pos rfl] at h
      rw [fill, if_pos rfl, h, writtenLength_eq_zero h]
      rfl
  | secret, .arr xs, h => by
    rw [fill, fillElements_of_secretUnits_eq_zero secret xs (by rwa [secretUnits] at h)]
  | secret, .obj ms, h => by
    rw [fill, fillMembers_of_secretUnits_eq_zero secret ms (by rwa [secretUnits] at h)]
  | _, .null, _ => by rw [fill]
  | _, .bool _, _ => by rw [fill]
  | _, .num _, _ => by rw [fill]

theorem fillElements_of_secretUnits_eq_zero : ∀ (secret : Bool) (xs : List (Value ν)),
    secretUnitsElements secret xs = 0 → fillElements c secret xs = xs
  | _, [], _ => rfl
  | secret, x :: xs, h => by
    rw [secretUnitsElements, Nat.add_eq_zero_iff] at h
    rw [fillElements, fill_of_secretUnits_eq_zero secret x h.1, fillElements_of_secretUnits_eq_zero secret xs h.2]

theorem fillMembers_of_secretUnits_eq_zero : ∀ (secret : Bool) (ms : List (JsString × Value ν)),
    secretUnitsMembers secret ms = 0 → fillMembers c secret ms = ms
  | _, [], _ => rfl
  | secret, (key, v) :: ms, h => by
    rw [secretUnitsMembers, Nat.add_eq_zero_iff] at h
    rw [fillMembers, fill_of_secretUnits_eq_zero _ v h.1, fillMembers_of_secretUnits_eq_zero secret ms h.2]

end

mutual

/-- Where nothing is exposed, the secrets do not count. -/
theorem maskJson_fill : ∀ (depth : ℕ) (v : Value ν), exposed depth v = 0 → maskJson depth (fill c false v) = maskJson depth v
  | depth, .arr xs, h => by
    rw [exposed] at h
    rw [fill, maskJson, maskJson]
    split_ifs at h ⊢ with hdeep
    · rw [fillElements_of_secretUnits_eq_zero false xs h]
    · rw [maskElements_fill (depth + 1) xs h]
  | depth, .obj ms, h => by
    rw [exposed] at h
    rw [fill, maskJson, maskJson]
    split_ifs at h ⊢ with hdeep
    · rw [fillMembers_of_secretUnits_eq_zero false ms h]
    · rw [maskMembers_fill (depth + 1) ms h]
  | _, .str _, _ => by rw [fill, if_neg Bool.false_ne_true]
  | _, .null, _ => by rw [fill]
  | _, .bool _, _ => by rw [fill]
  | _, .num _, _ => by rw [fill]

theorem maskElements_fill : ∀ (depth : ℕ) (xs : List (Value ν)), exposedElements depth xs = 0 →
    maskElements depth (fillElements c false xs) = maskElements depth xs
  | _, [], _ => rfl
  | depth, x :: xs, h => by
    rw [exposedElements, Nat.add_eq_zero_iff] at h
    rw [fillElements, maskElements, maskElements, maskJson_fill depth x h.1, maskElements_fill depth xs h.2]

theorem maskMembers_fill : ∀ (depth : ℕ) (ms : List (JsString × Value ν)), exposedMembers depth ms = 0 →
    maskMembers depth (fillMembers c false ms) = maskMembers depth ms
  | _, [], _ => rfl
  | depth, (key, v) :: ms, h => by
    rw [exposedMembers, Nat.add_eq_zero_iff] at h
    rw [fillMembers, maskMembers_cons, maskMembers_cons, maskMembers_fill depth ms h.2]
    by_cases hproto : key = js "__proto__"
    · rw [if_pos hproto, if_pos hproto]
    · rw [if_neg hproto, if_neg hproto]
      by_cases hkey : isSecretKey key = true
      · rw [if_pos hkey, if_pos hkey]
      · have hv := h.1
        rw [if_neg (by simp [hproto, hkey])] at hv
        rw [if_neg hkey, if_neg hkey, Bool.false_or, eq_false_of_ne_true hkey, maskMember_fill (maskJson_fill depth v hv)]

end

/-! ### What is not masked -/

/-- `&`, the unit that no expression of the maskers has in a class. -/
abbrev AMP : UInt16 := 0x26

/-- `x`. -/
abbrev EX : UInt16 := 0x78

theorem isBare_amp : IsBare AMP := ⟨by decide +kernel, by decide +kernel⟩

theorem isBare_ex : IsBare EX := ⟨by decide +kernel, by decide +kernel⟩

mutual

/-- The number of `&` in the strings of a value. -/
def amps : Value ν → ℕ
  | .str s => s.count AMP
  | .arr xs => ampsElements xs
  | .obj ms => ampsMembers ms
  | .null => 0
  | .bool _ => 0
  | .num _ => 0

def ampsElements : List (Value ν) → ℕ
  | [] => 0
  | x :: xs => amps x + ampsElements xs

def ampsMembers : List (JsString × Value ν) → ℕ
  | [] => 0
  | (_, v) :: ms => amps v + ampsMembers ms

end

mutual

theorem amps_fill : ∀ (secret : Bool) (v : Value ν),
    amps (fill AMP secret v) = amps (fill EX secret v) + secretUnits secret v
  | secret, .str s => by
    cases secret
    · rfl
    · simp only [fill, amps, secretUnits, if_true, List.count_replicate]
      simp [AMP, EX]
  | secret, .arr xs => by simp only [fill, amps, secretUnits, ampsElements_fill secret xs]
  | secret, .obj ms => by simp only [fill, amps, secretUnits, ampsMembers_fill secret ms]
  | _, .null => by simp only [fill, secretUnits, Nat.add_zero]
  | _, .bool _ => by simp only [fill, secretUnits, Nat.add_zero]
  | _, .num _ => by simp only [fill, secretUnits, Nat.add_zero]

theorem ampsElements_fill : ∀ (secret : Bool) (xs : List (Value ν)),
    ampsElements (fillElements AMP secret xs) = ampsElements (fillElements EX secret xs) + secretUnitsElements secret xs
  | _, [] => rfl
  | secret, x :: xs => by
    simp only [fillElements, ampsElements, secretUnitsElements, amps_fill secret x, ampsElements_fill secret xs]
    omega

theorem ampsMembers_fill : ∀ (secret : Bool) (ms : List (JsString × Value ν)),
    ampsMembers (fillMembers AMP secret ms) = ampsMembers (fillMembers EX secret ms) + secretUnitsMembers secret ms
  | _, [] => rfl
  | secret, (key, v) :: ms => by
    simp only [fillMembers, ampsMembers, secretUnitsMembers, amps_fill _ v, ampsMembers_fill secret ms]
    omega

end

theorem amps_maskMember {depth n : ℕ} {v : Value ν}
    (h : amps (maskJson depth (fill AMP false v)) = amps (maskJson depth (fill EX false v)) + n) (hstr : ∀ s, v = .str s → n = 0) :
    amps (maskMember depth (fill AMP false v)) = amps (maskMember depth (fill EX false v)) + n := by
  cases v with
  | str s => simp only [fill, Bool.false_eq_true, if_false, hstr s rfl, Nat.add_zero]
  | _ => simpa only [fill, maskMember] using h

mutual

/-- The masked values of two twins differ by the units that are exposed. -/
theorem amps_maskJson : ∀ (depth : ℕ) (v : Value ν),
    amps (maskJson depth (fill AMP false v)) = amps (maskJson depth (fill EX false v)) + exposed depth v
  | depth, .arr xs => by
    rw [fill, fill, maskJson, maskJson, exposed]
    split_ifs with hdeep
    · simp only [amps, ampsElements_fill]
    · simp only [amps, amps_maskElements (depth + 1) xs]
  | depth, .obj ms => by
    rw [fill, fill, maskJson, maskJson, exposed]
    split_ifs with hdeep
    · simp only [amps, ampsMembers_fill]
    · simp only [amps, amps_maskMembers (depth + 1) ms]
  | _, .str _ => by simp only [fill, exposed, Bool.false_eq_true, if_false, Nat.add_zero]
  | _, .null => by simp only [fill, exposed, Nat.add_zero]
  | _, .bool _ => by simp only [fill, exposed, Nat.add_zero]
  | _, .num _ => by simp only [fill, exposed, Nat.add_zero]

theorem amps_maskElements : ∀ (depth : ℕ) (xs : List (Value ν)),
    ampsElements (maskElements depth (fillElements AMP false xs)) =
      ampsElements (maskElements depth (fillElements EX false xs)) + exposedElements depth xs
  | _, [] => rfl
  | depth, x :: xs => by
    simp only [fillElements, maskElements, ampsElements, exposedElements, amps_maskJson depth x, amps_maskElements depth xs]
    omega

theorem amps_maskMembers : ∀ (depth : ℕ) (ms : List (JsString × Value ν)),
    ampsMembers (maskMembers depth (fillMembers AMP false ms)) =
      ampsMembers (maskMembers depth (fillMembers EX false ms)) + exposedMembers depth ms
  | _, [] => rfl
  | depth, (key, v) :: ms => by
    have hrest := amps_maskMembers depth ms
    rw [fillMembers, fillMembers, maskMembers_cons, maskMembers_cons, exposedMembers]
    by_cases hproto : key = js "__proto__"
    · simp only [hproto, true_or, if_true, Nat.zero_add, hrest]
    · rw [if_neg hproto, if_neg hproto]
      by_cases hkey : isSecretKey key = true
      · simp only [hkey, or_true, if_true, Nat.zero_add, ampsMembers, hrest]
        omega
      · have hv := amps_maskMember (amps_maskJson depth v) fun s hs => by rw [hs, exposed]
        rw [if_neg hkey, if_neg hkey, if_neg (by simp [hproto, hkey]), Bool.false_or, eq_false_of_ne_true hkey, ampsMembers,
          ampsMembers, hv, hrest]
        omega

end

/-! ### Texts -/

/-- The units with the marked ones overwritten. -/
def overwrite (c : UInt16) (us : JsString) (ms : List Bool) : JsString := List.zipWith (fun u m => if m then c else u) us ms

section Overwrite
variable {us us' : JsString} {ms ms' : List Bool} {n : ℕ}

theorem overwrite_append (h : us.length = ms.length) :
    overwrite c (us ++ us') (ms ++ ms') = overwrite c us ms ++ overwrite c us' ms' := List.zipWith_append h

theorem overwrite_cons (u : UInt16) : overwrite c (u :: us) (false :: ms) = u :: overwrite c us ms := rfl

theorem overwrite_true : ∀ {us : JsString} {n : ℕ}, us.length = n →
    overwrite c us (List.replicate n true) = List.replicate n c := by
  rintro us _ rfl
  induction us with
  | nil => rfl
  | cons u us ih => exact congrArg (c :: ·) ih

theorem overwrite_of_not_mem : ∀ {us : JsString} {ms : List Bool}, us.length = ms.length → true ∉ ms → overwrite c us ms = us := by
  intro us
  induction us with
  | nil => exact fun {ms} _ _ => List.zipWith_nil_left
  | cons u us ih =>
    intro ms h hms
    cases ms with
    | nil => cases h
    | cons m ms =>
      cases m with
      | true => exact absurd List.mem_cons_self hms
      | false => exact congrArg (u :: ·) (ih (Nat.succ.inj h) fun hmem => hms (List.mem_cons_of_mem _ hmem))

theorem overwrite_false (h : us.length = n) : overwrite c us (List.replicate n false) = us :=
  overwrite_of_not_mem (by rw [h, List.length_replicate]) fun hmem => absurd (List.eq_of_mem_replicate hmem) (by decide)

theorem count_overwrite : ∀ {us : JsString} {ms : List Bool}, us.length = ms.length →
    (overwrite AMP us ms).count AMP = (overwrite EX us ms).count AMP + ms.count true := by
  intro us
  induction us with
  | nil =>
    intro ms h
    obtain rfl := List.length_eq_zero_iff.1 h.symm
    rfl
  | cons u us ih =>
    intro ms h
    cases ms with
    | nil => cases h
    | cons m ms =>
      have hrest := ih (Nat.succ.inj h)
      have hcons (d : UInt16) : overwrite d (u :: us) (m :: ms) = (if m then d else u) :: overwrite d us ms := rfl
      rw [hcons, hcons, List.count_cons, List.count_cons, List.count_cons, hrest]
      cases m with
      | true => simp [AMP, EX]; omega
      | false => simp; omega

end Overwrite

theorem length_quote (s : JsString) : (quote s).length = writtenLength s + 2 := by
  rw [quote, List.length_cons, List.length_append, List.length_singleton, writtenLength]

mutual

theorem length_secretMarks (F : NumberFormat ν) : ∀ (secret : Bool) (v : Value ν),
    (compact F v).length = (secretMarks F secret v).length
  | secret, .str s => by
    cases secret <;> simp [compact, secretMarks, length_quote]
  | _, .arr [] => rfl
  | secret, .arr (x :: xs) => by
    simp [compact, secretMarks, length_secretMarks F secret x, length_secretMarksElements F secret xs]
  | _, .obj [] => rfl
  | secret, .obj ((key, v) :: ms) => by
    simp [compact, secretMarks, length_secretMarks F (secret || isSecretKey key) v, length_secretMarksMembers F secret ms]
    omega
  | _, .null => by simp only [secretMarks, List.length_replicate]
  | _, .bool _ => by simp only [secretMarks, List.length_replicate]
  | _, .num _ => by simp only [secretMarks, List.length_replicate]

theorem length_secretMarksElements (F : NumberFormat ν) : ∀ (secret : Bool) (xs : List (Value ν)),
    (compactElements F xs).length = (secretMarksElements F secret xs).length
  | _, [] => rfl
  | secret, x :: xs => by
    simp [compactElements, secretMarksElements, length_secretMarks F secret x, length_secretMarksElements F secret xs]

theorem length_secretMarksMembers (F : NumberFormat ν) : ∀ (secret : Bool) (ms : List (JsString × Value ν)),
    (compactMembers F ms).length = (secretMarksMembers F secret ms).length
  | _, [] => rfl
  | secret, (key, v) :: ms => by
    simp [compactMembers, secretMarksMembers, length_secretMarks F (secret || isSecretKey key) v,
      length_secretMarksMembers F secret ms]
    omega

end

mutual

/-- The text of an overwritten value is the overwritten text. -/
theorem compact_fill (hc : IsBare c) (F : NumberFormat ν) : ∀ (secret : Bool) (v : Value ν),
    compact F (fill c secret v) = overwrite c (compact F v) (secretMarks F secret v)
  | secret, .str s => by
    cases secret
    · simp only [fill, compact, secretMarks, Bool.false_eq_true, if_false, overwrite_false rfl]
    · simp only [fill, compact, secretMarks, if_true, quote, quoteBody_replicate hc, overwrite_cons]
      rw [overwrite_append (by rw [List.length_replicate, writtenLength]),
        overwrite_true (show (quoteBody s).length = writtenLength s from rfl)]
      rfl
  | _, .arr [] => rfl
  | secret, .arr (x :: xs) => by
    simp only [fill, fillElements, compact, secretMarks, overwrite_cons]
    rw [overwrite_append (by
        rw [List.length_append, List.length_append, length_secretMarks F secret x, length_secretMarksElements F secret xs]),
      overwrite_append (length_secretMarks F secret x), compact_fill hc F secret x, compactElements_fill hc F secret xs]
    rfl
  | _, .obj [] => rfl
  | secret, .obj ((key, v) :: ms) => by
    have hkey : (quote key ++ [0x3A]).length = (List.replicate ((quote key).length + 1) false).length := by simp
    have hv := length_secretMarks F (secret || isSecretKey key) v
    simp only [fill, fillMembers, compact, secretMarks, overwrite_cons]
    rw [overwrite_append (by
        rw [List.length_append, List.length_append, hkey, hv, length_secretMarksMembers F secret ms, List.length_append,
          List.length_append]),
      overwrite_append (by rw [List.length_append, hkey, hv, List.length_append]), overwrite_append hkey,
      overwrite_false (by simp), compact_fill hc F _ v, compactMembers_fill hc F secret ms]
    rfl
  | _, .null => by simp only [fill, secretMarks, overwrite_false rfl]
  | _, .bool _ => by simp only [fill, secretMarks, overwrite_false rfl]
  | _, .num _ => by simp only [fill, secretMarks, overwrite_false rfl]

theorem compactElements_fill (hc : IsBare c) (F : NumberFormat ν) : ∀ (secret : Bool) (xs : List (Value ν)),
    compactElements F (fillElements c secret xs) = overwrite c (compactElements F xs) (secretMarksElements F secret xs)
  | _, [] => rfl
  | secret, x :: xs => by
    simp only [fillElements, compactElements, secretMarksElements, overwrite_cons]
    rw [overwrite_append (length_secretMarks F secret x), compact_fill hc F secret x, compactElements_fill hc F secret xs]

theorem compactMembers_fill (hc : IsBare c) (F : NumberFormat ν) : ∀ (secret : Bool) (ms : List (JsString × Value ν)),
    compactMembers F (fillMembers c secret ms) = overwrite c (compactMembers F ms) (secretMarksMembers F secret ms)
  | _, [] => rfl
  | secret, (key, v) :: ms => by
    have hkey : (quote key ++ [0x3A]).length = (List.replicate ((quote key).length + 1) false).length := by simp
    simp only [fillMembers, compactMembers, secretMarksMembers, overwrite_cons]
    rw [overwrite_append (by
        rw [List.length_append, hkey, length_secretMarks F (secret || isSecretKey key) v, List.length_append]),
      overwrite_append hkey, overwrite_false (by simp), compact_fill hc F _ v, compactMembers_fill hc F secret ms]

end

mutual

theorem secretMarks_fill (hc : IsBare c) (F : NumberFormat ν) : ∀ (secret : Bool) (v : Value ν),
    secretMarks F secret (fill c secret v) = secretMarks F secret v
  | secret, .str s => by
    cases secret
    · rfl
    · simp only [fill, secretMarks, if_true, writtenLength_replicate hc]
  | _, .arr [] => rfl
  | secret, .arr (x :: xs) => by
    simp only [fill, fillElements, secretMarks, secretMarks_fill hc F secret x, secretMarksElements_fill hc F secret xs]
  | _, .obj [] => rfl
  | secret, .obj ((key, v) :: ms) => by
    simp only [fill, fillMembers, secretMarks, secretMarks_fill hc F _ v, secretMarksMembers_fill hc F secret ms]
  | _, .null => by simp only [fill]
  | _, .bool _ => by simp only [fill]
  | _, .num _ => by simp only [fill]

theorem secretMarksElements_fill (hc : IsBare c) (F : NumberFormat ν) : ∀ (secret : Bool) (xs : List (Value ν)),
    secretMarksElements F secret (fillElements c secret xs) = secretMarksElements F secret xs
  | _, [] => rfl
  | secret, x :: xs => by
    simp only [fillElements, secretMarksElements, secretMarks_fill hc F secret x, secretMarksElements_fill hc F secret xs]

theorem secretMarksMembers_fill (hc : IsBare c) (F : NumberFormat ν) : ∀ (secret : Bool) (ms : List (JsString × Value ν)),
    secretMarksMembers F secret (fillMembers c secret ms) = secretMarksMembers F secret ms
  | _, [] => rfl
  | secret, (key, v) :: ms => by
    simp only [fillMembers, secretMarksMembers, secretMarks_fill hc F _ v, secretMarksMembers_fill hc F secret ms]

end

mutual

theorem settle_fill (F : NumberFormat ν) : ∀ (secret : Bool) (v : Value ν), settle F (fill c secret v) = fill c secret (settle F v)
  | secret, .str s => by simp only [fill, settle]
  | secret, .arr xs => by simp only [fill, settle, settleElements_fill F secret xs]
  | secret, .obj ms => by simp only [fill, settle, settleMembers_fill F secret ms]
  | _, .null => by simp only [fill, settle]
  | _, .bool _ => by simp only [fill, settle]
  | _, .num x => by
    rw [fill, settle]
    split_ifs <;> rw [fill]

theorem settleElements_fill (F : NumberFormat ν) : ∀ (secret : Bool) (xs : List (Value ν)),
    settleElements F (fillElements c secret xs) = fillElements c secret (settleElements F xs)
  | _, [] => rfl
  | secret, x :: xs => by simp only [fillElements, settleElements, settle_fill F secret x, settleElements_fill F secret xs]

theorem settleMembers_fill (F : NumberFormat ν) : ∀ (secret : Bool) (ms : List (JsString × Value ν)),
    settleMembers F (fillMembers c secret ms) = fillMembers c secret (settleMembers F ms)
  | _, [] => rfl
  | secret, (key, v) :: ms => by simp only [fillMembers, settleMembers, settle_fill F _ v, settleMembers_fill F secret ms]

end

mutual

theorem secretUnits_settle (F : NumberFormat ν) : ∀ (secret : Bool) (v : Value ν),
    secretUnits secret (settle F v) = secretUnits secret v
  | _, .str _ => by simp only [settle]
  | secret, .arr xs => by simp only [secretUnits, settle, secretUnitsElements_settle F secret xs]
  | secret, .obj ms => by simp only [secretUnits, settle, secretUnitsMembers_settle F secret ms]
  | _, .null => by simp only [settle]
  | _, .bool _ => by simp only [settle]
  | _, .num x => by
    rw [settle]
    split_ifs <;> simp only [secretUnits]

theorem secretUnitsElements_settle (F : NumberFormat ν) : ∀ (secret : Bool) (xs : List (Value ν)),
    secretUnitsElements secret (settleElements F xs) = secretUnitsElements secret xs
  | _, [] => rfl
  | secret, x :: xs => by
    simp only [settleElements, secretUnitsElements, secretUnits_settle F secret x, secretUnitsElements_settle F secret xs]

theorem secretUnitsMembers_settle (F : NumberFormat ν) : ∀ (secret : Bool) (ms : List (JsString × Value ν)),
    secretUnitsMembers secret (settleMembers F ms) = secretUnitsMembers secret ms
  | _, [] => rfl
  | secret, (key, v) :: ms => by
    simp only [settleMembers, secretUnitsMembers, secretUnits_settle F _ v, secretUnitsMembers_settle F secret ms]

end

mutual

theorem exposed_settle (F : NumberFormat ν) : ∀ (depth : ℕ) (v : Value ν), exposed depth (settle F v) = exposed depth v
  | depth, .arr xs => by simp only [exposed, settle, secretUnitsElements_settle, exposedElements_settle F (depth + 1) xs]
  | depth, .obj ms => by simp only [exposed, settle, secretUnitsMembers_settle, exposedMembers_settle F (depth + 1) ms]
  | _, .str _ => by simp only [settle]
  | _, .null => by simp only [settle]
  | _, .bool _ => by simp only [settle]
  | _, .num x => by
    rw [settle]
    split_ifs <;> simp only [exposed]

theorem exposedElements_settle (F : NumberFormat ν) : ∀ (depth : ℕ) (xs : List (Value ν)),
    exposedElements depth (settleElements F xs) = exposedElements depth xs
  | _, [] => rfl
  | depth, x :: xs => by
    simp only [settleElements, exposedElements, exposed_settle F depth x, exposedElements_settle F depth xs]

theorem exposedMembers_settle (F : NumberFormat ν) : ∀ (depth : ℕ) (ms : List (JsString × Value ν)),
    exposedMembers depth (settleMembers F ms) = exposedMembers depth ms
  | _, [] => rfl
  | depth, (key, v) :: ms => by
    simp only [settleMembers, exposedMembers, exposed_settle F depth v, exposedMembers_settle F depth ms]

end

/-! ### Twins -/

section Twins
variable {v w : Value ν} {n : ℕ}

theorem twin_fill (hc : IsBare c) (v : Value ν) : Twin v (fill c false v) := (fill_fill hc false v).symm

theorem Twin.settle (h : Twin v w) (F : NumberFormat ν) : Twin (Json.settle F v) (Json.settle F w) := by
  rw [Twin, ← settle_fill, ← settle_fill, h]

theorem Twin.exposed_eq (h : Twin v w) (depth : ℕ) : exposed depth v = exposed depth w := by
  rw [← exposed_fill isBare_ex depth v, h, exposed_fill isBare_ex depth w]

theorem Twin.secretMarks_eq (h : Twin v w) (F : NumberFormat ν) : secretMarks F false v = secretMarks F false w := by
  rw [← secretMarks_fill isBare_ex F false v, h, secretMarks_fill isBare_ex F false w]

theorem Twin.length_eq (h : Twin v w) (F : NumberFormat ν) : (compact F v).length = (compact F w).length := by
  rw [length_secretMarks F false v, h.secretMarks_eq F, length_secretMarks F false w]

theorem Twin.maskJson_eq (h : Twin v w) (hv : exposed 0 v = 0) : maskJson 0 v = maskJson 0 w := by
  rw [← maskJson_fill (c := EX) 0 v hv, h, maskJson_fill 0 w ((h.exposed_eq 0).symm.trans hv)]

theorem take_overwrite (us : JsString) (ms : List Bool) : (overwrite c us ms).take n = overwrite c (us.take n) (ms.take n) :=
  List.take_zipWith

theorem length_take_secretMarks (F : NumberFormat ν) (v : Value ν) (n : ℕ) :
    ((compact F v).take n).length = ((secretMarks F false v).take n).length := by
  rw [List.length_take, List.length_take, length_secretMarks F false v]

/-- What is left of a text without a secret's unit is what is left of the overwritten text. -/
theorem take_compact_fill (hc : IsBare c) (h : true ∉ (secretMarks F false v).take n) :
    (compact F (fill c false v)).take n = (compact F v).take n := by
  rw [compact_fill hc F false v, take_overwrite, overwrite_of_not_mem (length_take_secretMarks F v n) h]

theorem Twin.take_eq (h : Twin v w) (hv : true ∉ (secretMarks F false v).take n) :
    (compact F v).take n = (compact F w).take n := by
  have hw : true ∉ (secretMarks F false w).take n := by rwa [← h.secretMarks_eq F]
  rw [← take_compact_fill isBare_ex hv, h, take_compact_fill isBare_ex hw]

end Twins

/-! ### Bodies -/

section Body
variable {v w : Value ν} {n : ℕ}

theorem parse_compact (F : NumberFormat ν) (v : Value ν) : parse F (compact F v) = some (settle F v) := by
  have hvalue := value_compact (F := F) ((compact F v).length + 1) v [] (by omega) fun _ h => nomatch h
  rw [List.append_nil] at hvalue
  rw [parse, hvalue]
  rfl

theorem compact_ne_nil (F : NumberFormat ν) (v : Value ν) : compact F v ≠ [] :=
  List.ne_nil_of_length_pos (length_compact_pos v)

/-- A text within the limit is masked by its names. -/
theorem maskBody_whole (h : (compact F v).length ≤ n) :
    maskBody F (some (compact F v)) n = some (compact F (maskJson 0 (settle F v))) := by
  obtain ⟨d, s, hds⟩ := List.exists_cons_of_ne_nil (compact_ne_nil F v)
  have hparse := parse_compact F v
  rw [hds] at h hparse ⊢
  simp only [maskBody, if_neg (not_lt.2 h), hparse]

/-- A text beyond the limit is cut, does not parse, and is masked by the expressions. -/
theorem maskBody_clipped (h : n < (compact F v).length) : maskBody F (some (compact F v)) n =
    some (scrubPci (maskInlineSecrets ((compact F v).take n ++ js "…[truncated]"))) := by
  have hends : js "…[truncated]" = js "…[truncate" ++ [0x64, 0x5D] := by decide +kernel
  have hparse : parse F ((compact F v).take n ++ js "…[truncated]") = none := by
    rw [hends, ← List.append_assoc]
    exact parse_eq_none (by decide) _
  obtain ⟨d, s, hds⟩ := List.exists_cons_of_ne_nil (compact_ne_nil F v)
  rw [hds] at h hparse ⊢
  simp only [maskBody, if_pos h, hparse]

/-- The expressions leave the number of `&`. -/
theorem count_masked (s : JsString) : (scrubPci (maskInlineSecrets s)).count AMP = s.count AMP := by
  have hmask : AMP ∉ MASK := by decide +kernel
  rw [scrubPci, count_replaceAll (by decide +kernel) fun _ _ _ => by decide +kernel,
    count_replaceAll (by decide +kernel) fun _ _ _ => by decide +kernel, maskInlineSecrets,
    count_replaceAll (by decide +kernel) fun _ groups hfree => ?_]
  split_ifs
  · exact fun h => (List.mem_append.1 h).elim (hfree 1) hmask
  · simp only [List.mem_append, hfree, hmask, or_self, not_false_eq_true]

/-- The value and the limit keep the secrets: whatever they are, the masked body and the masked value are the same. -/
def Blind (F : NumberFormat ν) (v : Value ν) (maxBytes : ℕ) : Prop :=
  ∀ w, Twin v w → maskBody F (some (compact F v)) maxBytes = maskBody F (some (compact F w)) maxBytes ∧
    maskJson 0 v = maskJson 0 w

/-- Exactly where nothing is exposed and no unit of a secret is left of a text that is clipped. -/
theorem blind_iff (F : NumberFormat ν) (v : Value ν) (maxBytes : ℕ) : Blind F v maxBytes ↔
    exposed 0 v = 0 ∧ ((compact F v).length ≤ maxBytes ∨ true ∉ (secretMarks F false v).take maxBytes) := by
  constructor
  · intro h
    have hamp := h _ (twin_fill isBare_amp v)
    have hex := h _ (twin_fill isBare_ex v)
    refine ⟨?_, or_iff_not_imp_left.2 fun hlong hmem => ?_⟩
    · have hamps := amps_maskJson 0 v
      rw [← hamp.2, ← hex.2] at hamps
      omega
    · -- overwritten by `&` and by `x`, the clipped text has different numbers of `&`
      have hclip := not_le.1 hlong
      have hbody := hamp.1.symm.trans hex.1
      rw [maskBody_clipped ((twin_fill isBare_amp v).length_eq F ▸ hclip),
        maskBody_clipped ((twin_fill isBare_ex v).length_eq F ▸ hclip)] at hbody
      have hcount := congrArg (List.count AMP) (Option.some.inj hbody)
      rw [count_masked, count_masked, List.count_append, List.count_append, compact_fill isBare_amp, compact_fill isBare_ex,
        take_overwrite, take_overwrite, count_overwrite (length_take_secretMarks F v maxBytes)] at hcount
      have hpos := List.count_pos_iff.2 hmem
      omega
  · rintro ⟨hexposed, hclip⟩ w htwin
    refine ⟨?_, htwin.maskJson_eq hexposed⟩
    have hlength := htwin.length_eq F
    rcases Nat.lt_or_ge maxBytes (compact F v).length with hlong | hshort
    · have hmarks := hclip.resolve_left (not_le.2 hlong)
      rw [maskBody_clipped hlong, maskBody_clipped (hlength ▸ hlong), htwin.take_eq hmarks]
    · rw [maskBody_whole hshort, maskBody_whole (hlength ▸ hshort),
        (htwin.settle F).maskJson_eq ((exposed_settle F 0 v).trans hexposed)]

/-- A login whose text is cut behind the password. -/
def login (password : String) : Value ℕ := .obj [(js "password", .str (js password)), (js "reference", .str (js "A-1"))]

theorem twin_login {password password' : String} (h : writtenLength (js password) = writtenLength (js password')) :
    Twin (login password) (login password') := by
  have hsecret : isSecretKey (js "password") = true := by decide +kernel
  have hplain : isSecretKey (js "reference") = false := by decide +kernel
  simp only [Twin, login, fill, fillMembers, hsecret, hplain, Bool.or_true, Bool.or_false, h, if_true]

/-- The cut text no longer parses, and the expressions do not know a quoted name. -/
theorem clipped_leaks : ¬ Blind Json.decimal (login "hunter2") 30 := by
  intro h
  exact absurd (h _ (twin_login (by decide +kernel : _ = writtenLength (js "letmein")))).1 (by decide +kernel)

end Body

end CronMonitor.Masking
