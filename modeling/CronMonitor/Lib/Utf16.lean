import Mathlib.Tactic
import CronMonitor.Lib.Text

/-!
# UTF-16 strings and their UTF-8 bytes

A JavaScript string is a list of 16-bit code units, and a surrogate may stand alone in it. `encode` and `decode` are
`TextEncoder.encode` and `TextDecoder.decode`: the first replaces a lone surrogate by U+FFFD, the second replaces what is
not UTF-8 and drops a byte order mark.
-/

namespace Utf16

abbrev JsString := List UInt16

abbrev Bytes := List UInt8

instance : LawfulBEq JsString := inferInstance

def isHigh (c : UInt16) : Bool := 0xD800 ≤ c.toNat && c.toNat < 0xDC00

def isLow (c : UInt16) : Bool := 0xDC00 ≤ c.toNat && c.toNat < 0xE000

def isSurrogate (c : UInt16) : Bool := isHigh c || isLow c

/-- `\s`, and what `trim` removes. -/
def isSpace (c : UInt16) : Bool := Text.isWhite c.toNat

/-- A Unicode scalar value. -/
def isScalar (n : Nat) : Prop := n < 0xD800 ∨ 0xE000 ≤ n ∧ n < 0x110000

/-- No surrogate stands alone. -/
def wellFormed : JsString → Bool
  | [] => true
  | [c] => !isSurrogate c
  | c :: d :: s => if isHigh c then isLow d && wellFormed s else !isLow c && wellFormed (d :: s)

/-- The code point of a surrogate pair. -/
def pair (c d : UInt16) : Nat := 0x10000 + 0x400 * (c.toNat - 0xD800) + (d.toNat - 0xDC00)

/-- A unit that is in no pair. -/
def single (c : UInt16) : Nat := if isSurrogate c then 0xFFFD else c.toNat

/-- The code points of a string, with U+FFFD for every lone surrogate. -/
def codePoints : JsString → List Nat
  | [] => []
  | [c] => [single c]
  | c :: d :: s => if isHigh c && isLow d then pair c d :: codePoints s else single c :: codePoints (d :: s)

/-- The code units of a scalar value. -/
def units (n : Nat) : JsString :=
  if n < 0x10000 then [UInt16.ofNat n]
  else [UInt16.ofNat (0xD800 + (n - 0x10000) / 0x400), UInt16.ofNat (0xDC00 + (n - 0x10000) % 0x400)]

/-- `String.prototype.toWellFormed`. -/
def toWellFormed (s : JsString) : JsString := (codePoints s).flatMap units

/-- A string literal. -/
def js (s : String) : JsString := s.toList.flatMap fun c => units c.toNat

theorem forall_of_any_eq_false {p : UInt16 → Bool} {s : JsString} (h : s.any p = false) : ∀ c ∈ s, p c = false :=
  fun c hc => Bool.eq_false_iff.2 (List.any_eq_false.1 h c hc)

section Utf8

/-- The UTF-8 bytes of a scalar value. -/
def utf8 (n : Nat) : Bytes :=
  if n < 0x80 then [UInt8.ofNat n]
  else if n < 0x800 then [UInt8.ofNat (0xC0 + n / 0x40), UInt8.ofNat (0x80 + n % 0x40)]
  else if n < 0x10000 then
    [UInt8.ofNat (0xE0 + n / 0x1000), UInt8.ofNat (0x80 + n / 0x40 % 0x40), UInt8.ofNat (0x80 + n % 0x40)]
  else
    [UInt8.ofNat (0xF0 + n / 0x40000), UInt8.ofNat (0x80 + n / 0x1000 % 0x40), UInt8.ofNat (0x80 + n / 0x40 % 0x40),
      UInt8.ofNat (0x80 + n % 0x40)]

/-- `TextEncoder.encode`. -/
def encode (s : JsString) : Bytes := (codePoints s).flatMap utf8

/-- Where the decoder stands: between code points, or with bytes still to come, the next of them within bounds. -/
inductive Decoder
  | ready
  | pending (needed codePoint lower upper : Nat)

/-- The first byte of a code point. -/
def firstByte (b : Nat) : List Nat × Decoder :=
  if b ≤ 0x7F then ([b], .ready)
  else if 0xC2 ≤ b ∧ b ≤ 0xDF then ([], .pending 1 (b - 0xC0) 0x80 0xBF)
  else if 0xE0 ≤ b ∧ b ≤ 0xEF then
    ([], .pending 2 (b - 0xE0) (if b = 0xE0 then 0xA0 else 0x80) (if b = 0xED then 0x9F else 0xBF))
  else if 0xF0 ≤ b ∧ b ≤ 0xF4 then
    ([], .pending 3 (b - 0xF0) (if b = 0xF0 then 0x90 else 0x80) (if b = 0xF4 then 0x8F else 0xBF))
  else ([0xFFFD], .ready)

/-- One byte; a byte that cannot go on with the code point ends it and is read again as a first byte. -/
def nextByte (b : Nat) : Decoder → List Nat × Decoder
  | .ready => firstByte b
  | .pending needed codePoint lower upper =>
    if lower ≤ b ∧ b ≤ upper then
      if needed = 1 then ([codePoint * 0x40 + (b - 0x80)], .ready)
      else ([], .pending (needed - 1) (codePoint * 0x40 + (b - 0x80)) 0x80 0xBF)
    else (0xFFFD :: (firstByte b).1, (firstByte b).2)

def scalars : Decoder → Bytes → List Nat
  | .ready, [] => []
  | .pending .., [] => [0xFFFD]
  | d, b :: bytes => (nextByte b.toNat d).1 ++ scalars (nextByte b.toNat d).2 bytes

/-- `new TextDecoder().decode`. -/
def decode (bytes : Bytes) : JsString :=
  match scalars .ready bytes with
  | 0xFEFF :: rest => rest.flatMap units
  | all => all.flatMap units

end Utf8

section CodePoints

variable {c d : UInt16} {s t : JsString} {n : Nat}

theorem isScalar_pair (hc : isHigh c) (hd : isLow d) : isScalar (pair c d) := by
  simp only [isHigh, isLow, Bool.and_eq_true, decide_eq_true_eq] at hc hd
  right
  unfold pair
  omega

theorem isScalar_single : isScalar (single c) := by
  have hlt := c.toNat_lt
  unfold single
  split_ifs with h
  · right
    omega
  · simp only [isSurrogate, isHigh, isLow, Bool.or_eq_true, Bool.and_eq_true, decide_eq_true_eq, not_or, not_and] at h
    simp only [isScalar]
    omega

theorem isScalar_codePoints (s : JsString) : ∀ n ∈ codePoints s, isScalar n := by
  fun_induction codePoints s with
  | case1 => exact List.forall_mem_nil _
  | case2 c =>
    intro n hn
    rw [List.mem_singleton.1 hn]
    exact isScalar_single
  | case3 c d s h ih =>
    rw [Bool.and_eq_true] at h
    intro n hn
    rcases List.mem_cons.1 hn with hn | hn
    · rw [hn]
      exact isScalar_pair h.1 h.2
    · exact ih n hn
  | case4 c d s h ih =>
    intro n hn
    rcases List.mem_cons.1 hn with hn | hn
    · rw [hn]
      exact isScalar_single
    · exact ih n hn

theorem single_eq (h : isSurrogate c = false) : single c = c.toNat := by simp [single, h]

theorem codePoints_cons (h : isSurrogate c = false) (s : JsString) : codePoints (c :: s) = c.toNat :: codePoints s := by
  cases s with
  | nil => simp only [codePoints, single_eq h]
  | cons d s =>
    rw [isSurrogate, Bool.or_eq_false_iff] at h
    rw [codePoints, h.1, Bool.false_and, if_neg Bool.false_ne_true, single_eq (by rw [isSurrogate, h.1, h.2, Bool.or_self])]

theorem units_toNat (c : UInt16) : units c.toNat = [c] := by
  have hlt := c.toNat_lt
  rw [units, if_pos (by omega), UInt16.ofNat_toNat]

theorem units_pair (hc : isHigh c) (hd : isLow d) : units (pair c d) = [c, d] := by
  simp only [isHigh, isLow, Bool.and_eq_true, decide_eq_true_eq] at hc hd
  have hhigh : 0xD800 + (pair c d - 0x10000) / 0x400 = c.toNat := by
    unfold pair
    omega
  have hlow : 0xDC00 + (pair c d - 0x10000) % 0x400 = d.toNat := by
    unfold pair
    omega
  rw [units, if_neg (by unfold pair; omega), hhigh, hlow, UInt16.ofNat_toNat, UInt16.ofNat_toNat]

theorem toWellFormed_eq (h : wellFormed s) : toWellFormed s = s := by
  unfold toWellFormed
  fun_induction wellFormed s with
  | case1 => rfl
  | case2 c =>
    rw [Bool.not_eq_true'] at h
    simp only [codePoints, single_eq h, List.flatMap_cons, List.flatMap_nil, units_toNat, List.append_nil]
  | case3 c d s hc ih =>
    rw [Bool.and_eq_true] at h
    simp only [codePoints, hc, h.1, Bool.and_self, if_true, List.flatMap_cons, units_pair hc h.1, ih h.2]
    rfl
  | case4 c d s hc ih =>
    rw [Bool.and_eq_true, Bool.not_eq_true'] at h
    rw [Bool.not_eq_true] at hc
    have hs : isSurrogate c = false := by rw [isSurrogate, hc, h.1, Bool.or_self]
    simp only [codePoints, hc, Bool.false_and, Bool.false_eq_true, if_false, single_eq hs, List.flatMap_cons,
      units_toNat, ih h.2]
    rfl

/-- A string may be cut before and after a unit that is no surrogate. -/
theorem wellFormed_append_cons (hc : isSurrogate c = false) :
    wellFormed (s ++ c :: t) = (wellFormed s && wellFormed t) := by
  have hhigh : isHigh c = false := by
    rw [isSurrogate, Bool.or_eq_false_iff] at hc
    exact hc.1
  have hlow : isLow c = false := by
    rw [isSurrogate, Bool.or_eq_false_iff] at hc
    exact hc.2
  have hcons : ∀ t, wellFormed (c :: t) = wellFormed t := by
    intro t
    cases t with
    | nil => simp [wellFormed, hc]
    | cons d t => simp [wellFormed, hhigh, hlow]
  fun_induction wellFormed s with
  | case1 => simp [hcons]
  | case2 a =>
    by_cases ha : isHigh a = true
    · simp [wellFormed, ha, hlow, isSurrogate]
    · simp [wellFormed, ha, hcons, isSurrogate]
  | case3 a b s ha ih => simp [wellFormed, ha, ih, Bool.and_assoc]
  | case4 a b s ha ih =>
    rw [List.cons_append] at ih
    simp [wellFormed, ha, ih, Bool.and_assoc]

theorem wellFormed_cons (hc : isSurrogate c = false) : wellFormed (c :: t) = wellFormed t := by
  simpa [wellFormed] using wellFormed_append_cons (s := []) (t := t) hc

theorem wellFormed_append (hs : wellFormed s) : wellFormed (s ++ t) = wellFormed t := by
  fun_induction wellFormed s with
  | case1 => rfl
  | case2 c =>
    rw [Bool.not_eq_true'] at hs
    exact wellFormed_cons hs
  | case3 c d s hc ih =>
    rw [Bool.and_eq_true] at hs
    simp [wellFormed, hc, hs.1, ih hs.2]
  | case4 c d s hc ih =>
    rw [Bool.and_eq_true] at hs
    have ih := ih hs.2
    rw [List.cons_append] at ih
    simp [wellFormed, hc, hs.1, ih]

theorem wellFormed_units (hn : isScalar n) : wellFormed (units n) := by
  unfold units isScalar at *
  split_ifs with h
  · have htoNat : (UInt16.ofNat n).toNat = n := UInt16.toNat_ofNat_of_lt' h
    simp only [wellFormed, isSurrogate, isHigh, isLow, htoNat, Bool.not_eq_true', Bool.or_eq_false_iff,
      Bool.and_eq_false_iff, decide_eq_false_iff_not]
    omega
  · have hc : (UInt16.ofNat (0xD800 + (n - 0x10000) / 0x400)).toNat = 0xD800 + (n - 0x10000) / 0x400 :=
      UInt16.toNat_ofNat_of_lt' (by show _ < 2 ^ 16; omega)
    have hd : (UInt16.ofNat (0xDC00 + (n - 0x10000) % 0x400)).toNat = 0xDC00 + (n - 0x10000) % 0x400 :=
      UInt16.toNat_ofNat_of_lt' (by show _ < 2 ^ 16; omega)
    have hhigh : isHigh (UInt16.ofNat (0xD800 + (n - 0x10000) / 0x400)) := by
      simp only [isHigh, hc, Bool.and_eq_true, decide_eq_true_eq]
      omega
    have hlow : isLow (UInt16.ofNat (0xDC00 + (n - 0x10000) % 0x400)) := by
      simp only [isLow, hd, Bool.and_eq_true, decide_eq_true_eq]
      omega
    rw [wellFormed, if_pos hhigh, hlow]
    rfl

theorem wellFormed_flatMap_units {l : List Nat} (hl : ∀ n ∈ l, isScalar n) : wellFormed (l.flatMap units) := by
  induction l with
  | nil => rfl
  | cons n l ih =>
    rw [List.flatMap_cons, wellFormed_append (wellFormed_units (hl n List.mem_cons_self))]
    exact ih fun m hm => hl m (List.mem_cons_of_mem n hm)

theorem wellFormed_toWellFormed (s : JsString) : wellFormed (toWellFormed s) :=
  wellFormed_flatMap_units (isScalar_codePoints s)

end CodePoints

section RoundTrip

variable {n : Nat} {bytes : Bytes}

theorem scalars_utf8 (hn : isScalar n) : scalars .ready (utf8 n ++ bytes) = n :: scalars .ready bytes := by
  have byte : ∀ b, b < 256 → (UInt8.ofNat b).toNat = b := fun b hb => UInt8.toNat_ofNat_of_lt' hb
  unfold isScalar at hn
  unfold utf8
  split_ifs with h1 h2 h3
  · simp only [List.cons_append, List.nil_append, scalars, nextByte, byte n (by omega), firstByte]
    rw [if_pos (by omega)]
    rfl
  · simp only [List.cons_append, List.nil_append, scalars, nextByte, byte _ (show 0xC0 + n / 0x40 < 256 by omega),
      byte _ (show 0x80 + n % 0x40 < 256 by omega), firstByte]
    rw [if_neg (by omega), if_pos (by omega)]
    simp only [List.nil_append]
    rw [if_pos (by omega), if_pos trivial]
    simp only [List.cons_append, List.nil_append, List.cons.injEq, and_true]
    omega
  · simp only [List.cons_append, List.nil_append, scalars, nextByte, byte _ (show 0xE0 + n / 0x1000 < 256 by omega),
      byte _ (show 0x80 + n / 0x40 % 0x40 < 256 by omega), byte _ (show 0x80 + n % 0x40 < 256 by omega), firstByte]
    rw [if_neg (by omega), if_neg (by omega), if_pos (by omega)]
    simp only [List.nil_append]
    rw [if_pos (by split_ifs <;> omega), if_neg (by omega)]
    simp only [List.nil_append]
    rw [if_pos (by omega), if_pos trivial]
    simp only [List.cons_append, List.nil_append, List.cons.injEq, and_true]
    omega
  · simp only [List.cons_append, List.nil_append, scalars, nextByte, byte _ (show 0xF0 + n / 0x40000 < 256 by omega),
      byte _ (show 0x80 + n / 0x1000 % 0x40 < 256 by omega), byte _ (show 0x80 + n / 0x40 % 0x40 < 256 by omega),
      byte _ (show 0x80 + n % 0x40 < 256 by omega), firstByte]
    rw [if_neg (by omega), if_neg (by omega), if_neg (by omega), if_pos (by omega)]
    simp only [List.nil_append]
    rw [if_pos (by split_ifs <;> omega), if_neg (by omega)]
    simp only [List.nil_append]
    rw [if_pos (by omega), if_neg (by omega)]
    simp only [List.nil_append]
    rw [if_pos (by omega), if_pos trivial]
    simp only [List.cons_append, List.nil_append, List.cons.injEq, and_true]
    omega

theorem scalars_flatMap_utf8 {l : List Nat} (hl : ∀ n ∈ l, isScalar n) : scalars .ready (l.flatMap utf8) = l := by
  induction l with
  | nil => rfl
  | cons n l ih =>
    rw [List.flatMap_cons, scalars_utf8 (hl n List.mem_cons_self), ih fun m hm => hl m (List.mem_cons_of_mem n hm)]

/-- Decoding an encoded string makes it well-formed, unless a byte order mark is dropped. -/
theorem decode_encode {s : JsString} (hs : (codePoints s).head? ≠ some 0xFEFF) : decode (encode s) = toWellFormed s := by
  unfold decode encode toWellFormed
  rw [scalars_flatMap_utf8 (isScalar_codePoints s)]
  split
  · next rest h =>
    rw [h] at hs
    exact absurd rfl hs
  · rfl

end RoundTrip

end Utf16
