import Mathlib.Data.List.TakeWhile
import Mathlib.Data.Nat.Digits.Lemmas
import CronMonitor.Lib.Json

/-!
# Reading a written JSON text gives the value back

The text of a value is well-formed UTF-16 (`wellFormed_text`), and `parse` reads from it what the text keeps of the value
(`parse_text`).
-/

namespace Json
open Utf16

variable {ν : Type} {F : NumberFormat ν} {c : UInt16} {s r : JsString} {k n : Nat}

section Strings

theorem hexValue_hexDigit : ∀ n < 16, hexValue (hexDigit n) = some n := by decide

theorem readHex4_hex4 (c : UInt16) :
    readHex4 (hexDigit (c.toNat / 0x1000)) (hexDigit (c.toNat / 0x100 % 16)) (hexDigit (c.toNat / 16 % 16))
      (hexDigit (c.toNat % 16)) = some c := by
  have hlt := c.toNat_lt
  have hsum : ((c.toNat / 0x1000 * 16 + c.toNat / 0x100 % 16) * 16 + c.toNat / 16 % 16) * 16 + c.toNat % 16 = c.toNat := by
    omega
  simp only [readHex4, hexValue_hexDigit (c.toNat / 0x1000) (by omega),
    hexValue_hexDigit (c.toNat / 0x100 % 16) (by omega), hexValue_hexDigit (c.toNat / 16 % 16) (by omega),
    hexValue_hexDigit (c.toNat % 16) (by omega), Option.bind_eq_bind, Option.bind_some, hsum, UInt16.ofNat_toNat]

theorem string_close (s : JsString) : string (0x22 :: s) = some ([], s) := by
  rw [string.eq_def]
  simp only [if_true]

theorem string_cons (hquote : c ≠ 0x22) (hslash : c ≠ 0x5C) (hcontrol : ¬c.toNat < 0x20) :
    string (c :: s) = (string s).map fun p => (c :: p.1, p.2) := by
  rw [string.eq_def]
  simp only [if_neg hquote, if_neg hslash, if_neg hcontrol]

theorem string_escape {e : UInt16} (he : shortEscape c = some e) :
    string (0x5C :: e :: s) = (string s).map fun p => (c :: p.1, p.2) := by
  have hback : e ≠ 0x75 ∧ unescape e = some c := by
    unfold shortEscape at he
    split_ifs at he with h1 h2 h3 h4 h5 h6 h7 <;> cases he <;> subst c <;> decide
  rw [string.eq_def]
  simp only [if_neg (show (0x5C : UInt16) ≠ 0x22 by decide), if_true, if_neg hback.1, hback.2, Option.bind_some]

theorem string_quoteUnit (c : UInt16) (s : JsString) :
    string (quoteUnit c ++ s) = (string s).map fun p => (c :: p.1, p.2) := by
  unfold quoteUnit
  split
  · next e he => exact string_escape he
  · next hshort =>
    have hquote : c ≠ 0x22 := by
      rintro rfl
      exact absurd hshort (by decide)
    have hslash : c ≠ 0x5C := by
      rintro rfl
      exact absurd hshort (by decide)
    split
    · rw [hex4]
      simp only [List.cons_append, List.nil_append]
      rw [string.eq_def]
      simp only [if_neg (show (0x5C : UInt16) ≠ 0x22 by decide), if_true, readHex4_hex4, Option.bind_some]
    · next hplain =>
      rw [Bool.or_eq_true, decide_eq_true_eq, not_or] at hplain
      exact string_cons hquote hslash hplain.1

theorem plain_of_isSurrogate (hc : isSurrogate c) : c ≠ 0x22 ∧ c ≠ 0x5C ∧ ¬c.toNat < 0x20 := by
  refine ⟨?_, ?_, ?_⟩
  · rintro rfl
    exact absurd hc (by decide)
  · rintro rfl
    exact absurd hc (by decide)
  · simp only [isSurrogate, isHigh, isLow, Bool.or_eq_true, Bool.and_eq_true, decide_eq_true_eq] at hc
    omega

theorem string_quoteBody (s r : JsString) : string (quoteBody s ++ 0x22 :: r) = some (s, r) := by
  fun_induction quoteBody s with
  | case1 =>
    exact string_close r
  | case2 c =>
    rw [string_quoteUnit, string_close]
    rfl
  | case3 c d s h ih =>
    rw [Bool.and_eq_true] at h
    obtain ⟨hq, hs, hc⟩ := plain_of_isSurrogate (c := c) (by rw [isSurrogate, h.1, Bool.true_or])
    obtain ⟨hq', hs', hd⟩ := plain_of_isSurrogate (c := d) (by rw [isSurrogate, h.2, Bool.or_true])
    rw [List.cons_append, List.cons_append, string_cons hq hs hc, string_cons hq' hs' hd, ih]
    rfl
  | case4 c d s h ih =>
    rw [List.append_assoc, string_quoteUnit, ih]
    rfl

end Strings

section WellFormed

theorem wellFormed_of_plain (h : ∀ c ∈ s, isSurrogate c = false) : wellFormed s := by
  induction s with
  | nil => rfl
  | cons c s ih =>
    rw [wellFormed_cons (h c List.mem_cons_self)]
    exact ih fun d hd => h d (List.mem_cons_of_mem c hd)

theorem not_isSurrogate_hexDigit : ∀ n < 16, isSurrogate (hexDigit n) = false := by decide

theorem wellFormed_quoteUnit (c : UInt16) : wellFormed (quoteUnit c) := by
  have hlt := c.toNat_lt
  unfold quoteUnit
  split
  · next e he =>
    have hplain : isSurrogate e = false := by
      unfold shortEscape at he
      split_ifs at he <;> cases he <;> decide
    rw [wellFormed_cons (by decide), wellFormed, hplain]
    rfl
  · split
    · refine wellFormed_of_plain fun d hd => ?_
      simp only [hex4, List.mem_cons, List.not_mem_nil, or_false] at hd
      rcases hd with rfl | rfl | rfl | rfl | rfl | rfl
      · decide
      · decide
      · exact not_isSurrogate_hexDigit _ (by omega)
      · exact not_isSurrogate_hexDigit _ (by omega)
      · exact not_isSurrogate_hexDigit _ (by omega)
      · exact not_isSurrogate_hexDigit _ (by omega)
    · next hplain =>
      rw [Bool.or_eq_true, not_or, Bool.not_eq_true, Bool.not_eq_true] at hplain
      rw [wellFormed, hplain.2]
      rfl

theorem wellFormed_quoteBody (s : JsString) : wellFormed (quoteBody s) := by
  fun_induction quoteBody s with
  | case1 => rfl
  | case2 c => exact wellFormed_quoteUnit c
  | case3 c d s h ih =>
    rw [Bool.and_eq_true] at h
    rw [wellFormed, if_pos h.1, h.2, ih]
    rfl
  | case4 c d s h ih =>
    rw [wellFormed_append (wellFormed_quoteUnit c)]
    exact ih

theorem wellFormed_quote (s : JsString) : wellFormed (quote s) := by
  rw [quote, wellFormed_cons (by decide), wellFormed_append (wellFormed_quoteBody s)]
  decide

theorem wellFormed_indent (k : Nat) : wellFormed (indent k) := by
  refine wellFormed_of_plain fun c hc => ?_
  rcases List.mem_cons.1 hc with rfl | hc
  · decide
  · rw [List.eq_of_mem_replicate hc]
    decide

theorem not_isSurrogate_of_isNumeric (h : isNumeric c) : isSurrogate c = false := by
  rw [isNumeric, Bool.or_eq_true, decide_eq_true_eq] at h
  rcases h with h | h
  · simp only [isDigit, Bool.and_eq_true, decide_eq_true_eq] at h
    simp only [isSurrogate, isHigh, isLow, Bool.or_eq_false_iff, Bool.and_eq_false_iff, decide_eq_false_iff_not]
    omega
  · revert c
    simp only [List.forall_mem_cons, List.not_mem_nil, false_imp_iff, implies_true, and_true]
    decide

theorem isNumeric_of_mem (h : isNumber s) : ∀ c ∈ s, isNumeric c := by
  rw [isNumber, Bool.and_eq_true, List.all_eq_true] at h
  exact h.1

mutual

theorem wellFormed_textAt (F : NumberFormat ν) : ∀ (k : Nat) (v : Value ν), wellFormed (textAt F k v)
  | k, .null => by
    rw [textAt]
    decide
  | k, .bool b => by
    rw [textAt]
    cases b <;> decide
  | k, .num x => by
    rw [textAt]
    split
    · next hx =>
      exact wellFormed_of_plain fun c hc => not_isSurrogate_of_isNumeric (isNumeric_of_mem (F.isNumber_text x hx) c hc)
    · decide
  | k, .str s => by
    rw [textAt]
    exact wellFormed_quote s
  | k, .arr [] => by
    rw [textAt]
    decide
  | k, .arr (x :: xs) => by
    rw [textAt, wellFormed_cons (by decide), List.append_assoc, List.append_assoc, List.append_assoc,
      wellFormed_append (wellFormed_indent _), wellFormed_append (wellFormed_textAt F (k + 1) x),
      wellFormed_append (wellFormed_textElements F (k + 1) xs), wellFormed_append (wellFormed_indent _)]
    decide
  | k, .obj [] => by
    rw [textAt]
    decide
  | k, .obj ((key, v) :: ms) => by
    rw [textAt, wellFormed_cons (by decide)]
    simp only [List.append_assoc]
    rw [wellFormed_append (wellFormed_indent _), wellFormed_append (wellFormed_quote key),
      wellFormed_append (s := [0x3A, 0x20]) (by decide), wellFormed_append (wellFormed_textAt F (k + 1) v),
      wellFormed_append (wellFormed_textMembers F (k + 1) ms), wellFormed_append (wellFormed_indent _)]
    decide

theorem wellFormed_textElements (F : NumberFormat ν) : ∀ (k : Nat) (xs : List (Value ν)), wellFormed (textElements F k xs)
  | k, [] => by
    rw [textElements]
    rfl
  | k, x :: xs => by
    rw [textElements, wellFormed_cons (by decide), List.append_assoc, wellFormed_append (wellFormed_indent _),
      wellFormed_append (wellFormed_textAt F k x)]
    exact wellFormed_textElements F k xs

theorem wellFormed_textMembers (F : NumberFormat ν) :
    ∀ (k : Nat) (ms : List (JsString × Value ν)), wellFormed (textMembers F k ms)
  | k, [] => by
    rw [textMembers]
    rfl
  | k, (key, v) :: ms => by
    rw [textMembers, wellFormed_cons (by decide)]
    simp only [List.append_assoc]
    rw [wellFormed_append (wellFormed_indent _), wellFormed_append (wellFormed_quote key),
      wellFormed_append (s := [0x3A, 0x20]) (by decide), wellFormed_append (wellFormed_textAt F k v)]
    exact wellFormed_textMembers F k ms

end

theorem wellFormed_text (F : NumberFormat ν) (v : Value ν) : wellFormed (text F v) := wellFormed_textAt F 0 v

end WellFormed

section RoundTrip

theorem skipWs_cons (hc : isWs c = false) : skipWs (c :: s) = c :: s := by
  rw [skipWs, List.dropWhile_cons, hc]
  rfl

theorem skipWs_indent (k : Nat) (s : JsString) : skipWs (indent k ++ s) = skipWs s := by
  unfold skipWs
  refine List.dropWhile_append_of_pos fun c hc => ?_
  rcases List.mem_cons.1 hc with rfl | hc
  · decide
  · rw [List.eq_of_mem_replicate hc]
    decide

theorem word_append (w r : JsString) : word w (w ++ r) = some r := by
  rw [word, if_pos (List.isPrefixOf_iff_prefix.2 (List.prefix_append w r)), List.drop_left]

/-- No number token goes on into the text. -/
def Stops (r : JsString) : Prop := ∀ c ∈ r.head?, isNumeric c = false

theorem stops_cons (hc : isNumeric c = false) : Stops (c :: r) := by
  intro d hd
  cases hd
  exact hc

theorem stops_indent (k : Nat) (r : JsString) : Stops (indent k ++ r) := stops_cons (by decide)

theorem stops_textElements (k : Nat) (xs : List (Value ν)) (hr : Stops r) : Stops (textElements F k xs ++ r) := by
  cases xs with
  | nil =>
    rw [textElements]
    exact hr
  | cons x xs =>
    rw [textElements]
    exact stops_cons (by decide)

theorem stops_textMembers (k : Nat) (ms : List (JsString × Value ν)) (hr : Stops r) :
    Stops (textMembers F k ms ++ r) := by
  cases ms with
  | nil =>
    rw [textMembers]
    exact hr
  | cons m ms =>
    obtain ⟨key, v⟩ := m
    rw [textMembers]
    exact stops_cons (by decide)

theorem number_text {x : ν} (hx : F.finite x) (hr : Stops r) : number F (F.text x ++ r) = some (.num x, r) := by
  have hall := isNumeric_of_mem (F.isNumber_text x hx)
  have htake : (F.text x ++ r).takeWhile isNumeric = F.text x := by
    rw [List.takeWhile_append_of_pos hall]
    cases r with
    | nil => simp
    | cons c r => simp [hr c rfl]
  have hdrop : (F.text x ++ r).dropWhile isNumeric = r := by
    rw [List.dropWhile_append_of_pos hall]
    cases r with
    | nil => rfl
    | cons c r => simp [hr c rfl]
  rw [number, htake, hdrop, if_pos (F.isNumber_text x hx), F.read_text x hx]

theorem exists_head_of_isNumber (h : isNumber s) : ∃ c t, s = c :: t ∧ isNumeric c := by
  cases s with
  | nil => exact absurd h (by decide)
  | cons c t => exact ⟨c, t, rfl, isNumeric_of_mem h c List.mem_cons_self⟩

theorem ne_of_isNumeric (hc : isNumeric c) {d : UInt16} (hd : isNumeric d = false) : c ≠ d := by
  rintro rfl
  rw [hc] at hd
  cases hd

theorem isWs_of_isNumeric (hc : isNumeric c) : isWs c = false := by
  simp only [isWs, Bool.or_eq_false_iff, decide_eq_false_iff_not]
  exact ⟨⟨⟨ne_of_isNumeric hc (by decide), ne_of_isNumeric hc (by decide)⟩, ne_of_isNumeric hc (by decide)⟩,
    ne_of_isNumeric hc (by decide)⟩

/-- A written value begins with a unit that is neither white space nor a closing bracket. -/
theorem exists_head_textAt (F : NumberFormat ν) (k : Nat) (v : Value ν) :
    ∃ c t, textAt F k v = c :: t ∧ isWs c = false ∧ c ≠ 0x5D ∧ c ≠ 0x7D := by
  have lit : ∀ {c : UInt16} {t : JsString}, isWs c = false ∧ c ≠ 0x5D ∧ c ≠ 0x7D →
      ∃ d u, c :: t = d :: u ∧ isWs d = false ∧ d ≠ 0x5D ∧ d ≠ 0x7D := fun h => ⟨_, _, rfl, h⟩
  rcases v with _ | b | x | s | xs | ms
  · rw [textAt]
    exact lit (by decide)
  · rw [textAt]
    cases b
    · exact lit (by decide)
    · exact lit (by decide)
  · rw [textAt]
    split
    · next hx =>
      obtain ⟨c, t, ht, hc⟩ := exists_head_of_isNumber (F.isNumber_text x hx)
      exact ⟨c, t, ht, isWs_of_isNumeric hc, ne_of_isNumeric hc (by decide), ne_of_isNumeric hc (by decide)⟩
    · exact lit (by decide)
  · rw [textAt]
    exact lit (by decide)
  · cases xs with
    | nil =>
      rw [textAt]
      exact lit (by decide)
    | cons x xs =>
      rw [textAt]
      exact lit (by decide)
  · cases ms with
    | nil =>
      rw [textAt]
      exact lit (by decide)
    | cons m ms =>
      obtain ⟨key, v⟩ := m
      rw [textAt]
      exact lit (by decide)

theorem skipWs_textAt (k : Nat) (v : Value ν) (r : JsString) : skipWs (textAt F k v ++ r) = textAt F k v ++ r := by
  obtain ⟨c, t, ht, hc, -⟩ := exists_head_textAt F k v
  rw [ht, List.cons_append, skipWs_cons hc]

theorem length_textAt_pos (k : Nat) (v : Value ν) : 0 < (textAt F k v).length := by
  obtain ⟨c, t, ht, -⟩ := exists_head_textAt F k v
  rw [ht]
  exact Nat.succ_pos _

theorem value_indent (n k : Nat) (s : JsString) : value F n (indent k ++ s) = value F n s := by
  cases n with
  | zero => rfl
  | succ n => rw [value, value, skipWs_indent]

theorem name_indent_quote (k : Nat) (key r : JsString) : name (indent k ++ (quote key ++ r)) = some (key, r) := by
  rw [name, skipWs_indent, quote, List.cons_append, skipWs_cons (by decide)]
  simp only [if_true]
  rw [List.append_assoc, List.singleton_append, string_quoteBody]

theorem colon_append (r : JsString) : colon (0x3A :: r) = some r := by
  rw [colon, skipWs_cons (by decide)]
  rfl

theorem value_space (n : Nat) (s : JsString) : value F n (0x20 :: s) = value F n s := by
  cases n with
  | zero => rfl
  | succ n => rfl

-- The fuel left is at least the length of what is still to be read, so it never runs out.
mutual

theorem value_textAt : ∀ (k n : Nat) (v : Value ν) (r : JsString), (textAt F k v).length ≤ n → Stops r →
    value F n (textAt F k v ++ r) = some (settle F v, r)
  | k, 0, v, r, hn, _ => absurd (length_textAt_pos (F := F) k v) (by omega)
  | k, n + 1, .null, r, hn, hr => by
    rw [value, skipWs_textAt, textAt, settle]
    exact congrArg (Option.map _) (word_append (js "null") r)
  | k, n + 1, .bool true, r, hn, hr => by
    rw [value, skipWs_textAt, textAt, settle]
    exact congrArg (Option.map _) (word_append (js "true") r)
  | k, n + 1, .bool false, r, hn, hr => by
    rw [value, skipWs_textAt, textAt, settle]
    exact congrArg (Option.map _) (word_append (js "false") r)
  | k, n + 1, .num x, r, hn, hr => by
    rw [value, skipWs_textAt, textAt, settle]
    split_ifs with hx
    · have hnumber := number_text hx hr
      obtain ⟨c, t, ht, hc⟩ := exists_head_of_isNumber (F.isNumber_text x hx)
      rw [ht, List.cons_append] at hnumber ⊢
      simp only [if_neg (ne_of_isNumeric hc (d := 0x22) (by decide)), if_neg (ne_of_isNumeric hc (d := 0x5B) (by decide)),
        if_neg (ne_of_isNumeric hc (d := 0x7B) (by decide)), if_neg (ne_of_isNumeric hc (d := 0x6E) (by decide)),
        if_neg (ne_of_isNumeric hc (d := 0x74) (by decide)), if_neg (ne_of_isNumeric hc (d := 0x66) (by decide))]
      exact hnumber
    · exact congrArg (Option.map _) (word_append (js "null") r)
  | k, n + 1, .str s, r, hn, hr => by
    rw [value, skipWs_textAt, textAt, settle, quote]
    simp only [List.cons_append, List.append_assoc, List.nil_append, if_true, string_quoteBody, Option.map_some]
  | k, n + 1, .arr [], r, hn, hr => by
    rw [value, skipWs_textAt, textAt, settle, settleElements]
    rfl
  | k, n + 1, .arr (x :: xs), r, hn, hr => by
    rw [value, skipWs_textAt, textAt, settle, settleElements]
    simp only [textAt, List.length_cons, List.length_append, List.length_nil] at hn
    obtain ⟨c, t, ht, -, hc, -⟩ := exists_head_textAt F (k + 1) x
    have hhead : (skipWs (indent (k + 1) ++ (textAt F (k + 1) x ++
        (textElements F (k + 1) xs ++ (indent k ++ 0x5D :: r))))).head? ≠ some 0x5D := by
      rw [skipWs_indent, skipWs_textAt, ht, List.cons_append, List.head?_cons, ne_eq, Option.some.injEq]
      exact hc
    have hx := value_textAt (k + 1) n x (textElements F (k + 1) xs ++ (indent k ++ 0x5D :: r)) (by omega)
      (stops_textElements _ xs (stops_indent k _))
    have hxs := elements_textElements k (k + 1) n xs r (by omega)
    simp only [List.cons_append, List.append_assoc, List.nil_append, if_neg (show (0x5B : UInt16) ≠ 0x22 by decide),
      if_true, if_neg hhead, value_indent, hx, Option.bind_some, hxs, Option.map_some]
  | k, n + 1, .obj [], r, hn, hr => by
    rw [value, skipWs_textAt, textAt, settle, settleMembers]
    rfl
  | k, n + 1, .obj ((key, v) :: ms), r, hn, hr => by
    rw [value, skipWs_textAt, textAt, settle, settleMembers]
    simp only [textAt, List.length_cons, List.length_append, List.length_nil] at hn
    have hhead : (skipWs (indent (k + 1) ++ (quote key ++ ([0x3A, 0x20] ++ (textAt F (k + 1) v ++
        (textMembers F (k + 1) ms ++ (indent k ++ 0x7D :: r))))))).head? ≠ some 0x7D := by
      rw [skipWs_indent, quote, List.cons_append, skipWs_cons (by decide), List.head?_cons]
      decide
    have hv := value_textAt (k + 1) n v (textMembers F (k + 1) ms ++ (indent k ++ 0x7D :: r)) (by omega)
      (stops_textMembers _ ms (stops_indent k _))
    have hms := members_textMembers k (k + 1) n ms r (by omega)
    simp only [List.cons_append, List.append_assoc, List.nil_append, if_neg (show (0x7B : UInt16) ≠ 0x22 by decide),
      if_neg (show (0x7B : UInt16) ≠ 0x5B by decide), if_true]
    simp only [List.cons_append, List.nil_append] at hhead
    simp only [if_neg hhead, name_indent_quote, Option.bind_some, colon_append, value_space, hv, hms, Option.map_some]

theorem elements_textElements : ∀ (j k n : Nat) (xs : List (Value ν)) (r : JsString),
    (textElements F k xs).length < n →
    elements F n (textElements F k xs ++ (indent j ++ 0x5D :: r)) = some (settleElements F xs, r)
  | j, k, n + 1, [], r, _ => by
    rw [elements, textElements, settleElements, List.nil_append, skipWs_indent, skipWs_cons (by decide)]
    rfl
  | j, k, n + 1, x :: xs, r, hn => by
    rw [elements, textElements, settleElements]
    simp only [textElements, List.length_cons, List.length_append] at hn
    have hx := value_textAt k n x (textElements F k xs ++ (indent j ++ 0x5D :: r)) (by omega)
      (stops_textElements _ xs (stops_indent j _))
    have hxs := elements_textElements j k n xs r (by omega)
    rw [List.cons_append, skipWs_cons (by decide)]
    simp only [List.append_assoc, if_neg (show (0x2C : UInt16) ≠ 0x5D by decide), if_true, value_indent, hx,
      Option.bind_some, hxs, Option.map_some]

theorem members_textMembers : ∀ (j k n : Nat) (ms : List (JsString × Value ν)) (r : JsString),
    (textMembers F k ms).length < n →
    members F n (textMembers F k ms ++ (indent j ++ 0x7D :: r)) = some (settleMembers F ms, r)
  | j, k, n + 1, [], r, _ => by
    rw [members, textMembers, settleMembers, List.nil_append, skipWs_indent, skipWs_cons (by decide)]
    rfl
  | j, k, n + 1, (key, v) :: ms, r, hn => by
    rw [members, textMembers, settleMembers]
    simp only [textMembers, List.length_cons, List.length_append] at hn
    have hv := value_textAt k n v (textMembers F k ms ++ (indent j ++ 0x7D :: r)) (by omega)
      (stops_textMembers _ ms (stops_indent j _))
    have hms := members_textMembers j k n ms r (by omega)
    rw [List.cons_append, skipWs_cons (by decide)]
    simp only [List.cons_append, List.append_assoc, List.nil_append, if_neg (show (0x2C : UInt16) ≠ 0x7D by decide),
      if_true, name_indent_quote, Option.bind_some, colon_append, value_space, hv, hms, Option.map_some]

end

theorem settleElements_eq (F : NumberFormat ν) (xs : List (Value ν)) : settleElements F xs = xs.map (settle F) := by
  induction xs with
  | nil => rw [settleElements, List.map_nil]
  | cons x xs ih => rw [settleElements, ih, List.map_cons]

theorem settleMembers_eq (F : NumberFormat ν) (ms : List (JsString × Value ν)) :
    settleMembers F ms = ms.map fun m => (m.1, settle F m.2) := by
  induction ms with
  | nil => rw [settleMembers, List.map_nil]
  | cons m ms ih =>
    obtain ⟨key, v⟩ := m
    rw [settleMembers, ih, List.map_cons]

theorem get?_settle (F : NumberFormat ν) (key : JsString) (v : Value ν) :
    (settle F v).get? key = (v.get? key).map (settle F) := by
  rcases v with _ | b | x | s | xs | ms
  · rw [settle]
    rfl
  · rw [settle]
    rfl
  · rw [settle]
    split
    · rfl
    · rfl
  · rw [settle]
    rfl
  · rw [settle]
    rfl
  · rw [settle, settleMembers_eq, Value.get?, Value.get?, ← List.map_reverse, List.find?_map, Option.map_map,
      Option.map_map]
    rfl

/-- In an object whose names differ every member is found under its name. -/
theorem get?_of_mem {ms : List (JsString × Value ν)} (hms : (ms.map Prod.fst).Nodup) {key : JsString} {v : Value ν}
    (h : (key, v) ∈ ms) : (Value.obj ms).get? key = some v := by
  obtain ⟨e, he⟩ := Option.isSome_iff_exists.1
    (List.find?_isSome (p := fun e : JsString × Value ν => decide (e.1 = key)) |>.2
      ⟨(key, v), List.mem_reverse.2 h, by simp⟩)
  have hkey : e.1 = key := by simpa using List.find?_some he
  have hmem : e ∈ ms := List.mem_reverse.1 (List.mem_of_find?_eq_some he)
  obtain rfl : e = (key, v) := List.inj_on_of_nodup_map hms hmem h hkey
  rw [Value.get?, he]
  rfl

/-- `JSON.parse` of a written text that ends its line. -/
theorem parse_text (v : Value ν) : parse F (text F v ++ [0x0A]) = some (settle F v) := by
  rw [parse, text, value_textAt 0 _ v [0x0A] (by rw [List.length_append]; omega) (stops_cons (by decide))]
  rfl

end RoundTrip

section Decimal

/-- The decimal digits of a number, the last one first. -/
def decimalDigits (n : Nat) : JsString :=
  if n = 0 then [0x30] else ((Nat.digits 10 n).reverse.map fun d => UInt16.ofNat (0x30 + d))

def readDecimal (s : JsString) : Nat := Nat.ofDigits 10 (s.reverse.map fun c => c.toNat - 0x30)

theorem toNat_digit {d : Nat} (hd : d < 10) : (UInt16.ofNat (0x30 + d)).toNat = 0x30 + d :=
  UInt16.toNat_ofNat_of_lt' (by show _ < 2 ^ 16; omega)

theorem isDigit_digit {d : Nat} (hd : d < 10) : isDigit (UInt16.ofNat (0x30 + d)) = true := by
  rw [isDigit, toNat_digit hd, Bool.and_eq_true, decide_eq_true_eq, decide_eq_true_eq]
  omega

theorem isNumber_of_digits (hhead : c ≠ 0x30) (hall : ∀ d ∈ c :: s, isDigit d = true) : isNumber (c :: s) := by
  have hc := hall c List.mem_cons_self
  have hminus : c ≠ 0x2D := by
    rintro rfl
    exact absurd hc (by decide)
  have hrest : s.dropWhile isDigit = [] :=
    List.dropWhile_eq_nil_iff.2 fun d hd => hall d (List.mem_cons_of_mem c hd)
  have hnumeric : (c :: s).all isNumeric = true := by
    rw [List.all_eq_true]
    intro d hd
    rw [isNumeric, hall d hd, Bool.true_or]
  rw [isNumber, hnumeric, Bool.true_and]
  simp [minus, hminus, integerPart, hhead, digits, hc, hrest, fractionPart, exponentPart]

theorem isNumber_decimalDigits (n : Nat) : isNumber (decimalDigits n) := by
  unfold decimalDigits
  split_ifs with hn
  · decide
  · have hne : (Nat.digits 10 n).reverse ≠ [] := by
      simpa only [ne_eq, List.reverse_eq_nil_iff, Nat.digits_eq_nil_iff_eq_zero] using hn
    obtain ⟨d, ds, hds⟩ := List.exists_cons_of_ne_nil hne
    have hlt : ∀ m ∈ d :: ds, m < 10 := fun m hm =>
      Nat.digits_lt_base (by omega) (List.mem_reverse.1 (hds ▸ hm))
    have hhead : d ≠ 0 := by
      have hlast := Nat.getLast_digit_ne_zero 10 hn
      have hd : (Nat.digits 10 n).getLast (Nat.digits_ne_nil_iff_ne_zero.2 hn) = d := by
        rw [List.getLast_eq_head_reverse]
        simp only [hds, List.head_cons]
      rwa [hd] at hlast
    rw [hds, List.map_cons]
    refine isNumber_of_digits (fun h => hhead ?_) fun u hu => ?_
    · have htoNat := congrArg UInt16.toNat h
      rw [toNat_digit (hlt d List.mem_cons_self)] at htoNat
      have : (0x30 : UInt16).toNat = 0x30 := rfl
      omega
    · rw [← List.map_cons (f := fun d => UInt16.ofNat (0x30 + d))] at hu
      obtain ⟨m, hm, rfl⟩ := List.mem_map.1 hu
      exact isDigit_digit (hlt m hm)

theorem readDecimal_decimalDigits (n : Nat) : readDecimal (decimalDigits n) = n := by
  unfold decimalDigits readDecimal
  split_ifs with hn
  · rw [hn]
    rfl
  · rw [← List.map_reverse, List.reverse_reverse, List.map_map]
    have hid : (Nat.digits 10 n).map ((fun c : UInt16 => c.toNat - 0x30) ∘ fun d => UInt16.ofNat (0x30 + d)) =
        (Nat.digits 10 n).map id := by
      refine List.map_congr_left fun d hd => ?_
      rw [Function.comp_apply, toNat_digit (Nat.digits_lt_base (by omega) hd), id]
      omega
    rw [hid, List.map_id, Nat.ofDigits_digits]

/-- Whole numbers. -/
def decimal : NumberFormat Nat where
  text := decimalDigits
  read := readDecimal
  finite _ := true
  ofNat n := n
  isNumber_text n _ := isNumber_decimalDigits n
  read_text n _ := readDecimal_decimalDigits n
  finite_ofNat _ := rfl

end Decimal

end Json
