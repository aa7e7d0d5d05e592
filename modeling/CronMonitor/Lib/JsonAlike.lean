import CronMonitor.Lib.JsonRoundTrip

/-!
# JSON values up to the order of members

`compact` is `JSON.stringify(v)`. It says which value it has written, with the order of the members and without what a
number that is not finite was. `alike` is equality of JSON values, to which the order is nothing. Two values that are
alike and have one text are the same.
-/

namespace Json
open Utf16

variable {ν : Type} {F : NumberFormat ν} {r s : JsString}

section Text
variable (F : NumberFormat ν)

mutual

/-- `JSON.stringify(v)`. -/
def compact : Value ν → JsString
  | .null => js "null"
  | .bool b => js (if b then "true" else "false")
  | .num x => if F.finite x then F.text x else js "null"
  | .str s => quote s
  | .arr [] => [0x5B, 0x5D]
  | .arr (x :: xs) => 0x5B :: (compact x ++ compactElements xs ++ [0x5D])
  | .obj [] => [0x7B, 0x7D]
  | .obj ((key, v) :: ms) => 0x7B :: (quote key ++ [0x3A] ++ compact v ++ compactMembers ms ++ [0x7D])

def compactElements : List (Value ν) → JsString
  | [] => []
  | x :: xs => 0x2C :: (compact x ++ compactElements xs)

def compactMembers : List (JsString × Value ν) → JsString
  | [] => []
  | (key, v) :: ms => 0x2C :: (quote key ++ [0x3A] ++ compact v ++ compactMembers ms)

end

end Text

/-! ### Reading a compact text -/

theorem stops_compactElements (xs : List (Value ν)) (hr : Stops r) : Stops (compactElements F xs ++ r) := by
  cases xs with
  | nil =>
    rw [compactElements]
    exact hr
  | cons x xs =>
    rw [compactElements]
    exact stops_cons (by decide)

theorem stops_compactMembers (ms : List (JsString × Value ν)) (hr : Stops r) : Stops (compactMembers F ms ++ r) := by
  cases ms with
  | nil =>
    rw [compactMembers]
    exact hr
  | cons m ms =>
    obtain ⟨key, v⟩ := m
    rw [compactMembers]
    exact stops_cons (by decide)

/-- A written value begins with a unit that is neither white space nor a closing bracket. -/
theorem exists_head_compact (F : NumberFormat ν) (v : Value ν) :
    ∃ c t, compact F v = c :: t ∧ isWs c = false ∧ c ≠ 0x5D ∧ c ≠ 0x7D := by
  have lit : ∀ {c : UInt16} {t : JsString}, isWs c = false ∧ c ≠ 0x5D ∧ c ≠ 0x7D →
      ∃ d u, c :: t = d :: u ∧ isWs d = false ∧ d ≠ 0x5D ∧ d ≠ 0x7D := fun h => ⟨_, _, rfl, h⟩
  rcases v with _ | b | x | s | xs | ms
  · rw [compact]
    exact lit (by decide)
  · rw [compact]
    cases b
    · exact lit (by decide)
    · exact lit (by decide)
  · rw [compact]
    split
    · next hx =>
      obtain ⟨c, t, ht, hc⟩ := exists_head_of_isNumber (F.isNumber_text x hx)
      exact ⟨c, t, ht, isWs_of_isNumeric hc, ne_of_isNumeric hc (by decide), ne_of_isNumeric hc (by decide)⟩
    · exact lit (by decide)
  · rw [compact]
    exact lit (by decide)
  · cases xs with
    | nil =>
      rw [compact]
      exact lit (by decide)
    | cons x xs =>
      rw [compact]
      exact lit (by decide)
  · cases ms with
    | nil =>
      rw [compact]
      exact lit (by decide)
    | cons m ms =>
      obtain ⟨key, v⟩ := m
      rw [compact]
      exact lit (by decide)

theorem skipWs_compact (v : Value ν) (r : JsString) : skipWs (compact F v ++ r) = compact F v ++ r := by
  obtain ⟨c, t, ht, hc, -⟩ := exists_head_compact F v
  rw [ht, List.cons_append, skipWs_cons hc]

theorem length_compact_pos (v : Value ν) : 0 < (compact F v).length := by
  obtain ⟨c, t, ht, -⟩ := exists_head_compact F v
  rw [ht]
  exact Nat.succ_pos _

theorem name_quote (key r : JsString) : name (quote key ++ r) = some (key, r) := by
  rw [name, quote, List.cons_append, skipWs_cons (by decide)]
  simp only [if_true]
  rw [List.append_assoc, List.singleton_append, string_quoteBody]

-- The fuel left is at least the length of what is still to be read, so it never runs out.
mutual

theorem value_compact : ∀ (n : Nat) (v : Value ν) (r : JsString), (compact F v).length ≤ n → Stops r →
    value F n (compact F v ++ r) = some (settle F v, r)
  | 0, v, r, hn, _ => absurd (length_compact_pos (F := F) v) (by omega)
  | n + 1, .null, r, hn, hr => by
    rw [value, skipWs_compact, compact, settle]
    exact congrArg (Option.map _) (word_append (js "null") r)
  | n + 1, .bool true, r, hn, hr => by
    rw [value, skipWs_compact, compact, settle]
    exact congrArg (Option.map _) (word_append (js "true") r)
  | n + 1, .bool false, r, hn, hr => by
    rw [value, skipWs_compact, compact, settle]
    exact congrArg (Option.map _) (word_append (js "false") r)
  | n + 1, .num x, r, hn, hr => by
    rw [value, skipWs_compact, compact, settle]
    split_ifs with hx
    · have hnumber := number_text hx hr
      obtain ⟨c, t, ht, hc⟩ := exists_head_of_isNumber (F.isNumber_text x hx)
      rw [ht, List.cons_append] at hnumber ⊢
      simp only [if_neg (ne_of_isNumeric hc (d := 0x22) (by decide)), if_neg (ne_of_isNumeric hc (d := 0x5B) (by decide)),
        if_neg (ne_of_isNumeric hc (d := 0x7B) (by decide)), if_neg (ne_of_isNumeric hc (d := 0x6E) (by decide)),
        if_neg (ne_of_isNumeric hc (d := 0x74) (by decide)), if_neg (ne_of_isNumeric hc (d := 0x66) (by decide))]
      exact hnumber
    · exact congrArg (Option.map _) (word_append (js "null") r)
  | n + 1, .str s, r, hn, hr => by
    rw [value, skipWs_compact, compact, settle, quote]
    simp only [List.cons_append, List.append_assoc, List.nil_append, if_true, string_quoteBody, Option.map_some]
  | n + 1, .arr [], r, hn, hr => by
    rw [value, skipWs_compact, compact, settle, settleElements]
    rfl
  | n + 1, .arr (x :: xs), r, hn, hr => by
    rw [value, skipWs_compact, compact, settle, settleElements]
    simp only [compact, List.length_cons, List.length_append, List.length_nil] at hn
    obtain ⟨c, t, ht, -, hc, -⟩ := exists_head_compact F x
    have hhead : (skipWs (compact F x ++ (compactElements F xs ++ 0x5D :: r))).head? ≠ some 0x5D := by
      rw [skipWs_compact, ht, List.cons_append, List.head?_cons, ne_eq, Option.some.injEq]
      exact hc
    have hx := value_compact n x (compactElements F xs ++ 0x5D :: r) (by omega)
      (stops_compactElements xs (stops_cons (by decide)))
    have hxs := elements_compact n xs r (by omega)
    simp only [List.cons_append, List.append_assoc, List.nil_append, if_neg (show (0x5B : UInt16) ≠ 0x22 by decide),
      if_true, if_neg hhead, hx, Option.bind_some, hxs, Option.map_some]
  | n + 1, .obj [], r, hn, hr => by
    rw [value, skipWs_compact, compact, settle, settleMembers]
    rfl
  | n + 1, .obj ((key, v) :: ms), r, hn, hr => by
    rw [value, skipWs_compact, compact, settle, settleMembers]
    simp only [compact, List.length_cons, List.length_append, List.length_nil] at hn
    have hhead : (skipWs (quote key ++ 0x3A :: (compact F v ++ (compactMembers F ms ++ 0x7D :: r)))).head? ≠
        some 0x7D := by
      rw [quote, List.cons_append, skipWs_cons (by decide), List.head?_cons]
      decide
    have hv := value_compact n v (compactMembers F ms ++ 0x7D :: r) (by omega)
      (stops_compactMembers ms (stops_cons (by decide)))
    have hms := members_compact n ms r (by omega)
    simp only [List.cons_append, List.append_assoc, List.nil_append, if_neg (show (0x7B : UInt16) ≠ 0x22 by decide),
      if_neg (show (0x7B : UInt16) ≠ 0x5B by decide), if_true, if_neg hhead, name_quote, Option.bind_some, colon_append,
      hv, hms, Option.map_some]

theorem elements_compact : ∀ (n : Nat) (xs : List (Value ν)) (r : JsString), (compactElements F xs).length < n →
    elements F n (compactElements F xs ++ 0x5D :: r) = some (settleElements F xs, r)
  | n + 1, [], r, _ => by
    rw [elements, compactElements, settleElements, List.nil_append, skipWs_cons (by decide)]
    rfl
  | n + 1, x :: xs, r, hn => by
    rw [elements, compactElements, settleElements]
    simp only [compactElements, List.length_cons, List.length_append] at hn
    have hx := value_compact n x (compactElements F xs ++ 0x5D :: r) (by omega)
      (stops_compactElements xs (stops_cons (by decide)))
    have hxs := elements_compact n xs r (by omega)
    rw [List.cons_append, skipWs_cons (by decide)]
    simp only [List.append_assoc, if_neg (show (0x2C : UInt16) ≠ 0x5D by decide), if_true, hx, Option.bind_some, hxs,
      Option.map_some]

theorem members_compact : ∀ (n : Nat) (ms : List (JsString × Value ν)) (r : JsString),
    (compactMembers F ms).length < n → members F n (compactMembers F ms ++ 0x7D :: r) = some (settleMembers F ms, r)
  | n + 1, [], r, _ => by
    rw [members, compactMembers, settleMembers, List.nil_append, skipWs_cons (by decide)]
    rfl
  | n + 1, (key, v) :: ms, r, hn => by
    rw [members, compactMembers, settleMembers]
    simp only [compactMembers, List.length_cons, List.length_append] at hn
    have hv := value_compact n v (compactMembers F ms ++ 0x7D :: r) (by omega)
      (stops_compactMembers ms (stops_cons (by decide)))
    have hms := members_compact n ms r (by omega)
    rw [List.cons_append, skipWs_cons (by decide)]
    simp only [List.cons_append, List.append_assoc, List.nil_append, if_neg (show (0x2C : UInt16) ≠ 0x7D by decide),
      if_true, name_quote, Option.bind_some, colon_append, hv, hms, Option.map_some]

end

/-- The text says which value it has written. -/
theorem settle_eq_of_compact_eq {v w : Value ν} (h : compact F v = compact F w) : settle F v = settle F w := by
  have hv := value_compact (F := F) (compact F v).length v [] le_rfl nofun
  have hw := value_compact (F := F) (compact F w).length w [] le_rfl nofun
  rw [h, hw] at hv
  exact (Prod.mk.inj (Option.some.inj hv)).1.symm

/-! ### Equality up to order -/

mutual

/-- In no object two members have one name. -/
def Distinct : Value ν → Prop
  | .arr xs => DistinctElements xs
  | .obj ms => (ms.map Prod.fst).Nodup ∧ DistinctMembers ms
  | _ => True

def DistinctElements : List (Value ν) → Prop
  | [] => True
  | x :: xs => Distinct x ∧ DistinctElements xs

def DistinctMembers : List (JsString × Value ν) → Prop
  | [] => True
  | (_, v) :: ms => Distinct v ∧ DistinctMembers ms

end

/-- What `JSON.parse` returns: a later member replaces an earlier one of its name. -/
abbrev Parsed (ν : Type) := {v : Value ν // Distinct v}

section Alike
variable [DecidableEq ν]

mutual

/-- The same JSON value, whatever the order of the members of its objects. -/
def alike : Value ν → Value ν → Bool
  | .null, .null => true
  | .bool a, .bool b => a = b
  | .num x, .num y => x = y
  | .str s, .str t => s = t
  | .arr xs, .arr ys => alikeElements xs ys
  | .obj ms, .obj ns => ms.length = ns.length && alikeMembers ms ns
  | _, _ => false

def alikeElements : List (Value ν) → List (Value ν) → Bool
  | [], [] => true
  | x :: xs, y :: ys => alike x y && alikeElements xs ys
  | _, _ => false

/-- Each member is one of the object. -/
def alikeMembers : List (JsString × Value ν) → List (JsString × Value ν) → Bool
  | [], _ => true
  | (key, v) :: ms, object => ((Value.obj object).get? key).any (alike v) && alikeMembers ms object

end

mutual

theorem alike_refl : ∀ v : Value ν, Distinct v → alike v v = true
  | .null, _ => rfl
  | .bool _, _ => by simp [alike]
  | .num _, _ => by simp [alike]
  | .str _, _ => by simp [alike]
  | .arr xs, h => by
    rw [alike]
    exact alikeElements_refl xs h
  | .obj ms, h => by
    rw [alike, decide_eq_true rfl, Bool.true_and]
    exact alikeMembers_self ms ms h.2 fun m hm => get?_of_mem h.1 hm

theorem alikeElements_refl : ∀ xs : List (Value ν), DistinctElements xs → alikeElements xs xs = true
  | [], _ => rfl
  | x :: xs, h => by rw [alikeElements, alike_refl x h.1, alikeElements_refl xs h.2, Bool.and_true]

theorem alikeMembers_self : ∀ ms object : List (JsString × Value ν), DistinctMembers ms →
    (∀ m ∈ ms, (Value.obj object).get? m.1 = some m.2) → alikeMembers ms object = true
  | [], _, _, _ => rfl
  | (key, v) :: ms, object, h, hms => by
    rw [alikeMembers, hms (key, v) List.mem_cons_self, Option.any_some, alike_refl v h.1, Bool.true_and]
    exact alikeMembers_self ms object h.2 fun m hm => hms m (List.mem_cons_of_mem _ hm)

end

mutual

/-- Of a value only the order of members and what a number that is not finite was get lost in its text, and the one that
is alike has kept the second. -/
theorem eq_of_alike : ∀ v w : Value ν, Distinct w → alike v w = true → settle F v = settle F w → v = w
  | .null, w, _, h, _ => by
    cases w <;> simp [alike] at h
    rfl
  | .bool a, w, _, h, _ => by
    cases w <;> simp [alike] at h
    rw [h]
  | .num x, w, _, h, _ => by
    cases w <;> simp [alike] at h
    rw [h]
  | .str s, w, _, h, _ => by
    cases w <;> simp [alike] at h
    rw [h]
  | .arr xs, w, hw, h, hs => by
    cases w <;> simp [alike] at h
    rename_i ys
    rw [settle, settle, Value.arr.injEq] at hs
    rw [eq_of_alikeElements xs ys hw h hs]
  | .obj ms, w, hw, h, hs => by
    cases w <;> simp [alike] at h
    rename_i ns
    rw [settle, settle, Value.obj.injEq] at hs
    rw [eq_of_alikeMembers ms ns ns hw.2 (fun m hm => get?_of_mem hw.1 hm) h.2 hs]

theorem eq_of_alikeElements : ∀ xs ys : List (Value ν), DistinctElements ys → alikeElements xs ys = true →
    settleElements F xs = settleElements F ys → xs = ys
  | [], ys, _, h, _ => by cases ys <;> simp [alikeElements] at h; rfl
  | x :: xs, [], _, h, _ => by simp [alikeElements] at h
  | x :: xs, y :: ys, hy, h, hs => by
    rw [alikeElements, Bool.and_eq_true] at h
    rw [settleElements, settleElements, List.cons.injEq] at hs
    rw [eq_of_alike x y hy.1 h.1 hs.1, eq_of_alikeElements xs ys hy.2 h.2 hs.2]

theorem eq_of_alikeMembers : ∀ ms ns object : List (JsString × Value ν), DistinctMembers ns →
    (∀ n ∈ ns, (Value.obj object).get? n.1 = some n.2) → alikeMembers ms object = true →
    settleMembers F ms = settleMembers F ns → ms = ns
  | [], ns, _, _, _, _, hs => by
    cases ns with
    | nil => rfl
    | cons n ns =>
      obtain ⟨key, v⟩ := n
      simp [settleMembers] at hs
  | (key, v) :: ms, [], _, _, _, _, hs => by simp [settleMembers] at hs
  | (key, v) :: ms, (key', w) :: ns, object, hn, hget, h, hs => by
    rw [alikeMembers, Bool.and_eq_true] at h
    simp only [settleMembers, List.cons.injEq, Prod.mk.injEq] at hs
    obtain ⟨⟨rfl, hv⟩, hs⟩ := hs
    rw [hget (key, w) List.mem_cons_self, Option.any_some] at h
    rw [eq_of_alike v w hn.1 h.1 hv, eq_of_alikeMembers ms ns object hn.2
      (fun n hn => hget n (List.mem_cons_of_mem _ hn)) h.2 hs]

end

/-- Values that are alike and have one text list their members in one order. -/
theorem eq_of_alike_of_compact {v w : Value ν} (hw : Distinct w) (h : alike v w = true)
    (hc : compact F v = compact F w) : v = w :=
  eq_of_alike v w hw h (settle_eq_of_compact_eq hc)

end Alike

end Json
