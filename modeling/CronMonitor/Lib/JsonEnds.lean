import CronMonitor.Lib.JsonRoundTrip

/-!
# How a JSON text ends

A value ends with a quotation mark, a bracket, a word or a number, and in front of a closing bracket there is white space,
the end of a value or the opening bracket (`value_closing`). A text with anything else there is none (`parse_eq_none`).
-/

namespace Json
open Utf16

variable {ν : Type} {F : NumberFormat ν} {r s : JsString}

/-- The last units of values: those of strings, arrays, objects, words and numbers. -/
def closes (c : UInt16) : Bool := c ∈ [0x22, 0x5D, 0x7D, 0x6C] || isNumeric c

/-- What may stand in front of a closing bracket. -/
def precedes (d : UInt16) : Bool := closes d || isWs d || d = 0x5B

/-- A value has been read up to `r`. -/
def Closing (s r : JsString) : Prop :=
  ∃ w c, s = w ++ c :: r ∧ closes c = true ∧ (c = 0x5D → ∃ d ∈ w.getLast?, precedes d = true)

theorem Closing.of_suffix {s' : JsString} (h : Closing s' r) (hs : s' <:+ s) : Closing s r := by
  obtain ⟨w, c, rfl, hc, hlast⟩ := h
  obtain ⟨u, rfl⟩ := hs
  refine ⟨u ++ w, c, by rw [List.append_assoc], hc, fun hclose => ?_⟩
  obtain ⟨d, hmem, hd⟩ := hlast hclose
  exact ⟨d, by rw [List.getLast?_append, hmem]; rfl, hd⟩

theorem Closing.of_ne {c : UInt16} (h : c :: r <:+ s) (hc : closes c = true) (hne : c ≠ 0x5D) : Closing s r := by
  obtain ⟨w, rfl⟩ := h
  exact ⟨w, c, rfl, hc, fun h => absurd h hne⟩

theorem skipWs_suffix (s : JsString) : skipWs s <:+ s := List.dropWhile_suffix _

theorem rest_of_map {u : UInt16} {t : JsString} (h : (string s).map (fun p => (u :: p.1, p.2)) = some (t, r)) :
    ∃ t', string s = some (t', r) := by
  obtain ⟨⟨t', r'⟩, hs, heq⟩ := Option.map_eq_some_iff.1 h
  obtain ⟨-, rfl⟩ := Prod.mk.inj heq
  exact ⟨t', hs⟩

theorem string_suffix {t : JsString} (h : string s = some (t, r)) : 0x22 :: r <:+ s := by
  fun_induction string s generalizing t with
  | case1 => cases h
  | case2 s =>
    obtain ⟨-, rfl⟩ := Prod.mk.inj (Option.some.inj h)
    exact List.suffix_refl _
  | case3 => cases h
  | case4 a b c d s _ ih =>
    obtain ⟨u, -, hmap⟩ := Option.bind_eq_some_iff.1 h
    obtain ⟨t', hs⟩ := rest_of_map hmap
    exact (ih hs).trans (List.suffix_append [_, _, _, _, _, _] s)
  | case5 => cases h
  | case6 e s _ _ ih =>
    obtain ⟨u, -, hmap⟩ := Option.bind_eq_some_iff.1 h
    obtain ⟨t', hs⟩ := rest_of_map hmap
    exact (ih hs).trans (List.suffix_append [_, _] s)
  | case7 => cases h
  | case8 c s _ _ _ ih =>
    obtain ⟨t', hs⟩ := rest_of_map h
    exact (ih hs).trans (List.suffix_cons c s)

theorem name_suffix {t : JsString} (h : name s = some (t, r)) : r <:+ s := by
  rw [name] at h
  split at h
  · cases h
  · next c s' hs =>
    split_ifs at h
    have hr := (List.suffix_cons _ _).trans (string_suffix h)
    exact (hr.trans (List.suffix_cons c s')).trans (hs ▸ skipWs_suffix s)

theorem colon_suffix (h : colon s = some r) : r <:+ s := by
  rw [colon] at h
  split at h
  · cases h
  · next c s' hs =>
    split_ifs at h
    obtain rfl := Option.some.inj h
    exact (List.suffix_cons c s').trans (hs ▸ skipWs_suffix s)

theorem word_closing {w : JsString} {c : UInt16} (h : word (w ++ [c]) s = some r) (hc : closes c = true)
    (hne : c ≠ 0x5D) : Closing s r := by
  rw [word] at h
  split_ifs at h with hw
  obtain ⟨r', rfl⟩ := List.isPrefixOf_iff_prefix.1 hw
  rw [List.drop_left] at h
  obtain rfl := Option.some.inj h
  exact .of_ne ⟨w, by rw [List.append_assoc, List.singleton_append]⟩ hc hne

theorem number_closing {v : Value ν} (h : number F s = some (v, r)) : Closing s r := by
  rw [number] at h
  split_ifs at h with hnumber
  obtain ⟨-, rfl⟩ := Prod.mk.inj (Option.some.inj h)
  have hne : s.takeWhile isNumeric ≠ [] := by
    obtain ⟨c, t, ht, -⟩ := exists_head_of_isNumber hnumber
    rw [ht]
    exact List.cons_ne_nil _ _
  have hlast : isNumeric ((s.takeWhile isNumeric).getLast hne) = true :=
    List.mem_takeWhile_imp (List.getLast_mem hne)
  refine .of_ne (c := (s.takeWhile isNumeric).getLast hne) ⟨(s.takeWhile isNumeric).dropLast, ?_⟩ ?_
    (ne_of_isNumeric hlast (by decide))
  · rw [← List.singleton_append, ← List.append_assoc, List.dropLast_append_getLast, List.takeWhile_append_dropWhile]
  · rw [closes, hlast, Bool.or_true]

/-- White space or values up to a closing bracket. -/
def Bracket (s r : JsString) : Prop := ∃ w, s = w ++ 0x5D :: r ∧ ∀ d ∈ w.getLast?, precedes d = true

theorem bracket_of_skipWs (h : skipWs s = 0x5D :: r) : Bracket s r := by
  refine ⟨s.takeWhile isWs, ?_, fun d hd => ?_⟩
  · rw [← h]
    exact (List.takeWhile_append_dropWhile ..).symm
  · have hws : isWs d = true := List.mem_takeWhile_imp (List.mem_of_getLast? hd)
    rw [precedes, hws, Bool.or_true, Bool.true_or]

theorem Bracket.closing_cons {d : UInt16} (h : Bracket s r) (hd : precedes d = true) : Closing (d :: s) r := by
  obtain ⟨w, rfl, hw⟩ := h
  refine ⟨d :: w, 0x5D, rfl, by decide, fun _ => ?_⟩
  cases hlast : w.getLast? with
  | none => exact ⟨d, by rw [List.getLast?_eq_none_iff.1 hlast]; rfl, hd⟩
  | some e => exact ⟨e, by rw [List.getLast?_cons, hlast]; rfl, hw e hlast⟩

theorem Closing.bracket {s' : JsString} (h : Closing s' s) (hb : Bracket s r) : Bracket s' r := by
  obtain ⟨w, c, rfl, hc, -⟩ := h
  obtain ⟨w', rfl, hw'⟩ := hb
  refine ⟨w ++ c :: w', by rw [List.append_assoc, List.cons_append], fun d hd => ?_⟩
  rw [List.getLast?_append, List.getLast?_cons, Option.some_or] at hd
  obtain rfl := Option.some.inj hd
  cases hlast : w'.getLast? with
  | none =>
    show precedes c = true
    rw [precedes, hc, Bool.true_or, Bool.true_or]
  | some e => exact hw' e hlast

theorem Closing.suffix (h : Closing s r) : r <:+ s := by
  obtain ⟨w, c, rfl, -⟩ := h
  exact (List.suffix_cons c r).trans (List.suffix_append w _)

theorem skipWs_eq_cons {d : UInt16} (h : (skipWs s).head? = some d) : skipWs s = d :: (skipWs s).tail :=
  (List.cons_head?_tail h).symm

mutual

theorem value_closing : ∀ (n : ℕ) (s : JsString) (v : Value ν) (r : JsString), value F n s = some (v, r) → Closing s r
  | 0, _, _, _, h => by rw [value] at h; cases h
  | n + 1, s, v, r, h => by
    rw [value] at h
    split at h
    · cases h
    · next c s' hs =>
      refine Closing.of_suffix ?_ (hs ▸ skipWs_suffix s)
      split_ifs at h with hquote harr hempty hobj hempty hnull htrue hfalse
      · obtain ⟨⟨t, r'⟩, hstring, heq⟩ := Option.map_eq_some_iff.1 h
        obtain ⟨-, rfl⟩ := Prod.mk.inj heq
        exact .of_ne ((string_suffix hstring).trans (List.suffix_cons c s')) (by decide) (by decide)
      · obtain ⟨-, rfl⟩ := Prod.mk.inj (Option.some.inj h)
        rw [harr]
        exact (bracket_of_skipWs (skipWs_eq_cons hempty)).closing_cons (by decide)
      · obtain ⟨⟨x, s₁⟩, hx, h⟩ := Option.bind_eq_some_iff.1 h
        obtain ⟨⟨xs, r'⟩, hxs, heq⟩ := Option.map_eq_some_iff.1 h
        obtain ⟨-, rfl⟩ := Prod.mk.inj heq
        rw [harr]
        exact ((value_closing n s' x s₁ hx).bracket (elements_bracket n s₁ xs r' hxs)).closing_cons (by decide)
      · obtain ⟨-, rfl⟩ := Prod.mk.inj (Option.some.inj h)
        have hs' : 0x7D :: (skipWs s').tail <:+ s' := skipWs_eq_cons hempty ▸ skipWs_suffix s'
        exact .of_ne (hs'.trans (List.suffix_cons c s')) (by decide) (by decide)
      · obtain ⟨⟨key, s₁⟩, hkey, h⟩ := Option.bind_eq_some_iff.1 h
        obtain ⟨s₂, hcolon, h⟩ := Option.bind_eq_some_iff.1 h
        obtain ⟨⟨x, s₃⟩, hx, h⟩ := Option.bind_eq_some_iff.1 h
        obtain ⟨⟨ms, r'⟩, hms, heq⟩ := Option.map_eq_some_iff.1 h
        obtain ⟨-, rfl⟩ := Prod.mk.inj heq
        have hsuffix := (members_suffix n s₃ ms r' hms).trans (value_closing n s₂ x s₃ hx).suffix
        exact .of_ne (((hsuffix.trans (colon_suffix hcolon)).trans (name_suffix hkey)).trans (List.suffix_cons c s'))
          (by decide) (by decide)
      · obtain ⟨r', hword, heq⟩ := Option.map_eq_some_iff.1 h
        obtain ⟨-, rfl⟩ := Prod.mk.inj heq
        exact word_closing (w := js "nul") (c := 0x6C) hword (by decide) (by decide)
      · obtain ⟨r', hword, heq⟩ := Option.map_eq_some_iff.1 h
        obtain ⟨-, rfl⟩ := Prod.mk.inj heq
        exact word_closing (w := js "tru") (c := 0x65) hword (by decide) (by decide)
      · obtain ⟨r', hword, heq⟩ := Option.map_eq_some_iff.1 h
        obtain ⟨-, rfl⟩ := Prod.mk.inj heq
        exact word_closing (w := js "fals") (c := 0x65) hword (by decide) (by decide)
      · exact number_closing h

theorem elements_bracket : ∀ (n : ℕ) (s : JsString) (xs : List (Value ν)) (r : JsString),
    elements F n s = some (xs, r) → Bracket s r
  | 0, _, _, _, h => by rw [elements] at h; cases h
  | n + 1, s, xs, r, h => by
    rw [elements] at h
    split at h
    · cases h
    · next c s' hs =>
      split_ifs at h with hclose hcomma
      · obtain ⟨-, rfl⟩ := Prod.mk.inj (Option.some.inj h)
        exact bracket_of_skipWs (hs.trans (by rw [hclose]))
      · obtain ⟨⟨x, s₁⟩, hx, h⟩ := Option.bind_eq_some_iff.1 h
        obtain ⟨⟨xs', r'⟩, hxs, heq⟩ := Option.map_eq_some_iff.1 h
        obtain ⟨-, rfl⟩ := Prod.mk.inj heq
        have hsuffix : s' <:+ s := (List.suffix_cons c s').trans (hs ▸ skipWs_suffix s)
        exact ((value_closing n s' x s₁ hx).of_suffix hsuffix).bracket (elements_bracket n s₁ xs' r' hxs)

theorem members_suffix : ∀ (n : ℕ) (s : JsString) (ms : List (JsString × Value ν)) (r : JsString),
    members F n s = some (ms, r) → 0x7D :: r <:+ s
  | 0, _, _, _, h => by rw [members] at h; cases h
  | n + 1, s, ms, r, h => by
    rw [members] at h
    split at h
    · cases h
    · next c s' hs =>
      have hsuffix : c :: s' <:+ s := hs ▸ skipWs_suffix s
      split_ifs at h with hclose hcomma
      · obtain ⟨-, rfl⟩ := Prod.mk.inj (Option.some.inj h)
        rwa [hclose] at hsuffix
      · obtain ⟨⟨key, s₁⟩, hkey, h⟩ := Option.bind_eq_some_iff.1 h
        obtain ⟨s₂, hcolon, h⟩ := Option.bind_eq_some_iff.1 h
        obtain ⟨⟨x, s₃⟩, hx, h⟩ := Option.bind_eq_some_iff.1 h
        obtain ⟨⟨ms', r'⟩, hms, heq⟩ := Option.map_eq_some_iff.1 h
        obtain ⟨-, rfl⟩ := Prod.mk.inj heq
        have hvalue := (members_suffix n s₃ ms' r' hms).trans (value_closing n s₂ x s₃ hx).suffix
        exact ((hvalue.trans (colon_suffix hcolon)).trans (name_suffix hkey)).trans
          ((List.suffix_cons c s').trans hsuffix)

end

/-- Nothing but the end of a value, white space or the opening bracket stands in front of the last bracket. -/
theorem parse_eq_none {d : UInt16} (hd : precedes d = false) (s : JsString) : parse F (s ++ [d, 0x5D]) = none := by
  cases h : parse F (s ++ [d, 0x5D]) with
  | none => rfl
  | some v =>
    obtain ⟨⟨v', r⟩, hvalue, hrest⟩ := Option.bind_eq_some_iff.1 h
    split_ifs at hrest with hws
    obtain ⟨w, c, heq, -, hlast⟩ := value_closing _ _ _ _ hvalue
    rcases List.eq_nil_or_concat r with rfl | ⟨r', e, rfl⟩
    · obtain ⟨hw, hc⟩ := List.append_inj' (show (s ++ [d]) ++ [0x5D] = w ++ [c] by rw [← heq]; simp) rfl
      obtain ⟨d', hmem, hd'⟩ := hlast (List.singleton_inj.1 hc).symm
      rw [← hw, List.getLast?_concat] at hmem
      obtain rfl := Option.some.inj hmem
      rw [hd] at hd'
      cases hd'
    · have hall : ∀ x ∈ r'.concat e, isWs x = true := List.dropWhile_eq_nil_iff.1 hws
      have hlast := congrArg List.getLast? heq
      simp only [List.concat_eq_append, List.getLast?_append, List.getLast?_cons, List.getLast?_nil, Option.some_or,
        Option.getD_some, Option.getD_none, Option.some.injEq] at hlast
      have hws := hall e (by simp)
      rw [← hlast] at hws
      cases hws

end Json
