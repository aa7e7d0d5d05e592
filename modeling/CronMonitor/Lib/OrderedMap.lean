import Mathlib.Tactic
import Mathlib.Algebra.BigOperators.Group.List.Basic

/-!
# Maps that remember insertion order

`set` replaces the value of a key in its place and appends a new key at the end, as a JavaScript `Map` does.
The last section is about sums over the values, for tables whose entries stand for amounts.
-/

structure OrderedMap (κ ν : Type) where
  entries : List (κ × ν)
  nodup : (entries.map Prod.fst).Nodup

namespace OrderedMap

variable {κ ν : Type}

def empty : OrderedMap κ ν := ⟨[], List.nodup_nil⟩

def keys (m : OrderedMap κ ν) : List κ := m.entries.map Prod.fst

def values (m : OrderedMap κ ν) : List ν := m.entries.map Prod.snd

def filter (m : OrderedMap κ ν) (p : κ → Bool) : OrderedMap κ ν :=
  ⟨m.entries.filter (p ·.1), m.nodup.sublist (List.filter_sublist.map Prod.fst)⟩

theorem keys_filter {m : OrderedMap κ ν} (p : κ → Bool) : (m.filter p).keys = m.keys.filter p :=
  (List.filter_map (p := p) (f := Prod.fst) (l := m.entries)).symm

variable [DecidableEq κ] {m : OrderedMap κ ν} {k k' : κ} {v v' : ν}

def get? (m : OrderedMap κ ν) (k : κ) : Option ν := (m.entries.find? (·.1 = k)).map Prod.snd

theorem keys_replace (l : List (κ × ν)) (k : κ) (v : ν) :
    (l.map fun e => if e.1 = k then (k, v) else e).map Prod.fst = l.map Prod.fst := by
  rw [List.map_map]
  refine List.map_congr_left fun e _ => ?_
  simp only [Function.comp]
  split_ifs with h
  · exact h.symm
  · rfl

def set (m : OrderedMap κ ν) (k : κ) (v : ν) : OrderedMap κ ν :=
  if h : k ∈ m.keys then
    ⟨m.entries.map fun e => if e.1 = k then (k, v) else e, by rw [keys_replace]; exact m.nodup⟩
  else
    ⟨m.entries ++ [(k, v)], by
      rw [List.map_append, List.nodup_append]
      refine ⟨m.nodup, List.nodup_singleton _, fun a ha b hb => ?_⟩
      rintro rfl
      obtain rfl : a = k := List.mem_singleton.1 hb
      exact h ha⟩

@[simp] theorem get?_empty : (empty : OrderedMap κ ν).get? k = none := rfl

theorem get?_eq_some_iff : m.get? k = some v ↔ (k, v) ∈ m.entries := by
  constructor
  · intro h
    obtain ⟨⟨k', v'⟩, hfind, rfl⟩ := Option.map_eq_some_iff.1 h
    obtain rfl : k' = k := by simpa using List.find?_some hfind
    exact List.mem_of_find?_eq_some hfind
  · intro h
    obtain ⟨e, he⟩ := Option.isSome_iff_exists.1
      (List.find?_isSome (p := fun e : κ × ν => decide (e.1 = k)) |>.2 ⟨(k, v), h, by simp⟩)
    have hk : e.1 = k := by simpa using List.find?_some he
    have heq : e = (k, v) := List.inj_on_of_nodup_map m.nodup (List.mem_of_find?_eq_some he) h hk
    rw [get?, he, heq]
    rfl

theorem get?_filter (p : κ → Bool) (hk : p k = true) : (m.filter p).get? k = m.get? k := by
  ext v
  rw [get?_eq_some_iff, get?_eq_some_iff]
  constructor
  · intro h
    exact (List.mem_filter.1 h).1
  · intro h
    exact List.mem_filter.2 ⟨h, hk⟩

theorem get?_eq_none_iff : m.get? k = none ↔ k ∉ m.keys := by
  simp only [get?, Option.map_eq_none_iff, List.find?_eq_none, decide_eq_true_eq, keys, List.mem_map, not_exists,
    not_and]

theorem mem_keys_iff : k ∈ m.keys ↔ ∃ v, m.get? k = some v := by
  rw [← not_iff_not, ← get?_eq_none_iff, ← Option.isSome_iff_exists, Option.not_isSome_iff_eq_none]

theorem get?_set : (m.set k v).get? k' = if k = k' then some v else m.get? k' := by
  unfold set
  split_ifs with h hk hk
  · subst hk
    obtain ⟨v₀, hv₀⟩ := mem_keys_iff.1 h
    exact get?_eq_some_iff.2 (List.mem_map.2 ⟨(k, v₀), get?_eq_some_iff.1 hv₀, by simp⟩)
  · simp only [get?, List.find?_map, Function.comp_def, Option.map_map]
    have hpred : (fun e : κ × ν => decide ((if e.1 = k then (k, v) else e).1 = k')) =
        fun e => decide (e.1 = k') := by
      funext e
      split_ifs with he
      · simp [he]
      · rfl
    rw [hpred]
    cases hfind : m.entries.find? (fun e => decide (e.1 = k')) with
    | none => rfl
    | some e =>
      have he : e.1 = k' := by simpa using List.find?_some hfind
      have hne : ¬ e.1 = k := fun h => hk (h.symm.trans he)
      simp [hne]
  · subst hk
    exact get?_eq_some_iff.2 (List.mem_append_right _ (List.mem_singleton_self _))
  · simp only [get?, List.find?_append]
    have hlast : List.find? (fun e : κ × ν => decide (e.1 = k')) [(k, v)] = none := by simp [hk]
    rw [hlast, Option.or_none]

theorem set_self : (m.set k v).get? k = some v := by
  rw [get?_set, if_pos rfl]

/-- After a series of assignments the last one to a key counts. -/
theorem get?_foldl_set {β : Type} (key : β → κ) (val : β → ν) (l : List β) (k : κ) :
    (l.foldl (fun m x => m.set (key x) (val x)) empty).get? k = (l.reverse.find? fun x => key x = k).map val := by
  induction l using List.reverseRecOn with
  | nil => rfl
  | append_singleton l x ih =>
    rw [List.foldl_append, List.reverse_append, List.reverse_singleton, List.singleton_append, List.find?_cons]
    simp only [List.foldl_cons, List.foldl_nil, get?_set, ih]
    by_cases h : key x = k
    · simp [h]
    · simp [h]

/-- A new key goes to the end. -/
theorem entries_set_of_absent (h : m.get? k = none) : (m.set k v).entries = m.entries ++ [(k, v)] := by
  rw [set, dif_neg (get?_eq_none_iff.1 h)]

theorem values_set_of_absent (h : m.get? k = none) : (m.set k v).values = m.values ++ [v] := by
  rw [values, entries_set_of_absent h, List.map_append]
  rfl

theorem mem_values_iff : v ∈ m.values ↔ ∃ k, m.get? k = some v := by
  simp only [values, List.mem_map, get?_eq_some_iff]
  constructor
  · rintro ⟨⟨k, v'⟩, he, rfl⟩
    exact ⟨k, he⟩
  · rintro ⟨k, he⟩
    exact ⟨(k, v), he, rfl⟩

theorem keys_set_of_mem (h : k ∈ m.keys) : (m.set k v).keys = m.keys := by
  rw [set, dif_pos h]
  exact keys_replace m.entries k v

theorem keys_set_of_not_mem (h : k ∉ m.keys) : (m.set k v).keys = m.keys ++ [k] := by
  rw [set, dif_neg h, keys, List.map_append]
  rfl

end OrderedMap

/-! ### Sums -/

theorem List.sum_map_replace {κ ν : Type} [DecidableEq κ] {l : List (κ × ν)} (hl : (l.map Prod.fst).Nodup) {k : κ}
    {v v₀ : ν} (hk : (k, v₀) ∈ l) (f : κ × ν → ℕ) :
    ((l.map fun e => if e.1 = k then (k, v) else e).map f).sum + f (k, v₀) = (l.map f).sum + f (k, v) := by
  induction l with
  | nil => cases hk
  | cons e l ih =>
    obtain ⟨hnew, hnodup⟩ := List.nodup_cons.1 hl
    simp only [List.map_cons, List.sum_cons]
    rcases List.mem_cons.1 hk with rfl | hmem
    · have hrest : (l.map fun e => if e.1 = k then (k, v) else e) = l := by
        conv_rhs => rw [← List.map_id l]
        refine List.map_congr_left fun e he => if_neg ?_
        rintro rfl
        exact hnew (List.mem_map.2 ⟨e, he, rfl⟩)
      simp only [if_true, hrest]
      omega
    · have hne : e.1 ≠ k := by
        rintro rfl
        exact hnew (List.mem_map.2 ⟨_, hmem, rfl⟩)
      have := ih hnodup hmem
      simp only [if_neg hne]
      omega

/-- What setting a key adds to a sum over the values. -/
theorem OrderedMap.sum_values_set {κ ν : Type} [DecidableEq κ] (m : OrderedMap κ ν) (k : κ) (v : ν) (f : ν → ℕ) :
    ((m.set k v).values.map f).sum + ((m.get? k).map f).getD 0 = (m.values.map f).sum + f v := by
  cases h : m.get? k with
  | none =>
    rw [values_set_of_absent h, List.map_append, List.sum_append]
    simp
  | some v₀ =>
    have hmem : k ∈ m.keys := mem_keys_iff.2 ⟨v₀, h⟩
    have hsum := List.sum_map_replace (v := v) m.nodup (get?_eq_some_iff.1 h) fun e => f e.2
    simp only [values, set, dif_pos hmem, List.map_map] at hsum ⊢
    exact hsum
