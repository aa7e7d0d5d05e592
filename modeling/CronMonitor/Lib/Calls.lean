import Mathlib.Tactic

/-!
# A list of suspended calls

A system steps one of its calls at a time: the `i`-th entry of a list is replaced. What holds of every entry and
how many entries satisfy a predicate change by that entry alone.
-/

namespace List

variable {α : Type*} {l : List α} {i : Nat} {a b : α}

theorem forall_mem_set {P Q : α → Prop} (h : ∀ x ∈ l, P x) (hmono : ∀ x, P x → Q x) (hb : Q b) :
    ∀ x ∈ l.set i b, Q x := by
  intro x hx
  rcases List.mem_or_eq_of_mem_set hx with hx | rfl
  · exact hmono x (h x hx)
  · exact hb

theorem forall_mem_concat {P Q : α → Prop} (h : ∀ x ∈ l, P x) (hmono : ∀ x, P x → Q x) (hb : Q b) :
    ∀ x ∈ l ++ [b], Q x := by
  intro x hx
  rcases List.mem_append.1 hx with hx | hx
  · exact hmono x (h x hx)
  · rw [List.mem_singleton.1 hx]
    exact hb

/-- Replacing the `i`-th entry moves the count by what that entry counted before and counts now. -/
theorem countP_set_add (p : α → Bool) (hi : l[i]? = some a) :
    (l.set i b).countP p + (if p a then 1 else 0) = l.countP p + (if p b then 1 else 0) := by
  obtain ⟨hlt, hget⟩ := List.getElem?_eq_some_iff.1 hi
  have hpos : (if p a then 1 else 0) ≤ l.countP p := by
    split
    · rename_i hp
      exact List.countP_pos_iff.2 ⟨a, hget ▸ List.getElem_mem hlt, hp⟩
    · exact Nat.zero_le _
  rw [List.countP_set hlt, hget]
  omega

/-- The same for what the entries add up to. -/
theorem sum_map_set_add (f : α → Nat) (hi : l[i]? = some a) :
    ((l.set i b).map f).sum + f a = (l.map f).sum + f b := by
  induction l generalizing i with
  | nil => simp at hi
  | cons x l ih =>
    cases i with
    | zero =>
      obtain rfl : x = a := by simpa using hi
      simp only [List.set_cons_zero, List.map_cons, List.sum_cons]
      omega
    | succ i =>
      have ih := ih (i := i) (by simpa using hi)
      simp only [List.set_cons_succ, List.map_cons, List.sum_cons]
      omega

/-! ### Predicates of at most one entry -/

/-- At most one entry satisfies `p`. -/
def AtMostOne (p : α → Prop) (l : List α) : Prop :=
  ∀ (i j : Nat) a b, l[i]? = some a → l[j]? = some b → p a → p b → i = j

variable {p : α → Prop}

theorem getElem?_set_cases {j : Nat} {c : α} (h : (l.set i b)[j]? = some c) :
    i = j ∧ c = b ∨ i ≠ j ∧ l[j]? = some c := by
  rw [List.getElem?_set] at h
  split at h
  · rename_i hij
    split at h
    · exact .inl ⟨hij, (Option.some.inj h).symm⟩
    · cases h
  · exact .inr ⟨‹_›, h⟩

/-- The entries that are not the replaced one stay. -/
theorem mem_set_of_ne {x : α} (hx : x ∈ l) (hi : l[i]? = some a) (hne : x ≠ a) : x ∈ l.set i b := by
  obtain ⟨j, hj⟩ := List.mem_iff_getElem?.1 hx
  refine List.mem_iff_getElem?.2 ⟨j, ?_⟩
  rw [List.getElem?_set_ne]
  · exact hj
  · rintro rfl
    exact hne (Option.some.inj (hj.symm.trans hi))

theorem getElem?_concat_cases {j : Nat} {c : α} (h : (l ++ [b])[j]? = some c) :
    l[j]? = some c ∨ j = l.length ∧ c = b := by
  rcases Nat.lt_or_ge j l.length with hj | hj
  · rw [List.getElem?_append_left hj] at h
    exact .inl h
  · rw [List.getElem?_append_right hj, List.getElem?_singleton] at h
    split at h
    · exact .inr ⟨by omega, (Option.some.inj h).symm⟩
    · cases h

theorem getElem?_concat_iff {j : Nat} {c : α} (hne : c ≠ b) : (l ++ [b])[j]? = some c ↔ l[j]? = some c := by
  constructor
  · intro h
    exact (getElem?_concat_cases h).resolve_right fun hb => hne hb.2
  · intro h
    rw [List.getElem?_append_left (List.getElem?_eq_some_iff.1 h).1]
    exact h

theorem AtMostOne.append (h : AtMostOne p l) (hb : ¬ p b) : AtMostOne p (l ++ [b]) := by
  have hne : ∀ c, p c → c ≠ b := fun c hc hcb => hb (hcb ▸ hc)
  intro i j c d hc hd hpc hpd
  exact h i j c d ((getElem?_concat_iff (hne c hpc)).1 hc) ((getElem?_concat_iff (hne d hpd)).1 hd) hpc hpd

/-- The entry that is replaced satisfied `p`, or the new one does not, or none did. -/
theorem AtMostOne.set (h : AtMostOne p l) (hi : l[i]? = some a) (hb : p b → p a ∨ ∀ x ∈ l, ¬ p x) :
    AtMostOne p (l.set i b) := by
  have hother : ∀ (j : Nat) c, l[j]? = some c → p c → p b → i = j := by
    intro j c hc hpc hpb
    rcases hb hpb with hpa | hnone
    · exact h i j a c hi hc hpa hpc
    · exact absurd hpc (hnone c (List.mem_of_getElem? hc))
  intro j k c d hc hd hpc hpd
  rcases getElem?_set_cases hc with ⟨rfl, rfl⟩ | ⟨-, hc'⟩ <;> rcases getElem?_set_cases hd with ⟨rfl, rfl⟩ | ⟨-, hd'⟩
  · rfl
  · exact hother k d hd' hpd hpc
  · exact (hother j c hc' hpc hpd).symm
  · exact h j k c d hc' hd' hpc hpd

/-- The one entry that satisfies `p` is replaced. -/
theorem AtMostOne.eq_of_mem_set (h : AtMostOne p l) (hi : l[i]? = some a) (hpa : p a) {c : α} (hc : c ∈ l.set i b)
    (hpc : p c) : c = b := by
  obtain ⟨j, hj⟩ := List.mem_iff_getElem?.1 hc
  rcases getElem?_set_cases hj with ⟨-, rfl⟩ | ⟨hne, hj⟩
  · rfl
  · exact absurd (h i j a c hi hj hpa hpc) hne

end List
