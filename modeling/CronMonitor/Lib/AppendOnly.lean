import Mathlib.Tactic

/-!
# Tables that only grow

A statement inserts rows, updates the rows that match, or deletes them. A trigger looks at every row that an update or a
deletion touches and may let the statement fail; the constraints are looked at when it is over. Where the trigger lets
updates pass along a preorder `R` alone, and no deletion, every row stays in its place and changes along `R`.
-/

namespace AppendOnly

variable {ρ : Type*} {R : ρ → ρ → Prop} {l l' l'' : List ρ}

/-- The rows of `l` are in their places in `l'`, each changed along `R`. -/
def Extends (R : ρ → ρ → Prop) (l l' : List ρ) : Prop :=
  ∀ (i : ℕ) (a : ρ), l[i]? = some a → ∃ b, l'[i]? = some b ∧ R a b

theorem Extends.refl (hR : ∀ a, R a a) (l : List ρ) : Extends R l l := fun _ a h => ⟨a, h, hR a⟩

theorem Extends.trans (hR : ∀ a b c, R a b → R b c → R a c) (h : Extends R l l') (h' : Extends R l' l'') :
    Extends R l l'' := by
  intro i a ha
  obtain ⟨b, hb, hab⟩ := h i a ha
  obtain ⟨c, hc, hbc⟩ := h' i b hb
  exact ⟨c, hc, hR a b c hab hbc⟩

theorem Extends.append (hR : ∀ a, R a a) (l new : List ρ) : Extends R l (l ++ new) := by
  intro i a ha
  refine ⟨a, ?_, hR a⟩
  rw [List.getElem?_append_left (List.getElem?_eq_some_iff.1 ha).1, ha]

theorem Extends.map {f : ρ → ρ} (hf : ∀ a ∈ l, R a (f a)) : Extends R l (l.map f) := by
  intro i a ha
  exact ⟨f a, by rw [List.getElem?_map, ha, Option.map_some], hf a (List.mem_of_getElem? ha)⟩

/-- What is left as it was is a prefix. -/
theorem extends_eq_iff : Extends Eq l l' ↔ l <+: l' := by
  rw [List.prefix_iff_getElem?]
  constructor
  · intro h i hi
    obtain ⟨b, hb, rfl⟩ := h i l[i] (List.getElem?_eq_getElem hi)
    exact hb
  · intro h i a ha
    obtain ⟨hi, rfl⟩ := List.getElem?_eq_some_iff.1 ha
    exact ⟨l[i], h i hi, rfl⟩

/-- A table by its constraints and its triggers: which updates of a row pass, and which deletions. -/
structure Table (ρ : Type*) where
  valid : List ρ → Bool
  update : ρ → ρ → Bool
  delete : ρ → Bool

inductive Statement (ρ : Type*)
  | insert (new : List ρ)
  | update (p : ρ → Bool) (f : ρ → ρ)
  | delete (p : ρ → Bool)

namespace Table

variable {T : Table ρ} {rows rows' : List ρ} {st : Statement ρ}

/-- The rows after a statement, unless it fails. -/
def exec (T : Table ρ) (rows : List ρ) : Statement ρ → Option (List ρ)
  | .insert new => (some (rows ++ new)).filter T.valid
  | .update p f =>
    if ∀ r ∈ rows, p r → T.update r (f r) then
      (some (rows.map fun r => if p r then f r else r)).filter T.valid
    else none
  | .delete p =>
    if ∀ r ∈ rows, p r → T.delete r then (some (rows.filter (!p ·))).filter T.valid else none

theorem exec_valid (h : T.exec rows st = some rows') : T.valid rows' = true := by
  unfold exec at h
  cases st with
  | insert new => exact (Option.filter_eq_some_iff.1 h).2
  | update p f => exact (Option.filter_eq_some_iff.1 (Option.ite_none_right_eq_some.1 h).2).2
  | delete p => exact (Option.filter_eq_some_iff.1 (Option.ite_none_right_eq_some.1 h).2).2

theorem exec_update {p : ρ → Bool} {f : ρ → ρ} (hpass : ∀ r ∈ rows, p r = true → T.update r (f r) = true)
    (hvalid : T.valid (rows.map fun r => if p r then f r else r) = true) :
    T.exec rows (.update p f) = some (rows.map fun r => if p r then f r else r) := by
  unfold exec
  simp only [if_pos hpass]
  exact Option.filter_eq_some_iff.2 ⟨rfl, hvalid⟩

/-- The trigger lets no deletion pass, and updates along a preorder alone. -/
structure Guards (T : Table ρ) (R : ρ → ρ → Prop) : Prop where
  refl : ∀ a, R a a
  trans : ∀ a b c, R a b → R b c → R a c
  update : ∀ a b, T.update a b = true → R a b
  delete : ∀ a, T.delete a = false

theorem Guards.exec (h : T.Guards R) (hexec : T.exec rows st = some rows') : Extends R rows rows' := by
  unfold Table.exec at hexec
  cases st with
  | insert new =>
    obtain ⟨heq, -⟩ := Option.filter_eq_some_iff.1 hexec
    obtain rfl := Option.some.inj heq
    exact .append h.refl rows new
  | update p f =>
    obtain ⟨hpass, hsome⟩ := Option.ite_none_right_eq_some.1 hexec
    obtain ⟨heq, -⟩ := Option.filter_eq_some_iff.1 hsome
    obtain rfl := Option.some.inj heq
    refine .map fun r hr => ?_
    split_ifs with hp
    · exact h.update r (f r) (hpass r hr hp)
    · exact h.refl r
  | delete p =>
    obtain ⟨hpass, hsome⟩ := Option.ite_none_right_eq_some.1 hexec
    obtain ⟨heq, -⟩ := Option.filter_eq_some_iff.1 hsome
    obtain rfl := Option.some.inj heq
    have hkept : rows.filter (!p ·) = rows := by
      refine List.filter_eq_self.2 fun r hr => ?_
      cases hp : p r with
      | false => rfl
      | true =>
        have hdelete := hpass r hr hp
        rw [h.delete r] at hdelete
        cases hdelete
    rw [hkept]
    exact .refl h.refl rows

end Table

end AppendOnly
