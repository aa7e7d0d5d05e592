import CronMonitor.Lib.OrderedMap

/-!
# Lists as heaps

Objects are named by their place in a list, which grows at its end. A table of places names each object once, and all of
them, when what it holds are the places of the heap in some order; a sum over the table is then one over the heap.
-/

namespace List

variable {α : Type} {l : List α} {a : α} {i : ℕ}

theorem modify_append_last (f : α → α) : (l ++ [a]).modify l.length f = l ++ [f a] := by
  induction l with
  | nil => rfl
  | cons b l ih => simp [ih]

/-- A sum over a heap in which one object changes. -/
theorem sum_map_modify (h : l[i]? = some a) (f : α → α) (g : α → ℤ) :
    ((l.modify i f).map g).sum = (l.map g).sum + (g (f a) - g a) := by
  induction l generalizing i with
  | nil => cases h
  | cons b l ih =>
    cases i with
    | zero =>
      obtain rfl : b = a := by simpa using h
      simp only [modify_zero_cons, map_cons, sum_cons]
      omega
    | succ i =>
      simp only [modify_succ_cons, map_cons, sum_cons, ih (by simpa using h)]
      omega

theorem map_modify_of_eq {β : Type} {f : α → α} {g : α → β} (h : ∀ a, l[i]? = some a → g (f a) = g a) :
    (l.modify i f).map g = l.map g := by
  refine ext_getElem? fun j => ?_
  rw [getElem?_map, getElem?_map, getElem?_modify]
  split_ifs with hj
  · subst hj
    cases hi : l[i]? with
    | none => rfl
    | some a => exact congrArg some (h a hi)
  · cases l[j]? <;> rfl

/-- Objects change one after the other. -/
def modifyAll (l : List α) (is : List ℕ) (f : α → α) : List α := is.foldl (fun l i => l.modify i f) l

theorem length_modifyAll (is : List ℕ) (f : α → α) (l : List α) : (l.modifyAll is f).length = l.length := by
  induction is generalizing l with
  | nil => rfl
  | cons i is ih => exact (ih (l.modify i f)).trans (length_modify ..)

theorem getElem?_modifyAll {is : List ℕ} (hnodup : is.Nodup) (f : α → α) (l : List α) (j : ℕ) :
    (l.modifyAll is f)[j]? = if j ∈ is then l[j]?.map f else l[j]? := by
  induction is generalizing l with
  | nil => simp [modifyAll]
  | cons i is ih =>
    rw [nodup_cons] at hnodup
    have hstep : l.modifyAll (i :: is) f = (l.modify i f).modifyAll is f := rfl
    rw [hstep, ih hnodup.2]
    by_cases hji : j = i
    · subst hji
      rw [if_neg hnodup.1, if_pos (mem_cons_self ..), getElem?_modify_eq]
      rfl
    · rw [getElem?_modify_ne _ _ (Ne.symm hji)]
      simp [hji]

/-- The same of a change that may be made twice. -/
theorem getElem?_modifyAll_of_idempotent {f : α → α} (hf : ∀ a, f (f a) = f a) (is : List ℕ) (l : List α) (j : ℕ) :
    (l.modifyAll is f)[j]? = if j ∈ is then l[j]?.map f else l[j]? := by
  induction is generalizing l with
  | nil => simp [modifyAll]
  | cons i is ih =>
    have hstep : l.modifyAll (i :: is) f = (l.modify i f).modifyAll is f := rfl
    rw [hstep, ih]
    by_cases hji : j = i
    · subst hji
      have htwice : f ∘ f = f := funext hf
      rw [if_pos (mem_cons_self ..), getElem?_modify_eq, Option.map_eq_map, Option.map_map, htwice, ite_self]
    · rw [getElem?_modify_ne _ _ (Ne.symm hji)]
      simp [hji]

/-- A sum over a heap in which several objects change. -/
theorem sum_map_modifyAll {is : List ℕ} (hnodup : is.Nodup) (f : α → α) (l : List α) (g : α → ℤ) :
    ((l.modifyAll is f).map g).sum =
      (l.map g).sum + (is.map fun i => (l[i]?.map fun a => g (f a) - g a).getD 0).sum := by
  induction is generalizing l with
  | nil => simp [modifyAll]
  | cons i is ih =>
    rw [nodup_cons] at hnodup
    have hstep : l.modifyAll (i :: is) f = (l.modify i f).modifyAll is f := rfl
    have hrest : (is.map fun j => ((l.modify i f)[j]?.map fun a => g (f a) - g a).getD 0) =
        is.map fun j => (l[j]?.map fun a => g (f a) - g a).getD 0 :=
      map_congr_left fun j hj => by
        rw [getElem?_modify_ne _ _ (by rintro rfl; exact hnodup.1 hj)]
    rw [hstep, ih hnodup.2, hrest, map_cons, sum_cons]
    cases hi : l[i]? with
    | none =>
      rw [modify_eq_self (getElem?_eq_none_iff.1 hi)]
      simp
    | some a =>
      rw [sum_map_modify hi]
      simp only [Option.map_some, Option.getD_some]
      omega

/-- The objects that a table of places names. -/
theorem filterMap_getElem?_range : (range l.length).filterMap (l[·]?) = l := by
  induction l using reverseRecOn with
  | nil => rfl
  | append_singleton l a ih =>
    rw [length_append, length_singleton, range_succ, filterMap_append]
    congr 1
    · conv_rhs => rw [← ih]
      refine filterMap_congr fun j hj => ?_
      rw [getElem?_append_left (mem_range.1 hj)]
    · simp

theorem perm_filterMap_getElem? {places : List ℕ} (hnodup : places.Nodup) (h : ∀ j, j ∈ places ↔ j < l.length) :
    (places.filterMap (l[·]?)).Perm l := by
  have hperm : places.Perm (range l.length) :=
    (perm_ext_iff_of_nodup hnodup nodup_range).2 fun j => (h j).trans mem_range.symm
  exact (hperm.filterMap _).trans (.of_eq filterMap_getElem?_range)

/-- A sum over a table that names all objects which count. -/
theorem sum_filterMap_getElem? {places : List ℕ} (hnodup : places.Nodup) (hlt : ∀ j ∈ places, j < l.length) (f : α → ℤ)
    (hf : ∀ j a, l[j]? = some a → j ∉ places → f a = 0) :
    ((places.filterMap (l[·]?)).map f).sum = (l.map f).sum := by
  have hrest : ((((range l.length).filter (· ∉ places)).filterMap (l[·]?)).map f).sum = 0 := by
    refine sum_eq_zero (forall_mem_map.2 fun a ha => ?_)
    obtain ⟨j, hj, hja⟩ := mem_filterMap.1 ha
    exact hf j a hja (by simpa using (mem_filter.1 hj).2)
  have hperm : (places ++ (range l.length).filter (· ∉ places)).Perm (range l.length) := by
    refine (perm_ext_iff_of_nodup (nodup_append.2 ⟨hnodup, nodup_range.filter _, ?_⟩) nodup_range).2 fun j => ?_
    · rintro j hj _ hj' rfl
      exact absurd hj (by simpa using (mem_filter.1 hj').2)
    · rw [mem_append, mem_filter, mem_range]
      by_cases hj : j ∈ places
      · exact iff_of_true (.inl hj) (hlt j hj)
      · simp [hj]
  have hall := ((hperm.filterMap (l[·]?)).map f).sum_eq
  rw [filterMap_getElem?_range, filterMap_append, map_append, sum_append, hrest, add_zero] at hall
  exact hall

end List

namespace OrderedMap

variable {κ ν : Type} [DecidableEq κ] {m : OrderedMap κ ν} {k : κ} {v : ν}

/-- A table that takes a value it has not. -/
theorem nodup_values_set (h : m.values.Nodup) (hv : v ∉ m.values) : (m.set k v).values.Nodup := by
  by_cases hk : k ∈ m.keys
  · have hvalues : (m.set k v).values = m.entries.map fun e => if e.1 = k then v else e.2 := by
      rw [values, set, dif_pos hk, List.map_map]
      refine List.map_congr_left fun e _ => ?_
      simp only [Function.comp]
      split_ifs <;> rfl
    rw [hvalues]
    refine List.Nodup.map_on ?_ (List.Nodup.of_map Prod.fst m.nodup)
    intro e he e' he' heq
    have hmem (e : κ × ν) (he : e ∈ m.entries) : e.2 ≠ v := fun h => hv (h ▸ List.mem_map_of_mem he)
    split_ifs at heq with h₁ h₂ h₂
    · exact List.inj_on_of_nodup_map m.nodup he he' (h₁.trans h₂.symm)
    · exact absurd heq.symm (hmem e' he')
    · exact absurd heq (hmem e he)
    · exact List.inj_on_of_nodup_map h he he' heq
  · rw [values_set_of_absent (get?_eq_none_iff.2 hk)]
    exact List.nodup_append.2 ⟨h, List.nodup_singleton v, fun a ha b hb => by
      rintro rfl
      exact hv (List.mem_singleton.1 hb ▸ ha)⟩

end OrderedMap
