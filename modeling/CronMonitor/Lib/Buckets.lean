import Mathlib.Data.List.Sort
import CronMonitor.Lib.OrderedMap

/-!
# Counted buckets

A list kept as the number of times each value occurs. `expand` writes the counts out again; in the order of the values
that is the sorted list (`expand_sorted`), whatever order the values came in.
-/

namespace Buckets

variable {κ : Type} {es : List (κ × ℕ)}

def expand (es : List (κ × ℕ)) : List κ := es.flatMap fun e => List.replicate e.2 e.1

theorem expand_cons (i : κ) (n : ℕ) : expand ((i, n) :: es) = List.replicate n i ++ expand es := List.flatMap_cons

variable [LinearOrder κ] {is : List κ}

/-- One more of `i`. -/
def bump (m : OrderedMap κ ℕ) (i : κ) : OrderedMap κ ℕ := m.set i ((m.get? i).getD 0 + 1)

def tally (is : List κ) : OrderedMap κ ℕ := is.foldl bump .empty

theorem getD_bump (m : OrderedMap κ ℕ) (i j : κ) :
    ((bump m i).get? j).getD 0 = (m.get? j).getD 0 + if i = j then 1 else 0 := by
  rw [bump, OrderedMap.get?_set]
  split_ifs with h
  · rw [h, Option.getD_some]
  · rw [Nat.add_zero]

theorem getD_foldl_bump (j : κ) : ∀ (is : List κ) (m : OrderedMap κ ℕ),
    ((is.foldl bump m).get? j).getD 0 = (m.get? j).getD 0 + is.count j := by
  intro is
  induction is with
  | nil => exact fun _ => rfl
  | cons i is ih =>
    intro m
    rw [List.foldl_cons, ih, getD_bump, List.count_cons]
    by_cases h : i = j
    · simp only [h, if_true, beq_self_eq_true]
      omega
    · simp [h]

/-- A bucket has the number of times its value occurs. -/
theorem getD_tally (j : κ) : ((tally is).get? j).getD 0 = is.count j := by
  rw [tally, getD_foldl_bump, OrderedMap.get?_empty, Option.getD_none, Nat.zero_add]

theorem count_expand (hes : (es.map Prod.fst).Nodup) (j : κ) :
    (expand es).count j = ((es.find? (·.1 = j)).map Prod.snd).getD 0 := by
  induction es with
  | nil => rfl
  | cons e es ih =>
    obtain ⟨i, n⟩ := e
    obtain ⟨hnew, hes⟩ := List.nodup_cons.1 hes
    rw [expand_cons, List.count_append, List.count_replicate, ih hes, List.find?_cons]
    by_cases h : i = j
    · have hnone : es.find? (·.1 = j) = none :=
        List.find?_eq_none.2 fun e he hej => hnew (List.mem_map.2 ⟨e, he, (of_decide_eq_true hej).trans h.symm⟩)
      simp [h, hnone]
    · simp [h]

theorem expand_perm : (expand (tally is).entries).Perm is :=
  List.perm_iff_count.2 fun j => (count_expand (tally is).nodup j).trans (getD_tally j)

theorem pairwise_expand (hes : es.Pairwise fun a b => a.1 ≤ b.1) : (expand es).Pairwise (· ≤ ·) := by
  induction es with
  | nil => exact .nil
  | cons e es ih =>
    obtain ⟨i, n⟩ := e
    obtain ⟨hi, hes⟩ := List.pairwise_cons.1 hes
    rw [expand_cons, List.pairwise_append]
    refine ⟨List.pairwise_replicate.2 (.inr le_rfl), ih hes, fun a ha b hb => ?_⟩
    obtain ⟨e, he, hbe⟩ := List.mem_flatMap.1 hb
    rw [List.eq_of_mem_replicate ha, List.eq_of_mem_replicate hbe]
    exact hi e he

/-- In order, the buckets are the values in order. -/
theorem expand_sorted :
    expand ((tally is).entries.insertionSort (·.1 ≤ ·.1)) = is.insertionSort (· ≤ ·) := by
  have hperm : (expand ((tally is).entries.insertionSort (·.1 ≤ ·.1))).Perm (expand (tally is).entries) :=
    (List.perm_insertionSort _ _).flatMap_right _
  refine List.Perm.eq_of_pairwise (fun a b _ _ (hab : a ≤ b) (hba : b ≤ a) => le_antisymm hab hba) ?_ (List.pairwise_insertionSort ..) ?_
  · exact pairwise_expand (List.pairwise_insertionSort ..)
  · exact hperm.trans (expand_perm.trans (List.perm_insertionSort _ _).symm)

end Buckets
