import Mathlib.Data.List.Find
import Mathlib.Data.List.Sort
import Mathlib.Data.Finset.Max
import Mathlib.Order.Defs.LinearOrder

/-!
# The newest of a history

`newest` picks the first entry that none is later than. A stable sort by descending time followed by a search is the
same choice among the entries that the search is for.
-/

namespace History

variable {α β : Type} [LinearOrder β] (key : α → β)

/-- The first of the latest entries. -/
def newest (l : List α) : Option α := l.find? fun a => l.all fun b => key b ≤ key a

/-- A stable sort, the latest first. -/
def byNewest (l : List α) : List α := l.insertionSort fun a b => key b ≤ key a

variable {key} {l : List α} {a b : α}

@[simp] theorem newest_nil : newest key [] = none := rfl

theorem mem_of_newest (h : newest key l = some a) : a ∈ l := List.mem_of_find?_eq_some h

theorem le_newest (h : newest key l = some a) (hb : b ∈ l) : key b ≤ key a := by
  have hall := List.find?_some (p := fun a => l.all fun b => decide (key b ≤ key a)) h
  exact of_decide_eq_true (List.all_eq_true.1 hall b hb)

theorem exists_newest (key : α → β) (h : l ≠ []) : ∃ a, newest key l = some a := by
  classical
  obtain ⟨a, ha, hmax⟩ := l.toFinset.exists_max_image key ((List.toFinset_nonempty_iff l).2 h)
  refine Option.isSome_iff_exists.1 (List.find?_isSome.2 ⟨a, List.mem_toFinset.1 ha, ?_⟩)
  exact List.all_eq_true.2 fun b hb => decide_eq_true (hmax b (List.mem_toFinset.2 hb))

theorem newest_eq_none : newest key l = none ↔ l = [] := by
  constructor
  · intro h
    by_contra hne
    obtain ⟨a, ha⟩ := exists_newest key hne
    rw [h] at ha
    cases ha
  · rintro rfl
    rfl

/-- An entry in front is the newest if none of the others is later. -/
theorem newest_cons_of_le (h : ∀ b ∈ l, key b ≤ key a) : newest key (a :: l) = some a := by
  refine List.find?_cons_of_pos (List.all_eq_true.2 fun b hb => decide_eq_true ?_)
  rcases List.mem_cons.1 hb with rfl | hb
  · exact le_rfl
  · exact h b hb

theorem newest_cons_of_lt (h : newest key l = some b) (hlt : key a < key b) : newest key (a :: l) = some b := by
  have hb : b ∈ l := mem_of_newest h
  rw [newest, List.find?_cons_of_neg, ← h, newest]
  · refine List.find?_congr fun x hx => ?_
    rw [List.all_cons, Bool.and_eq_right_iff_imp]
    intro hall
    have hbx : key b ≤ key x := of_decide_eq_true (List.all_eq_true.1 hall b hb)
    exact decide_eq_true (hlt.le.trans hbx)
  · intro hall
    have hba : key b ≤ key a := of_decide_eq_true (List.all_eq_true.1 hall b (List.mem_cons_of_mem a hb))
    exact absurd hlt (not_lt.2 hba)

/-- Of two entries the later one, the first if neither is later. -/
def later (key : α → β) : Option α → Option α → Option α
  | none, y => y
  | some a, none => some a
  | some a, some b => if key b ≤ key a then some a else some b

theorem newest_cons (a : α) (l : List α) : newest key (a :: l) = later key (some a) (newest key l) := by
  cases h : newest key l with
  | none => simp [newest_eq_none.1 h, newest, later]
  | some b =>
    rw [later]
    split_ifs with hba
    · exact newest_cons_of_le fun x hx => (le_newest h hx).trans hba
    · exact newest_cons_of_lt h (not_le.1 hba)

theorem later_assoc (x y z : Option α) : later key (later key x y) z = later key x (later key y z) := by
  cases x <;> cases y <;> cases z <;> grind [later]

theorem newest_append (l l' : List α) : newest key (l ++ l') = later key (newest key l) (newest key l') := by
  induction l with
  | nil => rfl
  | cons a l ih => rw [List.cons_append, newest_cons, newest_cons, ih, later_assoc]

theorem newest_map {γ : Type} (key : α → β) (f : γ → α) (l : List γ) :
    newest key (l.map f) = (newest (fun c => key (f c)) l).map f := by
  simp only [newest, List.find?_map, List.all_map, Function.comp_def]

/-- Where entries come in groups of one time each, the first of every group is enough. -/
theorem newest_flatMap {γ : Type} {f : γ → List α} {time : γ → β} (h : ∀ c, ∀ a ∈ f c, key a = time c) (l : List γ) :
    newest key (l.flatMap f) = newest key (l.filterMap fun c => (f c).head?) := by
  have hgroup (c : γ) : newest key (f c) = (f c).head? := by
    have hc := h c
    generalize f c = g at hc ⊢
    cases g with
    | nil => rfl
    | cons a g =>
      refine newest_cons_of_le fun b hb => ?_
      rw [hc b (List.mem_cons_of_mem a hb), hc a (List.mem_cons_self ..)]
  induction l with
  | nil => rfl
  | cons c l ih =>
    rw [List.flatMap_cons, newest_append, hgroup c, ih, List.filterMap_cons]
    cases (f c).head? with
    | none => rfl
    | some a => exact (newest_cons a _).symm

/-- A part of a history that has its newest entry has the same newest entry. -/
theorem newest_sublist {l' : List α} (hs : l'.Sublist l) (hn : l.Nodup) (h : newest key l = some a) (ha : a ∈ l') :
    newest key l' = some a := by
  induction hs with
  | slnil => cases ha
  | @cons l' l x hs ih =>
    obtain ⟨hx, hn⟩ := List.nodup_cons.1 hn
    have hal : a ∈ l := hs.subset ha
    refine ih hn ?_ ha
    obtain ⟨b, hb⟩ := exists_newest key (List.ne_nil_of_mem hal)
    rw [newest_cons, hb, later] at h
    split_ifs at h with hbx
    · cases h
      exact absurd hal hx
    · rw [hb, h]
  | @cons_cons l' l x hs ih =>
    obtain ⟨hx, hn⟩ := List.nodup_cons.1 hn
    by_cases hle : ∀ b ∈ l, key b ≤ key x
    · rw [newest_cons_of_le hle] at h
      rw [newest_cons_of_le fun b hb => hle b (hs.subset hb), h]
    · push Not at hle
      obtain ⟨c, hc, hxc⟩ := hle
      obtain ⟨b, hb⟩ := exists_newest key (List.ne_nil_of_mem hc)
      have hlt : key x < key b := hxc.trans_le (le_newest hb hc)
      rw [newest_cons_of_lt hb hlt] at h
      cases h
      have hne : a ≠ x := fun heq => hlt.ne (by rw [heq])
      have hmem : a ∈ l' := (List.mem_cons.1 ha).resolve_left hne
      exact newest_cons_of_lt (ih hn hb hmem) hlt

/-- The newest entry of the preferred kind, of the other kind when there is none. -/
def preferred (key : α → β) (p q : α → Bool) (l : List α) : Option α :=
  (newest key (l.filter p)).or (newest key (l.filter q))

theorem mem_of_preferred {p q : α → Bool} (h : preferred key p q l = some a) : a ∈ l := by
  rcases Option.or_eq_some_iff.1 h with h | ⟨-, h⟩
  · exact List.mem_of_mem_filter (mem_of_newest h)
  · exact List.mem_of_mem_filter (mem_of_newest h)

/-- A part of a history gives the entry that the whole gives just when it has that entry. -/
theorem preferred_sublist {p q : α → Bool} {l' : List α} (hs : l'.Sublist l) (hn : l.Nodup) :
    preferred key p q l' = preferred key p q l ↔ ∀ a ∈ preferred key p q l, a ∈ l' := by
  constructor
  · intro h a ha
    exact mem_of_preferred (h.trans ha)
  · intro h
    have hpart {r : α → Bool} : ∀ a ∈ newest key (l.filter r), a ∈ l' → newest key (l'.filter r) = some a := by
      intro a ha hmem
      refine newest_sublist (hs.filter r) (hn.filter r) ha (List.mem_filter.2 ⟨hmem, ?_⟩)
      exact (List.mem_filter.1 (mem_of_newest ha)).2
    have hnone {r : α → Bool} (hr : newest key (l.filter r) = none) : newest key (l'.filter r) = none :=
      newest_eq_none.2 (List.sublist_nil.1 (newest_eq_none.1 hr ▸ hs.filter r))
    unfold preferred at h ⊢
    cases hp : newest key (l.filter p) with
    | some a => rw [hpart a hp (h a (by simp [hp])), Option.some_or, Option.some_or]
    | none =>
      rw [hnone hp, Option.none_or, Option.none_or]
      cases hq : newest key (l.filter q) with
      | some a => exact hpart a hq (h a (by simp [hp, hq]))
      | none => exact hnone hq

/-! ### Sorting -/

theorem pairwise_byNewest (l : List α) : (byNewest key l).Pairwise fun a b => key b ≤ key a := by
  have : Std.Total fun a b => key b ≤ key a := ⟨fun a b => le_total (key b) (key a)⟩
  have : IsTrans α fun a b => key b ≤ key a := ⟨fun a b c hab hbc => hbc.trans hab⟩
  exact List.pairwise_insertionSort _ l

theorem perm_byNewest (l : List α) : (byNewest key l).Perm l := List.perm_insertionSort _ l

/-- Searching a sorted list into which an entry has been inserted: among equals the inserted one comes first. -/
theorem find?_orderedInsert (p : α → Bool) (a : α) {s : List α} (hs : s.Pairwise fun a b => key b ≤ key a) :
    (s.orderedInsert (fun a b => key b ≤ key a) a).find? p =
      if p a then
        match s.find? p with
        | none => some a
        | some b => if key b ≤ key a then some a else some b
      else s.find? p := by
  induction s with
  | nil => cases hp : p a <;> simp [hp]
  | cons c s ih =>
    obtain ⟨hc, hs⟩ := List.pairwise_cons.1 hs
    rw [List.orderedInsert_cons]
    by_cases hca : key c ≤ key a
    · rw [if_pos hca]
      cases hp : p a with
      | false => simp [hp]
      | true =>
        rw [List.find?_cons_of_pos hp]
        cases hf : (c :: s).find? p with
        | none => rfl
        | some b =>
          have hbc : key b ≤ key c := by
            rcases List.mem_cons.1 (List.mem_of_find?_eq_some hf) with rfl | hb
            · exact le_rfl
            · exact hc b hb
          simp [hbc.trans hca]
    · rw [if_neg hca]
      cases hp : p c with
      | true => simp [hp, hca]
      | false => rw [List.find?_cons_of_neg (by simp [hp]), List.find?_cons_of_neg (by simp [hp]), ih hs]

/-- The first hit among the sorted entries is the newest of the hits. -/
theorem find?_byNewest (key : α → β) (p : α → Bool) (l : List α) : (byNewest key l).find? p = newest key (l.filter p) := by
  induction l with
  | nil => rfl
  | cons a l ih =>
    have hsort : byNewest key (a :: l) = (byNewest key l).orderedInsert (fun a b => key b ≤ key a) a := rfl
    rw [hsort, find?_orderedInsert p a (pairwise_byNewest l), ih]
    cases hp : p a with
    | false => rw [List.filter_cons_of_neg (by simp [hp]), if_neg (by decide)]
    | true =>
      rw [List.filter_cons_of_pos hp, if_pos rfl, newest_cons]
      cases newest key (l.filter p) <;> rfl

theorem head?_byNewest (l : List α) : (byNewest key l).head? = newest key l := by
  have h := find?_byNewest key (fun _ => true) l
  rwa [List.filter_true, ← List.head?_filter, List.filter_true] at h

end History
