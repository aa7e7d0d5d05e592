import Mathlib.Tactic
import Mathlib.Data.Set.Card
import Mathlib.Order.Interval.Finset.Basic
import Mathlib.Data.Int.Interval

/-!
# Counting the points of a set of times

`between S a b` are the points of `S` strictly between `a` and `b`; over the integers there are finitely
many. `upTo next limit a b` is the loop that asks `next` for one point after another until one passes `b`
or `limit` points are found. `gaps S a l` adds up the points that the sequence `a :: l` jumps over; when
the sequence increases these are the points up to its last element that it does not visit itself.
-/

namespace Slots

variable {S : Set ℤ} {a b c : ℤ}

/-- The points of `S` strictly between `a` and `b`. -/
def between (S : Set ℤ) (a b : ℤ) : Set ℤ := {x ∈ S | a < x ∧ x < b}

/-- `next t` is the first point of `S` after `t`. -/
def Enumerates (next : ℤ → Option ℤ) (S : Set ℤ) : Prop :=
  ∀ t, ∃ u, next t = some u ∧ IsLeast {x ∈ S | t < x} u

/-- `prev t` is the last point of `S` up to `t`. -/
def Floors (prev : ℤ → Option ℤ) (S : Set ℤ) : Prop :=
  ∀ t, ∃ u, prev t = some u ∧ IsGreatest {x ∈ S | x ≤ t} u

/-- `prev t` is the last point of `S` before `t`. -/
def Precedes (prev : ℤ → Option ℤ) (S : Set ℤ) : Prop :=
  ∀ t, ∃ u, prev t = some u ∧ IsGreatest {x ∈ S | x < t} u

theorem finite_between : (between S a b).Finite :=
  (Set.finite_Ioo a b).subset fun _ hx => ⟨hx.2.1, hx.2.2⟩

theorem between_eq_empty (h : ∀ x ∈ S, a < x → b ≤ x) : between S a b = ∅ := by
  ext x
  simp only [between, Set.mem_ofPred_eq, Set.mem_empty_iff_false, iff_false]
  rintro ⟨hx, hax, hxb⟩
  exact absurd (h x hx hax) (not_le.2 hxb)

/-- The first point after `a`, and the rest after it. -/
theorem ncard_between_of_isLeast (h : IsLeast {x ∈ S | a < x} c) (hcb : c < b) :
    (between S a b).ncard = (between S c b).ncard + 1 := by
  have hsplit : between S a b = insert c (between S c b) := by
    ext x
    simp only [between, Set.mem_ofPred_eq, Set.mem_insert_iff]
    constructor
    · rintro ⟨hx, hax, hxb⟩
      rcases (h.2 ⟨hx, hax⟩).eq_or_lt with rfl | hlt
      · exact Or.inl rfl
      · exact Or.inr ⟨hx, hlt, hxb⟩
    · rintro (rfl | ⟨hx, hcx, hxb⟩)
      · exact ⟨h.1.1, h.1.2, hcb⟩
      · exact ⟨hx, h.1.2.trans hcx, hxb⟩
  have hc : c ∉ between S c b := fun hmem => lt_irrefl c hmem.2.1
  rw [hsplit, Set.ncard_insert_of_notMem hc finite_between]

/-! ### The loop -/

/-- The points after `a` and up to `b`, at most `limit` of them; `none` when `next` fails. -/
def upTo (next : ℤ → Option ℤ) : Nat → ℤ → ℤ → Option (List ℤ)
  | 0, _, _ => some []
  | limit + 1, a, b =>
    match next a with
    | none => none
    | some u => if b < u then some [] else (upTo next limit u b).map (u :: ·)

/-- The loop that may go on until it passes `b - 1` finds every point strictly before `b`. -/
theorem length_upTo {next : ℤ → Option ℤ} (hnext : Enumerates next S) :
    ∀ (limit : Nat) (a b : ℤ), (between S a b).ncard ≤ limit →
      ∃ l, upTo next limit a (b - 1) = some l ∧ l.length = (between S a b).ncard
  | 0, a, b, h => ⟨[], rfl, (Nat.le_zero.1 h).symm⟩
  | limit + 1, a, b, h => by
    obtain ⟨u, hu, hleast⟩ := hnext a
    by_cases hub : b - 1 < u
    · have hempty : between S a b = ∅ :=
        between_eq_empty fun x hx hax => (show b ≤ u by omega).trans (hleast.2 ⟨hx, hax⟩)
      exact ⟨[], by simp [upTo, hu, hub], by simp [hempty]⟩
    · have hcard := ncard_between_of_isLeast hleast (show u < b by omega)
      obtain ⟨l, hl, hlen⟩ := length_upTo hnext limit u b (by omega)
      exact ⟨u :: l, by simp [upTo, hu, hub, hl], by simp [hlen, hcard]⟩

/-! ### Sequences -/

/-- How many points of `S` the sequence `a :: l` jumps over. -/
noncomputable def gaps (S : Set ℤ) : ℤ → List ℤ → Nat
  | _, [] => 0
  | a, b :: l => (between S a b).ncard + gaps S b l

/-- The last element of `a :: l`. -/
def final : ℤ → List ℤ → ℤ
  | a, [] => a
  | _, b :: l => final b l

@[simp] theorem final_append_singleton (l : List ℤ) : final a (l ++ [b]) = b := by
  induction l generalizing a with
  | nil => rfl
  | cons c l ih => exact ih

theorem gaps_append_singleton (l : List ℤ) :
    gaps S a (l ++ [b]) = gaps S a l + (between S (final a l) b).ncard := by
  induction l generalizing a with
  | nil => simp [gaps, final]
  | cons c l ih =>
    rw [List.cons_append, gaps, ih, gaps, final, add_assoc]

theorem le_final_of_mem {l : List ℤ} (h : (a :: l).Pairwise (· < ·)) (hb : b ∈ a :: l) : b ≤ final a l := by
  induction l generalizing a b with
  | nil => exact (List.mem_singleton.1 hb).le
  | cons c l ih =>
    obtain ⟨hac, hl⟩ := List.pairwise_cons.1 h
    rcases List.mem_cons.1 hb with rfl | hb
    · exact (hac c List.mem_cons_self).le.trans (ih hl List.mem_cons_self)
    · exact ih hl hb

/-- An increasing sequence jumps over the points it does not visit, each once. -/
theorem gaps_eq_ncard {l : List ℤ} (h : (a :: l).Pairwise (· < ·)) :
    gaps S a l = {x ∈ between S a (final a l) | x ∉ l}.ncard := by
  induction l generalizing a with
  | nil =>
    have hempty : between S a a = ∅ := by
      ext x
      simp only [between, Set.mem_ofPred_eq, Set.mem_empty_iff_false, iff_false]
      rintro ⟨-, hax, hxa⟩
      exact lt_asymm hax hxa
    simp [gaps, final, hempty]
  | cons b l ih =>
    obtain ⟨hab, hl⟩ := List.pairwise_cons.1 h
    have hlt := hab b List.mem_cons_self
    have hbl := (List.pairwise_cons.1 hl).1
    have hfin := le_final_of_mem hl List.mem_cons_self
    -- the points before `b`, and those after it that the rest jumps over
    have hunion : {x ∈ between S a (final b l) | x ∉ b :: l} =
        between S a b ∪ {x ∈ between S b (final b l) | x ∉ l} := by
      ext x
      simp only [between, Set.mem_ofPred_eq, Set.mem_union, List.mem_cons, not_or]
      constructor
      · rintro ⟨⟨hx, hax, hxf⟩, hxb, hxl⟩
        rcases lt_or_gt_of_ne hxb with hlt | hgt
        · exact Or.inl ⟨hx, hax, hlt⟩
        · exact Or.inr ⟨⟨hx, hgt, hxf⟩, hxl⟩
      · rintro (⟨hx, hax, hxb⟩ | ⟨⟨hx, hbx, hxf⟩, hxl⟩)
        · exact ⟨⟨hx, hax, hxb.trans_le hfin⟩, hxb.ne, fun hmem => lt_asymm hxb (hbl x hmem)⟩
        · exact ⟨⟨hx, hlt.trans hbx, hxf⟩, hbx.ne', hxl⟩
    have hdisj : Disjoint (between S a b) {x ∈ between S b (final b l) | x ∉ l} := by
      rw [Set.disjoint_left]
      intro x hx hx'
      exact lt_asymm hx.2.2 hx'.1.2.1
    rw [gaps, ih hl, final, hunion,
      Set.ncard_union_eq hdisj finite_between (finite_between.subset fun _ hx => hx.1)]

end Slots
