import CronMonitor.Lib.Slots

/-!
# Consecutive points, and patterns of them

`Consecutive S x y`: the points `x` and `y` of `S` have none between them. A `Pattern` lists the points of one period, and
its `points` are these over and over.
-/

namespace Slots

variable {S : Set ℤ} {succ : ℤ → Option ℤ} {t u v x y M : ℤ}

/-- The point `y` comes next after the point `x`. -/
def Consecutive (S : Set ℤ) (x y : ℤ) : Prop := x ∈ S ∧ IsLeast {z ∈ S | x < z} y

/-- The distances between consecutive points up to `t`. -/
def gapsUpTo (S : Set ℤ) (t : ℤ) : Set ℤ := {g | ∃ x y, Consecutive S x y ∧ y ≤ t ∧ g = y - x}

theorem Consecutive.lt (h : Consecutive S x y) : x < y := h.2.1.2

theorem Enumerates.next_eq (h : Enumerates succ S) (hu : IsLeast {z ∈ S | t < z} u) : succ t = some u := by
  obtain ⟨v, hv, hleast⟩ := h t
  rw [hv, hleast.unique hu]

/-! ### Points that recur -/

/-- The points are those of another period. -/
def Recurs (S : Set ℤ) (p : ℕ) : Prop := 0 < p ∧ ∀ x, x ∈ S ↔ x + p ∈ S

theorem Recurs.sub_mul {p : ℕ} (h : Recurs S p) (k : ℕ) (x : ℤ) : x - k * p ∈ S ↔ x ∈ S := by
  induction k with
  | zero => simp
  | succ k ih =>
    rw [← ih, h.2 (x - (k + 1 : ℕ) * p)]
    have hx : x - (k + 1 : ℕ) * p + p = x - k * p := by
      push_cast
      ring
    rw [hx]

theorem Consecutive.sub_mul {p : ℕ} (h : Recurs S p) (hc : Consecutive S x y) (k : ℕ) :
    Consecutive S (x - k * p) (y - k * p) := by
  refine ⟨(h.sub_mul k x).2 hc.1, ⟨(h.sub_mul k y).2 hc.2.1.1, by have := hc.lt; omega⟩, ?_⟩
  rintro z ⟨hz, hxz⟩
  have hmem : z + k * p ∈ S := (h.sub_mul k _).1 (by rwa [add_sub_cancel_right])
  have hle := hc.2.2 ⟨hmem, by omega⟩
  omega

/-- Every gap between points that recur has been seen before. -/
theorem Recurs.gap_le {p : ℕ} (h : Recurs S p) (hM : IsGreatest (gapsUpTo S t) M) (hc : Consecutive S x y) : y - x ≤ M := by
  have hp : (1 : ℤ) ≤ p := by exact_mod_cast h.1
  have hk : y - ((y - t).toNat : ℤ) * p ≤ t := by
    have h1 : (y - t).toNat * 1 ≤ ((y - t).toNat : ℤ) * p := mul_le_mul_of_nonneg_left hp (by positivity)
    omega
  exact hM.2 ⟨_, _, hc.sub_mul h (y - t).toNat, hk, by ring⟩

/-! ### Patterns -/

structure Pattern where
  period : ℕ
  first : ℤ
  rest : List ℤ
  sorted : (first :: rest).Pairwise (· < ·)
  bounds : ∀ o ∈ first :: rest, 0 ≤ o ∧ o < period

namespace Pattern

variable (p : Pattern)

def offsets : List ℤ := p.first :: p.rest

def last : ℤ := p.offsets.getLast (List.cons_ne_nil _ _)

def points : Set ℤ := {x | x % p.period ∈ p.offsets}

def next (t : ℤ) : ℤ :=
  match p.offsets.find? (t % p.period < ·) with
  | some o => t / p.period * p.period + o
  | none => (t / p.period + 1) * p.period + p.first

def prev (t : ℤ) : ℤ :=
  match p.offsets.reverse.find? (· ≤ t % p.period) with
  | some o => t / p.period * p.period + o
  | none => (t / p.period - 1) * p.period + p.last

variable {p} {o : ℤ}

theorem period_pos : (0 : ℤ) < p.period := by
  have h := p.bounds p.first List.mem_cons_self
  omega

theorem mem_points_iff : x ∈ p.points ↔ ∃ q o, o ∈ p.offsets ∧ x = q * p.period + o := by
  constructor
  · intro hx
    exact ⟨x / p.period, x % p.period, hx, (Int.ediv_mul_add_emod x p.period).symm⟩
  · rintro ⟨q, o, ho, rfl⟩
    obtain ⟨h0, hlt⟩ := p.bounds o ho
    have hmod : (q * p.period + o) % p.period = o := by
      rw [Int.mul_add_emod_self_right, Int.emod_eq_of_lt h0 hlt]
    rwa [points, Set.mem_ofPred_eq, hmod]

theorem first_le (ho : o ∈ p.offsets) : p.first ≤ o := by
  rcases List.mem_cons.1 ho with rfl | ho
  · exact le_rfl
  · exact ((List.pairwise_cons.1 p.sorted).1 o ho).le

theorem le_last (ho : o ∈ p.offsets) : o ≤ p.last :=
  (p.sorted.imp le_of_lt).rel_getLast ho

theorem last_mem : p.last ∈ p.offsets := List.getLast_mem _

theorem mul_period_le {q q' : ℤ} (h : q < q') : (q + 1) * p.period ≤ q' * p.period :=
  mul_le_mul_of_nonneg_right (by omega) period_pos.le

/-- The first offset of an increasing list that satisfies a condition. -/
theorem find?_least {l : List ℤ} (hl : l.Pairwise (· < ·)) {c : ℤ → Bool} (h : l.find? c = some o) :
    o ∈ l ∧ c o = true ∧ ∀ o' ∈ l, c o' = true → o ≤ o' := by
  obtain ⟨ho, as, bs, rfl, hbefore⟩ := List.find?_eq_some_iff_append.1 h
  refine ⟨by simp, ho, fun o' ho' hc => ?_⟩
  obtain ⟨-, hafter, -⟩ := List.pairwise_append.1 hl
  rcases List.mem_append.1 ho' with hmem | hmem
  · have hno := hbefore o' hmem
    simp [hc] at hno
  · rcases List.mem_cons.1 hmem with rfl | hmem
    · exact le_rfl
    · exact ((List.pairwise_cons.1 hafter).1 o' hmem).le

theorem find?_reverse_greatest {l : List ℤ} (hl : l.Pairwise (· < ·)) {c : ℤ → Bool} (h : l.reverse.find? c = some o) :
    o ∈ l ∧ c o = true ∧ ∀ o' ∈ l, c o' = true → o' ≤ o := by
  obtain ⟨ho, as, bs, hsplit, hbefore⟩ := List.find?_eq_some_iff_append.1 h
  have hl' : (as ++ o :: bs).Pairwise (fun a b => b < a) := by
    rw [← hsplit]
    exact List.pairwise_reverse.2 hl
  have hmem : ∀ o', o' ∈ l ↔ o' ∈ as ++ o :: bs := fun o' => by rw [← hsplit, List.mem_reverse]
  refine ⟨(hmem o).2 (by simp), ho, fun o' ho' hc => ?_⟩
  obtain ⟨-, hafter, -⟩ := List.pairwise_append.1 hl'
  rcases List.mem_append.1 ((hmem o').1 ho') with hin | hin
  · have hno := hbefore o' hin
    simp [hc] at hno
  · rcases List.mem_cons.1 hin with rfl | hin
    · exact le_rfl
    · exact ((List.pairwise_cons.1 hafter).1 o' hin).le

theorem isLeast_next (t : ℤ) : IsLeast {z ∈ p.points | t < z} (p.next t) := by
  have hpos := @period_pos p
  have ht := Int.ediv_mul_add_emod t p.period
  have h0 := Int.emod_nonneg t hpos.ne'
  have hlt := Int.emod_lt_of_pos t hpos
  have hmod : ∀ q o, o ∈ p.offsets → t < q * p.period + o →
      t / p.period < q ∨ t / p.period = q ∧ t % p.period < o := by
    intro q o ho hx
    have hb := p.bounds o ho
    rcases lt_trichotomy (t / p.period) q with h | h | h
    · exact .inl h
    · exact .inr ⟨h, by rw [h] at ht; omega⟩
    · have hq := @mul_period_le p _ _ h
      rw [add_mul, one_mul] at hq
      omega
  unfold next
  split
  · rename_i o hfind
    obtain ⟨ho, hr, hleast⟩ := find?_least p.sorted hfind
    have hr' : t % p.period < o := by simpa using hr
    refine ⟨⟨mem_points_iff.2 ⟨_, o, ho, rfl⟩, by omega⟩, ?_⟩
    rintro x ⟨hx, htx⟩
    obtain ⟨q, o', ho', rfl⟩ := mem_points_iff.1 hx
    have hb := p.bounds o ho
    have hb' := p.bounds o' ho'
    rcases hmod q o' ho' htx with h | ⟨h, hlt'⟩
    · have hq := @mul_period_le p _ _ h
      rw [add_mul, one_mul] at hq
      omega
    · rw [← h]
      have hle := hleast o' ho' (by simpa using hlt')
      omega
  · rename_i hfind
    have hnone := List.find?_eq_none.1 hfind
    have hb := p.bounds p.first List.mem_cons_self
    refine ⟨⟨mem_points_iff.2 ⟨_, p.first, List.mem_cons_self, rfl⟩, by rw [add_mul, one_mul]; omega⟩, ?_⟩
    rintro x ⟨hx, htx⟩
    obtain ⟨q, o', ho', rfl⟩ := mem_points_iff.1 hx
    rcases hmod q o' ho' htx with h | ⟨h, hlt'⟩
    · have hq := @mul_period_le p _ _ h
      have hle := first_le ho'
      omega
    · exact absurd (by simpa using hlt') (hnone o' ho')

theorem isGreatest_prev (t : ℤ) : IsGreatest {z ∈ p.points | z ≤ t} (p.prev t) := by
  have hpos := @period_pos p
  have ht := Int.ediv_mul_add_emod t p.period
  have h0 := Int.emod_nonneg t hpos.ne'
  have hlt := Int.emod_lt_of_pos t hpos
  have hmod : ∀ q o, o ∈ p.offsets → q * p.period + o ≤ t →
      q < t / p.period ∨ q = t / p.period ∧ o ≤ t % p.period := by
    intro q o ho hx
    have hb := p.bounds o ho
    rcases lt_trichotomy q (t / p.period) with h | h | h
    · exact .inl h
    · exact .inr ⟨h, by rw [h] at hx; omega⟩
    · have hq := @mul_period_le p _ _ h
      rw [add_mul, one_mul] at hq
      omega
  unfold prev
  split
  · rename_i o hfind
    obtain ⟨ho, hr, hgreatest⟩ := find?_reverse_greatest p.sorted hfind
    have hr' : o ≤ t % p.period := by simpa using hr
    refine ⟨⟨mem_points_iff.2 ⟨_, o, ho, rfl⟩, by omega⟩, ?_⟩
    rintro x ⟨hx, htx⟩
    obtain ⟨q, o', ho', rfl⟩ := mem_points_iff.1 hx
    have hb := p.bounds o ho
    have hb' := p.bounds o' ho'
    rcases hmod q o' ho' htx with h | ⟨h, hle⟩
    · have hq := @mul_period_le p _ _ h
      rw [add_mul, one_mul] at hq
      omega
    · rw [h]
      have hle' := hgreatest o' ho' (by simpa using hle)
      omega
  · rename_i hfind
    have hnone := List.find?_eq_none.1 hfind
    have hb := p.bounds p.last last_mem
    have hb1 := p.bounds p.first List.mem_cons_self
    refine ⟨⟨mem_points_iff.2 ⟨_, p.last, last_mem, rfl⟩, by rw [sub_mul, one_mul]; omega⟩, ?_⟩
    rintro x ⟨hx, htx⟩
    obtain ⟨q, o', ho', rfl⟩ := mem_points_iff.1 hx
    rcases hmod q o' ho' htx with h | ⟨h, hle⟩
    · have hq := @mul_period_le p _ _ h
      have hle := le_last ho'
      rw [add_mul, one_mul] at hq
      rw [sub_mul, one_mul]
      omega
    · exact absurd (by simpa using hle) (hnone o' (List.mem_reverse.2 ho'))

/-- The last point before `t`. -/
theorem isGreatest_prev_sub_one (t : ℤ) : IsGreatest {z ∈ p.points | z < t} (p.prev (t - 1)) := by
  obtain ⟨⟨hmem, hle⟩, hgreatest⟩ := @isGreatest_prev p (t - 1)
  exact ⟨⟨hmem, by omega⟩, fun z hz => hgreatest ⟨hz.1, Int.le_sub_one_of_lt hz.2⟩⟩

theorem eq_next (h : Consecutive p.points x y) : y = p.next x := h.2.unique (isLeast_next x)

theorem consecutive_next (h : x ∈ p.points) : Consecutive p.points x (p.next x) := ⟨h, isLeast_next x⟩

theorem recurs : Recurs p.points p.period := by
  refine ⟨by exact_mod_cast @period_pos p, fun x => ?_⟩
  rw [points, Set.mem_ofPred_eq, Set.mem_ofPred_eq, Int.add_emod_right]

end Pattern

end Slots
