import Mathlib.Analysis.SpecialFunctions.Log.Basic
import CronMonitor.Lib.Buckets
import CronMonitor.LoadTest.Metrics

/-!
# `LogHistogram` over the reals

The histogram of `metrics-aggregator.ts` with its logarithmic scale. A recorded number is `none` where it is not finite.
A quantile is read off the bucket in which the sample of its rank lies: it is never below that sample, and at most 2%
above it.
-/

namespace CronMonitor.LoadTest.Quantiles

noncomputable section

def GROWTH : ℝ := 1.02

def LN : ℝ := Real.log GROWTH

def index (ms : ℝ) : ℤ := ⌊Real.log (max ms 0.1 / 0.1) / LN⌋

/-- Upper bound of the bucket. -/
def value (idx : ℤ) : ℝ := 0.1 * GROWTH ^ (idx + 1)

structure LogHistogram where
  counts : OrderedMap ℤ ℕ
  count : ℕ
  sum : ℝ
  max : ℝ

namespace LogHistogram

def empty : LogHistogram := ⟨.empty, 0, 0, 0⟩

def record (h : LogHistogram) : Option ℝ → LogHistogram
  | none => h
  | some ms =>
    if ms < 0 then h
    else
      let i := index ms
      ⟨h.counts.set i ((h.counts.get? i).getD 0 + 1), h.count + 1, h.sum + ms, if ms > h.max then ms else h.max⟩

def quantile (h : LogHistogram) (q : ℝ) : ℝ :=
  if h.count = 0 then 0
  else
    match LoadTest.LogHistogram.reach ⌈q * h.count⌉ 0 (h.counts.entries.insertionSort (·.1 ≤ ·.1)) with
    | some idx => min (value idx) h.max
    | none => h.max

end LogHistogram

def recordAll (xs : List (Option ℝ)) : LogHistogram := xs.foldl LogHistogram.record .empty

/-- The numbers that `record` takes. -/
def accepted (xs : List (Option ℝ)) : List ℝ := xs.filterMap fun x => x.filter (0 ≤ ·)

/-- The samples in order. -/
def ordered (xs : List (Option ℝ)) : List ℝ := (accepted xs).insertionSort (· ≤ ·)

end

/-! ### The scale -/

theorem GROWTH_pos : 0 < GROWTH := by norm_num [GROWTH]

theorem LN_pos : 0 < LN := Real.log_pos (by norm_num [GROWTH])

theorem floored_pos (ms : ℝ) : 0 < max ms 0.1 / 0.1 := div_pos (lt_max_of_lt_right (by norm_num)) (by norm_num)

theorem log_growth (k : ℤ) : Real.log (GROWTH ^ k) = k * LN := Real.log_zpow GROWTH k

theorem index_mono {x y : ℝ} (h : x ≤ y) : index x ≤ index y := by
  have hfloored : max x 0.1 / 0.1 ≤ max y 0.1 / 0.1 :=
    div_le_div_of_nonneg_right (max_le_max_right _ h) (by norm_num)
  exact Int.floor_le_floor (div_le_div_of_nonneg_right (Real.log_le_log (floored_pos x) hfloored) LN_pos.le)

theorem value_mono {i j : ℤ} (h : i ≤ j) : value i ≤ value j :=
  mul_le_mul_of_nonneg_left (zpow_le_zpow_right₀ (by norm_num [GROWTH]) (by omega)) (by norm_num)

/-- The bucket of a number reaches above it. -/
theorem le_value_index (ms : ℝ) : ms ≤ value (index ms) := by
  have hlog : Real.log (max ms 0.1 / 0.1) < Real.log (GROWTH ^ (index ms + 1)) := by
    rw [log_growth, ← div_lt_iff₀ LN_pos, Int.cast_add, Int.cast_one]
    exact Int.lt_floor_add_one _
  have hlt := (Real.log_lt_log_iff (floored_pos ms) (zpow_pos GROWTH_pos _)).1 hlog
  rw [div_lt_iff₀ (by norm_num)] at hlt
  calc ms ≤ max ms 0.1 := le_max_left _ _
    _ ≤ GROWTH ^ (index ms + 1) * 0.1 := hlt.le
    _ = value (index ms) := mul_comm _ _

/-- And it starts at or under the number, floored at 0.1. -/
theorem value_index_le (ms : ℝ) : value (index ms) ≤ 1.02 * max ms 0.1 := by
  have hlog : Real.log (GROWTH ^ index ms) ≤ Real.log (max ms 0.1 / 0.1) := by
    rw [log_growth, ← le_div_iff₀ LN_pos]
    exact Int.floor_le _
  have hle := (Real.log_le_log_iff (zpow_pos GROWTH_pos _) (floored_pos ms)).1 hlog
  rw [le_div_iff₀ (by norm_num)] at hle
  calc value (index ms) = GROWTH * (GROWTH ^ index ms * 0.1) := by
        rw [value, zpow_add_one₀ GROWTH_pos.ne']
        ring
    _ ≤ GROWTH * max ms 0.1 := mul_le_mul_of_nonneg_left hle GROWTH_pos.le

/-! ### What is recorded -/

section Record
variable {xs ys : List (Option ℝ)} {h : LogHistogram}

/-- A histogram holds exactly these samples. -/
structure Holds (h : LogHistogram) (samples : List ℝ) : Prop where
  counts : h.counts = Buckets.tally (samples.map index)
  count : h.count = samples.length
  max : h.max = samples.foldl max 0

theorem holds_empty : Holds .empty [] := ⟨rfl, rfl, rfl⟩

/-- A sample that is taken is held with the others; any other number changes nothing. -/
theorem holds_record {samples : List ℝ} (hh : Holds h samples) (x : Option ℝ) :
    Holds (h.record x) (samples ++ (x.filter (0 ≤ ·)).toList) := by
  cases x with
  | none => simpa [LogHistogram.record] using hh
  | some ms =>
    by_cases hneg : ms < 0
    · simpa [LogHistogram.record, hneg, Option.filter, not_le.2 hneg] using hh
    · have htaken : ((some ms).filter (0 ≤ ·)).toList = [ms] := by simp [Option.filter, not_lt.1 hneg]
      rw [htaken, LogHistogram.record, if_neg hneg]
      constructor
      · simp only [List.map_append, List.map_cons, List.map_nil, Buckets.tally, List.foldl_append, List.foldl_cons,
          List.foldl_nil]
        rw [← Buckets.tally, ← hh.counts, Buckets.bump]
      · simp [hh.count]
      · rw [List.foldl_append, ← hh.max, List.foldl_cons, List.foldl_nil]
        split_ifs with hgt
        · exact (max_eq_right hgt.le).symm
        · exact (max_eq_left (not_lt.1 hgt)).symm

theorem holds_foldl : ∀ {xs : List (Option ℝ)} {h : LogHistogram} {samples : List ℝ}, Holds h samples →
    Holds (xs.foldl LogHistogram.record h) (samples ++ accepted xs) := by
  intro xs
  induction xs with
  | nil => exact fun {_ _} hh => by simpa [accepted] using hh
  | cons x xs ih =>
    intro h samples hh
    have hrest := ih (holds_record hh x)
    have hsplit : accepted (x :: xs) = (x.filter (0 ≤ ·)).toList ++ accepted xs := by
      cases hx : x.filter (0 ≤ ·) <;> simp [accepted, hx]
    rwa [hsplit, ← List.append_assoc]

theorem holds_recordAll (xs : List (Option ℝ)) : Holds (recordAll xs) (accepted xs) := holds_foldl holds_empty

theorem accepted_nonneg {x : ℝ} (hx : x ∈ accepted xs) : 0 ≤ x := by
  obtain ⟨y, -, hy⟩ := List.mem_filterMap.1 hx
  simpa using (Option.filter_eq_some_iff.1 hy).2

theorem le_foldl_max : ∀ {samples : List ℝ} {a : ℝ}, a ≤ samples.foldl max a ∧ ∀ x ∈ samples, x ≤ samples.foldl max a := by
  intro samples
  induction samples with
  | nil => exact fun {a} => ⟨le_rfl, fun _ h => nomatch h⟩
  | cons y samples ih =>
    intro a
    obtain ⟨hfirst, hrest⟩ := ih (a := max a y)
    exact ⟨(le_max_left a y).trans hfirst, List.forall_mem_cons.2 ⟨(le_max_right a y).trans hfirst, hrest⟩⟩

theorem foldl_max_mem : ∀ {samples : List ℝ} {a : ℝ}, samples.foldl max a = a ∨ samples.foldl max a ∈ samples := by
  intro samples
  induction samples with
  | nil => exact fun {_} => .inl rfl
  | cons y samples ih =>
    intro a
    rcases ih (a := max a y) with h | h
    · rw [List.foldl_cons, h]
      rcases max_choice a y with hmax | hmax <;> simp [hmax]
    · exact .inr (List.mem_cons_of_mem _ h)

theorem isGreatest_max (hxs : accepted xs ≠ []) : IsGreatest {x | x ∈ accepted xs} (recordAll xs).max := by
  rw [(holds_recordAll xs).max]
  refine ⟨?_, fun x hx => le_foldl_max.2 x hx⟩
  rcases (foldl_max_mem : (accepted xs).foldl max 0 = 0 ∨ _) with h | h
  · -- all samples are zero
    obtain ⟨x, hx⟩ := List.exists_mem_of_ne_nil _ hxs
    have hzero : x = 0 := le_antisymm ((le_foldl_max.2 x hx).trans h.le) (accepted_nonneg hx)
    rw [h, ← hzero]
    exact hx
  · exact h

end Record

/-! ### The quantile -/

section Quantile
variable {xs ys : List (Option ℝ)} {q q' : ℝ}

theorem reach_eq {rank : ℕ} : ∀ {es : List (ℤ × ℕ)} {seen : ℕ}, seen < rank →
    LoadTest.LogHistogram.reach rank seen es = (Buckets.expand es)[rank - seen - 1]? := by
  intro es
  induction es with
  | nil => exact fun {_} _ => rfl
  | cons e es ih =>
    obtain ⟨i, n⟩ := e
    intro seen hseen
    rw [LoadTest.LogHistogram.reach, Buckets.expand_cons]
    split_ifs with hreached
    · have hin : rank - seen - 1 < (List.replicate n i).length := by
        rw [List.length_replicate]
        omega
      rw [List.getElem?_append_left hin, List.getElem?_replicate, if_pos (by rwa [List.length_replicate] at hin)]
    · rw [ih (by omega), List.getElem?_append_right (by rw [List.length_replicate]; omega), List.length_replicate]
      congr 1
      omega

/-- The samples' buckets, in order, are the buckets of the samples in order. -/
theorem sorted_index (samples : List ℝ) :
    (samples.map index).insertionSort (· ≤ ·) = (samples.insertionSort (· ≤ ·)).map index := by
  refine List.Perm.eq_of_pairwise (fun a b _ _ (hab : a ≤ b) (hba : b ≤ a) => le_antisymm hab hba) (List.pairwise_insertionSort ..) ?_ ?_
  · exact List.Pairwise.map index (fun _ _ => index_mono) (List.pairwise_insertionSort ..)
  · exact (List.perm_insertionSort _ _).trans ((List.perm_insertionSort _ _).symm.map index)

/-- The place of `⌈q n⌉` among the samples in order. -/
noncomputable def place (xs : List (Option ℝ)) (q : ℝ) : ℕ := ⌈q * (accepted xs).length⌉₊ - 1

theorem rank_pos (hq : 0 < q) (hxs : accepted xs ≠ []) : 0 < ⌈q * (accepted xs).length⌉₊ :=
  Nat.ceil_pos.2 (mul_pos hq (Nat.cast_pos.2 (List.length_pos_iff.2 hxs)))

theorem place_lt (hq : q ∈ Set.Ioc 0 1) (hxs : accepted xs ≠ []) : place xs q < (ordered xs).length := by
  have hrank : ⌈q * (accepted xs).length⌉₊ ≤ (accepted xs).length :=
    Nat.ceil_le.2 (mul_le_of_le_one_left (Nat.cast_nonneg _) hq.2)
  have := rank_pos hq.1 hxs
  rw [ordered, List.length_insertionSort, place]
  omega

/-- The quantile is that of the bucket of the sample with its rank, under the greatest sample. -/
theorem quantile_eq (hq : 0 < q) {sample : ℝ} (hsample : (ordered xs)[place xs q]? = some sample) :
    (recordAll xs).quantile q = min (value (index sample)) (recordAll xs).max := by
  have hne : accepted xs ≠ [] := by
    intro h
    simp [ordered, h] at hsample
  have hcount : (recordAll xs).count = (accepted xs).length := (holds_recordAll xs).count
  have hrank : ⌈q * ((recordAll xs).count : ℝ)⌉ = (⌈q * (accepted xs).length⌉₊ : ℤ) := by
    rw [hcount, Int.natCast_ceil_eq_ceil (mul_nonneg hq.le (Nat.cast_nonneg _))]
  have hreach : LoadTest.LogHistogram.reach ⌈q * ((recordAll xs).count : ℝ)⌉ 0
      ((recordAll xs).counts.entries.insertionSort (·.1 ≤ ·.1)) = some (index sample) := by
    rw [hrank, reach_eq (rank_pos hq hne), (holds_recordAll xs).counts, Buckets.expand_sorted, sorted_index,
      List.getElem?_map]
    exact congrArg (Option.map index) hsample
  rw [LogHistogram.quantile, if_neg (hcount ▸ (List.length_pos_iff.2 hne).ne'), hreach]

theorem quantile_nil (h : accepted xs = []) (q : ℝ) : (recordAll xs).quantile q = 0 := by
  rw [LogHistogram.quantile, if_pos (by rw [(holds_recordAll xs).count, h, List.length_nil])]

theorem ordered_get (hq : q ∈ Set.Ioc 0 1) (hxs : accepted xs ≠ []) :
    ∃ sample, (ordered xs)[place xs q]? = some sample ∧ sample ∈ accepted xs := by
  refine ⟨_, List.getElem?_eq_getElem (place_lt hq hxs), ?_⟩
  exact (List.mem_insertionSort (· ≤ ·)).1 (List.getElem_mem (place_lt hq hxs))

theorem quantile_mono (hq : q ∈ Set.Ioc 0 1) (hq' : q' ∈ Set.Ioc 0 1) (h : q ≤ q') :
    (recordAll xs).quantile q ≤ (recordAll xs).quantile q' := by
  by_cases hxs : accepted xs = []
  · rw [quantile_nil hxs, quantile_nil hxs]
  · obtain ⟨x, hx, -⟩ := ordered_get hq hxs
    obtain ⟨y, hy, -⟩ := ordered_get hq' hxs
    have hplace : place xs q ≤ place xs q' :=
      Nat.sub_le_sub_right (Nat.ceil_le_ceil (mul_le_mul_of_nonneg_right h (Nat.cast_nonneg _))) 1
    have hle : x ≤ y := by
      obtain ⟨hi, rfl⟩ := List.getElem?_eq_some_iff.1 hx
      obtain ⟨hj, rfl⟩ := List.getElem?_eq_some_iff.1 hy
      exact (List.pairwise_insertionSort (· ≤ ·) (accepted xs)).rel_get_of_le (a := ⟨_, hi⟩) (b := ⟨_, hj⟩) hplace
    rw [quantile_eq hq.1 hx, quantile_eq hq'.1 hy]
    exact min_le_min_right _ (value_mono (index_mono hle))

/-- The order in which the samples come does not count. -/
theorem quantile_perm (h : ys.Perm xs) (hq : q ∈ Set.Ioc 0 1) : (recordAll ys).quantile q = (recordAll xs).quantile q := by
  have haccepted : (accepted ys).Perm (accepted xs) := h.filterMap _
  have hordered : ordered ys = ordered xs :=
    List.Perm.eq_of_pairwise (fun a b _ _ (hab : a ≤ b) (hba : b ≤ a) => le_antisymm hab hba) (List.pairwise_insertionSort ..)
      (List.pairwise_insertionSort ..)
      ((List.perm_insertionSort _ _).trans (haccepted.trans (List.perm_insertionSort _ _).symm))
  by_cases hxs : accepted xs = []
  · rw [quantile_nil hxs, quantile_nil (List.Perm.eq_nil (hxs ▸ haccepted))]
  · have hys : accepted ys ≠ [] := fun hnil => hxs (List.Perm.eq_nil (hnil ▸ haccepted.symm))
    obtain ⟨x, hx, -⟩ := ordered_get hq hxs
    have hy : (ordered ys)[place ys q]? = some x := by rw [hordered, place, haccepted.length_eq]; exact hx
    have hmax : (recordAll ys).max = (recordAll xs).max := by
      refine (isGreatest_max hys).unique ?_
      simpa only [haccepted.mem_iff] using isGreatest_max hxs
    rw [quantile_eq hq.1 hx, quantile_eq hq.1 hy, hmax]

theorem quantileLaw (xs : List (Option ℝ)) (q : ℝ) (hq : q ∈ Set.Ioc 0 1) :
    (accepted xs ≠ [] → ∃ sample, (ordered xs)[⌈q * (accepted xs).length⌉₊ - 1]? = some sample ∧
      sample ≤ (recordAll xs).quantile q ∧
      (∃ greatest, IsGreatest {x | x ∈ accepted xs} greatest ∧ (recordAll xs).quantile q ≤ greatest) ∧
      (recordAll xs).quantile q ≤ 1.02 * max sample 0.1) ∧
    (∀ q' ∈ Set.Ioc 0 1, q ≤ q' → (recordAll xs).quantile q ≤ (recordAll xs).quantile q') ∧
    (∀ ys : List (Option ℝ), ys.Perm xs → (recordAll ys).quantile q = (recordAll xs).quantile q) := by
  refine ⟨fun hxs => ?_, fun q' hq' h => quantile_mono hq hq' h, fun ys h => quantile_perm h hq⟩
  obtain ⟨sample, hsample, hmem⟩ := ordered_get hq hxs
  have hgreatest := isGreatest_max hxs
  have hquantile := quantile_eq hq.1 hsample
  refine ⟨sample, hsample, ?_, ⟨_, hgreatest, ?_⟩, ?_⟩
  · rw [hquantile]
    exact le_min (le_value_index sample) (hgreatest.2 hmem)
  · rw [hquantile]
    exact min_le_right _ _
  · rw [hquantile]
    exact (min_le_left _ _).trans (value_index_le sample)

/-- The median of two samples, one recorded among numbers that are not taken. -/
theorem quantileLaw_median : (1 : ℝ) ≤ (recordAll [some 3, none, some 1, some (-2)]).quantile (1 / 2) := by
  have hq : (1 / 2 : ℝ) ∈ Set.Ioc 0 1 := by constructor <;> norm_num
  have haccepted : accepted [some 3, none, some 1, some (-2)] = [3, 1] := by
    simp [accepted, Option.filter]
  obtain ⟨sample, hsample, hle, -⟩ := (quantileLaw [some 3, none, some 1, some (-2)] (1 / 2) hq).1 (by simp [haccepted])
  have hsorted : ordered [some 3, none, some 1, some (-2)] = [1, 3] := by
    rw [ordered, haccepted]
    norm_num [List.insertionSort, List.orderedInsert]
  rw [hsorted, haccepted] at hsample
  norm_num at hsample
  rw [← hsample] at hle
  exact hle

end Quantile

end CronMonitor.LoadTest.Quantiles
