import Mathlib.Tactic

/-!
# Token buckets

A bucket fills at `rate` tokens per unit of time up to `cap`, and a call takes one token if there is one. Within any
stretch of time the calls that get a token are at most `cap` and what has flowed in meanwhile (`admitted_le_window`),
and who waits for the missing part of a token gets one if a whole token fits (`take_of_waited`).
-/

/-- `stamp` is when `tokens` was right. -/
structure TokenBucket (K : Type) where
  tokens : K
  stamp : K

namespace TokenBucket

variable {K : Type} [LinearOrder K] {a e : K}

/-- The admitted calls from `a` to `e`. -/
def admitted (a e : K) (answers : List (K × Bool)) : ℕ := answers.countP fun p => p.2 && a ≤ p.1 && p.1 ≤ e

theorem admitted_outside {p : K × Bool} {answers : List (K × Bool)} (h : ¬(a ≤ p.1 ∧ p.1 ≤ e)) :
    admitted a e (p :: answers) = admitted a e answers := by
  refine List.countP_cons_of_neg fun h' => h ?_
  simp only [Bool.and_eq_true, decide_eq_true_eq] at h'
  exact ⟨h'.1.2, h'.2⟩

theorem admitted_refused {now : K} {answers : List (K × Bool)} :
    admitted a e ((now, false) :: answers) = admitted a e answers := List.countP_cons_of_neg (by simp)

theorem admitted_cons_le (p : K × Bool) (answers : List (K × Bool)) :
    admitted a e (p :: answers) ≤ admitted a e answers + 1 := by
  rw [admitted, List.countP_cons]
  exact Nat.add_le_add_left (by split_ifs <;> omega) _

variable [Field K] (rate cap : K)

def refilled (b : TokenBucket K) (now : K) : K := min cap (b.tokens + (now - b.stamp) * rate)

/-- Whether a call is admitted, and the bucket after it. -/
def take (b : TokenBucket K) (now : K) : Bool × TokenBucket K :=
  if b.refilled rate cap now < 1 then (false, ⟨b.refilled rate cap now, now⟩)
  else (true, ⟨b.refilled rate cap now - 1, now⟩)

/-- The answers to calls at these times. -/
def takes (b : TokenBucket K) : List K → List (K × Bool)
  | [] => []
  | now :: rest => (now, (b.take rate cap now).1) :: takes (b.take rate cap now).2 rest

/-- Calls come one after the other, none before the stamp. -/
structure Ordered (b : TokenBucket K) (times : List K) : Prop where
  tokens : 0 ≤ b.tokens
  stamp : ∀ now ∈ times, b.stamp ≤ now
  sorted : times.Pairwise (· ≤ ·)

variable {rate cap} {b : TokenBucket K} {now : K} {times : List K}

theorem refilled_le : b.refilled rate cap now ≤ b.tokens + (now - b.stamp) * rate := min_le_right _ _

theorem refilled_le_cap : b.refilled rate cap now ≤ cap := min_le_left _ _

theorem take_of_lt (h : b.refilled rate cap now < 1) :
    b.take rate cap now = (false, ⟨b.refilled rate cap now, now⟩) := if_pos h

theorem take_of_le (h : 1 ≤ b.refilled rate cap now) :
    b.take rate cap now = (true, ⟨b.refilled rate cap now - 1, now⟩) := if_neg (not_lt.2 h)

theorem take_stamp : (b.take rate cap now).2.stamp = now := by
  rcases lt_or_ge (b.refilled rate cap now) 1 with h | h
  · rw [take_of_lt h]
  · rw [take_of_le h]

theorem takes_fst (times : List K) : ∀ b : TokenBucket K, (b.takes rate cap times).map Prod.fst = times := by
  induction times with
  | nil => exact fun _ => rfl
  | cons now rest ih => exact fun b => congrArg (now :: ·) (ih _)

/-- A bucket that holds less than a token admits no one. -/
theorem take_of_cap_lt (hcap : cap < 1) : (b.take rate cap now).1 = false := by
  rw [take_of_lt (refilled_le_cap.trans_lt hcap)]

/-- After the end of the stretch nothing counts. -/
theorem admitted_late (h : b.Ordered (now :: times)) (hlate : e < now) :
    admitted a e (b.takes rate cap (now :: times)) = 0 := by
  refine List.countP_eq_zero.2 fun p hp => ?_
  have hmem : p.1 ∈ now :: times := by
    rw [← takes_fst (now :: times) b]
    exact List.mem_map_of_mem hp
  have hp : e < p.1 := by
    rcases List.mem_cons.1 hmem with heq | hmem
    · rw [heq]
      exact hlate
    · exact hlate.trans_le ((List.pairwise_cons.1 h.sorted).1 p.1 hmem)
  simp [not_le.2 hp]

variable [IsStrictOrderedRing K]

theorem refilled_nonneg (hrate : 0 ≤ rate) (hcap : 0 ≤ cap) (htokens : 0 ≤ b.tokens) (hnow : b.stamp ≤ now) :
    0 ≤ b.refilled rate cap now :=
  le_min hcap (add_nonneg htokens (mul_nonneg (sub_nonneg.2 hnow) hrate))

theorem Ordered.tail (hrate : 0 ≤ rate) (hcap : 0 ≤ cap) (h : b.Ordered (now :: times)) :
    (b.take rate cap now).2.Ordered times where
  tokens := by
    rcases lt_or_ge (b.refilled rate cap now) 1 with hlt | hge
    · rw [take_of_lt hlt]
      exact refilled_nonneg hrate hcap h.tokens (h.stamp now (List.mem_cons_self ..))
    · rw [take_of_le hge]
      exact sub_nonneg.2 hge
  stamp := by
    rw [take_stamp]
    exact (List.pairwise_cons.1 h.sorted).1
  sorted := (List.pairwise_cons.1 h.sorted).2

/-- A call that counts has taken a token. -/
theorem admitted_cons (a e rate cap : K) (b : TokenBucket K) (now : K) (times : List K) :
    (admitted a e (b.takes rate cap (now :: times)) : K) + (b.take rate cap now).2.tokens ≤
      b.refilled rate cap now + admitted a e ((b.take rate cap now).2.takes rate cap times) := by
  rw [takes]
  rcases lt_or_ge (b.refilled rate cap now) 1 with h | h
  · rw [take_of_lt h, admitted_refused]
    exact (add_comm _ _).le
  · rw [take_of_le h]
    set rest := takes rate cap ⟨b.refilled rate cap now - 1, now⟩ times
    have hcount : (admitted a e ((now, true) :: rest) : K) ≤ admitted a e rest + 1 := by
      exact_mod_cast admitted_cons_le (now, true) rest
    linarith

/-- What is in the bucket and what flows in bounds what is taken out. -/
theorem admitted_le (hrate : 0 ≤ rate) (hcap : 0 ≤ cap) : ∀ (times : List K) (b : TokenBucket K), b.Ordered times →
    b.stamp ≤ e → (admitted a e (b.takes rate cap times) : K) ≤ b.tokens + (e - b.stamp) * rate := by
  intro times
  induction times with
  | nil =>
    intro b h he
    have hflow := mul_nonneg (sub_nonneg.2 he) hrate
    have htokens := h.tokens
    simp only [takes, admitted, List.countP_nil, Nat.cast_zero]
    linarith
  | cons now rest ih =>
    intro b h he
    by_cases hlate : e < now
    · have hflow := mul_nonneg (sub_nonneg.2 he) hrate
      have htokens := h.tokens
      rw [admitted_late h hlate, Nat.cast_zero]
      linarith
    · have hrest := ih (b.take rate cap now).2 (h.tail hrate hcap) (take_stamp.trans_le (not_lt.1 hlate))
      have hcons := admitted_cons a e rate cap b now rest
      have hrefill : b.refilled rate cap now ≤ b.tokens + (now - b.stamp) * rate := refilled_le
      rw [take_stamp] at hrest
      linarith

/-- Within a stretch of time at most a full bucket is taken and what flows in. -/
theorem admitted_le_window (hrate : 0 ≤ rate) (hcap : 0 ≤ cap) (hae : a ≤ e) : ∀ (times : List K) (b : TokenBucket K),
    b.Ordered times → (admitted a e (b.takes rate cap times) : K) ≤ cap + (e - a) * rate := by
  have hbound : 0 ≤ cap + (e - a) * rate := add_nonneg hcap (mul_nonneg (sub_nonneg.2 hae) hrate)
  intro times
  induction times with
  | nil => exact fun _ _ => by simpa [takes, admitted] using hbound
  | cons now rest ih =>
    intro b h
    have htail := h.tail hrate hcap
    by_cases hearly : now < a
    · rw [takes, admitted_outside fun h' => absurd h'.1 (not_le.2 hearly)]
      exact ih _ htail
    by_cases hlate : e < now
    · rw [admitted_late h hlate, Nat.cast_zero]
      exact hbound
    · have hrest := admitted_le (a := a) (e := e) hrate hcap rest _ htail (take_stamp.trans_le (not_lt.1 hlate))
      have hcons := admitted_cons a e rate cap b now rest
      have hcap : b.refilled rate cap now ≤ cap := refilled_le_cap
      have hflow : (e - now) * rate ≤ (e - a) * rate :=
        mul_le_mul_of_nonneg_right (sub_le_sub_left (not_lt.1 hearly) e) hrate
      rw [take_stamp] at hrest
      linarith

/-- Who waits for what is missing of a token gets one, if the bucket holds one. -/
theorem take_of_waited (hrate : 0 < rate) (hcap : 1 ≤ cap) (h : (1 - b.tokens) / rate ≤ now - b.stamp) :
    (b.take rate cap now).1 = true := by
  have hflow : 1 - b.tokens ≤ (now - b.stamp) * rate := (div_le_iff₀ hrate).1 h
  rw [take_of_le (le_min hcap (by linarith))]

end TokenBucket
