import Mathlib.Tactic

/-!
# Episodes in a sequence of observations

An episode opens at a bad observation when none is open, and closes when the last `k` observations are all
good. `episode as` is the open episode after the observations `as`, as the list of observations from the one
that opened it on, or `none`. `close_iff` says in terms of positions when an observation closes it.
-/

namespace Episodes

variable {α : Type*} (bad good : α → Bool) (k : Nat)

/-- The length of the run of good observations at the end. -/
def goodRun (as : List α) : Nat := (as.reverse.takeWhile good).length

/-- The open episode after one more observation. -/
def next (current : Option (List α)) (a : α) : Option (List α) :=
  match current with
  | none => if bad a then some [a] else none
  | some as => if k ≤ goodRun good (as ++ [a]) then none else some (as ++ [a])

/-- The open episode after the observations `as`. -/
def episode (as : List α) : Option (List α) := as.foldl (next bad good k) none

variable {bad good k} {as h : List α} {a : α}

theorem goodRun_append_singleton (as : List α) (a : α) :
    goodRun good (as ++ [a]) = if good a then goodRun good as + 1 else 0 := by
  simp only [goodRun, List.reverse_append, List.reverse_singleton, List.singleton_append, List.takeWhile_cons]
  split <;> rfl

theorem episode_append_singleton : episode bad good k (as ++ [a]) = next bad good k (episode bad good k as) a := by
  simp [episode]

/-- An open episode was just opened, or is an older one with the observation added. -/
theorem next_eq_some {current : Option (List α)} (heq : next bad good k current a = some h) :
    current = none ∧ bad a ∧ h = [a] ∨ ∃ h', current = some h' ∧ h = h' ++ [a] := by
  cases current with
  | none =>
    simp only [next] at heq
    split at heq <;> cases heq
    exact .inl ⟨rfl, ‹_›, rfl⟩
  | some h' =>
    simp only [next] at heq
    split at heq <;> cases heq
    exact .inr ⟨h', rfl, rfl⟩

theorem le_length_takeWhile_iff {p : α → Bool} : ∀ {k : Nat} {l : List α},
    k ≤ (l.takeWhile p).length ↔ k ≤ l.length ∧ ∀ a ∈ l.take k, p a
  | 0, l => by simp
  | k + 1, [] => by simp
  | k + 1, a :: l => by
    rw [List.takeWhile_cons]
    by_cases ha : p a
    · simp [ha, le_length_takeWhile_iff]
    · simp [ha]

/-- The run has length at least `k` when the last `k` observations are good. -/
theorem le_goodRun_iff : k ≤ goodRun good as ↔ k ≤ as.length ∧ ∀ a ∈ as.drop (as.length - k), good a := by
  rw [goodRun, le_length_takeWhile_iff, List.length_reverse, List.take_reverse]
  simp only [List.mem_reverse]

/-- An open episode is the end of the sequence, from a bad observation on, and its good run is too short. -/
structure IsOpen (bad good : α → Bool) (k : Nat) (as h : List α) : Prop where
  suffix : ∃ pre, as = pre ++ h
  head : ∃ a t, h = a :: t ∧ bad a
  short : goodRun good h < k

theorem episode_isOpen (hk : 0 < k) (hdisj : ∀ a, bad a → good a = false) :
    episode bad good k as = some h → IsOpen bad good k as h := by
  induction as using List.reverseRecOn generalizing h with
  | nil => intro hnil; cases hnil
  | append_singleton as a ih =>
    intro heq
    rw [episode_append_singleton] at heq
    have hshort : goodRun good h < k := by
      cases hcur : episode bad good k as with
      | none =>
        rw [hcur] at heq
        simp only [next] at heq
        split at heq <;> cases heq
        have hrun : goodRun good [a] = _ := goodRun_append_singleton [] a
        rw [hdisj a ‹_›, if_neg Bool.false_ne_true] at hrun
        exact hrun ▸ hk
      | some h' =>
        rw [hcur] at heq
        simp only [next] at heq
        split at heq <;> cases heq
        omega
    rcases next_eq_some heq with ⟨-, hbad, rfl⟩ | ⟨h', hcur, rfl⟩
    · exact ⟨⟨as, rfl⟩, ⟨a, [], rfl, hbad⟩, hshort⟩
    · obtain ⟨⟨pre, hpre⟩, ⟨b, t, hb, hbad⟩, -⟩ := ih hcur
      exact ⟨⟨pre, by rw [hpre, List.append_assoc]⟩, ⟨b, t ++ [a], by rw [hb]; rfl, hbad⟩, hshort⟩

/-- The next observation closes the episode that opened at position `i` when it and the `k - 1` before it are
good, all of them after `i`. -/
theorem close_iff {i : Nat} (hdisj : ∀ a, bad a → good a = false) (hhead : ∃ b t, as.drop i = b :: t ∧ bad b) :
    k ≤ goodRun good (as.drop i ++ [a]) ↔
      i + k ≤ as.length ∧ ∀ x ∈ (as ++ [a]).drop (as.length + 1 - k), good x := by
  obtain ⟨b, t, hb, hbad⟩ := hhead
  have hi : i < as.length := by
    by_contra hi
    rw [List.drop_eq_nil_of_le (Nat.le_of_not_lt hi)] at hb
    cases hb
  have hdrop : as.drop i ++ [a] = (as ++ [a]).drop i := by
    rw [List.drop_append_of_le_length (Nat.le_of_lt hi)]
  have hlen : (as.drop i ++ [a]).length = as.length + 1 - i := by
    simp only [List.length_append, List.length_drop, List.length_singleton]
    omega
  rw [le_goodRun_iff, hlen]
  constructor
  · rintro ⟨hle, hgood⟩
    -- The run does not reach back to the observation that opened the episode.
    have hne : k ≠ as.length + 1 - i := by
      rintro rfl
      rw [Nat.sub_self, List.drop_zero, hb] at hgood
      have := hgood b List.mem_cons_self
      rw [hdisj b hbad] at this
      cases this
    refine ⟨by omega, fun x hx => hgood x ?_⟩
    rw [hdrop, List.drop_drop]
    rwa [show i + (as.length + 1 - i - k) = as.length + 1 - k by omega]
  · rintro ⟨hle, hgood⟩
    refine ⟨by omega, fun x hx => hgood x ?_⟩
    rw [hdrop, List.drop_drop] at hx
    rwa [show i + (as.length + 1 - i - k) = as.length + 1 - k by omega] at hx

end Episodes
