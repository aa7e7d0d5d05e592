import Mathlib.Tactic

/-!
# Regular expressions that backtrack

`runs r st` are the ends of the matches of `r` from `st`, in the order in which a backtracking engine with greedy
quantifiers comes to them; the first is the match. `replaceAll` is `replace` with the flag `g`. Groups are for
expressions that capture nothing inside a repetition, and every repetition is of something that is not empty.

`Spares c r` says that no class of `r` has the unit `c`: such units are never part of a match.
-/

inductive Regex (α : Type)
  | unit (p : α → Bool)
  | seq (a b : Regex α)
  | alt (a b : Regex α)
  /-- At least `min` times, and at most `max`. -/
  | many (r : Regex α) (min : ℕ) (max : Option ℕ)
  /-- `\b`. -/
  | boundary
  | group (i : ℕ) (r : Regex α)
  | ref (i : ℕ)

namespace Regex

variable {α : Type}

/-- What was read, backwards, what is left, and what the groups have captured. -/
structure St (α : Type) where
  before : List α
  rest : List α
  groups : ℕ → List α

def St.init (s : List α) : St α := ⟨[], s, fun _ => []⟩

/-- What was read from `st` to `st'`. -/
def read (st st' : St α) : List α := st.rest.take (st.rest.length - st'.rest.length)

/-- The ends of `min` to `max` repetitions, the longest first. -/
def repeats (m : St α → List (St α)) : (fuel min : ℕ) → (max : Option ℕ) → St α → List (St α)
  | 0, min, _, st => if min = 0 then [st] else []
  | fuel + 1, min, max, st =>
    if max = some 0 then [st]
    else
      ((m st).filter fun st' => st'.rest.length < st.rest.length).flatMap
          (repeats m fuel (min - 1) (max.map (· - 1))) ++
        if min = 0 then [st] else []

variable [DecidableEq α] (word : α → Bool)

def atBoundary (st : St α) : Bool := st.before.head?.any word != st.rest.head?.any word

def runs : Regex α → St α → List (St α)
  | unit p, st =>
    match st.rest with
    | [] => []
    | c :: cs => if p c then [⟨c :: st.before, cs, st.groups⟩] else []
  | seq a b, st => (runs a st).flatMap (runs b)
  | alt a b, st => runs a st ++ runs b st
  | many r min max, st => repeats (runs r) st.rest.length min max st
  | boundary, st => if atBoundary word st then [st] else []
  | group i r, st => (runs r st).map fun st' => { st' with groups := Function.update st'.groups i (read st st') }
  | ref i, st =>
    let text := st.groups i
    if text.isPrefixOf st.rest then [⟨text.reverse ++ st.before, st.rest.drop text.length, st.groups⟩] else []

/-- The match at a place. -/
def find (r : Regex α) (st : St α) : Option (St α) := (runs word r st).head?

/-- `f` gets the text of the match and its groups. -/
def replaceFrom (r : Regex α) (f : List α → (ℕ → List α) → List α) : ℕ → (before rest : List α) → List α
  | 0, _, rest => rest
  | _ + 1, _, [] => []
  | n + 1, before, c :: cs =>
    match (find word r ⟨before, c :: cs, fun _ => []⟩).filter fun st => st.rest.length ≤ cs.length with
    | some st => f (read ⟨before, c :: cs, fun _ => []⟩ st) st.groups ++ replaceFrom r f n st.before st.rest
    | none => c :: replaceFrom r f n (c :: before) cs

def replaceAll (r : Regex α) (f : List α → (ℕ → List α) → List α) (s : List α) : List α :=
  replaceFrom word r f s.length [] s

/-- Whether there is a match in `s`. -/
def test (r : Regex α) (s : List α) : Bool :=
  (List.range (s.length + 1)).any fun i => (find word r ⟨(s.take i).reverse, s.drop i, fun _ => []⟩).isSome

/-- A match of `\br\b`. -/
theorem find_between (r : Regex α) (st : St α) : find word (.seq .boundary (.seq r .boundary)) st =
    if atBoundary word st then (runs word r st).find? (atBoundary word) else none := by
  have hfilter : ∀ l : List (St α), (l.flatMap (runs word boundary)).head? = l.find? (atBoundary word) := by
    intro l
    induction l with
    | nil => rfl
    | cons st l ih =>
      rw [List.flatMap_cons, List.find?_cons, runs]
      cases hst : atBoundary word st with
      | true => rfl
      | false => exact ih
  rw [find, runs, runs]
  split_ifs
  · rw [List.flatMap_singleton, runs, hfilter]
  · rfl

/-! ### Units that are in no match -/

variable {word}

/-- No class of the expression has the unit. -/
def Spares (c : α) : Regex α → Prop
  | unit p => p c = false
  | seq a b => a.Spares c ∧ b.Spares c
  | alt a b => a.Spares c ∧ b.Spares c
  | many r _ _ => r.Spares c
  | boundary => True
  | group _ r => r.Spares c
  | ref _ => True

instance decidableSpares (c : α) : ∀ r : Regex α, Decidable (r.Spares c)
  | unit p => inferInstanceAs (Decidable (p c = false))
  | seq a b | alt a b =>
    have := decidableSpares c a
    have := decidableSpares c b
    inferInstanceAs (Decidable (a.Spares c ∧ b.Spares c))
  | many r _ _ | group _ r => decidableSpares c r
  | boundary | ref _ => isTrue trivial

/-- `st'` comes after `st` without a unit `c` in between. -/
def After (c : α) (st st' : St α) : Prop :=
  ∃ u, st.rest = u ++ st'.rest ∧ st'.before = u.reverse ++ st.before ∧ c ∉ u

/-- No group has captured the unit. -/
def Free (c : α) (st : St α) : Prop := ∀ i, c ∉ st.groups i

omit [DecidableEq α] in
theorem After.refl {c : α} (st : St α) : After c st st := ⟨[], rfl, rfl, List.not_mem_nil⟩

omit [DecidableEq α] in
theorem After.trans {c : α} {st st' st'' : St α} (h : After c st st') (h' : After c st' st'') : After c st st'' := by
  obtain ⟨u, hrest, hbefore, hu⟩ := h
  obtain ⟨u', hrest', hbefore', hu'⟩ := h'
  refine ⟨u ++ u', ?_, ?_, ?_⟩
  · rw [hrest, hrest', List.append_assoc]
  · rw [hbefore', hbefore, List.reverse_append, List.append_assoc]
  · exact fun hmem => (List.mem_append.1 hmem).elim hu hu'

omit [DecidableEq α] in
theorem After.read_eq {c : α} {st st' : St α} (h : After c st st') :
    st.rest = read st st' ++ st'.rest ∧ c ∉ read st st' := by
  obtain ⟨u, hrest, -, hu⟩ := h
  have hread : read st st' = u := by
    rw [read, hrest, List.length_append, Nat.add_sub_cancel]
    exact List.take_left' rfl
  rw [hread]
  exact ⟨hrest, hu⟩

omit [DecidableEq α] in
theorem repeats_after {c : α} {m : St α → List (St α)}
    (hm : ∀ st, Free c st → ∀ st' ∈ m st, After c st st' ∧ Free c st') :
    ∀ (fuel min : ℕ) (max : Option ℕ) (st : St α), Free c st → ∀ st' ∈ repeats m fuel min max st,
      After c st st' ∧ Free c st' := by
  intro fuel
  induction fuel with
  | zero =>
    intro min max st hst st' h
    rw [repeats] at h
    split_ifs at h
    · obtain rfl := List.mem_singleton.1 h
      exact ⟨.refl _, hst⟩
    · cases h
  | succ fuel ih =>
    intro min max st hst st' h
    have hself : st' ∈ [st] → After c st st' ∧ Free c st' := by
      intro h
      obtain rfl := List.mem_singleton.1 h
      exact ⟨.refl _, hst⟩
    rw [repeats] at h
    split_ifs at h
    · exact hself h
    · rcases List.mem_append.1 h with h | h
      · obtain ⟨st₁, h₁, h⟩ := List.mem_flatMap.1 h
        obtain ⟨hafter, hfree⟩ := hm st hst st₁ (List.mem_filter.1 h₁).1
        obtain ⟨hafter', hfree'⟩ := ih _ _ st₁ hfree st' h
        exact ⟨hafter.trans hafter', hfree'⟩
      · exact hself h
    · rw [List.append_nil] at h
      obtain ⟨st₁, h₁, h⟩ := List.mem_flatMap.1 h
      obtain ⟨hafter, hfree⟩ := hm st hst st₁ (List.mem_filter.1 h₁).1
      obtain ⟨hafter', hfree'⟩ := ih _ _ st₁ hfree st' h
      exact ⟨hafter.trans hafter', hfree'⟩

theorem runs_after {c : α} : ∀ (r : Regex α), r.Spares c → ∀ st, Free c st → ∀ st' ∈ runs word r st,
    After c st st' ∧ Free c st'
  | unit p, hr, st, hst, st', h => by
    rw [runs] at h
    split at h
    · cases h
    · next d cs hrest =>
      split_ifs at h with hp
      · obtain rfl := List.mem_singleton.1 h
        refine ⟨⟨[d], hrest, rfl, fun hmem => ?_⟩, hst⟩
        obtain rfl := List.mem_singleton.1 hmem
        exact absurd hp (by rw [show p c = false from hr]; exact Bool.false_ne_true)
      · cases h
  | seq a b, hr, st, hst, st', h => by
    rw [runs] at h
    obtain ⟨st₁, h₁, h⟩ := List.mem_flatMap.1 h
    obtain ⟨hafter, hfree⟩ := runs_after a hr.1 st hst st₁ h₁
    obtain ⟨hafter', hfree'⟩ := runs_after b hr.2 st₁ hfree st' h
    exact ⟨hafter.trans hafter', hfree'⟩
  | alt a b, hr, st, hst, st', h => by
    rw [runs] at h
    rcases List.mem_append.1 h with h | h
    · exact runs_after a hr.1 st hst st' h
    · exact runs_after b hr.2 st hst st' h
  | many r min max, hr, st, hst, st', h => by
    rw [runs] at h
    exact repeats_after (fun st hst st' h => runs_after r hr st hst st' h) _ _ _ st hst st' h
  | boundary, _, st, hst, st', h => by
    rw [runs] at h
    split_ifs at h
    · obtain rfl := List.mem_singleton.1 h
      exact ⟨.refl _, hst⟩
    · cases h
  | group i r, hr, st, hst, st', h => by
    rw [runs] at h
    obtain ⟨st₁, h₁, rfl⟩ := List.mem_map.1 h
    obtain ⟨hafter, hfree⟩ := runs_after r hr st hst st₁ h₁
    refine ⟨hafter, fun j => ?_⟩
    show c ∉ Function.update st₁.groups i (read st st₁) j
    by_cases hj : j = i
    · subst hj
      rw [Function.update_self]
      exact hafter.read_eq.2
    · rw [Function.update_of_ne hj]
      exact hfree j
  | ref i, _, st, hst, st', h => by
    rw [runs] at h
    split_ifs at h with hpre
    · obtain rfl := List.mem_singleton.1 h
      obtain ⟨rest, hrest⟩ := List.isPrefixOf_iff_prefix.1 hpre
      refine ⟨⟨st.groups i, ?_, rfl, hst i⟩, hst⟩
      show st.rest = st.groups i ++ st.rest.drop (st.groups i).length
      rw [← hrest, List.drop_left]
    · cases h

/-- A replacement that neither reads nor writes a unit leaves their number. -/
theorem count_replaceAll {c : α} {r : Regex α} {f : List α → (ℕ → List α) → List α} (hr : r.Spares c)
    (hf : ∀ u groups, (∀ i, c ∉ groups i) → c ∉ f u groups) (s : List α) :
    (replaceAll word r f s).count c = s.count c := by
  suffices h : ∀ n before rest, (replaceFrom word r f n before rest).count c = rest.count c from h _ _ _
  intro n
  induction n with
  | zero => exact fun _ _ => rfl
  | succ n ih =>
    intro before rest
    cases rest with
    | nil => rfl
    | cons d cs =>
      rw [replaceFrom]
      split
      · next st hst =>
        obtain ⟨hfind, -⟩ := Option.filter_eq_some_iff.1 hst
        have hmem : st ∈ runs word r ⟨before, d :: cs, fun _ => []⟩ := List.mem_of_head? hfind
        obtain ⟨hafter, hfree⟩ := runs_after r hr ⟨before, d :: cs, fun _ => []⟩ (fun _ => List.not_mem_nil) st hmem
        obtain ⟨hrest, hread⟩ := hafter.read_eq
        have hcount := congrArg (List.count c) hrest
        rw [List.count_append, List.count_eq_zero_of_not_mem hread, Nat.zero_add] at hcount
        rw [List.count_append, List.count_eq_zero_of_not_mem (hf _ _ hfree), Nat.zero_add, ih]
        exact hcount.symm
      · rw [List.count_cons, List.count_cons, ih]

end Regex
