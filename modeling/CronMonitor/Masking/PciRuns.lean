import CronMonitor.Masking.Pci

/-!
# The expressions of `scrubPci` on runs of digits

A repetition of `panDigit` is followed digit by digit through a run (`panFrom_run`) and run by run through a chain
(`panNext_lands`); a match then ends where `cut` says. `replaceAll_render` turns what an expression matches at the start
of a run into what `replace` does to the whole text.
-/

namespace CronMonitor.Masking

open Utf16 Regex

/-! ### Units -/

theorem isWord_of_isDigit {d : UInt16} (hd : Json.isDigit d = true) : isWord d = true := by
  rw [isWord, hd]
  rfl

theorem isDigit_of_isSep {c : UInt16} (hc : isSep c = true) : Json.isDigit c = false := by
  rcases Bool.or_eq_true _ _ ▸ hc with h | h
  · rw [of_decide_eq_true h]
    decide
  · rw [of_decide_eq_true h]
    decide

theorem isWord_of_isSep {c : UInt16} (hc : isSep c = true) : isWord c = false := by
  rcases Bool.or_eq_true _ _ ▸ hc with h | h
  · rw [of_decide_eq_true h]
    decide
  · rw [of_decide_eq_true h]
    decide

theorem isSep_of_isDigit {d : UInt16} (hd : Json.isDigit d = true) : isSep d = false := by
  cases hc : isSep d with
  | false => rfl
  | true =>
    rw [isDigit_of_isSep hc] at hd
    cases hd

/-! ### What comes next -/

theorem head_cons {c : UInt16} {cs : JsString} (hc : Json.isDigit c = false) :
    ∀ c' ∈ (c :: cs).head?, Json.isDigit c' = false :=
  fun _ hc' => Option.some.inj hc' ▸ hc

/-- What follows a run is no digit. -/
theorem head_of_startsRun {ts : List Token} (hts : WellFormed ts) (hstart : startsRun ts = false) :
    ∀ c ∈ (render ts).head?, Json.isDigit c = false := by
  intro c hc
  match ts, hts with
  | [], _ => cases hc
  | .digits _ :: _, _ => cases hstart
  | .other d :: ts, hts =>
    obtain rfl : d = c := Option.some.inj hc
    exact hts.1

theorem nextWord_render {ts : List Token} (hts : WellFormed ts) : (render ts).head?.any isWord = nextWord ts := by
  match ts, hts with
  | [], _ => rfl
  | .other c :: ts, _ => rfl
  | .digits [] :: ts, hts => exact absurd rfl hts.1
  | .digits (d :: ds) :: ts, hts => exact isWord_of_isDigit (hts.2.1 d (List.mem_cons_self ..))

theorem WellFormed.suffix {ts ts' : List Token} (hts : WellFormed ts) (h : ts' <:+ ts) : WellFormed ts' := by
  induction ts with
  | nil =>
    rw [List.suffix_nil.1 h]
    trivial
  | cons t ts ih =>
    rcases List.suffix_cons_iff.1 h with rfl | h'
    · exact hts
    · cases t with
      | digits ds => exact ih hts.2.2.2 h'
      | other c => exact ih hts.2 h'

/-! ### One digit of a card number -/

/-- A match of at least `min` digits, of which `k` are read, that may end here. -/
def stopAt (min k : ℕ) (st : St UInt16) : Option (St UInt16) :=
  if min ≤ k ∧ atBoundary isWord st = true then some st else none

/-- The end of a card number of which `k` digits are read. -/
def panFrom (fuel k : ℕ) (st : St UInt16) : Option (St UInt16) :=
  (repeats (runs isWord panDigit) fuel (13 - k) (some (19 - k)) st).find? (atBoundary isWord)

/-- The same right after a digit, whose separator may be read with it. -/
def panNext (fuel k : ℕ) : St UInt16 → Option (St UInt16)
  | ⟨before, c :: cs, groups⟩ =>
    (if isSep c then panFrom fuel k ⟨c :: before, cs, groups⟩ else none).or (panFrom fuel k ⟨before, c :: cs, groups⟩)
  | st => panFrom fuel k st

theorem repeats_none (m : St UInt16 → List (St UInt16)) (fuel : ℕ) (st : St UInt16) :
    repeats m fuel 0 (some 0) st = [st] := by
  cases fuel with
  | zero => rfl
  | succ fuel => rfl

theorem runs_panDigit (before : JsString) (d : UInt16) (cs : JsString) (groups : ℕ → JsString)
    (hd : Json.isDigit d = true) : runs isWord panDigit ⟨before, d :: cs, groups⟩ =
      (match cs with
        | c :: cs' => if isSep c then [⟨c :: d :: before, cs', groups⟩] else []
        | [] => []) ++ [⟨d :: before, cs, groups⟩] := by
  have hseq : runs isWord panDigit ⟨before, d :: cs, groups⟩ =
      repeats (runs isWord (.unit isSep)) cs.length 0 (some 1) ⟨d :: before, cs, groups⟩ := by
    rw [panDigit, runs, runs]
    simp only [hd, if_true, List.flatMap_singleton]
    rw [runs]
  rw [hseq]
  cases cs with
  | nil => rfl
  | cons c cs =>
    rw [List.length_cons, repeats, runs]
    by_cases hc : isSep c
    · simp [hc, repeats_none]
    · simp [hc]

theorem runs_panDigit_of_ne {st : St UInt16} (h : ∀ c ∈ st.rest.head?, Json.isDigit c = false) :
    runs isWord panDigit st = [] := by
  obtain ⟨before, rest, groups⟩ := st
  rw [panDigit, runs, runs]
  cases rest with
  | nil => rfl
  | cons c cs =>
    have hc : Json.isDigit c = false := h c rfl
    simp [hc]

theorem find?_stop (min k : ℕ) (st : St UInt16) :
    (if min - k = 0 then [st] else []).find? (atBoundary isWord) = stopAt min k st := by
  rw [stopAt]
  by_cases hk : min ≤ k
  · rw [if_pos (by omega), List.find?_singleton]
    simp [hk]
  · rw [if_neg (by omega), if_neg (by omega)]
    rfl

theorem panFrom_stop {fuel k : ℕ} {st : St UInt16} (h : ∀ c ∈ st.rest.head?, Json.isDigit c = false) :
    panFrom fuel k st = stopAt 13 k st := by
  rw [← find?_stop, panFrom]
  cases fuel with
  | zero => rfl
  | succ fuel =>
    rw [repeats, runs_panDigit_of_ne h]
    by_cases hk : 19 ≤ k
    · rw [if_pos (by rw [Nat.sub_eq_zero_of_le hk]), if_pos (by omega)]
    · rw [if_neg (by simp; omega)]
      rfl

theorem panFrom_cons {fuel k : ℕ} {before : JsString} {c : UInt16} {cs : JsString} {groups : ℕ → JsString}
    (hc : Json.isDigit c = false) :
    panFrom fuel k ⟨before, c :: cs, groups⟩ = stopAt 13 k ⟨before, c :: cs, groups⟩ :=
  panFrom_stop (head_cons hc)

theorem panFrom_full {fuel k : ℕ} {st : St UInt16} (hk : 19 ≤ k) : panFrom fuel k st = stopAt 13 k st := by
  rw [← find?_stop, panFrom, Nat.sub_eq_zero_of_le hk, Nat.sub_eq_zero_of_le (by omega), repeats_none]
  rfl

theorem panFrom_digit {fuel k : ℕ} {before : JsString} {d : UInt16} {cs : JsString} {groups : ℕ → JsString}
    (hk : k < 19) (hd : Json.isDigit d = true) : panFrom (fuel + 1) k ⟨before, d :: cs, groups⟩ =
      (panNext fuel (k + 1) ⟨d :: before, cs, groups⟩).or (stopAt 13 k ⟨before, d :: cs, groups⟩) := by
  have hmin : 13 - k - 1 = 13 - (k + 1) := by omega
  have hmax : (some (19 - k)).map (· - 1) = some (19 - (k + 1)) := by
    rw [Option.map_some, show 19 - k - 1 = 19 - (k + 1) by omega]
  rw [panFrom, repeats, if_neg (by simp; omega), runs_panDigit _ _ _ _ hd, List.find?_append, find?_stop, hmin, hmax]
  congr 1
  cases cs with
  | nil =>
    rw [panNext, panFrom]
    · simp
    · simp
  | cons c cs =>
    rw [panNext, panFrom, panFrom]
    generalize repeats (runs isWord panDigit) fuel (13 - (k + 1)) (some (19 - (k + 1))) = f
    by_cases hc : isSep c
    · simp [hc]
    · simp [hc]

/-! ### A run, and a chain of runs -/

/-- Neither expression matches, or both do and leave the same text; `before` need only be right in front of a run. -/
inductive Lands : Option (St UInt16) → Option (List Token) → Prop
  | fails : Lands none none
  | goesOn {st : St UInt16} {ts : List Token} (hrest : st.rest = render ts)
      (hword : startsRun ts = true → st.before.head?.any isWord = false) : Lands (some st) (some ts)

theorem Lands.or {o o' : Option (St UInt16)} {t t' : Option (List Token)} (h : Lands o t) (h' : Lands o' t') :
    Lands (o.or o') (t.or t') := by
  cases h with
  | fails => exact h'
  | goesOn hrest hword => exact .goesOn hrest hword

/-- A match that may end where nothing is read with it. -/
theorem stopAt_lands {min k : ℕ} {st : St UInt16} {ts : List Token} {p : Prop} [Decidable p] (hrest : st.rest = render ts)
    (hword : startsRun ts = true → st.before.head?.any isWord = false)
    (hp : p ↔ min ≤ k ∧ atBoundary isWord st = true) : Lands (stopAt min k st) (if p then some ts else none) := by
  rw [stopAt]
  by_cases h : p
  · rw [if_pos h, if_pos (hp.1 h)]
    exact .goesOn hrest hword
  · rw [if_neg h, if_neg fun h' => h (hp.2 h')]
    exact .fails

theorem stopAt_inside {min k : ℕ} {before : JsString} {d : UInt16} {cs : JsString} {groups : ℕ → JsString}
    (hbefore : before.head?.any isWord = true) (hd : Json.isDigit d = true) :
    stopAt min k ⟨before, d :: cs, groups⟩ = none := by
  refine if_neg fun h => ?_
  have hb := h.2
  rw [atBoundary, hbefore, List.head?_cons, Option.any_some, isWord_of_isDigit hd] at hb
  cases hb

theorem panNext_digit {fuel k : ℕ} {before : JsString} {d : UInt16} {cs : JsString} {groups : ℕ → JsString}
    (hd : Json.isDigit d = true) :
    panNext fuel k ⟨before, d :: cs, groups⟩ = panFrom fuel k ⟨before, d :: cs, groups⟩ := by
  rw [panNext, isSep_of_isDigit hd]
  rfl

/-- Inside a run no match ends, so that it is read to its end or not at all. -/
theorem panFrom_run {groups : ℕ → JsString} {rest : JsString} : ∀ (ds : JsString), ds ≠ [] →
    (∀ d ∈ ds, Json.isDigit d = true) → ∀ (fuel k : ℕ) (before : JsString),
    panFrom (fuel + ds.length) k ⟨before, ds ++ rest, groups⟩ =
      (if k + ds.length ≤ 19 then panNext fuel (k + ds.length) ⟨ds.reverse ++ before, rest, groups⟩ else none).or
        (stopAt 13 k ⟨before, ds ++ rest, groups⟩) := by
  intro ds
  induction ds with
  | nil => exact fun h => absurd rfl h
  | cons d ds ih =>
    intro _ hds fuel k before
    obtain ⟨hd, hds⟩ := List.forall_mem_cons.1 hds
    rw [List.length_cons, ← Nat.add_assoc, List.cons_append]
    by_cases hk : k < 19
    · rw [panFrom_digit hk hd]
      cases ds with
      | nil => rw [if_pos (by simp only [List.length_nil]; omega)]; rfl
      | cons d' ds =>
        have hd' : Json.isDigit d' = true := hds d' (List.mem_cons_self ..)
        have hinside : (d :: before).head?.any isWord = true := isWord_of_isDigit hd
        rw [List.cons_append, panNext_digit hd', ← List.cons_append, ih (List.cons_ne_nil _ _) hds, List.cons_append,
          stopAt_inside hinside hd', Option.or_none, List.reverse_cons (a := d), List.append_assoc]
        simp only [List.length_cons, List.singleton_append, Nat.add_assoc, Nat.add_comm 1]
    · rw [panFrom_full (by omega), if_neg (by omega), Option.none_or]

theorem cut_none {n : ℕ} {ts : List Token} (hn : 19 < n) : cut n ts = none := by
  fun_induction cut n ts with
  | case1 => omega
  | case2 => rfl
  | case3 => rfl
  | case4 n c hc ds ts ih =>
    rw [ih (by omega), Option.none_or, if_neg (by omega)]
  | case5 => omega
  | case6 => rfl
  | case7 => omega
  | case8 => rfl

theorem stopAt_or {min k : ℕ} {st st' : St UInt16} (hst : atBoundary isWord st = true) :
    (stopAt min k st).or (stopAt min k st') = stopAt min k st := by
  by_cases hk : min ≤ k
  · rw [stopAt, if_pos ⟨hk, hst⟩, Option.some_or]
  · rw [stopAt, stopAt, if_neg fun h => hk h.1, if_neg fun h => hk h.1, Option.none_or]

/-- Between two runs: a match that has read the separator ends in front of the run, if it does not go on. -/
theorem panNext_sep {groups : ℕ → JsString} {n : ℕ} {ds : JsString} {ts ts' : List Token} {c : UInt16}
    (hts : WellFormed (.digits ds :: ts)) (hc : isSep c = true) {fuel : ℕ} {before : JsString}
    (hn : n ≤ 19) {o : Option (List Token)} (hts' : ts' = .digits ds :: ts)
    (ih : n + ds.length ≤ 19 → Lands
      (panNext fuel (n + ds.length) ⟨ds.reverse ++ c :: before, render ts, groups⟩) o)
    (ho : 19 < n + ds.length → o = none) :
    Lands (panNext (fuel + ds.length) n ⟨before, c :: render ts', groups⟩)
      (o.or (if 13 ≤ n ∧ n ≤ 19 then some ts' else none)) := by
  obtain ⟨hne, hds, -, -⟩ := hts
  obtain ⟨d, cs, hcons⟩ : ∃ d cs, ds = d :: cs := List.exists_cons_of_ne_nil hne
  have hrender : render ts' = ds ++ render ts := by rw [hts', render_cons, Token.text]
  have hword : atBoundary isWord ⟨c :: before, ds ++ render ts, groups⟩ = true := by
    rw [atBoundary, hcons, List.cons_append, List.head?_cons, List.head?_cons, Option.any_some, Option.any_some,
      isWord_of_isSep hc, isWord_of_isDigit (hds d (hcons ▸ List.mem_cons_self ..))]
    rfl
  rw [panNext, if_pos hc, panFrom_cons (isDigit_of_isSep hc), hrender,
    panFrom_run ds hne hds, Option.or_assoc, stopAt_or hword]
  refine Lands.or ?_ (stopAt_lands hrender.symm (fun _ => ?_) ?_)
  · split_ifs with hle
    · exact ih hle
    · rw [ho (by omega)]
      exact .fails
  · exact isWord_of_isSep hc
  · simp only [hword, and_true]
    omega

/-- The last unit of a run. -/
theorem head_reverse {ds before : JsString} (hne : ds ≠ []) (hds : ∀ d ∈ ds, Json.isDigit d = true) :
    (ds.reverse ++ before).head?.any isWord = true := by
  rw [List.head?_append, List.head?_reverse, List.getLast?_eq_some_getLast hne, Option.some_or, Option.any_some]
  exact isWord_of_isDigit (hds _ (List.getLast_mem hne))

theorem atBoundary_word {before rest : JsString} {groups : ℕ → JsString} (hbefore : before.head?.any isWord = true) :
    atBoundary isWord ⟨before, rest, groups⟩ = true ↔ rest.head?.any isWord = false := by
  rw [atBoundary, hbefore, Bool.true_bne, Bool.not_eq_true']

theorem panNext_other {groups : ℕ → JsString} {n fuel : ℕ} {before cs : JsString} {c : UInt16}
    (hc : isSep c = false) (hdigit : Json.isDigit c = false) :
    panNext fuel n ⟨before, c :: cs, groups⟩ = stopAt 13 n ⟨before, c :: cs, groups⟩ := by
  rw [panNext, hc, if_neg Bool.false_ne_true, Option.none_or, panFrom_stop (head_cons hdigit)]

/-- In front of a separator after which no run starts. -/
theorem panNext_last {groups : ℕ → JsString} {n fuel : ℕ} {before : JsString} {c : UInt16} {ts : List Token}
    (hts : WellFormed ts) (hstart : startsRun ts = false) (hc : isSep c = true) (hn : n ≤ 19)
    (hbefore : before.head?.any isWord = true) :
    Lands (panNext fuel n ⟨before, c :: render ts, groups⟩)
      (if 13 ≤ n ∧ n ≤ 19 then some (if nextWord ts then ts else .other c :: ts) else none) := by
  have hword := isWord_of_isSep hc
  have hdigit := isDigit_of_isSep hc
  have hafter : atBoundary isWord ⟨c :: before, render ts, groups⟩ = nextWord ts := by
    rw [atBoundary, nextWord_render hts, List.head?_cons, Option.any_some, hword, Bool.false_bne]
  have hfront : atBoundary isWord ⟨before, c :: render ts, groups⟩ = true := (atBoundary_word hbefore).2 hword
  rw [panNext, if_pos hc, panFrom_stop (head_of_startsRun hts hstart),
    panFrom_cons hdigit]
  cases hnext : nextWord ts with
  | true =>
    rw [stopAt_or (hafter.trans hnext), if_pos rfl]
    refine stopAt_lands rfl (fun h => absurd h (by rw [hstart]; exact Bool.false_ne_true)) ?_
    simp only [hafter, hnext, and_true]
    omega
  | false =>
    have hnone : stopAt 13 n ⟨c :: before, render ts, groups⟩ = none := by
      refine if_neg fun h => ?_
      rw [hafter, hnext] at h
      exact Bool.false_ne_true h.2
    rw [hnone, Option.none_or, if_neg Bool.false_ne_true]
    refine stopAt_lands rfl nofun ?_
    simp only [hfront, and_true]
    omega

/-- In front of a unit that no chain goes on with. -/
theorem panNext_front {groups : ℕ → JsString} {n fuel : ℕ} {before : JsString} {c : UInt16} {ts : List Token}
    (hdigit : Json.isDigit c = false) (hc : isSep c = false) (hn : n ≤ 19) (hbefore : before.head?.any isWord = true) :
    Lands (panNext fuel n ⟨before, c :: render ts, groups⟩) (cut n (.other c :: ts)) := by
  have hfront : atBoundary isWord ⟨before, c :: render ts, groups⟩ = true ↔ isWord c = false := atBoundary_word hbefore
  rw [cut.eq_def]
  simp only [hc, panNext_other hc hdigit, Bool.false_eq_true, if_false]
  refine stopAt_lands rfl (fun h => by cases h) ?_
  simp only [hfront, hn, true_and]

theorem cut_last {n : ℕ} {c : UInt16} {ts : List Token} (hc : isSep c = true) (hstart : startsRun ts = false) :
    cut n (.other c :: ts) =
      if 13 ≤ n ∧ n ≤ 19 then some (if nextWord ts then ts else .other c :: ts) else none := by
  rw [cut.eq_def]
  cases ts with
  | nil => simp only [hc, if_true]
  | cons t ts =>
    cases t with
    | digits ds => cases hstart
    | other d => simp only [hc, if_true]

theorem panNext_lands {groups : ℕ → JsString} (ts : List Token) : WellFormed ts → startsRun ts = false →
    ∀ (n : ℕ), n ≤ 19 → ∀ (fuel : ℕ) (before : JsString), (render ts).length ≤ fuel →
    before.head?.any isWord = true → Lands (panNext fuel n ⟨before, render ts, groups⟩) (cut n ts) := by
  -- a separator is read together with the run behind it
  induction ts using List.twoStepInduction with
  | nil =>
    intro _ _ n hn fuel before _ hbefore
    have hend : atBoundary isWord ⟨before, [], groups⟩ = true := (atBoundary_word hbefore).2 rfl
    show Lands (panFrom fuel n ⟨before, [], groups⟩) _
    rw [cut, panFrom_stop fun _ h => by cases h]
    refine stopAt_lands rfl (fun h => by cases h) ?_
    simp only [hend, and_true]
    omega
  | singleton t =>
    intro hts hstart n hn fuel before _ hbefore
    cases t with
    | digits ds => cases hstart
    | other c =>
      cases hc : isSep c with
      | false => exact panNext_front hts.1 hc hn hbefore
      | true =>
        rw [cut_last hc rfl]
        exact panNext_last hts.2 rfl hc hn hbefore
  | cons_cons t u ts ih _ =>
    intro hts hstart n hn fuel before hfuel hbefore
    cases t with
    | digits ds => cases hstart
    | other c =>
      cases hc : isSep c with
      | false => exact panNext_front hts.1 hc hn hbefore
      | true =>
        cases u with
        | digits ds =>
          obtain ⟨hne, hds, hstart, hts'⟩ := hts.2
          simp only [render_cons, Token.text, List.length_append, List.length_singleton] at hfuel
          obtain ⟨fuel', rfl⟩ := Nat.le.dest (show ds.length ≤ fuel by omega)
          rw [Nat.add_comm ds.length, cut, if_pos hc]
          refine panNext_sep hts.2 hc hn rfl (fun hle => ?_) fun hgt => cut_none hgt
          exact ih hts' hstart _ hle _ _ (by omega) (head_reverse hne hds)
        | other d =>
          rw [cut_last hc rfl]
          exact panNext_last hts.2 rfl hc hn hbefore

/-! ### The whole text -/

/-- What an expression that matches at the start of a run, or not at all, takes off the text there. -/
structure Scans (r : Regex UInt16) (step : Bool → JsString → List Token → Option (List Token)) : Prop where
  other : ∀ {before : JsString} {c : UInt16} (cs : JsString), Json.isDigit c = false →
    find isWord r ⟨before, c :: cs, fun _ => []⟩ = none
  run : ∀ {before ds : JsString} {ts : List Token}, WellFormed (.digits ds :: ts) →
    Lands (find isWord r ⟨before, ds ++ render ts, fun _ => []⟩) (step (before.head?.any isWord) ds ts)
  inside : ∀ (ds : JsString) (ts : List Token), step true ds ts = none
  suffix : ∀ {word : Bool} {ds : JsString} {ts ts' : List Token}, step word ds ts = some ts' → ts' <:+ ts

theorem render_suffix {ts ts' : List Token} (h : ts' <:+ ts) : (render ts').length ≤ (render ts).length := by
  obtain ⟨u, rfl⟩ := h
  rw [render_append, List.length_append]
  omega

variable {r : Regex UInt16} {step : Bool → JsString → List Token → Option (List Token)}

theorem Scans.filter_step (h : Scans r step) (word : Bool) (ds : JsString) (ts : List Token) :
    ((step word ds ts).filter fun ts' => ts'.length ≤ ts.length) = step word ds ts := by
  cases hstep : step word ds ts with
  | none => rfl
  | some ts' => exact Option.filter_eq_some_iff.2 ⟨rfl, by simpa using (h.suffix hstep).length_le⟩

/-- No match at the start of a run, so none in it. -/
theorem Scans.replaceFrom_run (h : Scans r step) {f : JsString → (ℕ → JsString) → JsString} {ts : List Token} :
    ∀ (ds : JsString), WellFormed (.digits ds :: ts) → ∀ (n : ℕ) (before : JsString),
    step (before.head?.any isWord) ds ts = none → replaceFrom isWord r f (n + ds.length) before (ds ++ render ts) =
      ds ++ replaceFrom isWord r f n (ds.reverse ++ before) (render ts) := by
  intro ds
  induction ds with
  | nil => exact fun hts => absurd rfl hts.1
  | cons d ds ih =>
    intro hts n before hstep
    have hnone : find isWord r ⟨before, d :: (ds ++ render ts), fun _ => []⟩ = none := by
      have hrun := @Scans.run _ _ h before _ _ hts
      rw [hstep, List.cons_append] at hrun
      cases heq : find isWord r ⟨before, d :: (ds ++ render ts), fun _ => []⟩ with
      | none => rfl
      | some st =>
        rw [heq] at hrun
        cases hrun
    obtain ⟨-, hds, hstart, hts'⟩ := hts
    have hd : (d :: before).head?.any isWord = true := isWord_of_isDigit (hds d (List.mem_cons_self ..))
    rw [List.length_cons, ← Nat.add_assoc, List.cons_append, replaceFrom, hnone]
    show d :: replaceFrom isWord r f (n + ds.length) (d :: before) (ds ++ render ts) = _
    cases ds with
    | nil => rfl
    | cons d' ds =>
      rw [ih ⟨List.cons_ne_nil _ _, fun e he => hds e (List.mem_cons_of_mem _ he), hstart, hts'⟩ n _
        (by rw [hd]; exact h.inside _ _)]
      simp [List.reverse_cons (a := d)]

theorem Scans.replaceFrom_match (h : Scans r step) {f : JsString → (ℕ → JsString) → JsString} {ds : JsString}
    {ts ts' : List Token} (hts : WellFormed (.digits ds :: ts)) {n : ℕ} {before : JsString}
    (hn : (ds ++ render ts).length ≤ n) (hstep : step (before.head?.any isWord) ds ts = some ts') :
    ∃ (st : St UInt16) (n' : ℕ), (render ts').length ≤ n' ∧
      (startsRun ts' = true → st.before.head?.any isWord = false) ∧
      replaceFrom isWord r f n before (ds ++ render ts) =
        f (read ⟨before, ds ++ render ts, fun _ => []⟩ st) st.groups ++
          replaceFrom isWord r f n' st.before (render ts') := by
  have hrun := @Scans.run _ _ h before _ _ hts
  rw [hstep] at hrun
  cases heq : find isWord r ⟨before, ds ++ render ts, fun _ => []⟩ with
  | none =>
    rw [heq] at hrun
    cases hrun
  | some st =>
    rw [heq] at hrun
    obtain ⟨d, cs, rfl⟩ := List.exists_cons_of_ne_nil hts.1
    cases hrun with
    | goesOn hrest hword =>
      have hlen := render_suffix (h.suffix hstep)
      rw [List.length_append, List.length_cons] at hn
      obtain ⟨n, rfl⟩ : ∃ n', n = n' + 1 := ⟨n - 1, by omega⟩
      refine ⟨st, n, by omega, hword, ?_⟩
      have hshort : st.rest.length ≤ (cs ++ render ts).length := by
        rw [hrest, List.length_append]
        omega
      rw [List.cons_append] at heq ⊢
      rw [replaceFrom, heq, Option.filter_some, if_pos (decide_eq_true hshort), ← hrest]

theorem Scans.replaceFrom_render (h : Scans r step) {mark : JsString} {ts : List Token} (hts : WellFormed ts)
    {word : Bool} {n : ℕ} {before : JsString} (hn : (render ts).length ≤ n)
    (hword : startsRun ts = true → before.head?.any isWord = word) :
    replaceFrom isWord r (fun _ _ => mark) n before (render ts) = render (redact mark step word ts) := by
  fun_induction redact mark step word ts generalizing n before with
  | case1 word => cases n <;> rfl
  | case2 word c ts ih =>
    rw [render_cons, Token.text, List.length_append, List.length_singleton] at hn
    obtain ⟨n, rfl⟩ : ∃ n', n = n' + 1 := ⟨n - 1, by omega⟩
    show replaceFrom isWord r _ (n + 1) before (c :: render ts) = c :: render (redact mark step (isWord c) ts)
    rw [replaceFrom, h.other _ hts.1]
    exact congrArg (c :: ·) (ih hts.2 (by omega) fun _ => rfl)
  | case3 word ds ts ts' hstep ih =>
    rw [h.filter_step] at hstep
    rw [render_cons, Token.text] at hn ⊢
    rw [← hword rfl] at hstep
    obtain ⟨st, n', hn', hword', heq⟩ := h.replaceFrom_match (f := fun _ _ => mark) hts hn hstep
    rw [heq, ih (hts.2.2.2.suffix (h.suffix hstep)) hn' hword', render_append]
    congr 1
    exact (List.flatMap_map ..).trans (List.flatMap_singleton' _) |>.symm
  | case4 word ds ts hstep ih =>
    rw [h.filter_step, ← hword rfl] at hstep
    rw [render_cons, Token.text, List.length_append] at hn
    obtain ⟨n, rfl⟩ := Nat.le.dest (show ds.length ≤ n by omega)
    obtain ⟨-, -, hstart, hts'⟩ := id hts
    rw [render_cons, Token.text, Nat.add_comm ds.length, h.replaceFrom_run ds hts n before hstep, render_cons,
      Token.text, ih hts' (by omega) fun h => absurd h (by rw [hstart]; exact Bool.false_ne_true)]

/-- What the replacement of every match does to the runs of a text. -/
theorem Scans.replaceAll_render (h : Scans r step) {mark : JsString} {ts : List Token} (hts : WellFormed ts) :
    replaceAll isWord r (fun _ _ => mark) (render ts) = render (redact mark step false ts) :=
  h.replaceFrom_render hts le_rfl fun _ => rfl

/-! ### The two expressions -/

theorem atBoundary_run {before rest : JsString} {d : UInt16} {groups : ℕ → JsString} (hd : Json.isDigit d = true) :
    atBoundary isWord ⟨before, d :: rest, groups⟩ = !before.head?.any isWord := by
  rw [atBoundary, List.head?_cons, Option.any_some, isWord_of_isDigit hd, Bool.bne_true]

theorem pan_scans : Scans PAN card where
  other {before c} cs hc := by
    rw [PAN, find_between, runs]
    split_ifs
    · show panFrom _ 0 _ = none
      rw [panFrom_cons hc]
      rfl
    · rfl
  run {before ds ts} hts := by
    obtain ⟨d, cs, hcons⟩ := List.exists_cons_of_ne_nil hts.1
    obtain ⟨hne, hds, hstart, hts'⟩ := hts
    have hfront : atBoundary isWord ⟨before, ds ++ render ts, fun _ => []⟩ = !before.head?.any isWord := by
      rw [hcons]
      exact atBoundary_run (hds d (hcons ▸ List.mem_cons_self ..))
    rw [PAN, find_between, hfront, card]
    cases before.head?.any isWord with
    | true => exact .fails
    | false =>
      show Lands (panFrom (ds ++ render ts).length 0 _) (cut ds.length ts)
      have hstop : stopAt 13 0 ⟨before, ds ++ render ts, fun _ => []⟩ = none := rfl
      rw [List.length_append, Nat.add_comm ds.length, panFrom_run ds hne hds, hstop, Option.or_none, Nat.zero_add]
      split_ifs with hle
      · exact panNext_lands ts hts' hstart _ hle _ _ le_rfl (head_reverse hne hds)
      · rw [cut_none (by omega)]
        exact .fails
  inside ds ts := rfl
  suffix := card_suffix

/-- The end of a long run of which `k` digits are read. -/
def numberFrom (fuel k : ℕ) (st : St UInt16) : Option (St UInt16) :=
  (repeats (runs isWord (.unit Json.isDigit)) fuel (10 - k) none st).find? (atBoundary isWord)

theorem numberFrom_stop {fuel k : ℕ} {st : St UInt16} (h : ∀ c ∈ st.rest.head?, Json.isDigit c = false) :
    numberFrom fuel k st = stopAt 10 k st := by
  obtain ⟨before, rest, groups⟩ := st
  rw [← find?_stop, numberFrom]
  cases fuel with
  | zero => rfl
  | succ fuel =>
    rw [repeats, if_neg (by simp), runs]
    cases rest with
    | nil => rfl
    | cons c cs =>
      have hc : Json.isDigit c = false := h c rfl
      simp [hc]

theorem numberFrom_cons {fuel k : ℕ} {before : JsString} {c : UInt16} {cs : JsString} {groups : ℕ → JsString}
    (hc : Json.isDigit c = false) :
    numberFrom fuel k ⟨before, c :: cs, groups⟩ = stopAt 10 k ⟨before, c :: cs, groups⟩ :=
  numberFrom_stop (head_cons hc)

theorem numberFrom_digit {fuel k : ℕ} {before : JsString} {d : UInt16} {cs : JsString} {groups : ℕ → JsString}
    (hd : Json.isDigit d = true) : numberFrom (fuel + 1) k ⟨before, d :: cs, groups⟩ =
      (numberFrom fuel (k + 1) ⟨d :: before, cs, groups⟩).or (stopAt 10 k ⟨before, d :: cs, groups⟩) := by
  have hmin : 10 - k - 1 = 10 - (k + 1) := by omega
  rw [numberFrom, repeats, if_neg (by simp), List.find?_append, find?_stop, runs, hmin, numberFrom]
  simp [hd]

theorem numberFrom_run {groups : ℕ → JsString} {rest : JsString} (hrest : ∀ c ∈ rest.head?, Json.isDigit c = false)
    (fuel : ℕ) : ∀ (ds : JsString), (∀ d ∈ ds, Json.isDigit d = true) → ∀ (k : ℕ) (before : JsString),
    before.head?.any isWord = true ∨ k = 0 ∧ ds ≠ [] →
    numberFrom (fuel + ds.length) k ⟨before, ds ++ rest, groups⟩ =
      if 10 ≤ k + ds.length ∧ rest.head?.any isWord = false then some ⟨ds.reverse ++ before, rest, groups⟩ else none
    := by
  intro ds
  induction ds with
  | nil =>
    intro _ k before hbefore
    rcases hbefore with hbefore | ⟨-, hne⟩
    · have hb : atBoundary isWord ⟨before, rest, groups⟩ = true ↔ rest.head?.any isWord = false :=
        atBoundary_word hbefore
      rw [List.nil_append, numberFrom_stop hrest, stopAt]
      simp only [hb]
      rfl
    · exact absurd rfl hne
  | cons d ds ih =>
    intro hds k before hbefore
    obtain ⟨hd, hds⟩ := List.forall_mem_cons.1 hds
    have hstop : stopAt 10 k ⟨before, d :: (ds ++ rest), groups⟩ = none := by
      rcases hbefore with hbefore | ⟨rfl, -⟩
      · exact stopAt_inside hbefore hd
      · rfl
    have hafter : (d :: before).head?.any isWord = true := isWord_of_isDigit hd
    rw [List.length_cons, ← Nat.add_assoc, List.cons_append, numberFrom_digit hd, hstop, Option.or_none,
      ih hds _ _ (.inl hafter)]
    simp only [List.reverse_cons, List.append_assoc, List.singleton_append, Nat.add_assoc, Nat.add_comm 1]

theorem number_scans : Scans NUMBER longRun where
  other {before c} cs hc := by
    rw [NUMBER, find_between, runs]
    split_ifs
    · show numberFrom _ 0 _ = none
      rw [numberFrom_cons hc]
      rfl
    · rfl
  run {before ds ts} hts := by
    obtain ⟨d, cs, hcons⟩ := List.exists_cons_of_ne_nil hts.1
    obtain ⟨hne, hds, hstart, hts'⟩ := hts
    have hfront : atBoundary isWord ⟨before, ds ++ render ts, fun _ => []⟩ = !before.head?.any isWord := by
      rw [hcons]
      exact atBoundary_run (hds d (hcons ▸ List.mem_cons_self ..))
    rw [NUMBER, find_between, hfront, longRun]
    cases before.head?.any isWord with
    | true => exact .fails
    | false =>
      show Lands (numberFrom (ds ++ render ts).length 0 _) _
      rw [List.length_append, Nat.add_comm ds.length, numberFrom_run (head_of_startsRun hts' hstart) _ ds hds _ _
        (.inr ⟨rfl, hne⟩), Nat.zero_add, nextWord_render hts']
      by_cases h : 10 ≤ ds.length ∧ nextWord ts = false
      · rw [if_pos h, if_pos (by simp [h])]
        exact .goesOn rfl fun h => absurd h (by rw [hstart]; exact Bool.false_ne_true)
      · rw [if_neg h, if_neg (by simpa using h)]
        exact .fails
  inside ds ts := rfl
  suffix := longRun_suffix

/-! ### The two passes -/

theorem startsRun_redact {mark : JsString} {word : Bool} {ts : List Token} (h : startsRun ts = false) :
    startsRun (redact mark step word ts) = false := by
  match ts with
  | [] => rw [redact]; rfl
  | .digits _ :: _ => cases h
  | .other c :: ts => rw [redact]; rfl

theorem WellFormed.marks_append {mark : JsString} {ts : List Token} (hmark : ∀ c ∈ mark, Json.isDigit c = false)
    (hts : WellFormed ts) : WellFormed (marks mark ++ ts) := by
  induction mark with
  | nil => exact hts
  | cons c cs ih =>
    obtain ⟨hc, hcs⟩ := List.forall_mem_cons.1 hmark
    exact ⟨hc, ih hcs⟩

theorem Scans.redact_wellFormed (h : Scans r step) {mark : JsString} (hmark : ∀ c ∈ mark, Json.isDigit c = false)
    {word : Bool} {ts : List Token} (hts : WellFormed ts) : WellFormed (redact mark step word ts) := by
  fun_induction redact mark step word ts with
  | case1 word => trivial
  | case2 word c ts ih => exact ⟨hts.1, ih hts.2⟩
  | case3 word ds ts ts' hstep ih =>
    rw [h.filter_step] at hstep
    exact .marks_append hmark (ih (hts.2.2.2.suffix (h.suffix hstep)))
  | case4 word ds ts hstep ih =>
    exact ⟨hts.1, hts.2.1, startsRun_redact hts.2.2.1, ih hts.2.2.2⟩

theorem isDigit_redactedPan : ∀ c ∈ redactedPan, Json.isDigit c = false :=
  forall_of_any_eq_false (by decide)

theorem isDigit_redactedNumber : ∀ c ∈ redactedNumber, Json.isDigit c = false :=
  forall_of_any_eq_false (by decide)

theorem redactPans_wellFormed {word : Bool} {ts : List Token} (hts : WellFormed ts) :
    WellFormed (redactPans word ts) :=
  pan_scans.redact_wellFormed isDigit_redactedPan hts

theorem redactNumbers_wellFormed {word : Bool} {ts : List Token} (hts : WellFormed ts) :
    WellFormed (redactNumbers word ts) :=
  number_scans.redact_wellFormed isDigit_redactedNumber hts

theorem scrubPci_render {ts : List Token} (hts : WellFormed ts) :
    scrubPci (render ts) = render (redactNumbers false (redactPans false ts)) := by
  rw [scrubPci, pan_scans.replaceAll_render hts]
  exact number_scans.replaceAll_render (redactPans_wellFormed hts)

end CronMonitor.Masking
