import CronMonitor.Masking.PciRuns

/-!
# What `scrubPci` leaves

`Clean` is what the two expressions are there for. It is read off the runs of a text (`clean_render`), and
`scrubPci_clean_iff` says for which texts `scrubPci` reaches it: no long run may touch a letter or an underscore, which
have no boundary against a digit, and once the card numbers are taken from the chains, each the longest one from the
left, what is left over of a chain must not have the digits of another.
-/

namespace CronMonitor.Masking

open Utf16 Regex

/-! ### What is not to be left -/

/-- `n` digits, next to each other or with single spaces or hyphens in between. -/
inductive Joined : ℕ → JsString → Prop
  | digit {d : UInt16} (hd : Json.isDigit d = true) : Joined 1 [d]
  | next {n : ℕ} {d : UInt16} {u : JsString} (hd : Json.isDigit d = true) (h : Joined n u) : Joined (n + 1) (d :: u)
  | skip {n : ℕ} {d c : UInt16} {u : JsString} (hd : Json.isDigit d = true) (hc : isSep c = true) (h : Joined n u) :
    Joined (n + 1) (d :: c :: u)

structure Clean (s : JsString) : Prop where
  run : ∀ u, u <:+: s → (∀ d ∈ u, Json.isDigit d = true) → u.length < 10
  card : ∀ n u, u <:+: s → Joined n u → ¬(13 ≤ n ∧ n ≤ 19)

theorem Joined.head {n : ℕ} {u : JsString} (h : Joined n u) : ∃ d cs, u = d :: cs ∧ Json.isDigit d = true := by
  cases h with
  | digit hd => exact ⟨_, _, rfl, hd⟩
  | next hd h => exact ⟨_, _, rfl, hd⟩
  | skip hd hc h => exact ⟨_, _, rfl, hd⟩

/-- The first `k` of its digits. -/
theorem Joined.take {n : ℕ} {u : JsString} (h : Joined n u) : ∀ {k : ℕ}, 0 < k → k ≤ n →
    ∃ u', u' <+: u ∧ Joined k u' := by
  induction h with
  | @digit d hd =>
    intro k hk hn
    obtain rfl : k = 1 := by omega
    exact ⟨[d], List.prefix_refl _, .digit hd⟩
  | @next n d u hd h ih =>
    intro k hk hn
    by_cases hone : k = 1
    · subst hone
      exact ⟨[d], ⟨u, rfl⟩, .digit hd⟩
    · obtain ⟨u', hu', hjoined⟩ := ih (k := k - 1) (by omega) (by omega)
      have := hjoined.next hd
      rw [Nat.sub_add_cancel (by omega)] at this
      exact ⟨d :: u', (List.prefix_cons_inj d).2 hu', this⟩
  | @skip n d c u hd hc h ih =>
    intro k hk hn
    by_cases hone : k = 1
    · subst hone
      exact ⟨[d], ⟨c :: u, rfl⟩, .digit hd⟩
    · obtain ⟨u', hu', hjoined⟩ := ih (k := k - 1) (by omega) (by omega)
      have := hjoined.skip hd hc
      rw [Nat.sub_add_cancel (by omega)] at this
      exact ⟨d :: c :: u', (List.prefix_cons_inj d).2 ((List.prefix_cons_inj c).2 hu'), this⟩

/-! ### The same for runs -/

/-- The digits of the chain of runs that starts here, or after a separator. -/
def reach : List Token → ℕ
  | .digits ds :: ts => ds.length + reach ts
  | .other c :: .digits ds :: ts => if isSep c then ds.length + reach ts else 0
  | _ => 0

/-- Every chain has fewer digits than a card number. -/
def Low (ts : List Token) : Prop := ∀ ts', ts' <:+ ts → reach ts' < 13

structure Calm (ts : List Token) : Prop where
  short : ∀ ds, Token.digits ds ∈ ts → ds.length < 10
  low : Low ts

theorem reach_sep {c : UInt16} (hc : isSep c = true) {ts : List Token} (hstart : startsRun ts = true) :
    reach (.other c :: ts) = reach ts := by
  match ts with
  | .digits ds :: ts => simp [reach, hc]

theorem reach_other {c : UInt16} {ts : List Token} (h : ¬(isSep c = true ∧ startsRun ts = true)) :
    reach (.other c :: ts) = 0 := by
  match ts with
  | [] => rfl
  | .other d :: ts => rfl
  | .digits ds :: ts =>
    rw [reach, if_neg fun hc => h ⟨hc, rfl⟩]

theorem low_nil : Low [] := fun ts' h => by rw [List.suffix_nil.1 h]; decide

theorem low_cons {t : Token} {ts : List Token} : Low (t :: ts) ↔ reach (t :: ts) < 13 ∧ Low ts := by
  simp only [Low, List.suffix_cons_iff, forall_eq_or_imp]

theorem Low.reach_lt {ts : List Token} (h : Low ts) : reach ts < 13 := h ts (List.suffix_refl _)

theorem Calm.nil : Calm [] := ⟨nofun, low_nil⟩

theorem calm_cons {t : Token} {ts : List Token} :
    Calm (t :: ts) ↔ (∀ ds, t = .digits ds → ds.length < 10) ∧ reach (t :: ts) < 13 ∧ Calm ts := by
  constructor
  · intro h
    obtain ⟨hreach, hlow⟩ := low_cons.1 h.low
    exact ⟨fun ds ht => h.short ds (ht ▸ List.mem_cons_self ..), hreach,
      fun ds hds => h.short ds (List.mem_cons_of_mem _ hds), hlow⟩
  · rintro ⟨hrun, hreach, h⟩
    refine ⟨fun ds hds => ?_, low_cons.2 ⟨hreach, h.low⟩⟩
    rcases List.mem_cons.1 hds with rfl | hds
    · exact hrun ds rfl
    · exact h.short ds hds

/-- A chain of runs can be read to its end. -/
theorem exists_joined_reach : ∀ (ts : List Token) (ds : JsString), WellFormed (.digits ds :: ts) →
    ∃ u, u <+: ds ++ render ts ∧ Joined (ds.length + reach ts) u
  | ts, [], h => absurd rfl h.1
  | ts, d :: d' :: ds, ⟨_, hds, hstart, hts⟩ => by
    obtain ⟨hd, hds⟩ := List.forall_mem_cons.1 hds
    obtain ⟨u, hu, hjoined⟩ := exists_joined_reach ts (d' :: ds) ⟨List.cons_ne_nil _ _, hds, hstart, hts⟩
    refine ⟨d :: u, (List.prefix_cons_inj d).2 hu, ?_⟩
    rw [List.length_cons, Nat.add_right_comm]
    exact hjoined.next hd
  | [], [d], ⟨_, hds, _, _⟩ => ⟨[d], ⟨[], rfl⟩, .digit (hds d (List.mem_singleton_self d))⟩
  | .digits _ :: _, [_], ⟨_, _, hstart, _⟩ => by cases hstart
  | [.other c], [d], ⟨_, hds, _, _⟩ => ⟨[d], ⟨[c], rfl⟩, .digit (hds d (List.mem_singleton_self d))⟩
  | .other c :: .other c' :: ts, [d], ⟨_, hds, _, _⟩ =>
    ⟨[d], ⟨render (.other c :: .other c' :: ts), rfl⟩, .digit (hds d (List.mem_singleton_self d))⟩
  | .other c :: .digits ds :: ts, [d], ⟨_, hds, _, hts⟩ => by
    have hd := hds d (List.mem_singleton_self d)
    by_cases hc : isSep c
    · obtain ⟨u, hu, hjoined⟩ := exists_joined_reach ts ds hts.2
      refine ⟨d :: c :: u, (List.prefix_cons_inj d).2 ((List.prefix_cons_inj c).2 hu), ?_⟩
      rw [reach, if_pos hc, List.length_singleton, Nat.add_comm 1]
      exact hjoined.skip hd hc
    · rw [reach, if_neg hc]
      exact ⟨[d], ⟨render (.other c :: .digits ds :: ts), rfl⟩, .digit hd⟩

/-- Behind a run there is only a separator from which to read on. -/
theorem Joined.not_prefix_render {n : ℕ} {u : JsString} (h : Joined n u) {ts : List Token} (hts : WellFormed ts)
    (hstart : startsRun ts = false) : ¬u <+: render ts := by
  rintro ⟨rest, hrest⟩
  obtain ⟨d, cs, rfl, hd⟩ := h.head
  rw [head_of_startsRun hts hstart d (by rw [← hrest]; rfl)] at hd
  cases hd

/-- No further than that. -/
theorem Joined.le_reach {n : ℕ} {u : JsString} (h : Joined n u) : ∀ {ds : JsString} {ts : List Token},
    (∀ d ∈ ds, Json.isDigit d = true) → WellFormed ts → startsRun ts = false → u <+: ds ++ render ts →
    n ≤ ds.length + reach ts := by
  induction h with
  | @digit d hd =>
    intro ds ts _ hts hstart hu
    cases ds with
    | nil => exact absurd hu ((Joined.digit hd).not_prefix_render hts hstart)
    | cons d' ds =>
      rw [List.length_cons]
      omega
  | @next n d u hd h ih =>
    intro ds ts hds hts hstart hu
    cases ds with
    | nil => exact absurd hu ((h.next hd).not_prefix_render hts hstart)
    | cons d' ds =>
      have := ih (List.forall_mem_cons.1 hds).2 hts hstart (List.cons_prefix_cons.1 hu).2
      rw [List.length_cons]
      omega
  | @skip n d c u hd hc h ih =>
    intro ds ts hds hts hstart hu
    match ds, ts with
    | [], _ => exact absurd hu ((h.skip hd hc).not_prefix_render hts hstart)
    | d' :: d'' :: ds, _ =>
      obtain ⟨-, hu⟩ := List.cons_prefix_cons.1 hu
      obtain ⟨rfl, -⟩ := List.cons_prefix_cons.1 hu
      have hdigit := hds c (List.mem_cons_of_mem _ (List.mem_cons_self ..))
      rw [isDigit_of_isSep hc] at hdigit
      cases hdigit
    | [_], [] =>
      obtain ⟨-, hu⟩ := List.cons_prefix_cons.1 hu
      cases List.prefix_nil.1 hu
    | [_], .digits _ :: _ => cases hstart
    | [_], .other c' :: ts =>
      obtain ⟨-, hu⟩ := List.cons_prefix_cons.1 hu
      obtain ⟨rfl, hu'⟩ := List.cons_prefix_cons.1 hu
      match ts, hts.2, hu' with
      | .digits ds :: ts, hts, hu =>
        obtain ⟨-, hds, hstart, hts⟩ := hts
        have := ih hds hts hstart hu
        rw [reach_sep hc rfl, reach, List.length_singleton]
        omega
      | [], hts, hu => exact absurd hu (h.not_prefix_render hts rfl)
      | .other c'' :: ts, hts, hu => exact absurd hu (h.not_prefix_render hts rfl)

/-- A run within a text is at most the run that starts there. -/
theorem run_le_of_prefix_append {ts : List Token} (hts : WellFormed ts) (hstart : startsRun ts = false) :
    ∀ (ds u : JsString), (∀ d ∈ u, Json.isDigit d = true) → u <+: ds ++ render ts → u.length ≤ ds.length
  | _, [], _, _ => Nat.zero_le _
  | [], d :: u, hdigits, hu => by
    obtain ⟨rest, hrest⟩ := hu
    have hd := hdigits d (List.mem_cons_self ..)
    rw [head_of_startsRun hts hstart d (by rw [← List.nil_append (render ts), ← hrest]; rfl)] at hd
    cases hd
  | _ :: ds, d :: u, hdigits, hu =>
    Nat.succ_le_succ (run_le_of_prefix_append hts hstart ds u (List.forall_mem_cons.1 hdigits).2
      (List.cons_prefix_cons.1 hu).2)

theorem Clean.append_right {s t : JsString} (h : Clean (s ++ t)) : Clean t :=
  ⟨fun u hu => h.run u (hu.trans (List.suffix_append s t).isInfix),
    fun n u hu => h.card n u (hu.trans (List.suffix_append s t).isInfix)⟩

/-- In front of a clean text, a run that is short and from which no card number can be read. -/
theorem Clean.run_append {ts : List Token} (hts : WellFormed ts) (hstart : startsRun ts = false)
    (h : Clean (render ts)) : ∀ (ds : JsString), (∀ d ∈ ds, Json.isDigit d = true) → ds.length < 10 →
    ds.length + reach ts < 13 → Clean (ds ++ render ts) := by
  intro ds
  induction ds with
  | nil => exact fun _ _ _ => h
  | cons d ds ih =>
    intro hds hrun hreach
    rw [List.length_cons] at hrun hreach
    have hclean := ih (List.forall_mem_cons.1 hds).2 (by omega) (by omega)
    refine ⟨fun u hu hdigits => ?_, fun n u hu hjoined => ?_⟩
    · rcases List.infix_cons_iff.1 hu with hu | hu
      · have := run_le_of_prefix_append hts hstart (d :: ds) u hdigits hu
        rw [List.length_cons] at this
        omega
      · exact hclean.run u hu hdigits
    · rcases List.infix_cons_iff.1 hu with hu | hu
      · have := @Joined.le_reach _ _ hjoined (d :: ds) _ hds hts hstart hu
        rw [List.length_cons] at this
        omega
      · exact hclean.card n u hu hjoined

theorem clean_render {ts : List Token} (hts : WellFormed ts) : Clean (render ts) ↔ Calm ts := by
  induction ts with
  | nil =>
    refine ⟨fun _ => Calm.nil, fun _ => ⟨fun u hu _ => ?_, fun n u hu hjoined => ?_⟩⟩
    · rw [List.infix_nil.1 hu]
      decide
    · obtain ⟨d, cs, rfl, -⟩ := hjoined.head
      cases List.infix_nil.1 hu
  | cons t ts ih =>
    rw [calm_cons]
    cases t with
    | digits ds =>
      obtain ⟨hne, hds, hstart, hts'⟩ := id hts
      refine ⟨fun h => ⟨?_, ?_, (ih hts').1 h.append_right⟩, fun ⟨hrun, hreach, h⟩ => ?_⟩
      · rintro ds' heq
        obtain rfl : ds = ds' := Token.digits.inj heq
        exact h.run ds (List.prefix_append ds _).isInfix hds
      · by_contra hlong
        rw [reach] at hlong
        obtain ⟨u, hu, hjoined⟩ := exists_joined_reach ts ds hts
        obtain ⟨u', hu', hjoined'⟩ := hjoined.take (k := 13) (by omega) (by omega)
        exact h.card 13 u' (hu'.trans hu).isInfix hjoined' (by omega)
      · exact .run_append hts' hstart ((ih hts').2 h) ds hds (hrun ds rfl) hreach
    | other c =>
      refine ⟨fun h => ?_, fun ⟨_, _, h⟩ => ?_⟩
      · have hcalm := (ih hts.2).1 (Clean.append_right h)
        refine ⟨nofun, ?_, hcalm⟩
        by_cases hc : isSep c = true ∧ startsRun ts = true
        · rw [reach_sep hc.1 hc.2]
          exact hcalm.low.reach_lt
        · rw [reach_other hc]
          omega
      · have hclean := (ih hts.2).2 h
        refine ⟨fun u hu hdigits => ?_, fun n u hu hjoined => ?_⟩
        · rcases List.infix_cons_iff.1 hu with hu | hu
          · have := run_le_of_prefix_append hts rfl [] u hdigits hu
            rw [List.length_nil] at this
            omega
          · exact hclean.run u hu hdigits
        · rcases List.infix_cons_iff.1 hu with hu | hu
          · exact absurd hu (hjoined.not_prefix_render hts rfl)
          · exact hclean.card n u hu hjoined

/-! ### The two passes together -/

/-- What becomes of the runs of a text, `word` as in `card`. -/
inductive Scrubbed : Bool → List Token → List Token → Prop
  | nil {word : Bool} : Scrubbed word [] []
  | other {word : Bool} {c : UInt16} {ts out : List Token} (h : Scrubbed (isWord c) ts out) :
    Scrubbed word (.other c :: ts) (.other c :: out)
  | pan {word : Bool} {ds : JsString} {ts rest out : List Token} (hcard : card word ds ts = some rest)
    (h : Scrubbed false rest out) : Scrubbed word (.digits ds :: ts) (marks redactedPan ++ out)
  | number {word : Bool} {ds : JsString} {ts out : List Token} (hcard : card word ds ts = none)
    (hlong : longRun word ds ts = some ts) (h : Scrubbed false ts out) :
    Scrubbed word (.digits ds :: ts) (marks redactedNumber ++ out)
  | keep {word : Bool} {ds : JsString} {ts out : List Token} (hcard : card word ds ts = none)
    (hlong : longRun word ds ts = none) (h : Scrubbed false ts out) :
    Scrubbed word (.digits ds :: ts) (.digits ds :: out)

theorem longRun_eq_some {word : Bool} {ds : JsString} {ts ts' : List Token} :
    longRun word ds ts = some ts' ↔ ts = ts' ∧ word = false ∧ 10 ≤ ds.length ∧ nextWord ts = false := by
  rw [longRun]
  cases word <;> cases nextWord ts <;> by_cases h : 10 ≤ ds.length <;> simp [h]

theorem nextWord_redactPans {word : Bool} {ts : List Token} (h : startsRun ts = false) :
    nextWord (redactPans word ts) = nextWord ts := by
  match ts with
  | [] => rw [redactPans, redact]
  | .digits _ :: _ => cases h
  | .other c :: ts => rw [redactPans, redact]; rfl

theorem redactNumbers_marks {word : Bool} {mark : JsString} (ts : List Token) :
    redactNumbers word (marks mark ++ ts) =
      marks mark ++ redactNumbers (mark.getLast?.elim word isWord) ts := by
  induction mark generalizing word with
  | nil => rfl
  | cons c cs ih =>
    show redact _ _ _ (.other c :: (marks cs ++ ts)) = .other c :: (marks cs ++ _)
    rw [redact]
    refine congrArg (Token.other c :: ·) ((@ih (isWord c)).trans ?_)
    cases cs with
    | nil => rfl
    | cons d cs => rw [List.getLast?_cons_cons]; rfl

theorem scrubbed {word : Bool} {ts : List Token} (hts : WellFormed ts) :
    Scrubbed word ts (redactNumbers word (redactPans word ts)) := by
  rw [redactPans]
  fun_induction redact redactedPan card word ts with
  | case1 word =>
    rw [redactNumbers, redact]
    exact .nil
  | case2 word c ts ih =>
    rw [redactNumbers, redact]
    exact .other (ih hts.2)
  | case3 word ds ts ts' hcard ih =>
    rw [pan_scans.filter_step] at hcard
    rw [redactNumbers_marks]
    exact .pan hcard (ih (hts.2.2.2.suffix (card_suffix hcard)))
  | case4 word ds ts hcard ih =>
    rw [pan_scans.filter_step] at hcard
    have hnext : nextWord (redact redactedPan card false ts) = nextWord ts := nextWord_redactPans hts.2.2.1
    have hlong : longRun word ds (redact redactedPan card false ts) =
        (longRun word ds ts).map fun _ => redact redactedPan card false ts := by
      rw [longRun, longRun, hnext]
      split_ifs <;> rfl
    rw [redactNumbers, redact]
    split
    · next ts' heq =>
      rw [number_scans.filter_step, hlong] at heq
      obtain ⟨ts'', hsome, rfl⟩ := Option.map_eq_some_iff.1 heq
      obtain ⟨rfl, -⟩ := longRun_eq_some.1 hsome
      exact .number hcard hsome (ih hts.2.2.2)
    · next heq =>
      rw [number_scans.filter_step, hlong] at heq
      exact .keep hcard (Option.map_eq_none_iff.1 heq) (ih hts.2.2.2)

theorem Scrubbed.unique {word : Bool} {ts out : List Token} (h : Scrubbed word ts out) : ∀ {out' : List Token},
    Scrubbed word ts out' → out' = out := by
  induction h with
  | nil =>
    intro out' h'
    cases h'
    rfl
  | other h ih =>
    intro out' h'
    cases h' with
    | other h' => rw [ih h']
  | pan hcard h ih =>
    intro out' h'
    cases h' with
    | pan hcard' h' =>
      obtain rfl := Option.some.inj (hcard.symm.trans hcard')
      rw [ih h']
    | number hcard' => cases hcard.symm.trans hcard'
    | keep hcard' => cases hcard.symm.trans hcard'
  | number hcard hlong h ih =>
    intro out' h'
    cases h' with
    | pan hcard' => cases hcard.symm.trans hcard'
    | number _ _ h' => rw [ih h']
    | keep _ hlong' => cases hlong.symm.trans hlong'
  | keep hcard hlong h ih =>
    intro out' h'
    cases h' with
    | pan hcard' => cases hcard.symm.trans hcard'
    | number _ hlong' => cases hlong.symm.trans hlong'
    | keep _ _ h' => rw [ih h']

theorem scrubPci_of_scrubbed {ts out : List Token} (hts : WellFormed ts) (h : Scrubbed false ts out) :
    scrubPci (render ts) = render out := by
  rw [scrubPci_render hts, h.unique (scrubbed hts)]

/-! ### Texts that stay -/

theorem le_reach_of_cut {n : ℕ} {ts ts' : List Token} (h : cut n ts = some ts') : 13 ≤ n + reach ts := by
  fun_induction cut n ts generalizing ts' with
  | case1 n hn => omega
  | case2 => cases h
  | case3 => cases h
  | case4 n c hc ds ts ih =>
    rw [reach_sep hc rfl, reach]
    rcases Option.or_eq_some_iff.1 h with h | ⟨-, h⟩
    · have := ih h
      omega
    · split_ifs at h
      omega
  | case5 n c ts hc hts hn => omega
  | case6 => cases h
  | case7 n c ts hc hn => omega
  | case8 => cases h

theorem Calm.scrubbed {ts : List Token} (h : Calm ts) : ∀ {word : Bool}, Scrubbed word ts ts := by
  induction ts with
  | nil => exact .nil
  | cons t ts ih =>
    intro word
    obtain ⟨hrun, hreach, hcalm⟩ := calm_cons.1 h
    cases t with
    | other c => exact .other (ih hcalm)
    | digits ds =>
      refine .keep ?_ ?_ (ih hcalm)
      · rw [Masking.card]
        split_ifs
        · rfl
        · cases hcut : cut ds.length ts with
          | none => rfl
          | some ts' =>
            have := le_reach_of_cut hcut
            rw [reach] at hreach
            omega
      · have := hrun ds rfl
        refine if_neg fun h => ?_
        simp only [Bool.and_eq_true, decide_eq_true_eq] at h
        omega

theorem scrubPci_of_clean {s : JsString} (h : Clean s) : scrubPci s = s := by
  have hts := tokens_wellFormed s
  rw [← render_tokens s] at h ⊢
  exact scrubPci_of_scrubbed hts ((clean_render hts).1 h).scrubbed

/-! ### Once is enough -/

theorem startsRun_marks {mark : JsString} (hmark : mark ≠ []) (ts : List Token) :
    startsRun (marks mark ++ ts) = false := by
  obtain ⟨c, cs, rfl⟩ := List.exists_cons_of_ne_nil hmark
  rfl

theorem redactedPan_ne_nil : redactedPan ≠ [] := by decide

theorem redactedNumber_ne_nil : redactedNumber ≠ [] := by decide

theorem isSep_redactedPan : ∀ c ∈ redactedPan, isSep c = false :=
  forall_of_any_eq_false (by decide)

theorem isSep_redactedNumber : ∀ c ∈ redactedNumber, isSep c = false :=
  forall_of_any_eq_false (by decide)

theorem Scrubbed.startsRun_eq {word : Bool} {ts out : List Token} (h : Scrubbed word ts out)
    (hstart : startsRun ts = false) : startsRun out = false := by
  cases h with
  | nil => rfl
  | other h => rfl
  | pan _ _ => cases hstart
  | number _ _ _ => cases hstart
  | keep _ _ _ => cases hstart

theorem Scrubbed.nextWord_eq {word : Bool} {ts out : List Token} (h : Scrubbed word ts out)
    (hstart : startsRun ts = false) : nextWord out = nextWord ts := by
  cases h with
  | nil => rfl
  | other h => rfl
  | pan _ _ => cases hstart
  | number _ _ _ => cases hstart
  | keep _ _ _ => cases hstart

theorem cut_sep_eq_none {n : ℕ} {c : UInt16} {ts : List Token} (hc : isSep c = true) (hstart : startsRun ts = false) :
    cut n (.other c :: ts) = none ↔ ¬(13 ≤ n ∧ n ≤ 19) := by
  rw [cut_last hc hstart]
  simp

/-- What is left of a chain has no card number that the chain did not have. -/
theorem Scrubbed.cut_eq_none {n : ℕ} {word : Bool} {ts out : List Token} (h : Scrubbed word ts out)
    (hts : WellFormed ts) (hstart : startsRun ts = false) (hcut : cut n ts = none) : cut n out = none := by
  fun_induction cut n ts generalizing word out with
  | case1 n hn => cases hcut
  | case2 n hn =>
    cases h with
    | nil => rw [cut, if_neg hn]
  | case3 => cases hstart
  | case4 n c hc ds ts ih =>
    obtain ⟨hcut, hn⟩ := Option.or_eq_none_iff.1 hcut
    have hn : ¬(13 ≤ n ∧ n ≤ 19) := fun h => by rw [if_pos h] at hn; cases hn
    cases h with
    | other h =>
      cases h with
      | pan _ _ => exact (cut_sep_eq_none hc (startsRun_marks redactedPan_ne_nil _)).2 hn
      | number _ _ _ => exact (cut_sep_eq_none hc (startsRun_marks redactedNumber_ne_nil _)).2 hn
      | keep _ _ h =>
        rw [cut, if_pos hc, ih h hts.2.2.2.2 hts.2.2.2.1 hcut, if_neg hn]
        rfl
  | case5 n c ts hc hts hn => cases hcut
  | case6 n c ts hc hn hnot =>
    cases h with
    | other h =>
      refine (cut_sep_eq_none hc (h.startsRun_eq ?_)).2 hn
      cases ts with
      | nil => rfl
      | cons t ts =>
        cases t with
        | digits ds => exact absurd rfl (hnot ds ts)
        | other d => rfl
  | case7 n c ts hc hn => cases hcut
  | case8 n c ts hc hn =>
    cases h with
    | other h =>
      rw [cut.eq_def]
      simp only [hc, hn, Bool.false_eq_true, if_false]

theorem getLast?_elim_cons (mark : JsString) (c : UInt16) (word : Bool) :
    (c :: mark).getLast?.elim word isWord = mark.getLast?.elim (isWord c) isWord := by
  cases mark with
  | nil => rfl
  | cons d cs => rw [List.getLast?_cons_cons]; rfl

theorem Scrubbed.marks_append {out : List Token} {mark : JsString} : ∀ {word : Bool},
    Scrubbed (mark.getLast?.elim word isWord) out out → Scrubbed word (marks mark ++ out) (marks mark ++ out) := by
  induction mark with
  | nil => exact id
  | cons c cs ih =>
    intro word h
    rw [getLast?_elim_cons] at h
    exact .other (ih h)

theorem longRun_eq_none {word : Bool} {ds : JsString} {ts ts' : List Token} (h : longRun word ds ts = none)
    (hnext : nextWord ts' = nextWord ts) : longRun word ds ts' = none := by
  rw [longRun] at h ⊢
  rw [hnext]
  split_ifs at h ⊢
  rfl

theorem Scrubbed.again {word : Bool} {ts out : List Token} (h : Scrubbed word ts out) : WellFormed ts →
    Scrubbed word out out := by
  induction h with
  | nil => exact fun _ => .nil
  | other h ih => exact fun hts => .other (ih hts.2)
  | pan hcard h ih => exact fun hts => .marks_append (ih (hts.2.2.2.suffix (card_suffix hcard)))
  | number hcard hlong h ih => exact fun hts => .marks_append (ih hts.2.2.2)
  | @keep word ds ts out hcard hlong h ih =>
    intro hts
    obtain ⟨-, -, hstart, hts⟩ := hts
    refine .keep ?_ (longRun_eq_none hlong (h.nextWord_eq hstart)) (ih hts)
    rw [card] at hcard ⊢
    split_ifs at hcard ⊢ with hword
    · rfl
    · exact h.cut_eq_none hts hstart hcard

theorem scrubPci_scrubPci (s : JsString) : scrubPci (scrubPci s) = scrubPci s := by
  have hts := tokens_wellFormed s
  have hout := @redactNumbers_wellFormed false _ (@redactPans_wellFormed false _ hts)
  rw [← render_tokens s, scrubPci_render hts]
  exact scrubPci_of_scrubbed hout ((scrubbed hts).again hts)

/-! ### The texts that come out clean -/

/-- No run of ten digits or more touches a letter or an underscore. -/
def apart (word : Bool) : List Token → Bool
  | [] => true
  | .other c :: ts => apart (isWord c) ts
  | .digits ds :: ts => (ds.length < 10 || !word && !nextWord ts) && apart false ts

/-- How many digits stay side by side when the card numbers and the long runs are out of the chains, `n` so far. -/
def leftover (n : ℕ) (word : Bool) : List Token → List ℕ
  | [] => [n]
  | .other c :: ts => if isSep c && startsRun ts then leftover n false ts else n :: leftover 0 (isWord c) ts
  | .digits ds :: ts =>
    match _h : card word ds ts with
    | some ts' => n :: leftover 0 false ts'
    | none => if 10 ≤ ds.length then n :: leftover 0 false ts else leftover (n + ds.length) false ts
termination_by ts => ts.length
decreasing_by
  · simp
  · simp
  · have := (card_suffix _h).length_le
    rw [List.length_cons]
    omega
  · simp
  · simp

structure Scrubbable (s : JsString) : Prop where
  apart : apart false (tokens s) = true
  leftover : ∀ n ∈ leftover 0 false (tokens s), n < 13

theorem leftover_pan {n : ℕ} {word : Bool} {ds : JsString} {ts rest : List Token} (h : card word ds ts = some rest) :
    leftover n word (.digits ds :: ts) = n :: leftover 0 false rest := by
  rw [leftover]
  split
  · next ts' heq =>
    obtain rfl := Option.some.inj (h.symm.trans heq)
    rfl
  · next heq => cases h.symm.trans heq

theorem leftover_none {n : ℕ} {word : Bool} {ds : JsString} {ts : List Token} (h : card word ds ts = none) :
    leftover n word (.digits ds :: ts) =
      if 10 ≤ ds.length then n :: leftover 0 false ts else leftover (n + ds.length) false ts := by
  rw [leftover]
  split
  · next ts' heq => cases h.symm.trans heq
  · rfl

theorem cut_nextWord {n : ℕ} {ts ts' : List Token} (h : cut n ts = some ts') : nextWord ts = false := by
  match ts with
  | [] => rfl
  | .digits _ :: _ => cases h
  | .other c :: ts =>
    show isWord c = false
    cases hc : isSep c with
    | true => exact isWord_of_isSep hc
    | false =>
      rw [cut.eq_def] at h
      simp only [hc, Bool.false_eq_true, if_false] at h
      split_ifs at h with hn
      exact hn.2.2

/-- The runs of a card number touch none. -/
theorem apart_of_cut {n : ℕ} {ts ts' : List Token} (h : cut n ts = some ts') : apart false ts = apart false ts' := by
  fun_induction cut n ts generalizing ts' with
  | case1 n hn =>
    obtain rfl := Option.some.inj h
    rfl
  | case2 => cases h
  | case3 => cases h
  | case4 n c hc ds ts ih =>
    rw [apart, isWord_of_isSep hc]
    rcases Option.or_eq_some_iff.1 h with h | ⟨-, h⟩
    · rw [apart, cut_nextWord h, ← ih h]
      simp
    · split_ifs at h
      obtain rfl := Option.some.inj h
      rfl
  | case5 n c ts hc hts hn =>
    obtain rfl := Option.some.inj h
    split_ifs
    · rw [apart, isWord_of_isSep hc]
    · rfl
  | case6 => cases h
  | case7 n c ts hc hn =>
    obtain rfl := Option.some.inj h
    rfl
  | case8 => cases h

theorem card_eq_some {word : Bool} {ds : JsString} {ts ts' : List Token} (h : card word ds ts = some ts') :
    word = false ∧ cut ds.length ts = some ts' := by
  rw [card] at h
  split_ifs at h with hword
  exact ⟨(Bool.not_eq_true _).mp hword, h⟩

theorem digits_mem_marks {mark : JsString} {ds : JsString} {ts : List Token} :
    Token.digits ds ∈ marks mark ++ ts ↔ Token.digits ds ∈ ts := by
  rw [List.mem_append, or_iff_right]
  intro h
  obtain ⟨c, -, hc⟩ := List.mem_map.1 h
  cases hc

theorem Scrubbed.short_iff {word : Bool} {ts out : List Token} (h : Scrubbed word ts out) :
    (∀ ds, Token.digits ds ∈ out → ds.length < 10) ↔ apart word ts = true := by
  induction h with
  | nil => exact ⟨fun _ => rfl, fun _ => nofun⟩
  | other h ih =>
    rw [apart, ← ih]
    simp
  | pan hcard h ih =>
    obtain ⟨rfl, hcut⟩ := card_eq_some hcard
    simp only [digits_mem_marks, ih, apart, cut_nextWord hcut, apart_of_cut hcut]
    simp
  | number hcard hlong h ih =>
    obtain ⟨-, rfl, -, hnext⟩ := longRun_eq_some.1 hlong
    simp only [digits_mem_marks, ih, apart, hnext]
    simp
  | @keep word ds ts out hcard hlong h ih =>
    have hkept : ds.length < 10 ∨ (word || nextWord ts) = true := by
      by_contra hnot
      rw [not_or, Bool.or_eq_true, not_or, Bool.not_eq_true, Bool.not_eq_true] at hnot
      cases hlong.symm.trans (longRun_eq_some.2 ⟨rfl, hnot.2.1, by omega, hnot.2.2⟩)
    rw [apart, Bool.and_eq_true, ← ih]
    constructor
    · intro hshort
      have hds := hshort ds (List.mem_cons_self ..)
      exact ⟨by simp [hds], fun ds' h => hshort ds' (List.mem_cons_of_mem _ h)⟩
    · rintro ⟨hds, hshort⟩ ds' hmem
      rcases List.mem_cons.1 hmem with heq | hmem
      · obtain rfl := Token.digits.inj heq
        rcases hkept with hlt | hword
        · exact hlt
        rw [← Bool.not_or, hword, Bool.not_true, Bool.or_false] at hds
        exact of_decide_eq_true hds
      · exact hshort ds' hmem

theorem reach_marks {mark : JsString} (hmark : ∀ c ∈ mark, isSep c = false) (hne : mark ≠ []) (ts : List Token) :
    reach (marks mark ++ ts) = 0 := by
  obtain ⟨c, cs, rfl⟩ := List.exists_cons_of_ne_nil hne
  exact reach_other fun h => Bool.false_ne_true ((hmark c (List.mem_cons_self ..)).symm.trans h.1)

theorem low_marks {mark : JsString} (hmark : ∀ c ∈ mark, isSep c = false) (ts : List Token) :
    Low (marks mark ++ ts) ↔ Low ts := by
  induction mark with
  | nil => rfl
  | cons c cs ih =>
    have hreach := reach_marks hmark (List.cons_ne_nil _ _) ts
    show Low (.other c :: (marks cs ++ ts)) ↔ _
    rw [low_cons, ih (List.forall_mem_cons.1 hmark).2]
    exact and_iff_right (by rw [show reach (.other c :: (marks cs ++ ts)) = 0 from hreach]; decide)

theorem Scrubbed.reach_sep {word : Bool} {c : UInt16} {ts out : List Token} (h : Scrubbed word ts out)
    (hc : isSep c = true) (hstart : startsRun ts = true) : reach (.other c :: out) = reach out := by
  cases h with
  | nil => cases hstart
  | other _ => cases hstart
  | pan _ _ =>
    rw [reach_other fun h => absurd h.2 (by rw [startsRun_marks redactedPan_ne_nil]; exact Bool.false_ne_true),
      reach_marks isSep_redactedPan redactedPan_ne_nil]
  | number _ _ _ =>
    rw [reach_other fun h => absurd h.2 (by rw [startsRun_marks redactedNumber_ne_nil]; exact Bool.false_ne_true),
      reach_marks isSep_redactedNumber redactedNumber_ne_nil]
  | keep _ _ _ => exact Masking.reach_sep hc rfl

theorem Scrubbed.low_iff {word : Bool} {ts out : List Token} (h : Scrubbed word ts out) : ∀ (n : ℕ),
    apart word ts = true → (n + reach out < 13 ∧ Low out ↔ ∀ k ∈ leftover n word ts, k < 13) := by
  induction h with
  | nil =>
    intro n _
    rw [leftover, List.forall_mem_singleton]
    exact and_iff_left low_nil
  | @other word c ts out h ih =>
    intro n hapart
    rw [leftover, low_cons]
    by_cases hchain : isSep c = true ∧ startsRun ts = true
    · rw [if_pos (Bool.and_eq_true _ _ ▸ hchain), h.reach_sep hchain.1 hchain.2]
      have hfalse : isWord c = false := isWord_of_isSep hchain.1
      rw [apart, hfalse] at hapart
      rw [hfalse] at ih
      rw [← ih n hapart]
      exact ⟨fun ⟨hn, _, hlow⟩ => ⟨hn, hlow⟩, fun ⟨hn, hlow⟩ => ⟨hn, hlow.reach_lt, hlow⟩⟩
    · have hstart : ¬(isSep c = true ∧ startsRun out = true) := by
        rintro ⟨hc, hout⟩
        have hts : startsRun ts = false := (Bool.not_eq_true _).mp fun hts => hchain ⟨hc, hts⟩
        rw [h.startsRun_eq hts] at hout
        cases hout
      rw [if_neg (by rwa [Bool.and_eq_true]), List.forall_mem_cons, reach_other hstart, ← ih 0 hapart]
      exact ⟨fun ⟨hn, _, hlow⟩ => ⟨hn, by rw [Nat.zero_add]; exact hlow.reach_lt, hlow⟩,
        fun ⟨hn, _, hlow⟩ => ⟨hn, by decide, hlow⟩⟩
  | @pan word ds ts rest out hcard h ih =>
    intro n hapart
    obtain ⟨rfl, hcut⟩ := card_eq_some hcard
    rw [apart, Bool.and_eq_true, apart_of_cut hcut] at hapart
    rw [reach_marks isSep_redactedPan redactedPan_ne_nil, low_marks isSep_redactedPan, leftover_pan hcard,
      List.forall_mem_cons, ← ih 0 hapart.2, Nat.zero_add]
    exact ⟨fun ⟨hn, hlow⟩ => ⟨hn, hlow.reach_lt, hlow⟩, fun ⟨hn, _, hlow⟩ => ⟨hn, hlow⟩⟩
  | @number word ds ts out hcard hlong h ih =>
    intro n hapart
    rw [apart, Bool.and_eq_true] at hapart
    rw [reach_marks isSep_redactedNumber redactedNumber_ne_nil, low_marks isSep_redactedNumber, leftover_none hcard,
      if_pos (longRun_eq_some.1 hlong).2.2.1, List.forall_mem_cons, ← ih 0 hapart.2, Nat.zero_add]
    exact ⟨fun ⟨hn, hlow⟩ => ⟨hn, hlow.reach_lt, hlow⟩, fun ⟨hn, _, hlow⟩ => ⟨hn, hlow⟩⟩
  | @keep word ds ts out hcard hlong h ih =>
    intro n hapart
    rw [apart, Bool.and_eq_true] at hapart
    have hshort : ¬10 ≤ ds.length := by
      intro hten
      have hend := (Bool.or_eq_true _ _).mp hapart.1 |>.resolve_left (by simpa using hten)
      rw [Bool.and_eq_true, Bool.not_eq_true', Bool.not_eq_true'] at hend
      cases hlong.symm.trans (longRun_eq_some.2 ⟨rfl, hend.1, hten, hend.2⟩)
    rw [leftover_none hcard, if_neg hshort, ← ih _ hapart.2, low_cons, reach, ← Nat.add_assoc]
    exact ⟨fun ⟨hn, _, hlow⟩ => ⟨hn, hlow⟩, fun ⟨hn, hlow⟩ => ⟨hn, by omega, hlow⟩⟩

/-- What comes out is clean exactly for these texts; whatever comes out is not changed again, and a clean text is not
changed at all. -/
theorem scrubPci_clean_iff (s : JsString) :
    (Clean (scrubPci s) ∧ scrubPci (scrubPci s) = scrubPci s ∧ (Clean s → scrubPci s = s)) ↔ Scrubbable s := by
  have hts := tokens_wellFormed s
  have hout := @redactNumbers_wellFormed false _ (@redactPans_wellFormed false _ hts)
  have hscrub := @scrubbed false _ hts
  rw [and_iff_left ⟨scrubPci_scrubPci s, scrubPci_of_clean⟩]
  have hclean : Clean (scrubPci s) ↔ Calm (redactNumbers false (redactPans false (tokens s))) := by
    rw [← clean_render hout, ← scrubPci_render hts, render_tokens]
  rw [hclean]
  constructor
  · intro h
    have hapart := hscrub.short_iff.1 h.short
    exact ⟨hapart, (hscrub.low_iff 0 hapart).1 ⟨by rw [Nat.zero_add]; exact h.low.reach_lt, h.low⟩⟩
  · rintro ⟨hapart, hleft⟩
    exact ⟨hscrub.short_iff.2 hapart, ((hscrub.low_iff 0 hapart).2 hleft).2⟩

/-- A long run behind a letter stays, and so do three groups of which two have no card number's length and three have
more than that. -/
theorem digits_stay : ¬Clean (scrubPci (js "a1234567890")) ∧ ¬Clean (scrubPci (js "123456789 123 12345678")) := by
  constructor
  · have hstays : scrubPci (js "a1234567890") = render (tokens (js "a1234567890")) := by decide +kernel
    rw [hstays, clean_render (tokens_wellFormed _)]
    intro hcalm
    exact absurd (hcalm.short (js "1234567890") (by decide +kernel)) (by decide +kernel)
  · have hstays : scrubPci (js "123456789 123 12345678") = render (tokens (js "123456789 123 12345678")) := by
      decide +kernel
    rw [hstays, clean_render (tokens_wellFormed _)]
    intro hcalm
    exact absurd hcalm.low.reach_lt (by decide +kernel)

end CronMonitor.Masking
