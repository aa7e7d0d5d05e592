import CronMonitor.Lib.Runs

/-!
# Walks over a list that changes

A client reads a list in pages: `fetch s c` is the page at a cursor `c` of what the state `s` lists, with the
cursor of the next page unless it was the last. Between two pages the state takes steps of its own. `Paged` is what
a cursor has to mean for that to work, and `Steady` what the steps have to leave alone: the names of the items that
were returned, where they stand. Then nothing is returned twice and nothing that was there throughout is missed.
-/

namespace Walks

open Runs

variable {σ α ε C ι κ : Type*}

/-- Where a client is. -/
inductive Place (C : Type*)
  | next (cursor : Option C)
  | ended
  | refused
deriving DecidableEq

structure Walk (C ι : Type*) where
  place : Place C
  returned : List ι

def Walk.start : Walk C ι := ⟨.next none, []⟩

/-- The client takes the page in. -/
def Walk.take (w : Walk C ι) : Except ε (List ι × Option C) → Walk C ι
  | .error _ => { w with place := .refused }
  | .ok (items, none) => ⟨.ended, w.returned ++ items⟩
  | .ok (items, some c) => ⟨.next (some c), w.returned ++ items⟩

inductive Move (α : Type*)
  | act (a : α)
  | page

/-- The state acts, or the client, which is not through, asks for a page. -/
def turn (step : σ → α → Option σ) (fetch : σ → Option C → Except ε (List ι × Option C)) :
    σ × Walk C ι → Move α → Option (σ × Walk C ι)
  | (s, w), .act a => (step s a).map fun s' => (s', w)
  | (s, w), .page =>
    match w.place with
    | .next c => some (s, w.take (fetch s c))
    | .ended | .refused => none

/-- What `n` items in front of a cursor mean: a page holds what follows them, and its cursor stands after it. Steps
leave cursors where they are. -/
structure Paged (step : σ → α → Option σ) (fetch : σ → Option C → Except ε (List ι × Option C)) (all : σ → List ι)
    (limit : ℕ) (Inv : σ → Prop) (At : σ → Option C → ℕ → Prop) : Prop where
  limit_pos : 0 < limit
  inv : ∀ s a s', Inv s → step s a = some s' → Inv s'
  first : ∀ s, At s none 0
  last : ∀ s c n, Inv s → At s c n → (all s).length ≤ n + limit →
    fetch s c = .ok (((all s).drop n).take limit, none)
  more : ∀ s c n, Inv s → At s c n → n + limit < (all s).length →
    ∃ c', fetch s c = .ok (((all s).drop n).take limit, some c') ∧ At s (some c') (n + limit)
  keep : ∀ s a s' c n, Inv s → step s a = some s' → At s c n → At s' c n

/-- A step under a walk that is not over leaves the names of what was returned in their places. -/
def Steady (all : σ → List ι) (name : ι → κ) : σ × Walk C ι → Move α → σ × Walk C ι → Prop
  | (s, w), .act _, (s', _) => w.place ≠ .ended →
    ((all s').map name).take w.returned.length = ((all s).map name).take w.returned.length
  | _, .page, _ => True

variable {step : σ → α → Option σ} {fetch : σ → Option C → Except ε (List ι × Option C)} {all : σ → List ι}
  {limit : ℕ} {Inv : σ → Prop} {At : σ → Option C → ℕ → Prop} {name : ι → κ}

/-- A walk is at the cursor that stands after what it has. -/
def Placed (At : σ → Option C → ℕ → Prop) (Inv : σ → Prop) (p : σ × Walk C ι) : Prop :=
  Inv p.1 ∧ p.2.place ≠ .refused ∧ ∀ c, p.2.place = .next c → At p.1 c p.2.returned.length

namespace Paged

/-- A page in two cases: the end of the list, or `limit` items and a cursor. -/
theorem turn_page (h : Paged step fetch all limit Inv At) {s s' : σ} {w w' : Walk C ι} (hp : Placed At Inv (s, w))
    (hs : turn step fetch (s, w) .page = some (s', w')) :
    s' = s ∧ (∃ c, w.place = .next c) ∧ w'.returned = w.returned ++ ((all s).drop w.returned.length).take limit ∧
      (((all s).length ≤ w.returned.length + limit ∧ w'.place = .ended) ∨
        (w.returned.length + limit < (all s).length ∧ w'.returned.length = w.returned.length + limit ∧
          ∃ c, w'.place = .next (some c) ∧ At s (some c) (w.returned.length + limit))) := by
  obtain ⟨hinv, -, hat⟩ := hp
  cases hplace : w.place with
  | ended => simp [turn, hplace] at hs
  | refused => simp [turn, hplace] at hs
  | next c =>
    have hat := hat c hplace
    simp only [turn, hplace, Option.some.injEq, Prod.mk.injEq] at hs
    obtain ⟨rfl, rfl⟩ := hs
    refine ⟨rfl, ⟨c, rfl⟩, ?_⟩
    rcases Nat.lt_or_ge (w.returned.length + limit) (all s).length with hlt | hle
    · obtain ⟨c', hfetch, hat'⟩ := h.more s c _ hinv hat hlt
      rw [hfetch]
      refine ⟨rfl, .inr ⟨hlt, ?_, c', rfl, hat'⟩⟩
      simp only [Walk.take, List.length_append, List.length_take, List.length_drop]
      omega
    · rw [h.last s c _ hinv hat hle]
      exact ⟨rfl, .inl ⟨hle, rfl⟩⟩

theorem turn_placed (h : Paged step fetch all limit Inv At) (p : σ × Walk C ι) (m : Move α) (p' : σ × Walk C ι)
    (hp : Placed At Inv p) (hs : turn step fetch p m = some p') : Placed At Inv p' := by
  obtain ⟨s, w⟩ := p
  cases m with
  | act a =>
    obtain ⟨s', hstep, rfl⟩ := Option.map_eq_some_iff.1 hs
    obtain ⟨hinv, hplace, hat⟩ := hp
    exact ⟨h.inv s a s' hinv hstep, hplace, fun c hc => h.keep s a s' c _ hinv hstep (hat c hc)⟩
  | page =>
    obtain ⟨s', w'⟩ := p'
    obtain ⟨rfl, -, -, ⟨-, hended⟩ | ⟨-, hlen, c, hnext, hat⟩⟩ := h.turn_page hp hs
    · refine ⟨hp.1, ?_, fun c hc => ?_⟩
      · simp [hended]
      · simp [hended] at hc
    · refine ⟨hp.1, ?_, fun c' hc => ?_⟩
      · simp [hnext]
      · have hc : Place.next (some c) = .next c' := hnext.symm.trans hc
        obtain rfl : some c = c' := by simpa using hc
        show At s' (some c) w'.returned.length
        rw [hlen]
        exact hat

theorem run_placed (h : Paged step fetch all limit Inv At) {s : σ} (hs : Inv s) {tr : List (Move α)}
    {p : σ × Walk C ι} (hr : run (turn step fetch) (s, Walk.start) tr = some p) : Placed At Inv p := by
  refine inv_run (I := Placed At Inv) ⟨hs, by simp [Walk.start], fun c hc => ?_⟩ h.turn_placed hr
  obtain rfl : none = c := by simpa [Walk.start] using hc
  exact h.first s

/-- A walk that is left alone comes to its end. -/
theorem ends (h : Paged step fetch all limit Inv At) {s : σ} {w : Walk C ι} (hp : Placed At Inv (s, w)) :
    ∃ k w', run (turn step fetch) (s, w) (List.replicate k .page) = some (s, w') ∧ w'.place = .ended := by
  induction hm : (all s).length - w.returned.length using Nat.strong_induction_on generalizing w with
  | _ m ih =>
    cases hplace : w.place with
    | refused => exact absurd hplace hp.2.1
    | ended => exact ⟨0, w, rfl, hplace⟩
    | next c =>
      have hturn : turn step fetch (s, w) .page = some (s, w.take (fetch s c)) := by simp [turn, hplace]
      have hp' := h.turn_placed _ _ _ hp hturn
      obtain ⟨-, -, -, ⟨-, hended⟩ | ⟨hlt, hlen, -⟩⟩ := h.turn_page hp hturn
      · exact ⟨1, w.take (fetch s c), by simp [run, hturn], hended⟩
      · have hpos := h.limit_pos
        obtain ⟨k, w', hr, hw'⟩ := ih _ (by omega) hp' rfl
        refine ⟨k + 1, w', ?_, hw'⟩
        rw [List.replicate_succ]
        exact run_cons_iff.2 ⟨_, hturn, hr⟩

/-- What was returned is what is listed in front of the cursor, by name. -/
def Front (all : σ → List ι) (name : ι → κ) (p : σ × Walk C ι) : Prop :=
  p.2.place ≠ .ended → p.2.returned.map name = ((all p.1).map name).take p.2.returned.length

/-- An item that is listed and not returned yet follows the cursor. -/
def Ahead (all : σ → List ι) (x : ι) (p : σ × Walk C ι) : Prop :=
  x ∈ p.2.returned ∨ p.2.place ≠ .ended ∧ x ∈ (all p.1).drop p.2.returned.length

theorem turn_front (h : Paged step fetch all limit Inv At) (hname : ∀ s, Inv s → ((all s).map name).Nodup)
    {p p' : σ × Walk C ι} {m : Move α} (hp : Placed At Inv p) (hfront : Front all name p)
    (hnodup : (p.2.returned.map name).Nodup) (hs : turn step fetch p m = some p') (hsteady : Steady all name p m p') :
    Front all name p' ∧ (p'.2.returned.map name).Nodup := by
  obtain ⟨s, w⟩ := p
  cases m with
  | act a =>
    obtain ⟨s', hstep, rfl⟩ := Option.map_eq_some_iff.1 hs
    exact ⟨fun hended => (hfront hended).trans (hsteady hended).symm, hnodup⟩
  | page =>
    obtain ⟨s', w'⟩ := p'
    obtain ⟨rfl, ⟨c, hc⟩, hreturned, -⟩ := h.turn_page hp hs
    have hfront : w.returned.map name = ((all s').map name).take w.returned.length :=
      hfront (show w.place ≠ .ended by simp [hc])
    have hall : w'.returned.map name = ((all s').map name).take (w.returned.length + limit) := by
      rw [hreturned, List.map_append, hfront, List.map_take, List.map_drop, List.take_add]
    have hlen : w'.returned.length = min (w.returned.length + limit) (all s').length := by
      rw [← List.length_map (f := name), hall, List.length_take, List.length_map]
    refine ⟨fun _ => ?_, ?_⟩
    · show w'.returned.map name = ((all s').map name).take w'.returned.length
      have hmap : ((all s').map name).length = (all s').length := List.length_map ..
      rw [hall, hlen, ← hmap]
      exact List.take_eq_take_min ..
    · show (w'.returned.map name).Nodup
      rw [hall]
      exact (hname s' hp.1).sublist (List.take_sublist ..)

/-- The names in front of the cursor stay, so an item that is still listed and was not in front is not there now. -/
theorem turn_ahead (h : Paged step fetch all limit Inv At) (hname : ∀ s, Inv s → ((all s).map name).Nodup) {x : ι}
    {p p' : σ × Walk C ι} {m : Move α} (hp : Placed At Inv p) (hahead : Ahead all x p)
    (hs : turn step fetch p m = some p') (hsteady : Steady all name p m p')
    (hx : p'.2.place ≠ .ended → x ∈ all p'.1) : Ahead all x p' := by
  obtain ⟨s, w⟩ := p
  cases m with
  | act a =>
    obtain ⟨s', hstep, rfl⟩ := Option.map_eq_some_iff.1 hs
    rcases hahead with hin | ⟨hended, hdrop⟩
    · exact .inl hin
    · refine .inr ⟨hended, ?_⟩
      have hdrop : x ∈ (all s).drop w.returned.length := hdrop
      have hnew : x ∈ (all s').take w.returned.length ++ (all s').drop w.returned.length := by
        rw [List.take_append_drop]
        exact hx hended
      rcases List.mem_append.1 hnew with htake | hdrop'
      · exfalso
        have hmem : name x ∈ ((all s).map name).take w.returned.length := by
          rw [← hsteady hended, ← List.map_take]
          exact List.mem_map_of_mem htake
        have hnodup := hname s hp.1
        rw [← List.take_append_drop w.returned.length ((all s).map name)] at hnodup
        refine (List.nodup_append.1 hnodup).2.2 _ hmem (name x) ?_ rfl
        rw [← List.map_drop]
        exact List.mem_map_of_mem hdrop
      · exact hdrop'
  | page =>
    obtain ⟨s', w'⟩ := p'
    obtain ⟨rfl, -, hreturned, hcases⟩ := h.turn_page hp hs
    rcases hahead with hin | ⟨-, hdrop⟩
    · left
      show x ∈ w'.returned
      rw [hreturned]
      exact List.mem_append_left _ hin
    · have hdrop : x ∈ ((all s').drop w.returned.length).take limit ++
          ((all s').drop w.returned.length).drop limit := by
        rw [List.take_append_drop]
        exact hdrop
      rcases List.mem_append.1 hdrop with hpage | hlater
      · left
        show x ∈ w'.returned
        rw [hreturned]
        exact List.mem_append_right _ hpage
      · rw [List.drop_drop] at hlater
        rcases hcases with ⟨hle, -⟩ | ⟨-, hlen, c, hnext, -⟩
        · rw [List.drop_eq_nil_of_le hle] at hlater
          cases hlater
        · right
          refine ⟨?_, ?_⟩
          · show w'.place ≠ .ended
            simp [hnext]
          · show x ∈ (all s').drop w'.returned.length
            rw [hlen]
            exact hlater

/-- The law of walks. -/
theorem complete (h : Paged step fetch all limit Inv At) (hname : ∀ s, Inv s → ((all s).map name).Nodup) {s : σ}
    (hs : Inv s) {tr : List (Move α)} {p : σ × Walk C ι}
    (hsteady : Along (turn step fetch) (Steady all name) (s, Walk.start) tr)
    (hr : run (turn step fetch) (s, Walk.start) tr = some p) :
    (p.2.returned.map name).Nodup ∧ ∀ x, Throughout (turn step fetch)
      (fun p => p.2.place ≠ .ended → x ∈ all p.1) (s, Walk.start) tr → p.2.place = .ended → x ∈ p.2.returned := by
  have hplaced : Placed At Inv (s, (Walk.start : Walk C ι)) := h.run_placed hs run_nil
  constructor
  · refine (hsteady.inv (I := fun p => Placed At Inv p ∧ Front all name p ∧ (p.2.returned.map name).Nodup)
      ⟨hplaced, fun _ => rfl, List.nodup_nil⟩ ?_ hr).2.2
    rintro p m p' ⟨hp, hfront, hnodup⟩ hs hsteady
    exact ⟨h.turn_placed p m p' hp hs, h.turn_front hname hp hfront hnodup hs hsteady⟩
  · rintro x ⟨hx, hthroughout⟩ hended
    have hinv := (hsteady.and hthroughout).inv (I := fun p => Placed At Inv p ∧ Ahead all x p)
      ⟨hplaced, .inr ⟨by simp [Walk.start], hx (by simp [Walk.start])⟩⟩
      (fun p m p' hp hs hC => ⟨h.turn_placed p m p' hp.1 hs, h.turn_ahead hname hp.1 hp.2 hs hC.1 hC.2⟩) hr
    rcases hinv.2 with hin | ⟨hne, -⟩
    · exact hin
    · exact absurd hended hne

end Paged

/-! ### Filters -/

/-- Where a member stands in a list without repetitions. -/
theorem idxOf_middle [DecidableEq κ] {l pre post : List κ} {x : κ} (hl : l.Nodup) (h : l = pre ++ x :: post) :
    l.idxOf x = pre.length := by
  subst h
  have hx : x ∉ pre := fun hx => (List.nodup_append.1 hl).2.2 x hx x List.mem_cons_self rfl
  rw [List.idxOf_append_of_notMem hx, List.idxOf_cons_self, Nat.add_zero]

/-- When a list grows and a filter changes only behind `x`, what the filter lets through up to `x` stays. -/
theorem take_filter_eq [DecidableEq κ] {l l' : List κ} {p p' : κ → Bool} {n : ℕ} {x : κ} (hl : l.Nodup)
    (hgrows : l <+: l') (hx : ((l.filter p).take n).getLast? = some x) (hn : n ≤ (l.filter p).length)
    (hp : ∀ k ∈ l.take (l.idxOf x + 1), p' k = p k) : (l'.filter p').take n = (l.filter p).take n := by
  obtain ⟨front, hfront⟩ := List.getLast?_eq_some_iff.1 hx
  have hfilter : l.filter p = front ++ x :: (l.filter p).drop n := by
    conv_lhs => rw [← List.take_append_drop n (l.filter p), hfront]
    simp
  obtain ⟨hmem, hpx⟩ : x ∈ l ∧ p x = true := by
    rw [← List.mem_filter, hfilter]
    exact List.mem_append_right _ List.mem_cons_self
  obtain ⟨pre, post, hsplit⟩ := List.append_of_mem hmem
  have hpassed : l.take (l.idxOf x + 1) = pre ++ [x] := by
    rw [idxOf_middle hl hsplit, hsplit]
    simp [List.take_append]
  have hlen : (pre.filter p).length = front.length := by
    have hfilter' : l.filter p = pre.filter p ++ x :: post.filter p := by
      rw [hsplit, List.filter_append, List.filter_cons_of_pos hpx]
    rw [← idxOf_middle (hl.filter p) hfilter, idxOf_middle (hl.filter p) hfilter']
  have hcount : ((pre ++ [x]).filter p).length = n := by
    have := congrArg List.length hfront
    rw [List.length_take, Nat.min_eq_left hn, List.length_append] at this
    rw [List.filter_append, List.length_append, hlen, List.filter_cons_of_pos hpx]
    exact this.symm
  rw [hpassed] at hp
  obtain ⟨new, rfl⟩ := hgrows
  have hold : l = (pre ++ [x]) ++ post := by rw [hsplit]; simp
  have hsame : (pre ++ [x]).filter p' = (pre ++ [x]).filter p := List.filter_congr hp
  rw [hold, List.append_assoc, List.filter_append, List.filter_append (p := p), hsame, List.take_left' hcount,
    List.take_left' hcount]

end Walks
