import Mathlib.Tactic

/-!
# A throttle that is cleared

A throttle lets a signal through unless it has let one through less than `window` before and was not cleared in between.
`Outcome` says what became of each clearing and each signal, `Lawful` says it of a whole history, the newest first.
-/

namespace Throttle

structure State where
  active : Bool
  last : ℤ
deriving DecidableEq, Repr

inductive Outcome
  | cleared (t : ℤ)
  | fired (t : ℤ)
  | held (t : ℤ)
deriving DecidableEq, Repr

variable {window t u : ℤ} {s : State} {h : List Outcome} {o : Outcome}

namespace Outcome

def time : Outcome → ℤ
  | cleared t | fired t | held t => t

def IsCleared : Outcome → Prop
  | cleared _ => True
  | fired _ | held _ => False

end Outcome

def init : State := ⟨false, 0⟩

def clear (s : State) (t : ℤ) : State × Outcome := ({ s with active := false }, .cleared t)

def signal (window : ℤ) (s : State) (t : ℤ) : State × Outcome :=
  if s.active ∧ t - s.last < window then (s, .held t) else (⟨true, t⟩, .fired t)

/-- When the last signal was let through, if the throttle was not cleared since. -/
def lastFired : List Outcome → Option ℤ
  | [] | .cleared _ :: _ => none
  | .fired t :: _ => some t
  | .held _ :: h => lastFired h

/-- What is let through comes at least `window` after the last, and what is held comes before that. -/
def Lawful (window : ℤ) : List Outcome → Prop
  | [] => True
  | .cleared _ :: h => Lawful window h
  | .fired t :: h => (∀ l ∈ lastFired h, window ≤ t - l) ∧ Lawful window h
  | .held t :: h => (∃ l ∈ lastFired h, t - l < window) ∧ Lawful window h

/-- The state is the one that the history leaves. -/
structure Agrees (window : ℤ) (s : State) (h : List Outcome) : Prop where
  last : (if s.active then some s.last else none) = lastFired h
  lawful : Lawful window h

theorem Agrees.init : Agrees window init [] := ⟨rfl, trivial⟩

theorem Agrees.clear (hs : Agrees window s h) (t : ℤ) :
    Agrees window (clear s t).1 ((clear s t).2 :: h) := ⟨rfl, hs.lawful⟩

theorem Agrees.signal (hs : Agrees window s h) (t : ℤ) :
    Agrees window (signal window s t).1 ((signal window s t).2 :: h) := by
  unfold Throttle.signal
  have hlast := hs.last
  split_ifs with hheld
  · refine ⟨hlast, ⟨s.last, ?_, hheld.2⟩, hs.lawful⟩
    rw [← hlast, if_pos hheld.1, Option.mem_some]
  · refine ⟨rfl, fun l hl => ?_, hs.lawful⟩
    rw [← hlast, Option.mem_def] at hl
    split_ifs at hl with hactive
    obtain rfl := Option.some.inj hl
    exact not_lt.1 fun hlt => hheld ⟨hactive, hlt⟩

theorem exists_of_lastFired (hl : lastFired h = some t) :
    ∃ new old, h = new ++ .fired t :: old ∧ ∀ o ∈ new, ∃ v, o = .held v := by
  induction h with
  | nil => cases hl
  | cons o h ih =>
    cases o with
    | cleared v => cases hl
    | fired v =>
      obtain rfl := Option.some.inj hl
      exact ⟨[], h, rfl, by simp⟩
    | held v =>
      obtain ⟨new, old, rfl, hnew⟩ := ih hl
      refine ⟨.held v :: new, old, rfl, ?_⟩
      intro o ho
      rcases List.mem_cons.1 ho with rfl | ho
      · exact ⟨v, rfl⟩
      · exact hnew o ho

theorem Lawful.of_append {new : List Outcome} (hl : Lawful window (new ++ h)) : Lawful window h := by
  induction new with
  | nil => exact hl
  | cons o new ih =>
    cases o with
    | cleared v => exact ih hl
    | fired v => exact ih hl.2
    | held v => exact ih hl.2

/-- Every signal that is held follows one that was let through less than `window` before, with nothing else between. -/
theorem Lawful.covered {new old : List Outcome} (hl : Lawful window (new ++ .held t :: old)) :
    ∃ between l older, old = between ++ .fired l :: older ∧ t - l < window ∧ ∀ o ∈ between, ∃ v, o = .held v := by
  obtain ⟨⟨l, hlast, hlt⟩, -⟩ := hl.of_append
  obtain ⟨between, older, rfl, hbetween⟩ := exists_of_lastFired hlast
  exact ⟨between, l, older, rfl, hlt, hbetween⟩

/-- Of what is not cleared the newest signal let through is some time after any other. -/
theorem Lawful.le_lastFired (hwindow : 0 ≤ window) {new old : List Outcome} (hl : Lawful window (new ++ .fired t :: old))
    (hnew : ∀ o ∈ new, ¬ o.IsCleared) : ∃ l ∈ lastFired (new ++ .fired t :: old), t ≤ l := by
  induction new with
  | nil => exact ⟨t, rfl, le_rfl⟩
  | cons o new ih =>
    have hrest : ∀ o ∈ new, ¬ o.IsCleared := fun o ho => hnew o (List.mem_cons_of_mem _ ho)
    cases o with
    | cleared v => exact absurd trivial (hnew (.cleared v) List.mem_cons_self)
    | fired v =>
      obtain ⟨l, hmem, hle⟩ := ih hl.2 hrest
      exact ⟨v, rfl, by have := hl.1 l hmem; omega⟩
    | held v => exact ih hl.2 hrest

/-- Two signals are let through at least `window` apart, unless the throttle was cleared between them. -/
theorem Lawful.spaced (hwindow : 0 ≤ window) {new between old : List Outcome}
    (hl : Lawful window (new ++ .fired u :: (between ++ .fired t :: old))) (hbetween : ∀ o ∈ between, ¬ o.IsCleared) :
    window ≤ u - t := by
  obtain ⟨hgap, hrest⟩ := hl.of_append
  obtain ⟨l, hmem, hle⟩ := hrest.le_lastFired hwindow hbetween
  have hwl := hgap l hmem
  omega

end Throttle
