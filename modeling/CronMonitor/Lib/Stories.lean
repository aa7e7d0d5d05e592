import Mathlib.Tactic

/-!
# Stories

`Turns a e b` says that the event `e` takes a thing from `a` to `b`. A story is a list of events that do so one after
another. Where every event says all it does, the events and the beginning determine the end (`Story.unique`); and events
that climb a rank are at most as many as there are steps in it (`Story.climbs`), and as many when nothing else moves it
(`Story.counts`).
-/

namespace Stories

variable {α ε : Type*} {Turns : α → ε → α → Prop} {a b c : α} {es fs : List ε}

inductive Story (Turns : α → ε → α → Prop) : α → List ε → α → Prop
  | nil (a : α) : Story Turns a [] a
  | cons {a b c : α} {e : ε} {es : List ε} (turn : Turns a e b) (rest : Story Turns b es c) : Story Turns a (e :: es) c

namespace Story

theorem single {e : ε} (h : Turns a e b) : Story Turns a [e] b := .cons h (.nil b)

theorem append (h : Story Turns a es b) (h' : Story Turns b fs c) : Story Turns a (es ++ fs) c := by
  induction h with
  | nil => exact h'
  | cons turn _ ih => exact .cons turn (ih h')

theorem unique (hturns : ∀ a e b b', Turns a e b → Turns a e b' → b = b') (h : Story Turns a es b)
    (h' : Story Turns a es c) : b = c := by
  induction h with
  | nil =>
    cases h'
    rfl
  | cons turn _ ih =>
    cases h' with
    | cons turn' rest' =>
      obtain rfl := hturns _ _ _ _ turn turn'
      exact ih rest'

theorem climbs {rank : α → ℕ} {p : ε → Bool}
    (hturns : ∀ a e b, Turns a e b → rank a + (if p e then 1 else 0) ≤ rank b) (h : Story Turns a es b) :
    rank a + es.countP p ≤ rank b := by
  induction h with
  | nil => simp
  | cons turn _ ih =>
    have hturn := hturns _ _ _ turn
    rw [List.countP_cons]
    omega

theorem counts {rank : α → ℕ} {p : ε → Bool} (hturns : ∀ a e b, Turns a e b → rank a + (if p e then 1 else 0) = rank b)
    (h : Story Turns a es b) : rank a + es.countP p = rank b := by
  induction h with
  | nil => simp
  | cons turn _ ih =>
    have hturn := hturns _ _ _ turn
    rw [List.countP_cons]
    omega

end Story

end Stories
