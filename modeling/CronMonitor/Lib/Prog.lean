import CronMonitor.Lib.Calls

/-!
# Programs over atomic commands

A program issues commands and goes on with their answers. Run alone it is a state transformer (`exec`); run beside
other programs it takes its commands one at a time (`Concurrent.step`). `Follows` says that a program keeps to a
protocol: a state machine that says which command it may issue next. What a program is about to do next is then known
from the protocol's state alone, however its code is written.
-/

/-- A program over the commands `Cmd`, a command `c` being answered by an `Ans c`. -/
inductive Prog (Cmd : Type) (Ans : Cmd → Type) (α : Type)
  | ret (a : α)
  | call (c : Cmd) (k : Ans c → Prog Cmd Ans α)

namespace Prog

variable {Cmd : Type} {Ans : Cmd → Type} {α β σ H : Type}

def bind : Prog Cmd Ans α → (α → Prog Cmd Ans β) → Prog Cmd Ans β
  | ret a, f => f a
  | call c k, f => call c fun r => (k r).bind f

instance : Monad (Prog Cmd Ans) where
  pure := ret
  bind := bind

/-- The program that issues one command. -/
def cmd (c : Cmd) : Prog Cmd Ans (Ans c) := call c ret

@[simp] theorem pure_eq (a : α) : (Pure.pure a : Prog Cmd Ans α) = ret a := rfl

@[simp] theorem ret_bind (a : α) (f : α → Prog Cmd Ans β) : ret a >>= f = f a := rfl

@[simp] theorem call_bind (c : Cmd) (k : Ans c → Prog Cmd Ans α) (f : α → Prog Cmd Ans β) :
    call c k >>= f = call c fun r => k r >>= f := rfl

theorem bind_ret (p : Prog Cmd Ans α) : p >>= ret = p := by
  induction p with
  | ret a => rfl
  | call c k ih => exact congrArg (call c) (funext ih)

theorem bind_assoc {γ : Type} (p : Prog Cmd Ans α) (f : α → Prog Cmd Ans β) (g : β → Prog Cmd Ans γ) :
    p >>= f >>= g = p >>= fun a => f a >>= g := by
  induction p with
  | ret a => rfl
  | call c k ih => exact congrArg (call c) (funext ih)

instance : LawfulMonad (Prog Cmd Ans) :=
  LawfulMonad.mk' (Prog Cmd Ans) bind_ret (fun _ _ => rfl) bind_assoc

@[simp] theorem cmd_bind (c : Cmd) (f : Ans c → Prog Cmd Ans β) : cmd c >>= f = call c f := rfl

/-! ### Alone -/

/-- The program run alone, `h` taking the commands. -/
def exec (h : (c : Cmd) → σ → Ans c × σ) : Prog Cmd Ans α → σ → α × σ
  | ret a, s => (a, s)
  | call c k, s => (k (h c s).1).exec h (h c s).2

section Exec

variable {h : (c : Cmd) → σ → Ans c × σ} {s : σ}

@[simp] theorem exec_ret (a : α) : (ret a : Prog Cmd Ans α).exec h s = (a, s) := rfl

@[simp] theorem exec_call (c : Cmd) (k : Ans c → Prog Cmd Ans α) :
    (call c k).exec h s = (k (h c s).1).exec h (h c s).2 := rfl

theorem exec_bind (p : Prog Cmd Ans α) (f : α → Prog Cmd Ans β) (s : σ) :
    (p >>= f).exec h s = (f (p.exec h s).1).exec h (p.exec h s).2 := by
  induction p generalizing s with
  | ret a => rfl
  | call c k ih => exact ih _ _

theorem exec_forM {γ : Type} (g : γ → Prog Cmd Ans PUnit) (l : List γ) (s : σ) :
    (l.forM g).exec h s = ((), l.foldl (fun t c => ((g c).exec h t).2) s) := by
  induction l generalizing s with
  | nil => rfl
  | cons c l ih =>
    show (g c >>= fun _ => l.forM g).exec h s = _
    rw [exec_bind, ih]
    rfl

end Exec

/-! ### The commands of a program -/

/-- Every command that the program may issue satisfies `P`. -/
def Issues (P : Cmd → Prop) : Prog Cmd Ans α → Prop
  | ret _ => True
  | call c k => P c ∧ ∀ r, (k r).Issues P

namespace Issues

variable {P : Cmd → Prop} {p : Prog Cmd Ans α}

theorem cmd {c : Cmd} (h : P c) : (Prog.cmd c : Prog Cmd Ans _).Issues P := ⟨h, fun _ => trivial⟩

theorem bind {f : α → Prog Cmd Ans β} (h : p.Issues P) (hf : ∀ a, (f a).Issues P) : (p >>= f).Issues P := by
  induction p with
  | ret a => exact hf a
  | call c k ih => exact ⟨h.1, fun r => ih r (h.2 r)⟩

theorem ite {b : Prop} [Decidable b] {q : Prog Cmd Ans α} (hp : b → p.Issues P) (hq : ¬ b → q.Issues P) :
    (if b then p else q).Issues P := by
  split
  · exact hp ‹_›
  · exact hq ‹_›

theorem foldlM {γ : Type} {g : β → γ → Prog Cmd Ans β} (hg : ∀ acc c, (g acc c).Issues P) :
    ∀ (l : List γ) (acc : β), (l.foldlM g acc).Issues P
  | [], _ => trivial
  | c :: l, acc => bind (hg acc c) fun acc' => foldlM hg l acc'

theorem forM {γ : Type} {g : γ → Prog Cmd Ans PUnit} (hg : ∀ c, (g c).Issues P) : ∀ l : List γ, (l.forM g).Issues P
  | [] => trivial
  | c :: l => bind (hg c) fun _ => forM hg l

end Issues

/-! ### Protocols -/

/-- A protocol: in state `x` the command `c` may be issued if `next x c` is there, and the answer gives the state
after it. -/
abbrev Protocol (Cmd : Type) (Ans : Cmd → Type) (H : Type) := H → (c : Cmd) → Option (Ans c → H)

/-- From state `x` the program keeps to the protocol and ends with `Q` of its result and the state. -/
def Follows (next : Protocol Cmd Ans H) : H → Prog Cmd Ans α → (α → H → Prop) → Prop
  | x, ret a, Q => Q a x
  | x, call c k, Q => ∃ f, next x c = some f ∧ ∀ r, Follows next (f r) (k r) Q

namespace Follows

variable {next : Protocol Cmd Ans H} {x : H} {p : Prog Cmd Ans α} {Q Q' : α → H → Prop}

theorem mono (h : Follows next x p Q) (hQ : ∀ a x, Q a x → Q' a x) : Follows next x p Q' := by
  induction p generalizing x with
  | ret a => exact hQ a x h
  | call c k ih =>
    obtain ⟨f, hf, hk⟩ := h
    exact ⟨f, hf, fun r => ih r (hk r)⟩

theorem bind {f : α → Prog Cmd Ans β} {R : β → H → Prop} (h : Follows next x p fun a y => Follows next y (f a) R) :
    Follows next x (p >>= f) R := by
  induction p generalizing x with
  | ret a => exact h
  | call c k ih =>
    obtain ⟨g, hg, hk⟩ := h
    exact ⟨g, hg, fun r => ih r (hk r)⟩

theorem cmd {c : Cmd} {f : Ans c → H} {R : Ans c → H → Prop} (hf : next x c = some f) (hR : ∀ r, R r (f r)) :
    Follows next x (Prog.cmd c) R := ⟨f, hf, hR⟩

/-- Commands that leave the state alone. -/
theorem of_issues {P : Cmd → Prop} (h : p.Issues P) (hP : ∀ c, P c → next x c = some fun _ => x) :
    Follows next x p fun _ y => y = x := by
  induction p with
  | ret a => rfl
  | call c k ih => exact ⟨_, hP c h.1, fun r => ih r (h.2 r)⟩

/-- A loop: `I` holds of the items that are left and the state at the head of each round. -/
theorem foldlM {γ : Type} {I : List γ → H → Prop} {g : β → γ → Prog Cmd Ans β}
    (hround : ∀ acc c l x, I (c :: l) x → Follows next x (g acc c) fun _ y => I l y) :
    ∀ (l : List γ) (acc : β) (x : H), I l x → Follows next x (l.foldlM g acc) fun _ y => I [] y
  | [], _, _, h => h
  | c :: l, acc, x, h => bind ((hround acc c l x h).mono fun acc' y hy => foldlM hround l acc' y hy)

end Follows

end Prog

/-! ### Beside each other -/

/-- A store and the programs at work on it. -/
structure Concurrent (σ Cmd : Type) (Ans : Cmd → Type) where
  store : σ
  calls : List (Prog Cmd Ans Unit)

/-- A program starts, or the `i`-th one issues its next command. Where the world answers, `o` is its answer. -/
inductive Concurrent.Label (π ω : Type)
  | start (p : π)
  | advance (i : Nat) (o : ω)
deriving DecidableEq, Repr

namespace Concurrent

variable {σ Cmd π ω H : Type} {Ans : Cmd → Type}

/-- How the commands act: which of them have to wait, and what they answer and do. -/
structure Semantics (σ Cmd : Type) (Ans : Cmd → Type) (π ω : Type) where
  program : π → Prog Cmd Ans Unit
  enabled : Cmd → σ → Bool
  exec : ω → (c : Cmd) → σ → Ans c × σ

def step (m : Semantics σ Cmd Ans π ω) (s : Concurrent σ Cmd Ans) : Label π ω → Option (Concurrent σ Cmd Ans)
  | .start p => some ⟨s.store, s.calls ++ [m.program p]⟩
  | .advance i o =>
    match s.calls[i]? with
    | some (.call c k) =>
      if m.enabled c s.store then some ⟨(m.exec o c s.store).2, s.calls.set i (k (m.exec o c s.store).1)⟩ else none
    | _ => none

/-- The command that a step issues. -/
def command (s : Concurrent σ Cmd Ans) : Label π ω → Option Cmd
  | .start _ => none
  | .advance i _ =>
    match s.calls[i]? with
    | some (.call c _) => some c
    | _ => none

/-- Where every program issues commands that satisfy `P`, a step leaves the store alone or runs such a command. -/
theorem issues_step {m : Semantics σ Cmd Ans π ω} {P : Cmd → Prop} {s s' : Concurrent σ Cmd Ans} {l : Label π ω}
    (hprogram : ∀ r, (m.program r).Issues P) (h : ∀ p ∈ s.calls, p.Issues P) (hstep : step m s l = some s') :
    (∀ p ∈ s'.calls, p.Issues P) ∧ (s'.store = s.store ∨ ∃ o c, P c ∧ s'.store = (m.exec o c s.store).2) := by
  cases l with
  | start r =>
    cases hstep
    exact ⟨List.forall_mem_append.2 ⟨h, List.forall_mem_singleton.2 (hprogram r)⟩, .inl rfl⟩
  | advance i o =>
    simp only [step] at hstep
    split at hstep
    · rename_i c k hcall
      obtain ⟨-, hs⟩ := Option.ite_none_right_eq_some.1 hstep
      cases hs
      obtain ⟨hc, hk⟩ := h _ (List.mem_of_getElem? hcall)
      refine ⟨fun p hp => ?_, .inr ⟨o, c, hc, rfl⟩⟩
      rcases List.mem_or_eq_of_mem_set hp with hp | rfl
      · exact h p hp
      · exact hk _
    · cases hstep

/-- The programs are in the states `hs` of a protocol. -/
structure Tracked (next : Prog.Protocol Cmd Ans H) (s : Concurrent σ Cmd Ans) (hs : List H) : Prop where
  length : s.calls.length = hs.length
  follows : ∀ (i : Nat) p x, s.calls[i]? = some p → hs[i]? = some x → Prog.Follows next x p fun _ _ => True

variable {m : Semantics σ Cmd Ans π ω} {next : Prog.Protocol Cmd Ans H} {s s' : Concurrent σ Cmd Ans} {hs : List H}
  {l : Label π ω}

theorem Tracked.start (h : Tracked next s hs) {p : Prog Cmd Ans Unit} {x : H}
    (hp : Prog.Follows next x p fun _ _ => True) : Tracked next ⟨s.store, s.calls ++ [p]⟩ (hs ++ [x]) := by
  have hlen := h.length
  refine ⟨by simp [hlen], fun i q y hq hy => ?_⟩
  rcases List.getElem?_concat_cases hq with hq | ⟨hi, rfl⟩ <;>
    rcases List.getElem?_concat_cases hy with hy | ⟨hi', rfl⟩
  · exact h.follows i q y hq hy
  · exact absurd ((List.getElem?_eq_some_iff.1 hq).1) (by omega)
  · exact absurd ((List.getElem?_eq_some_iff.1 hy).1) (by omega)
  · exact hp

/-- The store does not matter. -/
theorem Tracked.on (h : Tracked next s hs) (store : σ) : Tracked next ⟨store, s.calls⟩ hs := ⟨h.length, h.follows⟩

theorem Tracked.set (h : Tracked next s hs) (i : Nat) (store : σ) {p : Prog Cmd Ans Unit} {x : H}
    (hp : Prog.Follows next x p fun _ _ => True) : Tracked next ⟨store, s.calls.set i p⟩ (hs.set i x) := by
  refine ⟨by simp [h.length], fun j q y hq hy => ?_⟩
  rcases List.getElem?_set_cases hq with ⟨rfl, rfl⟩ | ⟨hne, hq⟩ <;>
    rcases List.getElem?_set_cases hy with ⟨hij, rfl⟩ | ⟨hij, hy⟩
  · exact hp
  · exact absurd rfl hij
  · exact absurd hij hne
  · exact h.follows j q y hq hy

/-- A step starts a program, or issues a command that the protocol allows in the state of its program. -/
theorem Tracked.step (x₀ : π → H) (hstart : ∀ p, Prog.Follows next (x₀ p) (m.program p) fun _ _ => True)
    (h : Tracked next s hs) (hstep : Concurrent.step m s l = some s') :
    (∃ p, l = .start p ∧ s'.store = s.store ∧ Tracked next s' (hs ++ [x₀ p])) ∨
      ∃ i o c x f, l = .advance i o ∧ s.command l = some c ∧ hs[i]? = some x ∧ next x c = some f ∧
        m.enabled c s.store ∧ s'.store = (m.exec o c s.store).2 ∧
        Tracked next s' (hs.set i (f (m.exec o c s.store).1)) := by
  cases l with
  | start p =>
    cases hstep
    exact .inl ⟨p, rfl, rfl, h.start (hstart p)⟩
  | advance i o =>
    simp only [Concurrent.step] at hstep
    split at hstep
    · rename_i c k hi
      split at hstep
      · rename_i hen
        cases hstep
        have hlt : i < hs.length := h.length ▸ (List.getElem?_eq_some_iff.1 hi).1
        have hx : hs[i]? = some hs[i] := List.getElem?_eq_getElem hlt
        obtain ⟨f, hf, hk⟩ := h.follows i _ _ hi hx
        exact .inr ⟨i, o, c, _, f, rfl, by simp [command, hi], hx, hf, hen, rfl, h.set i _ (hk _)⟩
      · cases hstep
    · cases hstep

end Concurrent
