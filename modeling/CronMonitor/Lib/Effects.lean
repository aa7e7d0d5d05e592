import Mathlib.Tactic

/-!
# Computations that change a state and may throw

`Eff ε σ α` keeps its state when it throws, as a sequence of statements against a server does.
`exec m s` is the outcome and the final state, with one equation for each way to build a computation.
Three kinds of statement are provided: `Moves R m` relates the state before to the state after on every
outcome (a frame rule when `R` says what is left alone), `Returns P m Q` says that from `P` the
computation does return, with `Q` of the value and the final state, and `Commutes g P m` that it does
not see the difference that `g` makes to a state.
-/

/-- A computation over a state `σ` that may throw an `ε`; the state survives the throw. -/
abbrev Eff (ε σ α : Type) : Type := ExceptT ε (StateM σ) α

namespace Eff

variable {ε σ α β : Type}

/-- The outcome of `m` from `s`, and the state it leaves. -/
def exec (m : Eff ε σ α) (s : σ) : Except ε α × σ := m.run.run s

@[simp] theorem exec_pure (a : α) (s : σ) : exec (pure a : Eff ε σ α) s = (.ok a, s) := rfl

@[simp] theorem exec_throw (e : ε) (s : σ) : exec (throw e : Eff ε σ α) s = (.error e, s) := rfl

theorem exec_bind (m : Eff ε σ α) (f : α → Eff ε σ β) (s : σ) :
    exec (m >>= f) s =
      match exec m s with
      | (.ok a, s') => exec (f a) s'
      | (.error e, s') => (.error e, s') := by
  simp only [exec, bind, ExceptT.bind, ExceptT.mk, ExceptT.run, StateT.run, StateT.bind]
  rcases m s with ⟨_ | _, s'⟩ <;> rfl

theorem exec_bind_ok {m : Eff ε σ α} {f : α → Eff ε σ β} {s s' : σ} {a : α} (h : exec m s = (.ok a, s')) :
    exec (m >>= f) s = exec (f a) s' := by
  rw [exec_bind, h]

theorem exec_bind_error {m : Eff ε σ α} {f : α → Eff ε σ β} {s s' : σ} {e : ε}
    (h : exec m s = (.error e, s')) : exec (m >>= f) s = (.error e, s') := by
  rw [exec_bind, h]

theorem exec_tryCatch (m : Eff ε σ α) (k : ε → Eff ε σ α) (s : σ) :
    exec (tryCatch m k) s =
      match exec m s with
      | (.ok a, s') => (.ok a, s')
      | (.error e, s') => exec (k e) s' := by
  simp only [exec, tryCatch, tryCatchThe, MonadExceptOf.tryCatch, ExceptT.tryCatch, ExceptT.mk, ExceptT.run,
    StateT.run, bind, StateT.bind]
  rcases m s with ⟨_ | _, s'⟩ <;> rfl

/-! ### The relation between the state before and the state after -/

/-- `R` holds between the state `m` starts in and the state it leaves, whatever its outcome. -/
def Moves (R : σ → σ → Prop) (m : Eff ε σ α) : Prop := ∀ s, R s (exec m s).2

section Moves

variable {R : σ → σ → Prop} {m : Eff ε σ α} {f : α → Eff ε σ β}

theorem Moves.pure (hr : ∀ s, R s s) (a : α) : Moves R (pure a : Eff ε σ α) := hr

theorem Moves.throw (hr : ∀ s, R s s) (e : ε) : Moves R (throw e : Eff ε σ α) := hr

/-- Sequencing composes the relations; the first one stands alone where `m` throws. -/
theorem Moves.comp {R₁ R₂ : σ → σ → Prop} (hm : Moves R₁ m) (hf : ∀ a, Moves R₂ (f a))
    (h₁ : ∀ s s', R₁ s s' → R s s') (h₂ : ∀ s s' s'', R₁ s s' → R₂ s' s'' → R s s'') : Moves R (m >>= f) := by
  intro s
  have h := hm s
  rw [exec_bind]
  rcases hx : exec m s with ⟨e | a, s'⟩
  · rw [hx] at h
    exact h₁ _ _ h
  · rw [hx] at h
    exact h₂ _ _ _ h (hf a s')

theorem Moves.bind (ht : ∀ a b c, R a b → R b c → R a c) (hm : Moves R m) (hf : ∀ a, Moves R (f a)) :
    Moves R (m >>= f) :=
  Moves.comp hm hf (fun _ _ h => h) ht

theorem Moves.tryCatch {k : ε → Eff ε σ α} (ht : ∀ a b c, R a b → R b c → R a c) (hm : Moves R m)
    (hk : ∀ e, Moves R (k e)) : Moves R (tryCatch m k) := by
  intro s
  have h := hm s
  rw [exec_tryCatch]
  rcases hx : exec m s with ⟨e | a, s'⟩
  · rw [hx] at h
    exact ht _ _ _ h (hk e s')
  · rw [hx] at h
    exact h

theorem Moves.ite {m' : Eff ε σ α} {c : Prop} [Decidable c] (hm : Moves R m) (hm' : Moves R m') :
    Moves R (if c then m else m') := by
  split
  · exact hm
  · exact hm'

/-- A `for` loop, by what it does on the members of the list. -/
theorem Moves.forM_mem (hr : ∀ s, R s s) (ht : ∀ a b c, R a b → R b c → R a c) {g : β → Eff ε σ PUnit} :
    ∀ {l : List β}, (∀ b ∈ l, Moves R (g b)) → Moves R (l.forM g)
  | [], _ => Moves.pure hr _
  | b :: _, hg =>
    Moves.bind ht (hg b List.mem_cons_self) fun _ => Moves.forM_mem hr ht fun b' hb' => hg b' (List.mem_cons_of_mem b hb')

theorem Moves.forM (hr : ∀ s, R s s) (ht : ∀ a b c, R a b → R b c → R a c) {g : β → Eff ε σ PUnit}
    (hg : ∀ b, Moves R (g b)) (l : List β) : Moves R (l.forM g) :=
  Moves.forM_mem hr ht fun b _ => hg b

end Moves

/-! ### Returning -/

/-- From every state satisfying `P`, `m` returns a value and a state satisfying `Q`. -/
def Returns (P : σ → Prop) (m : Eff ε σ α) (Q : α → σ → Prop) : Prop :=
  ∀ s, P s → ∃ a s', exec m s = (.ok a, s') ∧ Q a s'

section Returns

variable {P : σ → Prop} {Q : α → σ → Prop} {m : Eff ε σ α} {f : α → Eff ε σ β}

theorem Returns.pure {a : α} (h : ∀ s, P s → Q a s) : Returns P (pure a : Eff ε σ α) Q :=
  fun s hs => ⟨a, s, rfl, h s hs⟩

theorem Returns.bind {Q' : β → σ → Prop} (hm : Returns P m Q) (hf : ∀ a, Returns (Q a) (f a) Q') :
    Returns P (m >>= f) Q' := by
  intro s hs
  obtain ⟨a, s', hx, hQ⟩ := hm s hs
  obtain ⟨b, s'', hy, hQ'⟩ := hf a s' hQ
  exact ⟨b, s'', by rw [exec_bind_ok hx, hy], hQ'⟩

theorem Returns.conseq {P' : σ → Prop} {Q' : α → σ → Prop} (hm : Returns P m Q) (hP : ∀ s, P' s → P s)
    (hQ : ∀ a s, Q a s → Q' a s) : Returns P' m Q' := by
  intro s hs
  obtain ⟨a, s', hx, hq⟩ := hm s (hP s hs)
  exact ⟨a, s', hx, hQ a s' hq⟩

/-- A `for` loop keeps what each of its rounds keeps. -/
theorem Returns.forM {g : β → Eff ε σ PUnit} (hg : ∀ b, Returns P (g b) fun _ => P) :
    ∀ l : List β, Returns P (l.forM g) fun _ => P
  | [] => Returns.pure fun _ h => h
  | b :: l => Returns.bind (hg b) fun _ => Returns.forM hg l

end Returns

/-! ### Through a map of the state -/

/-- On states that satisfy `P`, `m` does the same whether its state is mapped by `g` before or after, and keeps `P`. -/
def Commutes (g : σ → σ) (P : σ → Prop) (m : Eff ε σ α) : Prop :=
  ∀ s, P s → exec m (g s) = ((exec m s).1, g (exec m s).2) ∧ P (exec m s).2

section Commutes

variable {g : σ → σ} {P : σ → Prop} {m : Eff ε σ α} {f : α → Eff ε σ β}

theorem Commutes.pure (a : α) : Commutes g P (pure a : Eff ε σ α) := fun _ hs => ⟨rfl, hs⟩

theorem Commutes.throw (e : ε) : Commutes g P (throw e : Eff ε σ α) := fun _ hs => ⟨rfl, hs⟩

theorem Commutes.bind (hm : Commutes g P m) (hf : ∀ a, Commutes g P (f a)) : Commutes g P (m >>= f) := by
  intro s hs
  obtain ⟨hx, hP⟩ := hm s hs
  rw [exec_bind, exec_bind, hx]
  rcases h : exec m s with ⟨e | a, s'⟩ <;> rw [h] at hP
  · exact ⟨rfl, hP⟩
  · exact hf a s' hP

theorem Commutes.tryCatch {k : ε → Eff ε σ α} (hm : Commutes g P m) (hk : ∀ e, Commutes g P (k e)) :
    Commutes g P (tryCatch m k) := by
  intro s hs
  obtain ⟨hx, hP⟩ := hm s hs
  rw [exec_tryCatch, exec_tryCatch, hx]
  rcases h : exec m s with ⟨e | a, s'⟩ <;> rw [h] at hP
  · exact hk e s' hP
  · exact ⟨rfl, hP⟩

theorem Commutes.forM {r : β → Eff ε σ PUnit} (hr : ∀ b, Commutes g P (r b)) :
    ∀ l : List β, Commutes g P (l.forM r)
  | [] => Commutes.pure _
  | b :: l => Commutes.bind (hr b) fun _ => Commutes.forM hr l

end Commutes

end Eff
