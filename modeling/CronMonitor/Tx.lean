import CronMonitor.Db

/-!
# Reasoning about the statements of a transaction

What a computation does through the client of an open transaction is a relation between the client's views
before and after (`InTx`); nothing committed moves. `TxReturns` is the corresponding triple when no
statement fails. `Plain` computations throw only where a statement fails and otherwise do what they do when
none fails; a transaction of such statements commits all of them or none (`withTransaction_ok`,
`withTransaction_error`).
-/

namespace CronMonitor

open Eff

namespace Session

/-- `P` holds between the client's views, and what is committed did not move. -/
def InTx (P : Store → Store → Prop) (s s' : Session) : Prop :=
  s.tx.isSome → s'.tx.isSome ∧ s'.store.db = s.store.db ∧ P s.clientView s'.clientView

/-- The same session with no statement about to fail. -/
def reliable (s : Session) : Session := { s with failAt := none }

/-- Inside a transaction over the committed tables `d`, with no statement about to fail. -/
structure Ready (d : Db) (s : Session) : Prop where
  tx : s.tx.isSome
  failAt : s.failAt = none
  db : s.store.db = d

variable {s : Session} {st : Store}

@[simp] theorem countdown_store : s.countdown.store = s.store := rfl
@[simp] theorem countdown_tx : s.countdown.tx = s.tx := rfl
@[simp] theorem countdown_clientView : s.countdown.clientView = s.clientView := rfl
@[simp] theorem clientView_failAt (f : Option (Nat × String)) :
    clientView { s with failAt := f } = s.clientView := rfl
@[simp] theorem reliable_clientView : s.reliable.clientView = s.clientView := rfl
@[simp] theorem reliable_countdown : s.reliable.countdown = s.reliable := rfl
@[simp] theorem countdown_reliable : s.countdown.reliable = s.reliable := rfl

theorem putClient_tx (h : s.tx.isSome) : (s.putClient st).tx = some st.db := by
  obtain ⟨d, hd⟩ := Option.isSome_iff_exists.1 h
  simp [putClient, hd]

theorem putClient_db (h : s.tx.isSome) : (s.putClient st).store.db = s.store.db := by
  obtain ⟨d, hd⟩ := Option.isSome_iff_exists.1 h
  simp [putClient, hd]

@[simp] theorem clientView_putClient : (s.putClient st).clientView = st := by
  unfold putClient
  split <;> simp [clientView, *]

@[simp] theorem putClient_failAt : (s.putClient st).failAt = s.failAt := by
  unfold putClient
  split <;> rfl

theorem putClient_reliable : (s.putClient st).reliable = s.reliable.putClient st := by
  unfold putClient
  rcases h : s.tx with _ | d <;> simp [reliable, h]

theorem Ready.putClient {d : Db} (h : s.Ready d) (st : Store) : (s.putClient st).Ready d :=
  ⟨by rw [putClient_tx h.tx]; rfl, by rw [putClient_failAt]; exact h.failAt, by rw [putClient_db h.tx]; exact h.db⟩

/-- A guarded step fails and changes nothing, or takes its effect. -/
theorem guarded_cases {α : Type} (f : Session → α × Session) (s : Session) :
    (∃ message, exec (guarded f) s = (.error message, s.reliable)) ∨
      exec (guarded f) s = (.ok (f s.countdown).1, (f s.countdown).2) := by
  show (∃ message, guarded f s = (.error message, s.reliable)) ∨
    guarded f s = (.ok (f s.countdown).1, (f s.countdown).2)
  unfold guarded
  split
  · exact .inl ⟨_, rfl⟩
  · exact .inr rfl

theorem exec_guarded {α : Type} {f : Session → α × Session} (h : s.failAt = none) :
    exec (guarded f) s = (.ok (f s).1, (f s).2) := by
  obtain ⟨store, tx, failAt⟩ := s
  cases h
  rfl

end Session

open Session

section Frames

variable {P : Store → Store → Prop} {α : Type} {stmt : Stmt α}

theorem InTx.refl (hr : ∀ st, P st st) (s : Session) : InTx P s s := fun h => ⟨h, rfl, hr _⟩

/-- Sequencing composes what the parts do to the view. -/
theorem InTx.comp {A B : Store → Store → Prop} {β : Type} {m : SqlM β} {f : β → SqlM α}
    (hm : Moves (InTx A) m) (hf : ∀ a, Moves (InTx B) (f a)) (h₁ : ∀ a b, A a b → P a b)
    (h₂ : ∀ a b c, A a b → B b c → P a c) : Moves (InTx P) (m >>= f) := by
  refine Moves.comp hm hf (fun s s' h htx => ?_) fun s s' s'' h h' htx => ?_
  · obtain ⟨htx', hdb, hP⟩ := h htx
    exact ⟨htx', hdb, h₁ _ _ hP⟩
  · obtain ⟨htx', hdb, hP⟩ := h htx
    obtain ⟨htx'', hdb', hP'⟩ := h' htx'
    exact ⟨htx'', hdb'.trans hdb, h₂ _ _ _ hP hP'⟩

theorem moves_client (hr : ∀ st, P st st) (h : ∀ st, P st (stmt st).2) :
    Moves (InTx P) (query .client stmt) := by
  intro s htx
  rcases guarded_cases (effect .client stmt) s with ⟨message, hx⟩ | hx <;> rw [query, hx]
  · exact ⟨htx, rfl, hr _⟩
  · exact ⟨by simp [effect, putClient_tx, htx], putClient_db htx, by simpa [effect] using h _⟩

/-- A read on the pool. -/
theorem moves_pool (hr : ∀ st, P st st) (h : ∀ st, (stmt st).2 = st) :
    Moves (InTx P) (query .pool stmt) := by
  intro s htx
  rcases guarded_cases (effect .pool stmt) s with ⟨message, hx⟩ | hx <;> rw [query, hx]
  · exact ⟨htx, rfl, hr _⟩
  · refine ⟨htx, ?_, ?_⟩
    · simp [effect, h]
    · simpa [effect, h, clientView] using hr _

end Frames

/-! ### Triples inside a transaction -/

/-- From a view satisfying `P`, with no statement failing, `m` returns and leaves a view satisfying `Q`. -/
def TxReturns {α : Type} (P : Store → Prop) (m : SqlM α) (Q : α → Store → Prop) : Prop :=
  ∀ d, Returns (fun s => s.Ready d ∧ P s.clientView) m fun a s => s.Ready d ∧ Q a s.clientView

section Triples

variable {α β : Type} {P : Store → Prop} {Q : α → Store → Prop} {stmt : Stmt α} {m : SqlM α} {f : α → SqlM β}

theorem TxReturns.client (h : ∀ st, P st → Q (stmt st).1 (stmt st).2) : TxReturns P (query .client stmt) Q := by
  rintro d s ⟨hs, hP⟩
  exact ⟨_, _, exec_guarded hs.failAt, hs.putClient _, by simpa [effect] using h _ hP⟩

/-- What a statement does from a given view. -/
theorem TxReturns.send (stmt : Stmt α) (v : Store) :
    TxReturns (· = v) (query .client stmt) fun a v' => a = (stmt v).1 ∧ v' = (stmt v).2 := by
  refine TxReturns.client ?_
  rintro st rfl
  exact ⟨rfl, rfl⟩

/-- A read on the pool, which sees the committed tables and not the view. -/
theorem TxReturns.pool (hstmt : ∀ st, (stmt st).2 = st) (h : ∀ a st, P st → Q a st) :
    TxReturns P (query .pool stmt) Q := by
  rintro d s ⟨hs, hP⟩
  refine ⟨(stmt s.store).1, s, ?_, hs, h _ _ hP⟩
  rw [query, exec_guarded hs.failAt]
  simp [effect, hstmt]

theorem TxReturns.pure {a : α} (h : ∀ st, P st → Q a st) : TxReturns P (pure a) Q :=
  fun _ => Returns.pure fun _ hs => ⟨hs.1, h _ hs.2⟩

theorem TxReturns.bind {Q' : β → Store → Prop} (hm : TxReturns P m Q) (hf : ∀ a, TxReturns (Q a) (f a) Q') :
    TxReturns P (m >>= f) Q' :=
  fun d => Returns.bind (hm d) fun a => hf a d

theorem TxReturns.conseq {P' : Store → Prop} {Q' : α → Store → Prop} (hm : TxReturns P m Q)
    (hP : ∀ st, P' st → P st) (hQ : ∀ a st, Q a st → Q' a st) : TxReturns P' m Q' :=
  fun d => Returns.conseq (hm d) (fun _ h => ⟨h.1, hP _ h.2⟩) fun _ _ h => ⟨h.1, hQ _ _ h.2⟩

/-- It is enough to start from each view in turn. -/
theorem TxReturns.of_forall (h : ∀ v, P v → TxReturns (· = v) m Q) : TxReturns P m Q :=
  fun d s hs => h s.clientView hs.2 d s ⟨hs.1, rfl⟩

/-- From the view `v`, as from any view of which `P` holds. -/
theorem TxReturns.of_view {v : Store} (h : TxReturns P m Q) (hv : P v) : TxReturns (· = v) m Q :=
  h.conseq (fun _ hst => hst ▸ hv) fun _ _ hQ => hQ

/-- What the triple says of an execution that is known to return. -/
theorem TxReturns.exec {s s' : Session} {d : Db} {a : α} (h : TxReturns P m Q) (hs : s.Ready d) (hP : P s.clientView)
    (hx : exec m s = (.ok a, s')) : s'.Ready d ∧ Q a s'.clientView := by
  obtain ⟨a', s'', hx', hQ⟩ := h d s ⟨hs, hP⟩
  rw [hx] at hx'
  cases hx'
  exact hQ

theorem TxReturns.and {Q' : α → Store → Prop} (h : TxReturns P m Q) (h' : TxReturns P m Q') :
    TxReturns P m fun a st => Q a st ∧ Q' a st := by
  intro d s hs
  obtain ⟨a, s', hx, hr, hQ⟩ := h d s hs
  exact ⟨a, s', hx, hr, hQ, (h'.exec hs.1 hs.2 hx).2⟩

theorem TxReturns.forM {g : β → SqlM PUnit} (hg : ∀ b, TxReturns P (g b) fun _ => P) (l : List β) :
    TxReturns P (l.forM g) fun _ => P :=
  fun d => Returns.forM (fun b => hg b d) l

end Triples

/-! ### Where a failure can come from -/

/-- `m` throws only when a statement of it fails, and otherwise does what it does when none fails. -/
structure Plain {α : Type} (m : SqlM α) : Prop where
  ok : ∀ s a s', exec m s = (.ok a, s') → exec m s.reliable = (.ok a, s'.reliable)
  error : ∀ s e s', exec m s = (.error e, s') → s'.failAt = none

section Plain

variable {α β : Type} {m : SqlM α} {f : α → SqlM β}

theorem Plain.guarded {f : Session → α × Session} (hf : ∀ s, f s.reliable = ((f s).1, (f s).2.reliable)) :
    Plain (Session.guarded f) := by
  refine ⟨fun s a s' h => ?_, fun s e s' h => ?_⟩ <;>
    rcases guarded_cases f s with ⟨message, hx⟩ | hx <;> rw [hx] at h <;> cases h
  · rw [exec_guarded (s := s.reliable) rfl, ← countdown_reliable, hf s.countdown]
  · rfl

theorem Plain.query (r : SqlRunner) (stmt : Stmt α) : Plain (query r stmt) := by
  refine Plain.guarded fun s => ?_
  cases r with
  | pool => rfl
  | client => simp [effect, putClient_reliable]

theorem Plain.pure (a : α) : Plain (pure a : SqlM α) := by
  constructor <;> intro s _ s' h <;> cases h
  rfl

theorem Plain.bind (hm : Plain m) (hf : ∀ a, Plain (f a)) : Plain (m >>= f) := by
  constructor <;> intro s b s'' h <;> rw [exec_bind] at h <;> rcases hx : exec m s with ⟨e | a, s'⟩ <;>
    rw [hx] at h
  · cases h
  · rw [exec_bind_ok (hm.ok s a s' hx)]
    exact (hf a).ok s' b s'' h
  · cases h
    exact hm.error _ _ _ hx
  · exact (hf a).error s' b s'' h

end Plain

/-! ### Whole transactions -/

section Transaction

variable {α : Type} {fn : SqlM α} {P : Store → Store → Prop} {s s' : Session} {e : String} {a : α}

/-- From `BEGIN` to `COMMIT`, the part that `withTransaction` rolls back when it throws. -/
def txBody (fn : SqlM α) : SqlM α := do
  beginTx
  let result ← fn
  commitTx
  return result

theorem withTransaction_eq (fn : SqlM α) :
    withTransaction fn = connect >>= fun _ => tryCatch (txBody fn) fun err => rollbackTx >>= fun _ => throw err :=
  rfl

theorem txBody_plain (h : Plain fn) : Plain (txBody fn) := by
  refine Plain.bind (Plain.guarded fun _ => rfl) fun _ => Plain.bind h fun a => ?_
  exact Plain.bind (Plain.guarded fun _ => rfl) fun _ => Plain.pure a

theorem connect_cases (s : Session) :
    (∃ e, exec connect s = (.error e, s.reliable)) ∨ exec connect s = (.ok (), s.countdown) :=
  guarded_cases _ s

theorem beginTx_cases (s : Session) :
    (∃ e, exec beginTx s = (.error e, s.reliable)) ∨
      exec beginTx s = (.ok (), { s.countdown with tx := some s.store.db }) :=
  guarded_cases _ s

theorem commitTx_cases (s : Session) :
    (∃ e, exec commitTx s = (.error e, s.reliable)) ∨
      exec commitTx s = (.ok (), { s.countdown with store := s.clientView, tx := none }) :=
  guarded_cases _ s

/-- Nothing is committed before `COMMIT` has succeeded; then everything is. -/
theorem txBody_cases (hP : ∀ st, P st st) (hfn : Moves (InTx P) fn) (hplain : Plain fn) (s : Session) :
    (∃ a v s', exec (txBody fn) s = (.ok a, s') ∧ exec fn ⟨s.store, some s.store.db, none⟩ = (.ok a, v) ∧
        s'.tx = none ∧ s'.store = v.clientView) ∨
      ∃ e s' st, exec (txBody fn) s = (.error e, s') ∧ P s.store st ∧ s'.store = { st with db := s.store.db } := by
  unfold txBody
  rcases beginTx_cases s with ⟨e, hx⟩ | hx
  · exact .inr ⟨e, s.reliable, s.store, exec_bind_error hx, hP _, rfl⟩
  rw [exec_bind_ok hx]
  -- The client sees the committed tables when it begins.
  set s₁ : Session := { s.countdown with tx := some s.store.db }
  obtain ⟨-, hdb, hv⟩ := hfn s₁ rfl
  have hv : P s.store (exec fn s₁).2.clientView := hv
  have hback : (exec fn s₁).2.store = { (exec fn s₁).2.clientView with db := s.store.db } := by
    rw [show s.store.db = (exec fn s₁).2.store.db from hdb.symm]
    rfl
  rcases hr : exec fn s₁ with ⟨e | a, s₂⟩ <;> rw [hr] at hv hback
  · exact .inr ⟨e, s₂, s₂.clientView, exec_bind_error hr, hv, hback⟩
  rw [exec_bind_ok hr]
  rcases commitTx_cases s₂ with ⟨e, hx⟩ | hx
  · exact .inr ⟨e, s₂.reliable, s₂.clientView, exec_bind_error hx, hv, hback⟩
  · exact .inl ⟨a, s₂.reliable, _, exec_bind_ok hx, hplain.ok _ _ _ hr, rfl, rfl⟩

/-- A transaction that returns committed what its statements do together when none of them fails. -/
theorem withTransaction_ok (hP : ∀ st, P st st) (hfn : Moves (InTx P) fn) (hplain : Plain fn)
    (h : exec (withTransaction fn) s = (.ok a, s')) :
    ∃ v, exec fn ⟨s.store, some s.store.db, none⟩ = (.ok a, v) ∧ s'.tx = none ∧ s'.store = v.clientView := by
  rw [withTransaction_eq] at h
  rcases connect_cases s with ⟨e, hx⟩ | hx
  · rw [exec_bind_error hx] at h
    cases h
  rw [exec_bind_ok hx, exec_tryCatch] at h
  rcases txBody_cases hP hfn hplain s.countdown with ⟨a', v, s₂, hb, hv, htx, hst⟩ | ⟨e, s₂, st, hb, -, -⟩ <;>
    rw [hb] at h
  · cases h
    exact ⟨v, hv, htx, hst⟩
  · simp only [exec_bind] at h
    split at h <;> cases h

/-- A transaction that throws is rolled back: nothing is committed, and no statement is left to fail. -/
theorem withTransaction_error (hP : ∀ st, P st st) (hfn : Moves (InTx P) fn) (hplain : Plain fn) (hs : s.tx = none)
    (h : exec (withTransaction fn) s = (.error e, s')) :
    s'.tx = none ∧ s'.failAt = none ∧ ∃ st, P s.store st ∧ s'.store = { st with db := s.store.db } := by
  rw [withTransaction_eq] at h
  rcases connect_cases s with ⟨e, hx⟩ | hx
  · rw [exec_bind_error hx] at h
    cases h
    exact ⟨hs, rfl, s.store, hP _, rfl⟩
  rw [exec_bind_ok hx, exec_tryCatch] at h
  rcases txBody_cases hP hfn hplain s.countdown with ⟨a', v, s₂, hb, -, -, -⟩ | ⟨e, s₂, st, hb, hPs, hst⟩ <;>
    rw [hb] at h
  · cases h
  · have hspent := (txBody_plain hplain).error _ _ _ hb
    simp only [exec_bind, rollbackTx, exec_guarded hspent] at h
    cases h
    exact ⟨rfl, hspent, st, hPs, hst⟩

/-- A transaction of statements that return commits. -/
theorem withTransaction_returns {Q : α → Store → Prop} {st : Store} (h : TxReturns (· = st) fn Q) :
    ∃ a st', exec (withTransaction fn) ⟨st, none, none⟩ = (.ok a, ⟨st', none, none⟩) ∧ Q a st' := by
  obtain ⟨a, s, hx, hs, hQ⟩ := h st.db ⟨st, some st.db, none⟩ ⟨⟨rfl, rfl, rfl⟩, rfl⟩
  refine ⟨a, s.clientView, ?_, hQ⟩
  have hcommit : exec (txBody fn) ⟨st, none, none⟩ = (.ok a, ⟨s.clientView, none, none⟩) := by
    have hbegin : exec beginTx ⟨st, none, none⟩ = (.ok (), ⟨st, some st.db, none⟩) := rfl
    rw [txBody, exec_bind_ok hbegin, exec_bind_ok hx]
    rcases commitTx_cases s with ⟨e, hc⟩ | hc
    · rw [commitTx, exec_guarded hs.failAt] at hc
      cases hc
    · rw [exec_bind_ok hc]
      obtain ⟨store, tx, failAt⟩ := s
      obtain rfl : failAt = none := hs.failAt
      rfl
  have hconnect : exec connect ⟨st, none, none⟩ = (.ok (), ⟨st, none, none⟩) := rfl
  rw [withTransaction_eq, exec_bind_ok hconnect, exec_tryCatch, hcommit]

end Transaction

end CronMonitor
