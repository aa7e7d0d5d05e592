import CronMonitor.Simulator.Cursors

/-!
# What a cursor walk returns

`listEvents` walks are complete, for an event never leaves its place. A walk over `transactions` without a status
filter is complete too. With a status filter it is as long as no transaction up to the last one returned enters or
leaves the filter, which would move the rest of the list across the offset.
-/

namespace CronMonitor

namespace Simulator

namespace Sim

open Runs Walks

variable {Body : Type} {W : Wire Body} {s s' : Sim Body} {cred : String} {q : TxQuery}

/-- Whether the transaction under a key passes the filter. -/
def selects (s : Sim Body) (cred : String) (q : TxQuery) (k : TxKey) : Bool :=
  (s.txs.get? k).any fun i => s.heap[i]?.any (q.selects cred)

theorem keys_matching : (s.matching cred q).map Prod.fst = s.txs.keys.filter (s.selects cred q) := by
  rw [matching, OrderedMap.keys, List.filter_map]
  congr 1
  refine List.filter_congr fun e he => ?_
  simp [selects, OrderedMap.get?_eq_some_iff.2 he]

theorem matching_nodup : ((s.matching cred q).map Prod.fst).Nodup := by
  rw [keys_matching]
  exact s.txs.nodup.filter _

/-- Without a status filter the key decides. -/
theorem selects_of_key (hs : s.Named) (hq : q.hasStatus = false) {k : TxKey} (hk : k ∈ s.txs.keys) :
    s.selects cred q k = (decide (k.credential = cred) && q.ofKind k.kind) := by
  obtain ⟨i, hi⟩ := OrderedMap.mem_keys_iff.1 hk
  obtain ⟨t, ht, hkind, hcred⟩ := hs.named _ (OrderedMap.get?_eq_some_iff.1 hi)
  simp only at ht hkind hcred
  simp [selects, hi, ht, TxQuery.selects, hkind, hcred, TxQuery.ofStatus_of_hasStatus hq]

/-! ### Transactions -/

abbrev TxWalk : Type := Walk TxCursor (TxKey × Nat)

/-- The simulator and a client that walks over `transactions`. -/
def txTurn (W : Wire Body) (cred : String) (q : TxQuery) : Sim Body × TxWalk → Move (Label Body) → Option (Sim Body × TxWalk) :=
  turn (Sim.step W) fun s => s.transactions cred q

/-- The keys of the transactions that were registered no later than the last one returned. -/
def passed (s : Sim Body) (w : TxWalk) : List TxKey :=
  match w.returned.getLast? with
  | none => []
  | some e => s.txs.keys.take (s.txs.keys.idxOf e.1 + 1)

/-- A step under a walk that is not over: no transaction that the walk has passed enters or leaves the filter. -/
def Undisturbed (cred : String) (q : TxQuery) : Sim Body × TxWalk → Move (Label Body) → Sim Body × TxWalk → Prop
  | (s, w), .act _, (s', _) => w.place ≠ .ended → ∀ k ∈ s.passed w, s'.selects cred q k = s.selects cred q k
  | _, .page, _ => True

instance (p : Sim Body × TxWalk) : ∀ (m : Move (Label Body)) (p' : Sim Body × TxWalk), Decidable (Undisturbed cred q p m p')
  | .act _, p' => inferInstanceAs (Decidable (p.2.place ≠ .ended →
      ∀ k ∈ p.1.passed p.2, p'.1.selects cred q k = p.1.selects cred q k))
  | .page, _ => isTrue trivial

/-- The offset of a cursor. -/
def AtOffset (_ : Sim Body) (c : Option TxCursor) (n : Nat) : Prop := c.getD (.offset 0) = .offset n

theorem transactions_paged (W : Wire Body) (cred : String) (hlimit : 0 < q.limit) :
    Paged (Sim.step W) (fun s => s.transactions cred q) (fun s => s.matching cred q) q.limit Named AtOffset where
  limit_pos := hlimit
  inv s a s' hs hstep := (step_grows hstep).table hs
  first _ := rfl
  last s c n _ hat hle := by
    have hat : c.getD (.offset 0) = .offset n := hat
    simp only [transactions, hat]
    rw [if_neg (Nat.not_lt.2 hle)]
  more s c n _ hat hlt := by
    have hat : c.getD (.offset 0) = .offset n := hat
    refine ⟨.offset (n + q.limit), ?_, rfl⟩
    simp only [transactions, hat]
    rw [if_pos hlt]
  keep _ _ _ _ _ _ _ hat := hat


theorem steady_of_undisturbed {p p' : Sim Body × TxWalk} {m : Move (Label Body)}
    (hfront : Paged.Front (fun s => s.matching cred q) Prod.fst p) (hs : txTurn W cred q p m = some p')
    (h : Undisturbed cred q p m p') : Steady (fun s => s.matching cred q) Prod.fst p m p' := by
  obtain ⟨s, w⟩ := p
  cases m with
  | page => trivial
  | act l =>
    obtain ⟨s', hstep, rfl⟩ := Option.map_eq_some_iff.1 hs
    intro hended
    have hfront := hfront hended
    have h := h hended
    simp only [keys_matching] at hfront ⊢
    cases hlast : w.returned.getLast? with
    | none =>
      have hnil : w.returned = [] := List.getLast?_eq_none_iff.1 hlast
      simp [hnil]
    | some e =>
      rw [passed, hlast] at h
      refine take_filter_eq s.txs.nodup (step_grows hstep).keys ?_ ?_ h
      · rw [← hfront, List.getLast?_map, hlast]
        rfl
      · have hlen := congrArg List.length hfront
        rw [List.length_map, List.length_take] at hlen
        omega

theorem undisturbed_of_no_status (hq : q.hasStatus = false) {p p' : Sim Body × TxWalk} {m : Move (Label Body)}
    (hp : p.1.Named) (hs : txTurn W cred q p m = some p') : Undisturbed cred q p m p' := by
  obtain ⟨s, w⟩ := p
  cases m with
  | page => trivial
  | act l =>
    obtain ⟨s', hstep, rfl⟩ := Option.map_eq_some_iff.1 hs
    intro _ k hk
    have hgrows := step_grows hstep
    have hkey : k ∈ s.txs.keys := by
      unfold passed at hk
      split at hk
      · cases hk
      · exact List.mem_of_mem_take hk
    rw [selects_of_key hp hq hkey, selects_of_key (hgrows.table hp) hq (hgrows.keys.subset hkey)]

theorem init_placed {C ι : Type} {Inv : Sim Body → Prop} {At : Sim Body → Option C → Nat → Prop} (hs : Inv s)
    (hat : At s none 0) : Placed At Inv (s, (Walk.start : Walk C ι)) := by
  refine ⟨hs, by simp [Walk.start], fun c hc => ?_⟩
  obtain rfl : none = c := by simpa [Walk.start] using hc
  exact hat

theorem along_steady (hlimit : 0 < q.limit) (hs : s.Named) {tr : List (Move (Label Body))}
    (h : q.hasStatus = false ∨ Along (txTurn W cred q) (Undisturbed cred q) (s, .start) tr) :
    Along (txTurn W cred q) (Steady (fun s => s.matching cred q) Prod.fst) (s, .start) tr := by
  have hpaged := transactions_paged W cred hlimit
  have hundisturbed : Along (txTurn W cred q) (Undisturbed cred q) (s, .start) tr := by
    rcases h with hq | h
    · refine Along.of_inv (I := fun p => p.1.Named) hs fun p m p' hp hs => ⟨?_, undisturbed_of_no_status hq hp hs⟩
      obtain ⟨s, w⟩ := p
      cases m with
      | act l =>
        obtain ⟨s', hstep, rfl⟩ := Option.map_eq_some_iff.1 hs
        exact (step_grows hstep).table hp
      | page =>
        simp only [txTurn, turn] at hs
        split at hs
        · obtain rfl := Option.some.inj hs
          exact hp
        · cases hs
        · cases hs
    · exact h
  refine hundisturbed.under_inv (I := fun p => Placed AtOffset Named p ∧
    Paged.Front (fun s => s.matching cred q) Prod.fst p ∧ (p.2.returned.map Prod.fst).Nodup)
    ⟨init_placed hs rfl, fun _ => rfl, List.nodup_nil⟩ ?_
  rintro p m p' ⟨hp, hfront, hnodup⟩ hs h
  have hsteady := steady_of_undisturbed hfront hs h
  exact ⟨⟨hpaged.turn_placed p m p' hp hs, hpaged.turn_front (fun _ _ => matching_nodup) hp hfront hnodup hs hsteady⟩,
    hsteady⟩

/-- The transactions that were returned are under the keys they were returned with, or no longer in the table. -/
structure Owned (p : Sim Body × TxWalk) : Prop where
  table : p.1.Named
  old : ∀ e ∈ p.2.returned, e.2 < p.1.heap.length
  same : ∀ e ∈ p.2.returned, ∀ e' ∈ p.1.txs.entries ++ p.2.returned, e'.2 = e.2 → e' = e

theorem turn_owned (hlimit : 0 < q.limit) {p p' : Sim Body × TxWalk} {m : Move (Label Body)}
    (hp : Placed AtOffset Named p) (h : Owned p) (hs : txTurn W cred q p m = some p') : Owned p' := by
  obtain ⟨s, w⟩ := p
  cases m with
  | act l =>
    obtain ⟨s', hstep, rfl⟩ := Option.map_eq_some_iff.1 hs
    have hgrows := step_grows hstep
    refine ⟨hgrows.table h.table, fun e he => Nat.lt_of_lt_of_le (h.old e he) hgrows.heap, fun e he e' he' heq => ?_⟩
    refine h.same e he e' ?_ heq
    rcases List.mem_append.1 he' with hentry | hreturned
    · have hlt : e'.2 < s.heap.length := heq ▸ h.old e he
      exact List.mem_append_left _ (hgrows.entries e' hentry hlt)
    · exact List.mem_append_right _ hreturned
  | page =>
    obtain ⟨s', w'⟩ := p'
    obtain ⟨rfl, -, hreturned, -⟩ := (transactions_paged W cred hlimit).turn_page hp hs
    have hmem : ∀ e ∈ w'.returned, e ∈ w.returned ∨ e ∈ s'.txs.entries := by
      intro e he
      rw [hreturned] at he
      rcases List.mem_append.1 he with hold | hpage
      · exact .inl hold
      · exact .inr (List.mem_of_mem_filter (List.mem_of_mem_drop (List.mem_of_mem_take hpage)))
    have hentries : ∀ e ∈ s'.txs.entries, ∀ e' ∈ s'.txs.entries, e'.2 = e.2 → e' = e := fun e he e' he' heq =>
      List.inj_on_of_nodup_map h.table.nodup he' he heq
    refine ⟨h.table, fun e he => ?_, fun e he e' he' heq => ?_⟩
    · rcases hmem e he with hold | hnew
      · exact h.old e hold
      · obtain ⟨t, ht, -⟩ := h.table.named e hnew
        exact (List.getElem?_eq_some_iff.1 ht).1
    · have he' : e' ∈ w.returned ∨ e' ∈ s'.txs.entries := by
        rcases List.mem_append.1 he' with hentry | hreturned'
        · exact .inr hentry
        · exact hmem e' hreturned'
      rcases hmem e he with hold | hnew
      · refine h.same e hold e' ?_ heq
        rcases he' with hold' | hnew'
        · exact List.mem_append_right _ hold'
        · exact List.mem_append_left _ hnew'
      · rcases he' with hold' | hnew'
        · exact (h.same e' hold' e (List.mem_append_left _ hnew) heq.symm).symm
        · exact hentries e hnew e' hnew' heq

theorem returned_nodup (hlimit : 0 < q.limit) (hs : s.Named) {tr : List (Move (Label Body))} {p : Sim Body × TxWalk}
    (hr : run (txTurn W cred q) (s, .start) tr = some p) (hkeys : (p.2.returned.map Prod.fst).Nodup) :
    (p.2.returned.map Prod.snd).Nodup := by
  have howned : Placed AtOffset Named p ∧ Owned p := by
    refine inv_run (I := fun p => Placed AtOffset Named p ∧ Owned p) ⟨init_placed hs rfl, hs, ?_, ?_⟩ ?_ hr
    · exact fun _ he => absurd he List.not_mem_nil
    · exact fun _ he => absurd he List.not_mem_nil
    · rintro p m p' ⟨hp, howned⟩ hs
      exact ⟨(transactions_paged W cred hlimit).turn_placed p m p' hp hs, turn_owned hlimit hp howned hs⟩
  refine List.Nodup.map_on (fun e he e' he' heq => ?_) (List.Nodup.of_map Prod.fst hkeys)
  exact howned.2.same e' he' e (List.mem_append_right _ he) heq

/-! ### Events -/

abbrev EventWalk : Type := Walk String (SimEvent × Nat)

/-- The simulator and a client that walks over `listEvents`. -/
def eventTurn (W : Wire Body) (random : Nat → String) (cred : String) (limit : Nat) :
    Sim Body × EventWalk → Move (Label Body) → Option (Sim Body × EventWalk) :=
  turn (Sim.step W) fun s => s.listEvents random cred limit

/-- The id of the event in front of a place. -/
def AfterEvent (random : Nat → String) (cred : String) (s : Sim Body) : Option String → Nat → Prop
  | none, n => n = 0
  | some id, n => ∃ m e, n = m + 1 ∧ (s.eventsOf cred)[m]? = some e ∧ id = eventId random e.2

theorem eventsOf_nodup : ((s.eventsOf cred).map Prod.snd).Nodup := by
  refine List.Nodup.sublist (List.filter_sublist.map Prod.snd) ?_
  rw [List.zipIdx_map_snd]
  exact List.nodup_range'

theorem eventsOf_grows (h : Grows s s') (cred : String) : s.eventsOf cred <+: s'.eventsOf cred := by
  obtain ⟨new, hnew⟩ := h.events
  rw [eventsOf, eventsOf, ← hnew, List.zipIdx_append, List.filter_append]
  exact List.prefix_append ..

/-- The page after an event starts behind it. -/
theorem eventsFrom_after {random : Nat → String} (hrandom : Function.Injective random) {c : Option String} {n : Nat}
    (h : AfterEvent random cred s c n) : s.eventsFrom random cred c = some n := by
  cases c with
  | none =>
    obtain rfl : n = 0 := h
    rfl
  | some id =>
    obtain ⟨m, e, rfl, hm, rfl⟩ := h
    obtain ⟨hlt, hget⟩ := List.getElem?_eq_some_iff.1 hm
    rw [eventsFrom, Option.getD_some, if_neg (eventId_ne_empty random e.2)]
    have hfind : (s.eventsOf cred).findIdx? (fun e' => eventId random e'.2 = eventId random e.2) = some m := by
      refine List.findIdx?_eq_some_iff_getElem.2 ⟨hlt, by simp [hget], fun j hj => ?_⟩
      have hne : (s.eventsOf cred)[j].2 ≠ (s.eventsOf cred)[m].2 := by
        intro heq
        have hsame : (s.eventsOf cred)[j] = (s.eventsOf cred)[m] :=
          List.inj_on_of_nodup_map eventsOf_nodup (List.getElem_mem _) (List.getElem_mem _) heq
        have hindex := (List.Nodup.getElem_inj_iff (List.Nodup.of_map Prod.snd eventsOf_nodup)).1 hsame
        omega
      rw [hget] at hne
      simpa using fun heq => hne (eventId_injective hrandom heq)
    rw [hfind]
    rfl

theorem listEvents_paged (W : Wire Body) {random : Nat → String} (hrandom : Function.Injective random) (cred : String)
    {limit : Nat} (hlimit : 0 < limit) :
    Paged (Sim.step W) (fun s => s.listEvents random cred limit) (fun s => s.eventsOf cred) limit (fun _ => True)
      (AfterEvent random cred) where
  limit_pos := hlimit
  inv _ _ _ _ _ := trivial
  first _ := rfl
  last s c n _ hat hle := by
    simp only [listEvents, eventsFrom_after hrandom hat]
    rw [if_neg (Nat.not_lt.2 hle)]
  more s c n _ hat hlt := by
    simp only [listEvents, eventsFrom_after hrandom hat]
    have hlast : (((s.eventsOf cred).drop n).take limit).getLast? = (s.eventsOf cred)[n + limit - 1]? := by
      have hlen : (((s.eventsOf cred).drop n).take limit).length = limit := by
        rw [List.length_take, List.length_drop]
        omega
      rw [List.getLast?_eq_getElem?, hlen, List.getElem?_take_of_lt (by omega), List.getElem?_drop]
      congr 1
      omega
    have hbound : n + limit - 1 < (s.eventsOf cred).length := by omega
    have he : (s.eventsOf cred)[n + limit - 1]? = some (s.eventsOf cred)[n + limit - 1] :=
      List.getElem?_eq_getElem hbound
    rw [if_pos hlt, hlast, he]
    exact ⟨_, rfl, n + limit - 1, _, by omega, he, rfl⟩
  keep s l s' c n _ hstep hat := by
    cases c with
    | none => exact hat
    | some id =>
      obtain ⟨m, e, hn, hm, hid⟩ := hat
      have hprefix := eventsOf_grows (step_grows hstep) cred
      obtain ⟨new, hnew⟩ := hprefix
      exact ⟨m, e, hn, by rw [← hnew, List.getElem?_append_left (List.getElem?_eq_some_iff.1 hm).1]; exact hm, hid⟩

theorem events_steady {random : Nat → String} (hrandom : Function.Injective random) {limit : Nat} (hlimit : 0 < limit)
    {tr : List (Move (Label Body))} : Along (eventTurn W random cred limit)
      (Steady (fun s => s.eventsOf cred) Prod.snd) (s, .start) tr := by
  have hpaged := listEvents_paged W hrandom cred hlimit
  refine Along.of_inv (I := Placed (AfterEvent random cred) fun _ => True) (init_placed trivial rfl)
    fun p m p' hp hs => ⟨hpaged.turn_placed p m p' hp hs, ?_⟩
  obtain ⟨s, w⟩ := p
  cases m with
  | page => trivial
  | act l =>
    obtain ⟨s', hstep, rfl⟩ := Option.map_eq_some_iff.1 hs
    intro hended
    obtain ⟨-, hrefused, hat⟩ := hp
    have hle : w.returned.length ≤ (s.eventsOf cred).length := by
      cases hplace : w.place with
      | ended => exact absurd hplace hended
      | refused => exact absurd hplace hrefused
      | next c =>
        have hat := hat c hplace
        cases c with
        | none =>
          have hzero : w.returned.length = 0 := hat
          omega
        | some id =>
          obtain ⟨m, e, hn, hm, -⟩ := hat
          have hlt : m < (s.eventsOf cred).length := (List.getElem?_eq_some_iff.1 hm).1
          have hn : w.returned.length = m + 1 := hn
          omega
    obtain ⟨new, hnew⟩ := eventsOf_grows (step_grows hstep) cred
    simp only [← hnew, List.map_append]
    rw [List.take_append_of_le_length (by rwa [List.length_map])]

/-! ### Every walk -/

theorem reached_table {config : SimConfig} {now : Time} {before : List (Label Body)}
    (hs : run (Sim.step W) (.init Body config now) before = some s) : s.Named :=
  inv_run (I := Named) (init_named config now) (fun _ _ _ h hstep => (step_grows hstep).table h) hs

/-- Walks that start in any reachable state, with the simulator acting in between. -/
theorem cursor_walks (W : Wire Body) (config : SimConfig) (now : Time) (before : List (Label Body)) (s : Sim Body)
    (hs : run (Sim.step W) (.init Body config now) before = some s) (cred : String) :
    (∀ q : TxQuery, 0 < q.limit → ∀ tr p, run (txTurn W cred q) (s, .start) tr = some p →
      (∃ k w, run (txTurn W cred q) p (List.replicate k .page) = some (p.1, w) ∧ w.place = .ended) ∧
        (q.hasStatus = false ∨ Along (txTurn W cred q) (Undisturbed cred q) (s, .start) tr →
          (p.2.returned.map Prod.snd).Nodup ∧ ∀ x, Throughout (txTurn W cred q)
            (fun p => p.2.place ≠ .ended → x ∈ p.1.matching cred q) (s, .start) tr →
              p.2.place = .ended → x ∈ p.2.returned)) ∧
      ∀ random, Function.Injective random → ∀ limit, 0 < limit →
        ∀ tr p, run (eventTurn W random cred limit) (s, .start) tr = some p →
          (∃ k w, run (eventTurn W random cred limit) p (List.replicate k .page) = some (p.1, w) ∧ w.place = .ended) ∧
            (p.2.returned.map Prod.snd).Nodup ∧ ∀ x, Throughout (eventTurn W random cred limit)
              (fun p => p.2.place ≠ .ended → x ∈ p.1.eventsOf cred) (s, .start) tr →
                p.2.place = .ended → x ∈ p.2.returned := by
  have htable := reached_table hs
  constructor
  · intro q hlimit tr p hr
    have hpaged := transactions_paged W cred hlimit
    refine ⟨hpaged.ends (hpaged.run_placed htable hr), fun hsteady => ?_⟩
    have hcomplete := hpaged.complete (fun _ _ => matching_nodup) htable (along_steady hlimit htable hsteady) hr
    exact ⟨returned_nodup hlimit htable hr hcomplete.1, hcomplete.2⟩
  · intro random hrandom limit hlimit tr p hr
    have hpaged := listEvents_paged W hrandom cred hlimit
    refine ⟨hpaged.ends (hpaged.run_placed trivial hr), ?_⟩
    exact hpaged.complete (fun _ _ => eventsOf_nodup) trivial (events_steady hrandom hlimit) hr

/-- Any transactions, or the accepted ones, one a page. -/
def oneByOne (status : Option String) : TxQuery := ⟨none, status, 1⟩

def twoCollections : List (Label Form) :=
  [.createCollection "shop" (.collection ⟨"c1", "10.00", "GHS", "mtn", ⟨.msisdn, "0240000000"⟩, none⟩), .elapse 10,
    .createCollection "shop" (.collection ⟨"c2", "10.00", "GHS", "mtn", ⟨.msisdn, "0240000000"⟩, none⟩)]

/-- The first collection is dispatched after the first page. -/
def dispatchedBetweenPages : List (Move (Label Form)) := [.page, .act (.elapse 15), .act .timer, .page]

def countedBytes (n : Nat) : String := String.ofList (List.replicate n 'f')

theorem countedBytes_injective : Function.Injective countedBytes := by
  intro m n h
  have hlist := congrArg (fun s => s.toList.length) h
  simpa [countedBytes] using hlist

theorem cursor_walks_between_pages : ∃ s, run (Sim.step formWire) (.init Form .default 0) twoCollections = some s ∧
    (∃ p, run (txTurn formWire "shop" (oneByOne none)) (s, .start) dispatchedBetweenPages = some p ∧
      (p.2.returned.map Prod.snd).Nodup) ∧
    ∃ p, run (eventTurn formWire countedBytes "shop" 1) (s, .start) dispatchedBetweenPages = some p ∧
      (p.2.returned.map Prod.snd).Nodup := by
  obtain ⟨s, hs⟩ : ∃ s, run (Sim.step formWire) (.init Form .default 0) twoCollections = some s :=
    Option.isSome_iff_exists.1 (by decide +kernel)
  have hwalks := cursor_walks formWire .default 0 twoCollections s hs "shop"
  have htx : ((run (Sim.step formWire) (.init Form .default 0) twoCollections).bind fun s =>
      run (txTurn formWire "shop" (oneByOne none)) (s, .start) dispatchedBetweenPages).isSome := by decide +kernel
  have hevent : ((run (Sim.step formWire) (.init Form .default 0) twoCollections).bind fun s =>
      run (eventTurn formWire countedBytes "shop" 1) (s, .start) dispatchedBetweenPages).isSome := by decide +kernel
  rw [hs] at htx hevent
  obtain ⟨p, hp⟩ := Option.isSome_iff_exists.1 htx
  obtain ⟨p', hp'⟩ := Option.isSome_iff_exists.1 hevent
  exact ⟨s, hs, ⟨p, hp, ((hwalks.1 (oneByOne none) Nat.one_pos _ p hp).2 (.inl rfl)).1⟩, p', hp',
    (hwalks.2 countedBytes countedBytes_injective 1 Nat.one_pos _ p' hp').2.1⟩

def secondCollection : TxKey × Nat := (⟨.collection, "shop", "c2", none⟩, 1)

/-- The second collection is accepted all along, and is missed. -/
theorem dispatched_item_hides_another : ∃ s, run (Sim.step formWire) (.init Form .default 0) twoCollections = some s ∧
    ∃ p, run (txTurn formWire "shop" (oneByOne (some "accepted"))) (s, .start) dispatchedBetweenPages = some p ∧
      Throughout (txTurn formWire "shop" (oneByOne (some "accepted")))
        (fun p => secondCollection ∈ p.1.matching "shop" (oneByOne (some "accepted"))) (s, .start)
        dispatchedBetweenPages ∧
      p.2.place = .ended ∧ secondCollection ∉ p.2.returned := by
  decide +kernel

end Sim

end Simulator

end CronMonitor
