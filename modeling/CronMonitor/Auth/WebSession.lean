import CronMonitor.Auth.Live

/-!
# The session of a browser

`req` and `tryRefresh` of `web/src/lib/api.ts` in the tabs of a browser, beside the server of `auth.service.ts`, which
handles one session call at a time. The tabs share the store of `auth.ts` (`localStorage`); `refreshing` is a variable of
each page, so that it guards nothing between two tabs. Any answer may be a 401. A refresh is a request on its way, then an
answer on its way back; either may be lost, and the request may arrive after the tab has given it up (`strays`). The
continuations of an answer run to their end before the next event. Other clients call the server as they like, without
the tokens of this browser.
-/

namespace CronMonitor

open Runs SerialAuth

/-- Where a call of `req` is: its first fetch is out, it waits for `tryRefresh`, its second fetch is out, it is over. -/
inductive ReqPc
  | sent | waiting | resent
  | done (ok : Bool)
deriving DecidableEq, Repr

/-- `refreshing`: the token that was sent, and the server's answer once it has one, a new token or a refusal. -/
structure Flight where
  raw : RawToken
  reply : Option (Option RawToken)
deriving DecidableEq, Repr

structure Tab where
  refreshing : Option Flight
  requests : List ReqPc
deriving DecidableEq, Repr

namespace Tab

/-- The `i`-th request is answered with anything but a 401, or not at all. -/
def answered (tab : Tab) (i : ℕ) (ok : Bool) : Option Tab :=
  match tab.requests[i]? with
  | some .sent | some .resent => some { tab with requests := tab.requests.set i (.done ok) }
  | _ => none

/-- It is answered with a 401: the first time the stored token is refreshed, if there is one, and `refreshing ??=` starts
no second refresh. Otherwise the store is cleared. -/
def unauthorized (tab : Tab) (stored : Option RawToken) (i : ℕ) : Option (Option RawToken × Tab) :=
  match tab.requests[i]? with
  | some .sent =>
    match stored with
    | some rt => some (some rt, ⟨some (tab.refreshing.getD ⟨rt, none⟩), tab.requests.set i .waiting⟩)
    | none => some (none, { tab with requests := tab.requests.set i (.done false) })
  | some .resent => some (none, { tab with requests := tab.requests.set i (.done false) })
  | _ => none

/-- The refresh is over: who waits for it sends again, or clears the store. -/
def settle (tab : Tab) (stored : Option RawToken) : Option RawToken → Option RawToken × Tab
  | some new => (some new, ⟨none, tab.requests.map fun pc => if pc = .waiting then .resent else pc⟩)
  | none =>
    (if .waiting ∈ tab.requests then none else stored,
      ⟨none, tab.requests.map fun pc => if pc = .waiting then .done false else pc⟩)

end Tab

/-- The new token of an answer. -/
def AuthPc.token : AuthPc → Option RawToken
  | .returned (some result) => some result.refreshToken
  | _ => none

theorem AuthPc.token_eq_some {pc : AuthPc} {raw : RawToken} (h : pc.token = some raw) :
    ∃ result, pc = .returned (some result) ∧ result.refreshToken = raw := by
  cases pc with
  | returned result =>
    cases result with
    | none => cases h
    | some result => exact ⟨result, rfl, Option.some.inj h⟩
  | _ => cases h

/-- The request may still be on its way when nobody waits for its answer. -/
def Flight.stray (f : Flight) (onWire : Bool) : List RawToken := if onWire ∧ f.reply = none then [f.raw] else []

/-- `refreshToken` is what the store keeps under `cronmon.refresh`. `welcomes` are the answers to logins on their way
back. `own` are all tokens that the server ever issued to the browser, `presented` those of them that it was handed in
refreshes. -/
structure WebSession where
  server : SerialAuth
  refreshToken : Option RawToken
  tabs : List Tab
  strays : List RawToken
  welcomes : List RawToken
  own : List RawToken
  presented : List RawToken

/-- `k` is the tab. -/
inductive WebLabel
  | openTab
  /-- a page asks for something outside `/auth/` -/
  | req (k : ℕ)
  | answered (k i : ℕ) (ok : Bool)
  | unauthorized (k i : ℕ)
  /-- the server handles the refresh -/
  | serve (k : ℕ) (info : RequestMeta)
  /-- it is turned away before, by the rate limit -/
  | turnAway (k : ℕ)
  /-- the answer arrives -/
  | deliver (k : ℕ)
  /-- the fetch fails: the answer is lost, or the request, or that is still on its way -/
  | drop (k : ℕ) (onWire : Bool)
  /-- the server handles a request that the tab has given up -/
  | serveStray (i : ℕ) (info : RequestMeta)
  | login (email password : String) (info : RequestMeta)
  /-- the answer to a login arrives, and the page stores it -/
  | welcome (i : ℕ)
  | signOut
  /-- the page is loaded anew, or the tab is closed -/
  | reload (k : ℕ) (onWire : Bool)
  /-- another client, or the clock, or an administrator -/
  | elsewhere (l : SerialLabel)
deriving DecidableEq, Repr

/-- It presents none of the tokens. -/
def SerialLabel.foreign (own : List RawToken) : SerialLabel → Bool
  | .call (.refresh raw _) => raw ∉ own
  | _ => true

namespace WebSession

def init (server : SerialAuth) : WebSession := ⟨server, none, [], [], [], [], []⟩

/-- What the server answers to a call. -/
def answer (env : AuthEnv) (s : WebSession) (r : AuthRequest) : Option RawToken := (s.server.store.call env r).2.token

/-- The store and the tab after an event of the `k`-th tab. -/
def put (s : WebSession) (k : ℕ) (after : Option RawToken × Tab) : WebSession :=
  { s with refreshToken := after.1, tabs := s.tabs.set k after.2 }

def step (env : AuthEnv) (s : WebSession) : WebLabel → Option WebSession
  | .openTab => some { s with tabs := s.tabs ++ [⟨none, []⟩] }
  | .req k =>
    s.tabs[k]?.map fun tab => s.put k (s.refreshToken, { tab with requests := tab.requests ++ [.sent] })
  | .answered k i ok =>
    s.tabs[k]?.bind fun tab => (tab.answered i ok).map fun tab' => s.put k (s.refreshToken, tab')
  | .unauthorized k i => s.tabs[k]?.bind fun tab => (tab.unauthorized s.refreshToken i).map (s.put k)
  | .serve k info =>
    match s.tabs[k]? with
    | some ⟨some ⟨raw, none⟩, requests⟩ =>
      let token := s.answer env (.refresh raw info)
      (SerialAuth.step env s.server (.call (.refresh raw info))).map fun server =>
        { s.put k (s.refreshToken, ⟨some ⟨raw, some token⟩, requests⟩) with
          server := server
          own := s.own ++ token.toList
          presented := s.presented ++ [raw] }
    | _ => none
  | .turnAway k =>
    match s.tabs[k]? with
    | some ⟨some ⟨raw, none⟩, requests⟩ => some (s.put k (s.refreshToken, ⟨some ⟨raw, some none⟩, requests⟩))
    | _ => none
  | .deliver k =>
    match s.tabs[k]? with
    | some ⟨some ⟨raw, some token⟩, requests⟩ =>
      some (s.put k (Tab.settle ⟨some ⟨raw, some token⟩, requests⟩ s.refreshToken token))
    | _ => none
  | .drop k onWire =>
    match s.tabs[k]? with
    | some ⟨some f, requests⟩ =>
      some { s.put k (Tab.settle ⟨some f, requests⟩ s.refreshToken none) with strays := s.strays ++ f.stray onWire }
    | _ => none
  | .serveStray i info =>
    match s.strays[i]? with
    | some raw =>
      (SerialAuth.step env s.server (.call (.refresh raw info))).map fun server =>
        { s with
          server := server
          strays := s.strays.eraseIdx i
          own := s.own ++ (s.answer env (.refresh raw info)).toList
          presented := s.presented ++ [raw] }
    | none => none
  | .login email password info =>
    let token := s.answer env (.login email password info)
    (SerialAuth.step env s.server (.call (.login email password info))).map fun server =>
      { s with server := server, welcomes := s.welcomes ++ token.toList, own := s.own ++ token.toList }
  | .welcome i =>
    s.welcomes[i]?.map fun raw => { s with refreshToken := some raw, welcomes := s.welcomes.eraseIdx i }
  | .signOut => some { s with refreshToken := none }
  | .reload k onWire =>
    s.tabs[k]?.map fun tab =>
      { s.put k (s.refreshToken, ⟨none, []⟩) with
        strays := s.strays ++ tab.refreshing.toList.flatMap (·.stray onWire) }
  | .elsewhere l => if l.foreign s.own then (SerialAuth.step env s.server l).map ({ s with server := · }) else none

/-- The refreshes under way, of all tabs. -/
def flights (s : WebSession) : List Flight := s.tabs.filterMap (·.refreshing)

/-- No tab starts to refresh a token that another tab is refreshing, and no page is loaded anew while it refreshes the
stored token. -/
def Steady (s : WebSession) (lbl : WebLabel) (_ : WebSession) : Prop :=
  match lbl with
  | .unauthorized k i =>
    ∀ tab ∈ s.tabs[k]?, tab.requests[i]? = some .sent → tab.refreshing = none →
      ∀ rt ∈ s.refreshToken, rt ∉ s.flights.map (·.raw)
  | .reload k _ => ∀ tab ∈ s.tabs[k]?, ∀ f ∈ tab.refreshing, s.refreshToken ≠ some f.raw
  | _ => True

end WebSession

/-! ### The tokens that a client holds -/

namespace SerialAuth

variable {env : AuthEnv} {s s' : SerialAuth} {own presented held held' : List RawToken} {raw : RawToken} {l : SerialLabel}

def family (env : AuthEnv) (s : SerialAuth) (raw : RawToken) : Option Uuid :=
  (s.store.findRefreshToken (env.hashToken raw)).map (·.familyId)

/-- The client holds live tokens of different families, each of which nobody else has tokens of, and none of them has
been presented. -/
structure Holding (env : AuthEnv) (s : SerialAuth) (own presented held : List RawToken) : Prop where
  ok : Ok env s
  live : ∀ raw ∈ held, ∃ t, Live env s raw t
  apart : (held.map (s.family env)).Nodup
  known : ∀ raw ∈ held, ∀ t ∈ s.store.refreshTokens, s.family env raw = some t.familyId →
    ∃ o ∈ own, t.tokenHash = env.hashToken o
  mine : ∀ raw ∈ held ++ presented, raw ∈ own
  drawn : ∀ raw ∈ own, raw < s.store.nextUuid
  once : presented.Nodup
  unpresented : ∀ raw ∈ presented, raw ∉ held

namespace Holding

theorem init (hok : Ok env s) : Holding env s [] [] [] :=
  ⟨hok, by simp, by simp, by simp, by simp, by simp, by simp, by simp⟩

theorem subperm (h : Holding env s own presented held) (hsub : held'.Subperm held) : Holding env s own presented held' where
  ok := h.ok
  live raw hraw := h.live raw (hsub.subset hraw)
  apart := by
    obtain ⟨l, hperm, hl⟩ := hsub
    exact (hperm.map _).nodup_iff.1 (h.apart.sublist (hl.map _))
  known raw hraw := h.known raw (hsub.subset hraw)
  mine raw hraw := by
    rcases List.mem_append.1 hraw with hraw | hraw
    · exact h.mine raw (List.mem_append_left _ (hsub.subset hraw))
    · exact h.mine raw (List.mem_append_right _ hraw)
  drawn := h.drawn
  once := h.once
  unpresented raw hraw hheld := h.unpresented raw hraw (hsub.subset hheld)

theorem family_lt (h : Holding env s own presented held) (hraw : raw ∈ held) {f : Uuid} (hf : s.family env raw = some f) :
    f < s.store.nextUuid := by
  obtain ⟨t, ht⟩ := h.live raw hraw
  rw [family, ht.found] at hf
  obtain rfl := Option.some.inj hf
  exact (h.ok.table.drawn t ht.mem).2

/-- A step of the server that presents no token of the families held. -/
theorem step (h : Holding env s own presented held) (hs : SerialAuth.step env s l = some s')
    (hpres : ∀ raw ∈ held, ∀ r row, l = .call r → r.presented env s.store = some row →
      s.family env raw ≠ some row.familyId) :
    Holding env s' own presented held ∧ ∀ raw ∈ held, s'.family env raw = s.family env raw := by
  have hlive : ∀ raw ∈ held, ∃ t, Live env s' raw t ∧ s.family env raw = some t.familyId := by
    intro raw hraw
    obtain ⟨t, ht⟩ := h.live raw hraw
    have hfam : s.family env raw = some t.familyId := by rw [family, ht.found, Option.map_some]
    obtain ⟨t', ht', hf⟩ := ht.step h.ok hs fun r row hl hrow heq => hpres raw hraw r row hl hrow (by rw [hfam, heq])
    exact ⟨t', ht', by rw [hfam, hf]⟩
  have hfamily : ∀ raw ∈ held, s'.family env raw = s.family env raw := by
    intro raw hraw
    obtain ⟨t, ht, hf⟩ := hlive raw hraw
    rw [hf, family, ht.found, Option.map_some]
  refine ⟨⟨h.ok.step hs, fun raw hraw => (hlive raw hraw).imp fun _ => And.left, ?_, ?_, h.mine, ?_, h.once,
    h.unpresented⟩, hfamily⟩
  · rw [List.map_congr_left hfamily]
    exact h.apart
  · intro raw hraw t ht hf
    rw [hfamily raw hraw] at hf
    rcases rows_step hs ht with ⟨q, hq, hqf, hhash⟩ | ⟨r, result, hl, -, -, hnew | ⟨stored, hstored, hsf⟩⟩
    · obtain ⟨o, ho, hoh⟩ := h.known raw hraw q hq (by rw [hf, hqf])
      exact ⟨o, ho, by rw [← hhash, hoh]⟩
    · exact absurd (h.family_lt hraw hf) (by rw [hnew]; exact lt_irrefl _)
    · exact absurd (by rw [hf, hsf]) (hpres raw hraw r stored hl hstored)
  · exact fun raw hraw => (h.drawn raw hraw).trans_le (nextUuid_step hs)

theorem elsewhere (h : Holding env s own presented held) (hinj : Function.Injective env.hashToken)
    (hforeign : l.foreign own = true) (hs : SerialAuth.step env s l = some s') : Holding env s' own presented held := by
  refine (h.step hs ?_).1
  rintro raw hraw r row rfl hrow hfam
  cases r with
  | login email password info => cases hrow
  | logout userId => cases hrow
  | refresh raw' info =>
    obtain ⟨hmem, hhash⟩ := (h.ok.find_iff _).1 hrow
    obtain ⟨o, ho, hoh⟩ := h.known raw hraw row hmem hfam
    obtain rfl := hinj (hhash.symm.trans hoh)
    exact absurd ho (by simpa [SerialLabel.foreign] using hforeign)

/-- A token that the client has been sent. -/
theorem add {t : RefreshToken} (h : Holding env s own presented held) (hinj : Function.Injective env.hashToken)
    (ht : Live env s raw t) (hapart : ∀ raw' ∈ held, s.family env raw' ≠ some t.familyId)
    (hrows : ∀ q ∈ s.store.refreshTokens, q.familyId = t.familyId → ∃ o ∈ own ++ [raw], q.tokenHash = env.hashToken o)
    (hnew : raw ∉ own) : Holding env s (own ++ [raw]) presented (raw :: held) := by
  have hfam : s.family env raw = some t.familyId := by rw [family, ht.found, Option.map_some]
  refine ⟨h.ok, ?_, ?_, ?_, ?_, ?_, h.once, ?_⟩
  · exact List.forall_mem_cons.2 ⟨⟨t, ht⟩, h.live⟩
  · rw [List.map_cons, hfam]
    refine List.nodup_cons.2 ⟨fun hmem => ?_, h.apart⟩
    obtain ⟨raw', hraw', heq⟩ := List.mem_map.1 hmem
    exact hapart raw' hraw' heq
  · refine List.forall_mem_cons.2 ⟨fun q hq hqf => ?_, fun raw' hraw' q hq hqf => ?_⟩
    · rw [hfam] at hqf
      exact hrows q hq (Option.some.inj hqf).symm
    · obtain ⟨o, ho, hoh⟩ := h.known raw' hraw' q hq hqf
      exact ⟨o, List.mem_append_left _ ho, hoh⟩
  · intro raw' hraw'
    rcases List.mem_cons.1 hraw' with rfl | hraw'
    · exact List.mem_append_right _ (List.mem_singleton.2 rfl)
    · exact List.mem_append_left _ (h.mine raw' hraw')
  · intro raw' hraw'
    rcases List.mem_append.1 hraw' with hraw' | hraw'
    · exact h.drawn raw' hraw'
    · obtain rfl := List.mem_singleton.1 hraw'
      obtain ⟨o, ho, hoh⟩ := h.ok.drawn t ht.mem
      rwa [hinj (ht.tokenHash.symm.trans hoh)]
  · intro raw' hraw' hheld
    rcases List.mem_cons.1 hheld with rfl | hheld
    · exact hnew (h.mine raw' (List.mem_append_right _ hraw'))
    · exact h.unpresented raw' hraw' hheld

/-- A token that the client sends away. -/
theorem present (h : Holding env s own presented (raw :: held)) : Holding env s own (presented ++ [raw]) held := by
  have hrest := h.subperm (List.sublist_cons_self raw held).subperm
  refine ⟨h.ok, hrest.live, hrest.apart, hrest.known, fun raw' hraw' => h.mine raw' ?_, h.drawn, ?_, ?_⟩
  · simp only [List.mem_append, List.mem_cons, List.not_mem_nil, or_false] at hraw' ⊢
    tauto
  · refine List.nodup_append.2 ⟨h.once, List.nodup_singleton raw, fun a ha b hb => ?_⟩
    rintro rfl
    obtain rfl := List.mem_singleton.1 hb
    exact h.unpresented a ha List.mem_cons_self
  · intro raw' hraw' hheld
    rcases List.mem_append.1 hraw' with hraw' | hraw'
    · exact h.unpresented raw' hraw' (List.mem_cons_of_mem _ hheld)
    · obtain rfl := List.mem_singleton.1 hraw'
      exact (List.nodup_cons.1 h.apart.of_map).1 hheld

/-- The answer to a login, if it has a token, is held. -/
theorem login (h : Holding env s own presented held) (hinj : Function.Injective env.hashToken)
    {email password : String} {info : RequestMeta}
    (hs : SerialAuth.step env s (.call (.login email password info)) = some s') :
    Holding env s' (own ++ (s.store.call env (.login email password info)).2.token.toList) presented
      ((s.store.call env (.login email password info)).2.token.toList ++ held) := by
  obtain ⟨hheld, hfamily⟩ := h.step hs fun raw _ r row hl hrow => by
    cases hl
    cases hrow
  cases hpc : (s.store.call env (.login email password info)).2.token with
  | none => simpa using hheld
  | some token =>
    obtain ⟨result, hans, rfl⟩ := AuthPc.token_eq_some hpc
    obtain ⟨t, ht, hnew⟩ := live_login h.ok hans hs
    refine hheld.add hinj ht ?_ ?_ ?_
    · intro raw' hraw' hf
      rw [hfamily raw' hraw', hnew] at hf
      exact lt_irrefl _ (h.family_lt hraw' hf)
    · intro q hq hqf
      rcases rows_step hs hq with ⟨q', hq', hf, -⟩ | ⟨r, result', hl, hans', hhash, -⟩
      · exact absurd (h.ok.table.drawn q' hq').2 (by rw [hf, hqf, hnew]; exact lt_irrefl _)
      · cases hl
        obtain rfl := Option.some.inj (AuthPc.returned.inj (hans.symm.trans hans'))
        exact ⟨_, List.mem_append_right _ (List.mem_singleton.2 rfl), hhash⟩
    · intro hmem
      have hlt := h.drawn _ hmem
      rw [login_answers hans] at hlt
      exact absurd hlt (by simp)

/-- A token that is held is presented, and the answer is held in its place. -/
theorem serve {info : RequestMeta} (h : Holding env s own presented (raw :: held))
    (hinj : Function.Injective env.hashToken) (hs : SerialAuth.step env s (.call (.refresh raw info)) = some s') :
    Holding env s' (own ++ (s.store.call env (.refresh raw info)).2.token.toList) (presented ++ [raw])
      ((s.store.call env (.refresh raw info)).2.token.toList ++ held) := by
  obtain ⟨t, ht⟩ := h.live raw List.mem_cons_self
  have hfam : s.family env raw = some t.familyId := by rw [family, ht.found, Option.map_some]
  have hother : ∀ raw' ∈ held, s.family env raw' ≠ some t.familyId := by
    intro raw' hraw' heq
    refine (List.nodup_cons.1 h.apart).1 ?_
    rw [hfam, ← heq]
    exact List.mem_map_of_mem hraw'
  obtain ⟨hheld, hfamily⟩ := h.present.step hs fun raw' hraw' r row hl hrow => by
    cases hl
    obtain rfl := Option.some.inj (ht.found.symm.trans hrow)
    exact hother raw' hraw'
  cases hpc : (s.store.call env (.refresh raw info)).2.token with
  | none => simpa using hheld
  | some token =>
    obtain ⟨result, hans, rfl⟩ := AuthPc.token_eq_some hpc
    obtain ⟨t', ht', hsame⟩ := ht.exchanged h.ok hans hs
    refine hheld.add hinj ht' ?_ ?_ ?_
    · intro raw' hraw'
      rw [hfamily raw' hraw', hsame]
      exact hother raw' hraw'
    · intro q hq hqf
      rcases rows_step hs hq with ⟨q', hq', hf, hhash⟩ | ⟨r, result', hl, hans', hhash, -⟩
      · obtain ⟨o, ho, hoh⟩ := h.known raw List.mem_cons_self q' hq' (by rw [hfam, hf, hqf, hsame])
        exact ⟨o, List.mem_append_left _ ho, by rw [← hhash, hoh]⟩
      · cases hl
        obtain rfl := Option.some.inj (AuthPc.returned.inj (hans.symm.trans hans'))
        exact ⟨_, List.mem_append_right _ (List.mem_singleton.2 rfl), hhash⟩
    · intro hmem
      have hlt := h.drawn _ hmem
      rw [refresh_answers hans] at hlt
      exact absurd hlt (lt_irrefl _)

end Holding

end SerialAuth

/-! ### The tabs -/

/-- What the refreshes hold, their tokens or the answers to them, and the stored token unless one of them has it. -/
def holdings (flights : List Flight) (stored : Option RawToken) : List RawToken :=
  flights.flatMap (fun f => (f.reply.getD (some f.raw)).toList) ++
    (stored.filter (· ∉ flights.map (·.raw))).toList

section Holdings

variable {flights flights' : List Flight} {f : Flight} {stored : Option RawToken} {raw : RawToken}

theorem holdings_perm (h : flights.Perm flights') (stored : Option RawToken) :
    (holdings flights stored).Perm (holdings flights' stored) := by
  have hmem : ∀ raw, raw ∉ flights.map (·.raw) ↔ raw ∉ flights'.map (·.raw) := fun raw =>
    not_congr (h.map _).mem_iff
  simp only [holdings, hmem]
  exact (h.flatMap_right _).append_right _

theorem holdings_none (flights : List Flight) :
    holdings flights none = flights.flatMap fun f => (f.reply.getD (some f.raw)).toList := by
  simp [holdings]

theorem holdings_reply (raw : RawToken) (reply : Option (Option RawToken)) (flights : List Flight) (stored : Option RawToken) :
    holdings (⟨raw, reply⟩ :: flights) stored =
      (reply.getD (some raw)).toList ++ holdings (⟨raw, some none⟩ :: flights) stored := by
  simp only [holdings, List.flatMap_cons, List.map_cons, Option.getD_some, Option.toList_none, List.nil_append,
    List.append_assoc]

theorem count_stored_le (p : RawToken → Bool) (stored : Option RawToken) (a : RawToken) :
    (stored.filter p).toList.count a ≤ stored.toList.count a := by
  cases stored with
  | none => exact le_rfl
  | some raw =>
    rw [Option.filter_some]
    split_ifs
    · exact le_rfl
    · exact Nat.zero_le _

theorem holdings_clear (flights : List Flight) (stored : Option RawToken) :
    (holdings flights none).Subperm (holdings flights stored) := by
  rw [holdings_none]
  exact (List.sublist_append_left _ _).subperm

/-- A token in the place of the stored one. -/
theorem holdings_store (flights : List Flight) (stored : Option RawToken) (raw : RawToken) :
    (holdings flights (some raw)).Subperm (raw :: holdings flights stored) := by
  refine List.subperm_iff_count.2 fun a => ?_
  have hfilter := count_stored_le (· ∉ flights.map (·.raw)) (some raw) a
  simp only [holdings, List.count_append, List.count_cons, Option.toList_some, List.count_nil] at hfilter ⊢
  omega

theorem stray_sublist (f : Flight) (onWire : Bool) :
    (f.stray onWire).Sublist (f.reply.getD (some f.raw)).toList := by
  unfold Flight.stray
  split_ifs with h
  · rw [h.2]
    exact List.Sublist.refl _
  · exact List.nil_sublist _

/-- A refresh is over without a token, and the store is cleared. -/
theorem holdings_give_up (f : Flight) (flights : List Flight) (stored : Option RawToken) (onWire : Bool) :
    (f.stray onWire ++ holdings flights none).Subperm (holdings (f :: flights) stored) := by
  rw [holdings_none, holdings, List.flatMap_cons, List.append_assoc]
  exact ((stray_sublist f onWire).append (List.sublist_append_left _ _)).subperm

/-- A refresh is given up while another token is stored. -/
theorem holdings_abandon (h : stored ≠ some f.raw) (onWire : Bool) :
    (f.stray onWire ++ holdings flights stored).Subperm (holdings (f :: flights) stored) := by
  have hkept : stored.filter (· ∉ List.map (·.raw) (f :: flights)) = stored.filter (· ∉ List.map (·.raw) flights) := by
    cases stored with
    | none => rfl
    | some raw =>
      have hne : raw ≠ f.raw := fun heq => h (by rw [heq])
      simp [Option.filter_some, hne]
  rw [holdings, holdings, hkept, List.flatMap_cons, List.append_assoc]
  exact ((stray_sublist f onWire).append (List.Sublist.refl _)).subperm

/-- The answer to a refresh is stored. -/
theorem holdings_renew (raw new : RawToken) (flights : List Flight) (stored : Option RawToken) :
    (holdings flights (some new)).Subperm (holdings (⟨raw, some (some new)⟩ :: flights) stored) := by
  refine List.subperm_iff_count.2 fun a => ?_
  have hfilter := count_stored_le (· ∉ flights.map (·.raw)) (some new) a
  simp only [holdings, List.flatMap_cons, Option.getD_some, List.count_append] at hfilter ⊢
  omega

/-- The stored token is sent. -/
theorem holdings_send (h : raw ∉ flights.map (·.raw)) :
    (holdings (⟨raw, none⟩ :: flights) (some raw)).Perm (holdings flights (some raw)) := by
  have hsent : (some raw).filter (· ∉ List.map (·.raw) (⟨raw, none⟩ :: flights)) = none := by
    simp [Option.filter_some]
  have hkept : (some raw).filter (· ∉ List.map (·.raw) flights) = some raw := by
    rw [Option.filter_some, if_pos (decide_eq_true h)]
  rw [holdings, holdings, hsent, hkept, List.flatMap_cons, Option.toList_none, List.append_nil]
  exact List.perm_append_comm

end Holdings

namespace Tab

variable {tab tab' : Tab} {stored stored' : Option RawToken} {after : Option RawToken × Tab} {i : ℕ} {ok : Bool}
  {pc x : ReqPc} {l : List ReqPc}

/-- Requests wait exactly while a refresh is under way. -/
def Waits (tab : Tab) : Prop := tab.refreshing.isSome ↔ .waiting ∈ tab.requests

theorem waiting_mem_set (hi : l[i]? = some pc) (hpc : pc ≠ .waiting) (hx : x ≠ .waiting) :
    .waiting ∈ l.set i x ↔ .waiting ∈ l := by
  simp only [List.mem_iff_getElem?, List.getElem?_set]
  refine exists_congr fun j => ?_
  split_ifs with hij hlt
  · subst hij
    rw [hi]
    exact iff_of_false (fun h => hx (Option.some.inj h)) fun h => hpc (Option.some.inj h)
  · subst hij
    rw [hi]
    exact iff_of_false (fun h => by cases h) fun h => hpc (Option.some.inj h)
  · exact Iff.rfl

theorem answered_cases (h : tab.answered i ok = some tab') : ∃ pc, tab.requests[i]? = some pc ∧ pc ≠ .waiting ∧
    tab' = { tab with requests := tab.requests.set i (.done ok) } := by
  unfold answered at h
  cases hi : tab.requests[i]? with
  | none =>
    rw [hi] at h
    cases h
  | some pc =>
    rw [hi] at h
    cases pc with
    | sent | resent => exact ⟨_, rfl, by decide, (Option.some.inj h).symm⟩
    | waiting | done => cases h

/-- A 401 sends the request to wait for the refresh, or clears the store. -/
theorem unauthorized_cases (h : tab.unauthorized stored i = some after) :
    (∃ rt, tab.requests[i]? = some .sent ∧ stored = some rt ∧
      after = (some rt, ⟨some (tab.refreshing.getD ⟨rt, none⟩), tab.requests.set i .waiting⟩)) ∨
      ∃ pc, tab.requests[i]? = some pc ∧ pc ≠ .waiting ∧
        after = (none, { tab with requests := tab.requests.set i (.done false) }) := by
  unfold unauthorized at h
  cases hi : tab.requests[i]? with
  | none =>
    rw [hi] at h
    cases h
  | some pc =>
    rw [hi] at h
    cases pc with
    | sent =>
      cases stored with
      | none => exact .inr ⟨_, rfl, by decide, (Option.some.inj h).symm⟩
      | some rt => exact .inl ⟨rt, rfl, rfl, (Option.some.inj h).symm⟩
    | resent => exact .inr ⟨_, rfl, by decide, (Option.some.inj h).symm⟩
    | waiting | done => cases h

/-- A refusal clears the store: somebody waits. -/
theorem settle_none (h : tab.Waits) (hsome : tab.refreshing.isSome) : (tab.settle stored none).1 = none :=
  if_pos (h.1 hsome)

theorem refreshing_settle (tab : Tab) (stored token : Option RawToken) : (tab.settle stored token).2.refreshing = none := by
  cases token <;> rfl

theorem waits_settle (tab : Tab) (stored token : Option RawToken) : (tab.settle stored token).2.Waits := by
  have hnone : ∀ (l : List ReqPc) (x : ReqPc), x ≠ .waiting →
      .waiting ∉ l.map fun pc => if pc = .waiting then x else pc := by
    intro l x hx hmem
    obtain ⟨pc, -, hpc⟩ := List.mem_map.1 hmem
    split_ifs at hpc with heq
    · exact hx hpc
    · exact heq hpc
  cases token with
  | none => exact iff_of_false (by simp [settle]) (hnone _ _ (by decide))
  | some new => exact iff_of_false (by simp [settle]) (hnone _ _ (by decide))

end Tab

/-! ### Every run -/

namespace WebSession

variable {env : AuthEnv} {s s' : WebSession} {lbl : WebLabel} {k : ℕ} {tab : Tab} {after : Option RawToken × Tab}

/-- Every token that the browser has, has sent, or is being sent. -/
def held (s : WebSession) : List RawToken := holdings s.flights s.refreshToken ++ s.strays ++ s.welcomes

structure Ok (env : AuthEnv) (s : WebSession) : Prop where
  holding : Holding env s.server s.own s.presented s.held
  waits : ∀ tab ∈ s.tabs, tab.Waits

theorem Ok.init {server : SerialAuth} (h : SerialAuth.Ok env server) : Ok env (init server) :=
  ⟨.init h, by simp [WebSession.init]⟩

/-- The refreshes of the other tabs. -/
def others (s : WebSession) (k : ℕ) : List Flight := (s.tabs.eraseIdx k).filterMap (·.refreshing)

theorem perm_of_getElem? {α : Type} {l : List α} {i : ℕ} {x : α} (h : l[i]? = some x) : (x :: l.eraseIdx i).Perm l := by
  obtain ⟨hlt, rfl⟩ := List.getElem?_eq_some_iff.1 h
  exact List.getElem_cons_eraseIdx_perm hlt

theorem filterMap_cons_perm (tab : Tab) (tabs : List Tab) :
    ((tab :: tabs).filterMap (·.refreshing)) = tab.refreshing.toList ++ tabs.filterMap (·.refreshing) := by
  cases h : tab.refreshing with
  | none => rw [List.filterMap_cons_none h]; rfl
  | some f => rw [List.filterMap_cons_some h]; rfl

theorem flights_perm (hk : s.tabs[k]? = some tab) : s.flights.Perm (tab.refreshing.toList ++ s.others k) := by
  rw [others, ← filterMap_cons_perm]
  exact ((perm_of_getElem? hk).filterMap _).symm

theorem flights_put (hk : s.tabs[k]? = some tab) (after : Option RawToken × Tab) :
    (s.put k after).flights.Perm (after.2.refreshing.toList ++ s.others k) := by
  have hlt := (List.getElem?_eq_some_iff.1 hk).1
  have hk' : (s.put k after).tabs[k]? = some after.2 := by
    show (s.tabs.set k after.2)[k]? = some after.2
    rw [List.getElem?_set_self hlt]
  have hothers : (s.put k after).others k = s.others k := by
    show ((s.tabs.set k after.2).eraseIdx k).filterMap _ = _
    rw [List.eraseIdx_set_eq]
    rfl
  rw [← hothers]
  exact flights_perm hk'

theorem held_perm (hk : s.tabs[k]? = some tab) :
    s.held.Perm (holdings (tab.refreshing.toList ++ s.others k) s.refreshToken ++ s.strays ++ s.welcomes) :=
  ((holdings_perm (flights_perm hk) _).append_right _).append_right _

theorem held_put (hk : s.tabs[k]? = some tab) (after : Option RawToken × Tab) :
    (s.put k after).held.Perm
      (holdings (after.2.refreshing.toList ++ s.others k) after.1 ++ s.strays ++ s.welcomes) :=
  ((holdings_perm (flights_put hk after) _).append_right _).append_right _

/-- An event that gives tokens up, if anything. -/
theorem Ok.of_held (h : Ok env s) (hserver : s'.server = s.server) (hown : s'.own = s.own)
    (hpresented : s'.presented = s.presented) (hheld : s'.held.Subperm s.held) (hwaits : ∀ tab ∈ s'.tabs, tab.Waits) :
    Ok env s' := by
  refine ⟨?_, hwaits⟩
  rw [hserver, hown, hpresented]
  exact h.holding.subperm hheld

theorem waits_put (h : ∀ tab ∈ s.tabs, tab.Waits) (hwaits : after.2.Waits) :
    ∀ tab ∈ (s.put k after).tabs, tab.Waits := by
  intro tab htab
  rcases List.mem_or_eq_of_mem_set htab with hmem | rfl
  · exact h tab hmem
  · exact hwaits

theorem Ok.put_strays (h : Ok env s) (hk : s.tabs[k]? = some tab) (hwaits : after.2.Waits) (gone : List RawToken)
    (hheld : (gone ++ holdings (after.2.refreshing.toList ++ s.others k) after.1).Subperm
      (holdings (tab.refreshing.toList ++ s.others k) s.refreshToken)) :
    Ok env { s.put k after with strays := s.strays ++ gone } := by
  refine h.of_held rfl rfl rfl (List.subperm_iff_count.2 fun a => ?_) (waits_put h.waits hwaits)
  have hbefore := (held_perm hk).count_eq a
  have hafter := (holdings_perm (flights_put hk after) after.1).count_eq a
  have hle := hheld.count_le a
  show (holdings (s.put k after).flights after.1 ++ (s.strays ++ gone) ++ s.welcomes).count a ≤ _
  simp only [List.count_append] at hbefore hafter hle ⊢
  omega

theorem Ok.put (h : Ok env s) (hk : s.tabs[k]? = some tab) (hwaits : after.2.Waits)
    (hheld : (holdings (after.2.refreshing.toList ++ s.others k) after.1).Subperm
      (holdings (tab.refreshing.toList ++ s.others k) s.refreshToken)) : Ok env (s.put k after) := by
  have hput := h.put_strays hk hwaits [] hheld
  rwa [List.append_nil] at hput

theorem Ok.waits_at (h : Ok env s) (hk : s.tabs[k]? = some tab) : tab.Waits := h.waits tab (List.mem_of_getElem? hk)

theorem Ok.unauthorized {i : ℕ} (h : Ok env s) (hk : s.tabs[k]? = some tab)
    (hafter : tab.unauthorized s.refreshToken i = some after)
    (hsteady : tab.requests[i]? = some .sent → tab.refreshing = none →
      ∀ rt ∈ s.refreshToken, rt ∉ s.flights.map (·.raw)) : Ok env (s.put k after) := by
  rcases Tab.unauthorized_cases hafter with ⟨rt, hi, hrt, rfl⟩ | ⟨pc, hi, hpc, rfl⟩
  · refine h.put hk (iff_of_true rfl (List.mem_set (List.getElem?_eq_some_iff.1 hi).1 _)) ?_
    cases hf : tab.refreshing with
    | some f =>
      rw [hrt]
      exact List.Subperm.refl _
    | none =>
      -- the stored token becomes the one that is sent
      have hnot : rt ∉ (s.others k).map (·.raw) := fun hmem =>
        hsteady hi hf rt hrt (((flights_perm hk).map _).mem_iff.2 (by rwa [hf]))
      rw [hrt]
      exact (holdings_send hnot).subperm
  · refine h.put hk ((h.waits_at hk).trans (Tab.waiting_mem_set hi hpc (by decide)).symm) ?_
    exact holdings_clear _ _

theorem Ok.serve {info : RequestMeta} {raw : RawToken} {requests : List ReqPc} {server : SerialAuth} (h : Ok env s)
    (hinj : Function.Injective env.hashToken) (hk : s.tabs[k]? = some ⟨some ⟨raw, none⟩, requests⟩)
    (hs : SerialAuth.step env s.server (.call (.refresh raw info)) = some server) :
    Ok env { s.put k (s.refreshToken, ⟨some ⟨raw, some (s.answer env (.refresh raw info))⟩, requests⟩) with
      server := server
      own := s.own ++ (s.answer env (.refresh raw info)).toList
      presented := s.presented ++ [raw] } := by
  have hwaits : Tab.Waits ⟨some ⟨raw, some (s.answer env (.refresh raw info))⟩, requests⟩ :=
    (iff_of_true rfl rfl).trans (h.waits_at hk)
  refine ⟨?_, waits_put h.waits hwaits⟩
  -- what the answer takes the place of, and what is beside it
  have hbefore : s.held.Perm
      (raw :: (holdings (⟨raw, some none⟩ :: s.others k) s.refreshToken ++ s.strays ++ s.welcomes)) := held_perm hk
  have hafter := held_put hk (s.refreshToken, ⟨some ⟨raw, some (s.answer env (.refresh raw info))⟩, requests⟩)
  rw [Option.toList_some, List.singleton_append, holdings_reply, List.append_assoc, List.append_assoc] at hafter
  refine ((h.holding.subperm hbefore.symm.subperm).serve hinj hs).subperm ?_
  rw [List.append_assoc (holdings _ _)]
  exact hafter.subperm

/-- A page that is gone: its refresh, if it is still on its way, is given up. -/
theorem Ok.reload (h : Ok env s) (hk : s.tabs[k]? = some tab) (onWire : Bool)
    (hsteady : ∀ f ∈ tab.refreshing, s.refreshToken ≠ some f.raw) :
    Ok env { s.put k (s.refreshToken, ⟨none, []⟩) with
      strays := s.strays ++ tab.refreshing.toList.flatMap (·.stray onWire) } := by
  refine h.put_strays hk (iff_of_false (by simp) (by simp)) _ ?_
  cases hf : tab.refreshing with
  | none => exact List.Subperm.refl _
  | some f =>
    rw [Option.toList_some, List.flatMap_singleton]
    exact holdings_abandon (hsteady f hf) onWire

theorem Ok.step (hinj : Function.Injective env.hashToken) (h : Ok env s) (hs : step env s lbl = some s')
    (hsteady : Steady s lbl s') : Ok env s' := by
  cases lbl with
  | openTab =>
    obtain rfl := Option.some.inj hs
    refine h.of_held rfl rfl rfl ?_ fun tab htab => ?_
    · have hflights : (s.tabs ++ [(⟨none, []⟩ : Tab)]).filterMap (·.refreshing) = s.flights := by simp [flights]
      rw [held, held, flights, hflights]
    · rcases List.mem_append.1 htab with htab | htab
      · exact h.waits tab htab
      · obtain rfl := List.mem_singleton.1 htab
        simp [Tab.Waits]
  | req k =>
    obtain ⟨tab, hk, rfl⟩ := Option.map_eq_some_iff.1 hs
    exact h.put hk ((h.waits_at hk).trans (by simp)) (List.Subperm.refl _)
  | answered k i ok =>
    obtain ⟨tab, hk, hmap⟩ := Option.bind_eq_some_iff.1 hs
    obtain ⟨tab', htab', rfl⟩ := Option.map_eq_some_iff.1 hmap
    obtain ⟨pc, hi, hpc, rfl⟩ := Tab.answered_cases htab'
    exact h.put hk ((h.waits_at hk).trans (Tab.waiting_mem_set hi hpc (by simp)).symm) (List.Subperm.refl _)
  | unauthorized k i =>
    obtain ⟨tab, hk, hmap⟩ := Option.bind_eq_some_iff.1 hs
    obtain ⟨after, hafter, rfl⟩ := Option.map_eq_some_iff.1 hmap
    exact h.unauthorized hk hafter (hsteady tab hk)
  | serve k info =>
    simp only [step] at hs
    split at hs
    · next raw requests hk =>
      obtain ⟨server, hserver, rfl⟩ := Option.map_eq_some_iff.1 hs
      exact h.serve hinj hk hserver
    · cases hs
  | turnAway k =>
    simp only [step] at hs
    split at hs
    · next raw requests hk =>
      obtain rfl := Option.some.inj hs
      have hwaits : Tab.Waits ⟨some ⟨raw, some none⟩, requests⟩ := (iff_of_true rfl rfl).trans (h.waits_at hk)
      exact h.put hk hwaits (List.sublist_cons_self _ _).subperm
    · cases hs
  | deliver k =>
    simp only [step] at hs
    split at hs
    · next raw token requests hk =>
      obtain rfl := Option.some.inj hs
      refine h.put hk (Tab.waits_settle _ _ _) ?_
      rw [Tab.refreshing_settle]
      cases token with
      | none =>
        rw [Tab.settle_none (h.waits_at hk) rfl]
        exact holdings_give_up ⟨raw, some none⟩ _ _ false
      | some new => exact holdings_renew raw new _ _
    · cases hs
  | drop k onWire =>
    simp only [step] at hs
    split at hs
    · next f requests hk =>
      obtain rfl := Option.some.inj hs
      refine h.put_strays hk (Tab.waits_settle _ _ _) _ ?_
      rw [Tab.refreshing_settle, Tab.settle_none (h.waits_at hk) rfl]
      exact holdings_give_up f _ _ onWire
    · cases hs
  | serveStray i info =>
    simp only [step] at hs
    split at hs
    · next raw hi =>
      obtain ⟨server, hserver, rfl⟩ := Option.map_eq_some_iff.1 hs
      have hperm := perm_of_getElem? hi
      have hheld : (raw :: (holdings s.flights s.refreshToken ++ s.strays.eraseIdx i ++ s.welcomes)).Subperm s.held := by
        refine List.subperm_iff_count.2 fun a => ?_
        have hcount := hperm.count_eq a
        simp only [held, List.count_append, List.count_cons] at hcount ⊢
        omega
      exact ⟨((h.holding.subperm hheld).serve hinj hserver).subperm (List.sublist_append_right _ _).subperm, h.waits⟩
    · cases hs
  | login email password info =>
    simp only [step] at hs
    obtain ⟨server, hserver, rfl⟩ := Option.map_eq_some_iff.1 hs
    refine ⟨(h.holding.login hinj hserver).subperm (List.subperm_iff_count.2 fun a => ?_), h.waits⟩
    simp only [held, flights, answer, List.count_append]
    omega
  | welcome i =>
    obtain ⟨raw, hi, rfl⟩ := Option.map_eq_some_iff.1 hs
    refine h.of_held rfl rfl rfl (List.subperm_iff_count.2 fun a => ?_) h.waits
    have hcount := (perm_of_getElem? hi).count_eq a
    have hstore := (holdings_store s.flights s.refreshToken raw).count_le a
    simp only [held, flights, List.count_append, List.count_cons] at hcount hstore ⊢
    omega
  | signOut =>
    obtain rfl := Option.some.inj hs
    refine h.of_held rfl rfl rfl ?_ h.waits
    exact (List.subperm_append_right _).2 ((List.subperm_append_right _).2 (holdings_clear _ _))
  | reload k onWire =>
    obtain ⟨tab, hk, rfl⟩ := Option.map_eq_some_iff.1 hs
    exact h.reload hk onWire (hsteady tab hk)
  | elsewhere l =>
    obtain ⟨hforeign, hmap⟩ := Option.ite_none_right_eq_some.1 hs
    obtain ⟨server, hserver, rfl⟩ := Option.map_eq_some_iff.1 hmap
    exact ⟨h.holding.elsewhere hinj hforeign hserver, h.waits⟩

/-- The refresh requests on their way. -/
def sending (s : WebSession) : List RawToken := (s.flights.filter (·.reply = none)).map (·.raw) ++ s.strays

theorem sending_subset (s : WebSession) : s.sending ⊆ s.held := by
  intro raw hraw
  rw [held]
  rcases List.mem_append.1 hraw with hraw | hraw
  · obtain ⟨f, hf, rfl⟩ := List.mem_map.1 hraw
    obtain ⟨hmem, hreply⟩ := List.mem_filter.1 hf
    refine List.mem_append_left _ (List.mem_append_left _ (List.mem_append_left _ (List.mem_flatMap.2 ⟨f, hmem, ?_⟩)))
    simp [of_decide_eq_true hreply]
  · exact List.mem_append_left _ (List.mem_append_right _ hraw)

variable {server₀ : SerialAuth} {tr : List WebLabel}

/-- While no tab starts to refresh a token that another tab is refreshing and no page is loaded anew while it refreshes
the stored token, a browser never replays a token, however the requests of its tabs, their answers and the other clients
interleave and whatever is lost: no token reaches the server twice; one that is on its way is spent only if its user
logged out; the stored one, if no tab is refreshing it, is exchanged as soon as it is sent, unless it has expired, its
user is disabled or logged out; and in every tab requests wait exactly while its refresh is under way. -/
theorem never_replays {users : List User} {now : Time} {tr₀ : List SerialLabel}
    (hinj : Function.Injective env.hashToken)
    (hserver : run (SerialAuth.step env) (SerialAuth.init users now) tr₀ = some server₀)
    (hr : run (step env) (init server₀) tr = some s) (hsteady : Along (step env) Steady (init server₀) tr) :
    s.presented.Nodup ∧
      (∀ raw ∈ s.sending, ∀ row, s.server.store.findRefreshToken (env.hashToken raw) = some row →
        row.revokedAt.isSome → AuthHistory.LoggedOut s.server.history row) ∧
      (∀ raw, s.refreshToken = some raw → raw ∉ s.flights.map (·.raw) → ∀ info, s.server.Accepts env raw info ↔
        ∃ row, s.server.store.findRefreshToken (env.hashToken raw) = some row ∧ s.server.store.now ≤ row.expiresAt ∧
          s.server.store.Active row.userId ∧ ¬ AuthHistory.LoggedOut s.server.history row) ∧
      ∀ tab ∈ s.tabs, tab.refreshing.isSome ↔ .waiting ∈ tab.requests := by
  have hok : Ok env s :=
    hsteady.inv (I := Ok env) (.init ((ok_init env users now).run hserver)) (fun _ _ _ h hs hC => h.step hinj hs hC) hr
  refine ⟨hok.holding.once, ?_, ?_, hok.waits⟩
  · intro raw hraw row hrow hrev
    obtain ⟨t, ht⟩ := hok.holding.live raw (sending_subset s hraw)
    obtain rfl := Option.some.inj (ht.found.symm.trans hrow)
    exact ht.loggedOut hok.holding.ok hrev
  · intro raw hrt hf info
    have hmem : raw ∈ s.held := by
      rw [held, holdings, hrt, Option.filter_some, if_pos (decide_eq_true hf)]
      simp
    obtain ⟨t, ht⟩ := hok.holding.live raw hmem
    rw [ht.accepts_iff hok.holding.ok hinj info]
    constructor
    · exact fun h => ⟨t, ht.found, h⟩
    · rintro ⟨row, hrow, h⟩
      obtain rfl := Option.some.inj (ht.found.symm.trans hrow)
      exact h

instance decidableSteady : ∀ s lbl s', Decidable (Steady s lbl s')
  | s, .unauthorized k i, _ =>
    inferInstanceAs (Decidable (∀ tab ∈ s.tabs[k]?, tab.requests[i]? = some .sent → tab.refreshing = none →
      ∀ rt ∈ s.refreshToken, rt ∉ s.flights.map (·.raw)))
  | s, .reload k _, _ =>
    inferInstanceAs (Decidable (∀ tab ∈ s.tabs[k]?, ∀ f ∈ tab.refreshing, s.refreshToken ≠ some f.raw))
  | _, .openTab, _ | _, .req _, _ | _, .answered .., _ | _, .serve .., _ | _, .turnAway _, _ | _, .deliver _, _
  | _, .drop .., _ | _, .serveStray .., _ | _, .login .., _ | _, .welcome _, _ | _, .signOut, _
  | _, .elsewhere _, _ => isTrue trivial

/-- Two pages of one tab find that their access token has expired, and one of the answers is still out when the token is
new; a second tab then refreshes the new token, and the first one is loaded anew in the middle of it. -/
def twoPages : List WebLabel :=
  [.login "dev@test.local" "password123" .browser, .welcome 0, .openTab, .openTab, .req 0, .req 0, .req 1,
    .unauthorized 0 0, .serve 0 .browser, .unauthorized 0 1, .deliver 0, .answered 0 0 true, .unauthorized 1 0,
    .reload 0 true, .serve 1 .browser, .deliver 1]

theorem never_replays_twoPages :
    ∃ s, run (step AuthEnv.plain) (init (SerialAuth.init [User.dev] 0)) twoPages = some s ∧
      s.presented = [1, 3] ∧ s.presented.Nodup ∧ ∀ tab ∈ s.tabs, tab.refreshing.isSome ↔ .waiting ∈ tab.requests := by
  obtain ⟨s, hr, hs⟩ := Option.map_eq_some_iff.1 (show
    (run (step AuthEnv.plain) (init (SerialAuth.init [User.dev] 0)) twoPages).map (·.presented) = some [1, 3] by
      decide +kernel)
  have hserver : run (SerialAuth.step AuthEnv.plain) (SerialAuth.init [User.dev] 0) [] =
      some (SerialAuth.init [User.dev] 0) := rfl
  have hlaw := never_replays plain_hashToken_injective hserver hr (by decide +kernel)
  exact ⟨s, hr, hs, hlaw.1, hlaw.2.2.2⟩

/-- A page that is loaded anew in the middle of its refresh presents the old token again. -/
example : (run (step AuthEnv.plain) (init (SerialAuth.init [User.dev] 0))
    [.login "dev@test.local" "password123" .browser, .welcome 0, .openTab, .req 0, .unauthorized 0 0, .reload 0 true,
      .serveStray 0 .browser, .req 0, .unauthorized 0 0, .serve 0 .browser]).map (·.presented) = some [1, 1] := by
  decide +kernel

/-- Two tabs that find the same token expired at one time both send it: `refreshing` is a variable of the page. -/
example : (run (step AuthEnv.plain) (init (SerialAuth.init [User.dev] 0))
    [.login "dev@test.local" "password123" .browser, .welcome 0, .openTab, .openTab, .req 0, .req 1,
      .unauthorized 0 0, .unauthorized 1 0, .serve 0 .browser, .serve 1 .browser]).map (·.presented) = some [1, 1] := by
  decide +kernel

end WebSession

end CronMonitor
