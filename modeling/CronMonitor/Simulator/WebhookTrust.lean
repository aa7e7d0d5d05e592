import CronMonitor.Simulator.WebhookCourses

/-!
# What the receiver has in the end

Requests may be lost, late, repeated and made up, as long as nobody else signs a text: what the receiver accepts under an
id without a dot is an event of the simulator, told within the tolerance, and every delivery that is acknowledged is among
its `uniqueEvents`, once. The signed text has no marks of its own between its parts; the dot that ends the id, the digits
of the timestamp and the brace that the body starts with keep them apart.
-/

namespace CronMonitor

namespace Simulator

open Runs

variable {Data : Type}

/-- The text of a request that its signature is for. -/
def HookRequest.text (r : HookRequest) : Option String :=
  r.id.bind fun id => r.timestamp.map fun timestamp => signedText id timestamp r.rawBody

/-- A value in the header signs the request. -/
def HookRequest.signedBy (T : HookText Data) (secret : String) (r : HookRequest) : Bool :=
  r.signature.any fun signature => r.text.any fun text => decide ("v1," ++ T.hmac secret text ∈ candidates signature)

/-! ### The signed text -/

theorem toList_signedText (id timestamp rawBody : String) :
    (signedText id timestamp rawBody).toList = id.toList ++ '.' :: (timestamp.toList ++ '.' :: rawBody.toList) := by
  simp [signedText]

theorem digits_no_dot (n : Nat) : '.' ∉ (toString n).toList := by
  intro h
  have hlist : (toString n).toList = Nat.toDigits 10 n := Nat.toList_repr
  have hdigit : '.'.isDigit = true := Nat.isDigit_of_mem_toDigits (by decide) (by decide) (hlist ▸ h)
  exact absurd hdigit (by decide)

/-- A text is signed for one id without a dot, one timestamp and one body. -/
theorem signedText_inj {id id' timestamp rawBody rawBody' : String} {n : Nat} {rest : List Char}
    (hid : '.' ∉ id.toList) (hid' : '.' ∉ id'.toList) (hbody : rawBody.toList = '{' :: rest)
    (htimestamp : '{' ∉ timestamp.toList)
    (h : signedText id (toString n) rawBody = signedText id' timestamp rawBody') :
    id = id' ∧ toString n = timestamp ∧ rawBody = rawBody' := by
  have hlist := congrArg String.toList h
  rw [toList_signedText, toList_signedText] at hlist
  obtain ⟨hids, hrest⟩ := Text.append_cons_inj hid hid' hlist
  by_cases hdot : '.' ∈ timestamp.toList
  · obtain ⟨before, after, htext, hbefore⟩ := List.eq_append_cons_of_mem hdot
    rw [htext, List.append_assoc] at hrest
    obtain ⟨-, hafter⟩ := Text.append_cons_inj (digits_no_dot n) hbefore hrest
    rw [hbody] at hafter
    cases after with
    | nil => exact absurd (List.head_eq_of_cons_eq hafter) (by decide)
    | cons c after =>
      obtain rfl := List.head_eq_of_cons_eq hafter
      refine absurd ?_ htimestamp
      rw [htext]
      simp
  · obtain ⟨htimestamps, hbodies⟩ := Text.append_cons_inj (digits_no_dot n) hdot hrest
    exact ⟨String.toList_inj.1 hids, String.toList_inj.1 htimestamps, String.toList_inj.1 hbodies⟩

/-- What is accepted has its headers, a timestamp within the tolerance, and a signature. -/
theorem verifyWebhook_ok {T : HookText Data} {secret : String} {r : HookRequest} {now : Nat}
    (h : verifyWebhook T secret r now = .ok) : ∃ id timestamp x, r.id = some id ∧ r.timestamp = some timestamp ∧
      T.number timestamp = some x ∧ |now - x| ≤ 300 ∧ r.signedBy T secret = true := by
  unfold verifyWebhook at h
  split at h
  · next id timestamp signature hid htimestamp hsignature =>
    have hid := (Option.filter_eq_some_iff.1 hid).1
    have htimestamp := (Option.filter_eq_some_iff.1 htimestamp).1
    have hsignature := (Option.filter_eq_some_iff.1 hsignature).1
    split at h
    · cases h
    · next x hx =>
      split_ifs at h with hfar hsigned
      refine ⟨id, timestamp, x, hid, htimestamp, hx, not_lt.1 hfar, ?_⟩
      simp only [HookRequest.signedBy, HookRequest.text, hid, htimestamp, hsignature, Option.bind_some, Option.map_some,
        Option.any_some, decide_eq_true_eq]
      exact hsigned
  · cases h

/-! ### Unique events -/

namespace Receiver

variable {rx : Receiver Data} {id : String} {env : WebhookEnvelope Data}

theorem see_some {seen : OrderedMap String (WebhookEnvelope Data)} {d : Receipt Data}
    (h : (see seen d).get? id = some env) :
    seen.get? id = some env ∨ d.verdict = .ok ∧ d.envelope = some env ∧ d.id = id := by
  unfold see at h
  split at h
  · next envelope hverdict henvelope hnone =>
    rw [OrderedMap.get?_set] at h
    split_ifs at h with hid
    · exact .inr ⟨hverdict, henvelope.trans h, hid⟩
    · exact .inl h
  · exact .inl h

theorem see_isSome {seen : OrderedMap String (WebhookEnvelope Data)} {d : Receipt Data} (h : (seen.get? id).isSome) :
    ((see seen d).get? id).isSome := by
  unfold see
  split
  · rw [OrderedMap.get?_set]
    split_ifs
    · rfl
    · exact h
  · exact h

theorem see_self {seen : OrderedMap String (WebhookEnvelope Data)} {d : Receipt Data} (hverdict : d.verdict = .ok)
    (henvelope : d.envelope = some env) : ((see seen d).get? d.id).isSome := by
  cases hget : seen.get? d.id with
  | none =>
    have hsee : see seen d = seen.set d.id env := by simp only [see, hverdict, henvelope, hget]
    rw [hsee, OrderedMap.set_self]
    rfl
  | some env' => exact see_isSome (by rw [hget]; rfl)

theorem seen_some (h : rx.seen.get? id = some env) :
    ∃ d ∈ rx.deliveries, d.verdict = .ok ∧ d.envelope = some env ∧ d.id = id := by
  obtain ⟨ds, attempts⟩ := rx
  induction ds using List.reverseRecOn with
  | nil => cases h
  | append_singleton ds d ih =>
    have hsee : (see (seen ⟨ds, attempts⟩) d).get? id = some env := by
      simpa only [seen, List.foldl_append, List.foldl_cons, List.foldl_nil] using h
    rcases see_some hsee with hbefore | hlast
    · obtain ⟨e, he, hspec⟩ := ih hbefore
      exact ⟨e, List.mem_append_left _ he, hspec⟩
    · exact ⟨d, List.mem_append_right _ (List.mem_singleton_self d), hlast⟩

theorem seen_of_mem {d : Receipt Data} (hd : d ∈ rx.deliveries) (hverdict : d.verdict = .ok)
    (henvelope : d.envelope = some env) : (rx.seen.get? d.id).isSome := by
  obtain ⟨ds, attempts⟩ := rx
  induction ds using List.reverseRecOn with
  | nil => cases hd
  | append_singleton ds e ih =>
    have hsee : seen ⟨ds ++ [e], attempts⟩ = see (seen ⟨ds, attempts⟩) e := by
      simp only [seen, List.foldl_append, List.foldl_cons, List.foldl_nil]
    rw [hsee]
    rcases List.mem_append.1 hd with hd | hd
    · exact see_isSome (ih hd)
    · obtain rfl := List.mem_singleton.1 hd
      exact see_self hverdict henvelope

end Receiver

namespace Hooks

variable {T : HookText Data} {E : Endpoint} {s s' : Hooks Data}

/-! ### The invariant -/

/-- A request as `deliver` makes it of an event. -/
structure Tells (T : HookText Data) (env : WebhookEnvelope Data) (ts : Nat) (q : HookRequest) : Prop where
  id : q.id = some env.id
  timestamp : q.timestamp = some (toString ts)
  body : q.rawBody = T.stringify env

/-- A receipt that the signature is right on. -/
structure Accepts (env : WebhookEnvelope Data) (g : Receipt Data) : Prop where
  verdict : g.verdict = .ok
  id : g.id = env.id
  envelope : g.envelope = some env

/-- JSON of an envelope is an object and reads back. -/
structure Writes (T : HookText Data) (env : WebhookEnvelope Data) : Prop where
  parse : T.parse (T.stringify env) = some env
  brace : (T.stringify env).toList.head? = some '{'

instance [DecidableEq Data] (T : HookText Data) (env : WebhookEnvelope Data) : Decidable (Writes T env) :=
  decidable_of_iff (T.parse (T.stringify env) = some env ∧ (T.stringify env).toList.head? = some '{')
    ⟨fun h => ⟨h.1, h.2⟩, fun h => ⟨h.parse, h.brace⟩⟩

/-- What is accepted is an event that was posted: its timestamp is that of the POST and within the tolerance. -/
def Genuine (T : HookText Data) (s : Hooks Data) (g : Receipt Data) : Prop :=
  ∃ d ∈ s.started, Accepts d.env g ∧ ∃ (ts : Nat) (x : ℚ), (∃ q ∈ s.posts, Tells T d.env ts q) ∧
    g.timestamp = toString ts ∧ T.number g.timestamp = some x ∧ |((g.at_ / 1000 : Nat) : ℚ) - x| ≤ 300

structure Trusts (T : HookText Data) (s : Hooks Data) : Prop where
  started : ∀ d ∈ s.started, '.' ∉ d.env.id.toList ∧ Writes T d.env
  same : ∀ d ∈ s.started, ∀ d' ∈ s.started, d.env.id = d'.env.id → d.env = d'.env
  timers : ∀ t ∈ s.timers, s.Started t.2
  posts : ∀ q ∈ s.posts, ∃ d ∈ s.started, ∃ ts, Tells T d.env ts q
  posting : ∀ p ∈ s.posting, s.Started p.delivery ∧ p.request ∈ s.posts ∧ ∃ ts, Tells T p.delivery.env ts p.request
  replies : ∀ p ∈ s.posting, ∀ status, p.reply = some status → 200 ≤ status ∧ status < 300 →
    ∃ g ∈ s.receiver.deliveries, Accepts p.delivery.env g
  receipts : ∀ g ∈ s.receiver.deliveries, g.verdict = .ok → '.' ∉ g.id.toList → s.Genuine T g
  acknowledged : ∀ e ∈ s.log, e.2 = .acknowledged → ∃ d, s.started[e.1]? = some d ∧
    ∃ g ∈ s.receiver.deliveries, Accepts d.env g

/-- Nobody but the simulator signs: what is signed was posted. -/
def Unforged (T : HookText Data) (E : Endpoint) (s : Hooks Data) (r : HookRequest) : Prop :=
  r.signedBy T E.secret = true → r.text ∈ s.posts.map HookRequest.text

/-- Ids are drawn that were not drawn before, and nobody else signs. -/
def Fair (T : HookText Data) (E : Endpoint) (s : Hooks Data) : HookLabel Data → Prop
  | .emit hex type createdAt data _ _ => '.' ∉ hex.toList ∧ (∀ d ∈ s.started, d.env.id ≠ "evt_" ++ hex) ∧
    Writes T ⟨"evt_" ++ hex, type, createdAt, data⟩
  | .inject r => s.Unforged T E r
  | _ => True

instance [DecidableEq Data] : ∀ l, Decidable (s.Fair T E l)
  | .emit hex _ _ _ _ _ => inferInstanceAs (Decidable ('.' ∉ hex.toList ∧ _ ∧ Writes T _))
  | .inject _ => inferInstanceAs (Decidable (_ → _))
  | .elapse _ | .timer _ | .arrive _ | .answer _ | .lost _ | .patch _ | .reset _ => isTrue trivial

theorem init_trusts (config : WebhookConfig) : (Hooks.init Data config).Trusts T where
  started := List.forall_mem_nil _
  same := List.forall_mem_nil _
  timers := List.forall_mem_nil _
  posts := List.forall_mem_nil _
  posting := List.forall_mem_nil _
  replies := List.forall_mem_nil _
  receipts := List.forall_mem_nil _
  acknowledged := List.forall_mem_nil _

/-! ### The receiver -/

theorem Tells.text {env : WebhookEnvelope Data} {ts : Nat} {q : HookRequest} (h : Tells T env ts q) :
    q.text = some (signedText env.id (toString ts) (T.stringify env)) := by
  simp only [HookRequest.text, h.id, h.timestamp, h.body, Option.bind_some, Option.map_some]

/-- A request that is accepted is one that was posted, whoever sends it. -/
theorem Trusts.genuine (h : s.Trusts T) (hnumber : ∀ text x, T.number text = some x → '{' ∉ text.toList)
    {r : HookRequest} (hr : s.Unforged T E r) (hok : (s.receiver.receipt T E s.now r).verdict = .ok)
    (hdot : '.' ∉ (s.receiver.receipt T E s.now r).id.toList) : s.Genuine T (s.receiver.receipt T E s.now r) := by
  obtain ⟨id, timestamp, x, hid, htimestamp, hx, hnear, hsigned⟩ := verifyWebhook_ok hok
  have hgid : (s.receiver.receipt T E s.now r).id = id := by simp only [Receiver.receipt, hid, Option.getD_some]
  rw [hgid] at hdot
  obtain ⟨q, hq, htext⟩ := List.mem_map.1 (hr hsigned)
  obtain ⟨d, hd, ts, htells⟩ := h.posts q hq
  obtain ⟨hdotfree, hwrites⟩ := h.started d hd
  obtain ⟨rest, hbody⟩ : ∃ rest, (T.stringify d.env).toList = '{' :: rest := by
    have hbrace := hwrites.brace
    cases hlist : (T.stringify d.env).toList with
    | nil => simp [hlist] at hbrace
    | cons c rest =>
      rw [hlist] at hbrace
      exact ⟨rest, congrArg (· :: rest) (Option.some.inj hbrace)⟩
  have hsame : signedText d.env.id (toString ts) (T.stringify d.env) = signedText id timestamp r.rawBody := by
    rw [htells.text] at htext
    simpa only [HookRequest.text, hid, htimestamp, Option.bind_some, Option.map_some, Option.some.injEq] using htext
  obtain ⟨hids, htimestamps, hbodies⟩ := signedText_inj hdotfree hdot hbody (hnumber _ _ hx) hsame
  have hgt : (s.receiver.receipt T E s.now r).timestamp = timestamp := by
    simp only [Receiver.receipt, htimestamp, Option.getD_some]
  refine ⟨d, hd, ⟨hok, hgid.trans hids.symm, ?_⟩, ts, x, ⟨q, hq, htells⟩, hgt.trans htimestamps.symm, ?_, hnear⟩
  · have henvelope : (s.receiver.receipt T E s.now r).envelope = T.parse r.rawBody := rfl
    rw [henvelope, ← hbodies, hwrites.parse]
  · rw [hgt]
    exact hx

/-- What is answered in the two hundreds was accepted. -/
theorem receipt_ok (r : HookRequest) (h : (s.receiver.receipt T E s.now r).respondedWith < 300) :
    (s.receiver.receipt T E s.now r).verdict = .ok := by
  cases hverdict : verifyWebhook T E.secret r (s.now / 1000) with
  | ok => exact hverdict
  | failed reason =>
    have hstatus : (s.receiver.receipt T E s.now r).respondedWith = 401 := by
      simp only [Receiver.receipt, hverdict]
    rw [hstatus] at h
    exact absurd h (by decide)

/-! ### What is kept -/

/-- What has started, was posted or received stays. -/
structure Grows (s s' : Hooks Data) : Prop where
  started : ∃ ds, s'.started = s.started ++ ds
  posts : s.posts ⊆ s'.posts
  deliveries : s.receiver.deliveries ⊆ s'.receiver.deliveries

theorem Grows.mem (h : Grows s s') {d : Delivery Data} (hd : d ∈ s.started) : d ∈ s'.started := by
  obtain ⟨ds, hstarted⟩ := h.started
  rw [hstarted]
  exact List.mem_append_left _ hd

theorem Grows.get (h : Grows s s') {c : Nat} {d : Delivery Data} (hd : s.started[c]? = some d) :
    s'.started[c]? = some d := by
  obtain ⟨ds, hstarted⟩ := h.started
  rw [hstarted, List.getElem?_append_left (List.getElem?_eq_some_iff.1 hd).1, hd]

theorem Grows.genuine (h : Grows s s') {g : Receipt Data} (hg : s.Genuine T g) : s'.Genuine T g := by
  obtain ⟨d, hd, haccepts, ts, x, ⟨q, hq, htells⟩, hrest⟩ := hg
  exact ⟨d, h.mem hd, haccepts, ts, x, ⟨q, h.posts hq, htells⟩, hrest⟩

/-- A step that starts and receives nothing, and takes away what it takes away. -/
theorem Trusts.keeps (h : s.Trusts T) (hgrows : Grows s s') (hstarted : s'.started = s.started)
    (hdeliveries : s'.receiver.deliveries = s.receiver.deliveries) (htimers : ∀ t ∈ s'.timers, s.Started t.2)
    (hposts : ∀ q ∈ s'.posts, ∃ d ∈ s.started, ∃ ts, Tells T d.env ts q)
    (hposting : ∀ p ∈ s'.posting, s.Started p.delivery ∧ p.request ∈ s'.posts ∧ ∃ ts, Tells T p.delivery.env ts p.request)
    (hreplies : ∀ p ∈ s'.posting, ∀ status, p.reply = some status → 200 ≤ status ∧ status < 300 →
      ∃ g ∈ s.receiver.deliveries, Accepts p.delivery.env g)
    (hlog : ∀ e ∈ s'.log, e.2 = .acknowledged → ∃ d, s.started[e.1]? = some d ∧
      ∃ g ∈ s.receiver.deliveries, Accepts d.env g) : s'.Trusts T where
  started := hstarted ▸ h.started
  same := hstarted ▸ h.same
  timers t ht := by
    rw [Started, hstarted]
    exact htimers t ht
  posts := hstarted ▸ hposts
  posting p hp := by
    obtain ⟨hd, hrest⟩ := hposting p hp
    rw [Started, hstarted]
    exact ⟨hd, hrest⟩
  replies := hdeliveries ▸ hreplies
  receipts g hg hok hdot := hgrows.genuine (h.receipts g (hdeliveries ▸ hg) hok hdot)
  acknowledged e he hack := by
    rw [hstarted, hdeliveries]
    exact hlog e he hack

theorem Trusts.emits (h : s.Trusts T) {env : WebhookEnvelope Data} (hdot : '.' ∉ env.id.toList)
    (hnew : ∀ d ∈ s.started, d.env.id ≠ env.id) (hwrites : Writes T env) (r r' : ℚ) : (s.emit env r r').Trusts T := by
  obtain ⟨ds, hemit, hds⟩ := emit_spec (s := s) env r r'
  have henv : ∀ d ∈ ds.map Prod.snd, d.env = env := by
    intro d hd
    obtain ⟨t, ht, rfl⟩ := List.mem_map.1 hd
    obtain ⟨i, hi⟩ := List.mem_iff_getElem?.1 ht
    exact (hds i t hi).2.2.2
  rw [hemit]
  have hgrows : Grows s { s with timers := s.timers ++ ds, started := s.started ++ ds.map Prod.snd } :=
    ⟨⟨_, rfl⟩, List.Subset.refl _, List.Subset.refl _⟩
  refine ⟨fun d hd => ?_, fun d hd d' hd' hid => ?_, fun t ht => ?_, fun q hq => ?_, fun p hp => ?_, h.replies,
    fun g hg hok hgdot => hgrows.genuine (h.receipts g hg hok hgdot), fun e he hack => ?_⟩
  · rcases List.mem_append.1 hd with hd | hd
    · exact h.started d hd
    · rw [henv d hd]
      exact ⟨hdot, hwrites⟩
  · rcases List.mem_append.1 hd with hd | hd <;> rcases List.mem_append.1 hd' with hd' | hd'
    · exact h.same d hd d' hd' hid
    · exact absurd (hid.trans (congrArg (·.id) (henv d' hd'))) (hnew d hd)
    · exact absurd (hid.symm.trans (congrArg (·.id) (henv d hd))) (hnew d' hd')
    · rw [henv d hd, henv d' hd']
  · rcases List.mem_append.1 ht with ht | ht
    · exact (h.timers t ht).mono rfl
    · exact .starts rfl (fun i t ht => ⟨(hds i t ht).1, (hds i t ht).2.1⟩) ht
  · obtain ⟨d, hd, htells⟩ := h.posts q hq
    exact ⟨d, hgrows.mem hd, htells⟩
  · obtain ⟨hd, hrest⟩ := h.posting p hp
    exact ⟨hd.mono rfl, hrest⟩
  · obtain ⟨d, hd, hg⟩ := h.acknowledged e he hack
    exact ⟨d, hgrows.get hd, hg⟩

theorem Started.mem {d : Delivery Data} (h : s.Started d) : ∃ d' ∈ s.started, d'.env = d.env :=
  ⟨_, List.mem_of_getElem? h, rfl⟩

theorem Trusts.posted (h : s.Trusts T) {k deadline : Nat} {d : Delivery Data} (hk : s.timers[k]? = some (deadline, d)) :
    (({ s with timers := s.timers.eraseIdx k } : Hooks Data).post T d).Trusts T := by
  have hd : s.Started d := h.timers _ (List.mem_of_getElem? hk)
  have htells : Tells T d.env (s.now / 1000) (s.request T d) := ⟨rfl, rfl, rfl⟩
  refine h.keeps ⟨⟨[], (List.append_nil _).symm⟩, List.subset_append_left _ _, List.Subset.refl _⟩ rfl rfl
    (fun t ht => h.timers t (List.mem_of_mem_eraseIdx ht)) (fun q hq => ?_) (fun p hp => ?_) (fun p hp status hreply => ?_)
    fun e he hack => ?_
  · rcases List.mem_append.1 hq with hq | hq
    · exact h.posts q hq
    · obtain rfl := List.mem_singleton.1 hq
      obtain ⟨d', hd', henv⟩ := hd.mem
      exact ⟨d', hd', s.now / 1000, henv ▸ htells⟩
  · rcases List.mem_append.1 hp with hp | hp
    · obtain ⟨hstarted, hmem, hts⟩ := h.posting p hp
      exact ⟨hstarted, List.mem_append_left _ hmem, hts⟩
    · obtain rfl := List.mem_singleton.1 hp
      exact ⟨hd, List.mem_append_right _ (List.mem_singleton_self _), _, htells⟩
  · rcases List.mem_append.1 hp with hp | hp
    · exact h.replies p hp status hreply
    · obtain rfl := List.mem_singleton.1 hp
      cases hreply
  · rcases List.mem_append.1 he with he | he
    · exact h.acknowledged e he hack
    · obtain rfl := List.mem_singleton.1 he
      cases hack

/-- An answer is acknowledged when the receiver has accepted. -/
theorem Trusts.concludes (h : s.Trusts T) {k : Nat} {p : Posting Data} (hk : s.posting[k]? = some p) {ok : Bool}
    (hok : ok = true → ∃ g ∈ s.receiver.deliveries, Accepts p.delivery.env g) :
    (({ s with posting := s.posting.eraseIdx k } : Hooks Data).conclude p.delivery ok).Trusts T := by
  have hd : s.Started p.delivery := (h.posting p (List.mem_of_getElem? hk)).1
  have hposting : ∀ q ∈ s.posting.eraseIdx k, q ∈ s.posting := fun q hq => List.mem_of_mem_eraseIdx hq
  have hlog {act : Act} (hact : act ≠ .acknowledged) : ∀ e ∈ s.log ++ [(p.delivery.chain, act)], e.2 = .acknowledged →
      ∃ d, s.started[e.1]? = some d ∧ ∃ g ∈ s.receiver.deliveries, Accepts d.env g := by
    intro e he hack
    rcases List.mem_append.1 he with he | he
    · exact h.acknowledged e he hack
    · obtain rfl := List.mem_singleton.1 he
      exact absurd hack hact
  unfold conclude
  split_ifs with hdone hagain
  · refine h.keeps ⟨⟨[], (List.append_nil _).symm⟩, List.Subset.refl _, List.Subset.refl _⟩ rfl rfl h.timers h.posts
      (fun q hq => h.posting q (hposting q hq)) (fun q hq => h.replies q (hposting q hq)) fun e he hack => ?_
    rcases List.mem_append.1 he with he | he
    · exact h.acknowledged e he hack
    · obtain rfl := List.mem_singleton.1 he
      exact ⟨_, hd, hok hdone⟩
  · refine h.keeps ⟨⟨[], (List.append_nil _).symm⟩, List.Subset.refl _, List.Subset.refl _⟩ rfl rfl (fun t ht => ?_) h.posts
      (fun q hq => h.posting q (hposting q hq)) (fun q hq => h.replies q (hposting q hq)) (hlog (by simp))
    rcases List.mem_append.1 ht with ht | ht
    · exact h.timers t ht
    · obtain rfl := List.mem_singleton.1 ht
      exact hd
  · exact h.keeps ⟨⟨[], (List.append_nil _).symm⟩, List.Subset.refl _, List.Subset.refl _⟩ rfl rfl h.timers h.posts
      (fun q hq => h.posting q (hposting q hq)) (fun q hq => h.replies q (hposting q hq)) (hlog (by simp))

/-- The receiver gets a request that nobody forged. -/
theorem Trusts.receives (h : s.Trusts T) (hnumber : ∀ text x, T.number text = some x → '{' ∉ text.toList)
    {r : HookRequest} (hr : s.Unforged T E r) {posting : List (Posting Data)}
    (hposting : ∀ p ∈ posting, s.Started p.delivery ∧ p.request ∈ s.posts ∧ ∃ ts, Tells T p.delivery.env ts p.request)
    (hreplies : ∀ p ∈ posting, ∀ status, p.reply = some status → 200 ≤ status ∧ status < 300 →
      ∃ g ∈ (s.receiver.receive T E s.now r).deliveries, Accepts p.delivery.env g) :
    ({ s with posting, receiver := s.receiver.receive T E s.now r } : Hooks Data).Trusts T := by
  have hgrows : Grows s { s with posting, receiver := s.receiver.receive T E s.now r } :=
    ⟨⟨[], (List.append_nil _).symm⟩, List.Subset.refl _, List.subset_append_left _ _⟩
  refine ⟨h.started, h.same, h.timers, h.posts, hposting, hreplies, fun g hg hok hdot => ?_, fun e he hack => ?_⟩
  · rcases List.mem_append.1 hg with hg | hg
    · exact hgrows.genuine (h.receipts g hg hok hdot)
    · obtain rfl := List.mem_singleton.1 hg
      exact hgrows.genuine (h.genuine hnumber hr hok hdot)
  · obtain ⟨d, hd, g, hg, haccepts⟩ := h.acknowledged e he hack
    exact ⟨d, hd, g, hgrows.deliveries hg, haccepts⟩

/-! ### All steps -/

theorem Trusts.step (h : s.Trusts T) (hnumber : ∀ text x, T.number text = some x → '{' ∉ text.toList)
    {l : HookLabel Data} (hstep : s.step T E l = some s') (hl : s.Fair T E l) : s'.Trusts T := by
  cases l with
  | emit hex type createdAt data r r' =>
    cases hstep
    obtain ⟨hdot, hnew, hwrites⟩ := hl
    exact h.emits (by simpa using hdot) hnew hwrites r r'
  | elapse ms =>
    cases hstep
    exact ⟨h.started, h.same, h.timers, h.posts, h.posting, h.replies, h.receipts, h.acknowledged⟩
  | timer k =>
    simp only [Hooks.step] at hstep
    split at hstep
    · cases hstep
    · next deadline d hk =>
      split_ifs at hstep
      · cases hstep
        exact h.posted hk
      · cases hstep
        exact ⟨h.started, h.same, fun t ht => h.timers t (List.mem_of_mem_eraseIdx ht), h.posts, h.posting, h.replies,
          h.receipts, h.acknowledged⟩
  | arrive k =>
    simp only [Hooks.step] at hstep
    split at hstep
    · next d request hk =>
      cases hstep
      obtain ⟨hd, hmem, ts, htells⟩ : s.Started d ∧ request ∈ s.posts ∧ ∃ ts, Tells T d.env ts request :=
        h.posting _ (List.mem_of_getElem? hk)
      refine h.receives hnumber (fun _ => List.mem_map_of_mem hmem) (fun p hp => ?_) fun p hp status hreply hsuccess => ?_
      · rcases List.mem_or_eq_of_mem_set hp with hp | rfl
        · exact h.posting p hp
        · exact ⟨hd, hmem, ts, htells⟩
      · rcases List.mem_or_eq_of_mem_set hp with hp | rfl
        · obtain ⟨g, hg, haccepts⟩ := h.replies p hp status hreply hsuccess
          exact ⟨g, List.mem_append_left _ hg, haccepts⟩
        · obtain rfl := Option.some.inj hreply
          refine ⟨_, List.mem_append_right _ (List.mem_singleton_self _), receipt_ok request hsuccess.2, ?_, ?_⟩
          · simp only [Receiver.receipt, htells.id, Option.getD_some]
          · obtain ⟨d', hd', henv⟩ := hd.mem
            have hparse := (h.started d' hd').2.parse
            rw [henv] at hparse
            simp only [Receiver.receipt, htells.body, hparse]
    · cases hstep
  | answer k =>
    simp only [Hooks.step] at hstep
    split at hstep
    · next d request status hk =>
      cases hstep
      refine h.concludes hk fun hok => ?_
      rw [Bool.and_eq_true, decide_eq_true_eq, decide_eq_true_eq] at hok
      exact h.replies _ (List.mem_of_getElem? hk) status rfl hok
    · cases hstep
  | lost k =>
    obtain ⟨p, hk, rfl⟩ := Option.map_eq_some_iff.1 hstep
    exact h.concludes hk fun hok => by cases hok
  | inject r =>
    cases hstep
    refine h.receives hnumber hl h.posting fun p hp status hreply hsuccess => ?_
    obtain ⟨g, hg, haccepts⟩ := h.replies p hp status hreply hsuccess
    exact ⟨g, List.mem_append_left _ hg, haccepts⟩
  | patch config =>
    cases hstep
    exact ⟨h.started, h.same, h.timers, h.posts, h.posting, h.replies, h.receipts, h.acknowledged⟩
  | reset config =>
    cases hstep
    exact ⟨h.started, h.same, h.timers, h.posts, h.posting, h.replies, h.receipts, h.acknowledged⟩

/-- What the receiver has in the end. -/
structure Delivered (T : HookText Data) (s : Hooks Data) : Prop where
  genuine : ∀ g ∈ s.receiver.deliveries, g.verdict = .ok → '.' ∉ g.id.toList → s.Genuine T g
  unique : ∀ id env, s.receiver.seen.get? id = some env → '.' ∉ id.toList → env.id = id ∧ ∃ d ∈ s.started, d.env = env
  complete : ∀ c d, s.started[c]? = some d → .acknowledged ∈ s.acts c → d.env ∈ s.receiver.uniqueEvents

theorem Trusts.delivered (h : s.Trusts T) : s.Delivered T := by
  have hunique : ∀ id env, s.receiver.seen.get? id = some env → '.' ∉ id.toList → env.id = id ∧ ∃ d ∈ s.started, d.env = env := by
    intro id env hget hdot
    obtain ⟨g, hg, hok, henvelope, rfl⟩ := Receiver.seen_some hget
    obtain ⟨d, hd, haccepts, -⟩ := h.receipts g hg hok hdot
    obtain rfl := Option.some.inj (henvelope.symm.trans haccepts.envelope)
    exact ⟨haccepts.id.symm, d, hd, rfl⟩
  refine ⟨h.receipts, hunique, fun c d hd hack => ?_⟩
  obtain ⟨e, he, hact⟩ := List.mem_map.1 hack
  obtain ⟨he, hchain⟩ := List.mem_filter.1 he
  obtain ⟨d', hd', g, hg, haccepts⟩ := h.acknowledged e he hact
  obtain rfl : e.1 = c := by simpa using hchain
  obtain rfl := Option.some.inj (hd.symm.trans hd')
  have hmem := List.mem_of_getElem? hd
  obtain ⟨env, henv⟩ := Option.isSome_iff_exists.1 (Receiver.seen_of_mem hg haccepts.verdict haccepts.envelope)
  rw [haccepts.id] at henv
  obtain ⟨hid, d', hd', rfl⟩ := hunique _ _ henv (h.started d hmem).1
  rw [h.same d hmem d' hd' hid.symm]
  exact OrderedMap.mem_values_iff.2 ⟨_, henv⟩

/-- Exactly once, end to end. -/
theorem end_to_end (T : HookText Data) (E : Endpoint) (config : WebhookConfig) (tr : List (HookLabel Data))
    (hnumber : ∀ text x, T.number text = some x → '{' ∉ text.toList)
    (hfair : Along (step T E) (fun s l _ => s.Fair T E l) (.init Data config) tr) :
    Throughout (step T E) (Delivered T) (.init Data config) tr := by
  have h₀ : (Hooks.init Data config).Trusts T := init_trusts config
  refine ⟨h₀.delivered, hfair.under_inv (I := Trusts T) h₀ ?_⟩
  intro s l s' hs hstep hl
  have hs' := hs.step hnumber hstep hl
  exact ⟨hs', hs'.delivered⟩

theorem payoutText_number (text : String) (x : ℚ) (h : payoutText.number text = some x) : '{' ∉ text.toList := by
  intro hmem
  have hdigits := (Option.ite_none_right_eq_some.1 h).1.1
  have hbrace := List.all_eq_true.1 hdigits '{' hmem
  exact absurd hbrace (by decide)

/-- Both POSTs come once more in the end, from elsewhere. -/
def replayed : List (HookLabel Unit) :=
  answeredLate ++ ["1700000000", "1700000001"].map fun ts =>
    .inject ⟨some "evt_0011223344556677", some ts,
      some (signWebhook payoutText "sim-webhook-secret" "evt_0011223344556677" ts
        (payoutText.stringify ⟨"evt_0011223344556677", "payout.accepted", "2023-11-14T22:13:20.000Z", ()⟩)),
      payoutText.stringify ⟨"evt_0011223344556677", "payout.accepted", "2023-11-14T22:13:20.000Z", ()⟩⟩

theorem end_to_end_replayed :
    (run (step payoutText ⟨"sim-webhook-secret", fun _ _ => none⟩) (.init Unit ownHooks) replayed).map
      (fun s => (s.receiver.deliveries.map (·.verdict), s.receiver.uniqueEvents.map (·.id))) =
        some ([.ok, .ok, .ok, .ok], ["evt_0011223344556677"]) ∧
    Throughout (step payoutText ⟨"sim-webhook-secret", fun _ _ => none⟩) (Delivered payoutText) (.init Unit ownHooks)
      replayed :=
  ⟨by decide +kernel, end_to_end payoutText _ ownHooks _ payoutText_number (by decide +kernel)⟩

end Hooks

end Simulator

end CronMonitor
