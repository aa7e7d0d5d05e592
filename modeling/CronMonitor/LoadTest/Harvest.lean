import CronMonitor.LoadTest.Fanout
import CronMonitor.LoadTest.MetricsLaw

/-!
# `harvest.service.ts`

A finished run's references are rebuilt from the counters of its `RunAggregator`: `LT-<salt>-<n>` for the iterations
`n`. `fill` is that of the rendered script, which puts them into the bodies.
-/

namespace CronMonitor.LoadTest
open Json Utf16

/-- Eight characters of the run id, without its hyphens. -/
def runSalt (runId : String) : String := String.ofList ((runId.toList.filter (· ≠ '-')).take 8)

def HARVEST_MAX : Int := 2000

structure HarvestPlan where
  references : List String
  caveat : Option String
deriving DecidableEq

/-- Which references a run created. -/
def referencesFor (numberText : ℚ → String) (runId : String) (iterations limit : Int) (errorRate : ℚ) : HarvestPlan :=
  let count := max 0 (min (min iterations limit) HARVEST_MAX)
  let salt := runSalt runId
  let percent := Text.toFixed numberText 1 (errorRate * 100)
  { references := (List.range count.toNat).map fun n => s!"LT-{salt}-{n}"
    caveat :=
      if errorRate > 1 / 100 then
        some (s!"{percent}% of that run's requests failed, so some of these references were never created and may " ++
          "return 404 when polled.")
      else none }

/-- What is read of a run. -/
structure HarvestRun (ν : Type) where
  id : String
  status : LoadRunStatus
  summary : Option RunSummary
  method : PlanMethod
  body : Option (Value ν)
  targetName : String
  effectiveClass : Option LoadEnvironmentClass

structure HarvestRecord where
  testData : Bool
  testCaseId : String
  environment : String
  reference : String
deriving DecidableEq

/-- What is handed to `createValidatedDataSet`. -/
structure HarvestSet where
  name : JsString
  environment : String
  description : String
  records : List HarvestRecord
  caveat : Option String
deriving DecidableEq

inductive HarvestError
  | notFound (message : String)
  | validation (message : String)
deriving DecidableEq

variable {ν : Type}

def REF : JsString := js "\x7b\x7bref\x7d\x7d"

def isRefTemplate (body : Option (Value ν)) : Bool :=
  match body with
  | some (.obj members) =>
    match (Value.obj members).get? (js "reference") with
    | some (.str s) => s = REF
    | _ => false
  | _ => false

def harvestReferences (numberText : ℚ → String) (run : Option (HarvestRun ν)) (limit : Int) :
    Except HarvestError HarvestSet :=
  match run with
  | none => .error (.notFound "Run not found")
  | some run =>
    match run.summary with
    | none => .error (.validation "Only a finished run with results can be harvested.")
    | some summary =>
      if run.status ≠ .completed ∧ run.status ≠ .aborted then
        .error (.validation "Only a finished run with results can be harvested.")
      else if run.method ≠ .post ∨ isRefTemplate run.body = false then
        .error (.validation
          "This run did not create top-level references (its body has no `reference: \x7b\x7bref\x7d\x7d`).")
      else
        let iterations := max 0 ((summary.totalRequests : Int) - summary.authRequests)
        let plan := referencesFor numberText run.id iterations limit summary.errorRate
        if plan.references.length = 0 then .error (.validation "The run created no references.")
        else
          let environment := ((run.effectiveClass.getD .sandbox).label).toLower
          let salt := runSalt run.id
          let target := run.targetName
          let id := run.id
          let why := (plan.caveat.map fun caveat => s!" — {caveat}").getD ""
          .ok
            { name := (js s!"refs-{salt}-{target}").take 200
              environment := environment
              description := s!"References created by run {id}{why}"
              records := plan.references.zipIdx.map fun p =>
                let n := p.2
                ⟨true, s!"HARVEST-{n}", environment, p.1⟩
              caveat := plan.caveat }

/-! ### The iterations of the script -/

/-- `[A-Za-z0-9_.]`. -/
def isKeyUnit (c : UInt16) : Bool :=
  isDigit c || (0x41 ≤ c.toNat && c.toNat ≤ 0x5A) || (0x61 ≤ c.toNat && c.toNat ≤ 0x7A) || c = 0x5F || c = 0x2E

/-- The key of a placeholder at the beginning of a text. -/
def placeholder : JsString → Option JsString
  | a :: b :: s =>
    if a = 0x7B ∧ b = 0x7B then
      match s.takeWhile isKeyUnit, s.dropWhile isKeyUnit with
      | k :: key, c :: d :: _ => if c = 0x7D ∧ d = 0x7D then some (k :: key) else none
      | _, _ => none
    else none
  | _ => none

/-- `s.replace(…, fill)`, after `skip` units that a placeholder has taken up. -/
def fillFrom (value : JsString → Option JsString) : Nat → JsString → JsString
  | _, [] => []
  | skip + 1, _ :: s => fillFrom value skip s
  | 0, c :: s =>
    match placeholder (c :: s) with
    | some key =>
      (value key).getD ([0x7B, 0x7B] ++ key ++ [0x7D, 0x7D]) ++ fillFrom value (key.length + 3) s
    | none => c :: fillFrom value 0 s

/-- What an iteration fills in; `others` are a random identifier and the fields of its record. -/
structure IterationContext where
  salt : String
  n : Nat
  others : JsString → Option JsString

namespace IterationContext

/-- `ctx.ref`. -/
def ref (ctx : IterationContext) : JsString :=
  let salt := ctx.salt
  let n := ctx.n
  js s!"LT-{salt}-{n}"

def idem (ctx : IterationContext) : JsString :=
  let salt := ctx.salt
  let n := ctx.n
  js s!"IDEM-TST-{salt}-{n}"

def value (ctx : IterationContext) (i : Option Nat) (key : JsString) : Option JsString :=
  if key = js "idem" then some ctx.idem
  else if key = js "ref" then some ctx.ref
  else if key = js "iter" then some (js (toString ctx.n))
  else if key = js "i" then i.map fun i => js (toString i)
  else ctx.others key

def fill (ctx : IterationContext) (s : JsString) (i : Option Nat) : JsString := fillFrom (ctx.value i) 0 s

end IterationContext

/-- `__ENV.LT_RUN_SALT || '00000000'`. -/
def scriptSalt (env : String) : String := if env = "" then "00000000" else env

/-- The top-level reference of the body that an iteration sends, where it has one. -/
def sentReference (F : NumberFormat ν) (L : Loop ν) (ctx : IterationContext) (body : Option (Value ν)) : Option JsString :=
  match expand L ctx.fill (cfgBody F body) none with
  | some (v, _) =>
    match v.get? (js "reference") with
    | some (.str s) => some s
    | _ => none
  | none => none

/-! ### The references that were sent -/

variable {F : NumberFormat ν} {L : Loop ν}

/-- The plan posts its reference at the top level: the body is an object with the placeholder under `reference`, which no
`$repeat` turns into an array, and no iteration dies in it. -/
structure PostsReference (F : NumberFormat ν) (L : Loop ν) (body : Option (Value ν)) : Prop where
  template : isRefTemplate body = true
  plain : (cfgBody F body).repeats? = none
  lives : bodyMultiplicity F L body ≠ none

theorem fill_ref (ctx : IterationContext) (i : Option Nat) : ctx.fill REF i = ctx.ref := by
  have hkey : placeholder (0x7B :: REF.tail) = some (js "ref") := by decide
  have hvalue : ctx.value i (js "ref") = some ctx.ref := by
    rw [IterationContext.value, if_neg (by decide), if_pos rfl]
  show fillFrom (ctx.value i) 0 (0x7B :: REF.tail) = ctx.ref
  rw [fillFrom, hkey]
  simp only [hvalue, Option.getD_some]
  exact List.append_nil _

theorem get?_cons (key k : JsString) (v : Value ν) (ms : List (JsString × Value ν)) :
    (Value.obj ((k, v) :: ms)).get? key = ((Value.obj ms).get? key).or (if k = key then some v else none) := by
  simp only [Value.get?, List.reverse_cons, List.find?_append, Option.map_or]
  split_ifs with h <;> simp [h]

/-- The members of an object literal are those of the value, apart from `__proto__`. -/
theorem member_own (F : NumberFormat ν) (key : JsString) (hkey : key ≠ js "__proto__") (ms : List (JsString × Value ν)) :
    Literal.member key ((Literal.ofMembers (settleMembers F ms)).filter (·.1 ≠ js "__proto__")) =
      ((Value.obj ms).get? key).map fun v => Literal.ofValue (settle F v) := by
  induction ms with
  | nil => rfl
  | cons m ms ih =>
    obtain ⟨k, v⟩ := m
    rw [get?_cons, settleMembers, Literal.ofMembers]
    by_cases hk : k = js "__proto__"
    · have hne : k ≠ key := fun h => hkey (h.symm.trans hk)
      rw [List.filter_cons_of_neg (by simp [hk]), ih, if_neg hne, Option.or_none]
    · rw [List.filter_cons_of_pos (by simp [hk])]
      unfold Literal.member at ih ⊢
      rw [List.reverse_cons, List.find?_append, Option.map_or, ih, Option.map_or]
      split_ifs with hkk <;> simp [hkk]

theorem expandMembers_keys {fill : JsString → Option Nat → JsString} {i : Option Nat} {own : List (JsString × Literal ν)}
    {e : List (JsString × Value ν) × Option Nat} (h : expandMembers L fill own i = some e) :
    e.1.map Prod.fst = own.map Prod.fst := by
  induction own generalizing e with
  | nil =>
    rw [expandMembers] at h
    rw [← Option.some.inj h]
    rfl
  | cons m own ih =>
    obtain ⟨k, v⟩ := m
    rw [expandMembers] at h
    obtain ⟨ev, -, h⟩ := Option.bind_eq_some_iff.1 h
    obtain ⟨rest, hrest, rfl⟩ := Option.map_eq_some_iff.1 h
    rw [List.map_cons, List.map_cons, ih hrest]

/-- The members of an expanded object are the expanded members. -/
theorem get?_expandMembers {fill : JsString → Option Nat → JsString} {key s : JsString} {i : Option Nat}
    {own : List (JsString × Literal ν)} {e : List (JsString × Value ν) × Option Nat}
    (h : expandMembers L fill own i = some e) (hown : Literal.member key own = some (.str s)) :
    (Value.obj e.1).get? key = some (.str (fill s i)) := by
  induction own generalizing e with
  | nil => cases hown
  | cons m own ih =>
    obtain ⟨k, v⟩ := m
    rw [expandMembers] at h
    obtain ⟨ev, hv, h⟩ := Option.bind_eq_some_iff.1 h
    obtain ⟨rest, hrest, rfl⟩ := Option.map_eq_some_iff.1 h
    have hsplit : Literal.member key ((k, v) :: own) = (Literal.member key own).or (if k = key then some v else none) := by
      simp only [Literal.member, List.reverse_cons, List.find?_append, Option.map_or]
      split_ifs with hk <;> simp [hk]
    rw [hsplit] at hown
    rw [get?_cons]
    cases hlater : Literal.member key own with
    | some w =>
      rw [hlater, Option.some_or] at hown
      rw [ih hrest (hlater.trans hown), Option.some_or]
    | none =>
      rw [hlater, Option.none_or] at hown
      have hk : k = key := by
        by_contra hk
        rw [if_neg hk] at hown
        cases hown
      rw [if_pos hk, Option.some.injEq] at hown
      have hnone : (Value.obj rest.1).get? key = none := by
        rw [Literal.member, Option.map_eq_none_iff, List.find?_eq_none] at hlater
        rw [Value.get?, Option.map_eq_none_iff, List.find?_eq_none]
        intro m hm
        have hmem : m.1 ∈ own.map Prod.fst := by
          rw [← expandMembers_keys hrest]
          exact List.mem_map_of_mem (List.mem_reverse.1 hm)
        obtain ⟨m', hm', heq⟩ := List.mem_map.1 hmem
        rw [← heq]
        exact hlater m' (List.mem_reverse.2 hm')
      rw [hown, expand, Option.some.injEq] at hv
      rw [hnone, Option.none_or, if_pos hk, ← hv]

/-- Every iteration sends its own reference. -/
theorem sentReference_eq {body : Option (Value ν)} (h : PostsReference F L body) (ctx : IterationContext) :
    sentReference F L ctx body = some ctx.ref := by
  obtain ⟨ms, rfl, href⟩ : ∃ ms, body = some (.obj ms) ∧ (Value.obj ms).get? (js "reference") = some (.str REF) := by
    have ht := h.template
    unfold isRefTemplate at ht
    split at ht
    · rename_i ms
      split at ht
      · rename_i s hs
        exact ⟨ms, rfl, by rw [hs, of_decide_eq_true ht]⟩
      · cases ht
    · cases ht
  have hcfg : cfgBody F (some (.obj ms)) = Literal.object (Literal.ofMembers (settleMembers F ms)) := by
    rw [cfgBody, Option.getD_some, settle, Literal.ofValue]
  have hplain := h.plain
  have hlives := h.lives
  have hitems := expand_items L ctx.fill (cfgBody F (some (.obj ms))) none
  have hmember := member_own F (js "reference") (by decide) ms
  rw [hcfg, Literal.object, Literal.repeats?] at hplain
  unfold bodyMultiplicity at hlives
  rw [← hitems] at hlives
  unfold sentReference
  rw [hcfg, Literal.object, hplain, expand] at hlives ⊢
  cases he : expandMembers L ctx.fill ((Literal.ofMembers (settleMembers F ms)).filter (·.1 ≠ js "__proto__")) none with
  | none =>
    rw [he] at hlives
    exact absurd rfl hlives
  | some e =>
    rw [href, Option.map_some, settle, Literal.ofValue] at hmember
    simp only [Option.map_some, get?_expandMembers he hmember, fill_ref]

/-! ### The counters -/

/-- A request to the target that was answered. -/
def MeterOp.isTarget : MeterOp → Bool
  | .feed line => line.sample.isSome
  | _ => false

/-- A request to the token endpoint. -/
def MeterOp.isAuth : MeterOp → Bool
  | .feed line =>
    (parseK6Line line).any fun p => p.1 = "http_req_duration" && p.2.tags.phase = some "auth"
  | _ => false

variable {scale : LogScale} {runId : Uuid} {table : MetricTable}

theorem feed_auth (scale : LogScale) (a : RunAggregator) (line : K6Line) :
    (a.feed scale line).1.auth = a.auth + if (MeterOp.feed line).isAuth then 1 else 0 := by
  unfold RunAggregator.feed MeterOp.isAuth
  cases hp : parseK6Line line with
  | none => simp [hp]
  | some p =>
    simp only [hp, Option.any_some]
    split_ifs with hd hm ha <;> simp_all [RunAggregator.record]

theorem feed_total (scale : LogScale) (a : RunAggregator) (line : K6Line) :
    (a.feed scale line).1.total = a.total + if (MeterOp.feed line).isTarget then 1 else 0 := by
  cases hs : line.sample with
  | none =>
    have htotal : (a.feed scale line).1.total = a.total := congrArg Counts.requests (feed_of_none scale a hs).2.1
    simp [MeterOp.isTarget, hs, htotal]
  | some sample =>
    obtain ⟨key, status, expected⟩ := sample
    obtain ⟨hist, -, hcounts, -⟩ := feed_of_some scale a hs
    have htotal : (a.feed scale line).1.total = a.total + 1 := congrArg Counts.requests hcounts
    simp [MeterOp.isTarget, hs, htotal]

/-- The summary counts the requests to the target and to the token endpoint apart. -/
theorem after_counts (scale : LogScale) (runId : Uuid) (table : MetricTable) (ops : List MeterOp) :
    (Metering.after scale runId table ops).agg.total = ops.countP MeterOp.isTarget ∧
      (Metering.after scale runId table ops).agg.auth = ops.countP MeterOp.isAuth := by
  induction ops using List.reverseRecOn with
  | nil => exact ⟨rfl, rfl⟩
  | append_singleton ops op ih =>
    rw [after_snoc, List.countP_append, List.countP_append, List.countP_singleton, List.countP_singleton, ← ih.1, ← ih.2]
    cases op with
    | feed line => exact ⟨feed_total scale _ line, feed_auth scale _ line⟩
    | guardrail nowMs opts => exact ⟨rfl, rfl⟩
    | drain beforeMs => exact ⟨rfl, rfl⟩

/-! ### What is harvested -/

/-- What `harvestReferences` builds; a run without references is refused. -/
def Harvests (numberText : ℚ → String) (run : HarvestRun ν) (limit : Int) (references : List String) : Prop :=
  match harvestReferences numberText (some run) limit with
  | .ok set => set.records.map (·.reference) = references
  | .error e => e = .validation "The run created no references." ∧ references = []

/-- A run whose samples were fed to its aggregator. -/
structure Finished (F : NumberFormat ν) (L : Loop ν) (scale : LogScale) (run : HarvestRun ν) (ops : List MeterOp) :
    Prop where
  status : run.status = .completed ∨ run.status = .aborted
  method : run.method = .post
  posts : PostsReference F L run.body
  id : runSalt run.id ≠ ""
  summary : ∃ runId table, run.summary = some ((Metering.after scale runId table ops).agg.summary scale)

/-- The references are those that the first iterations have sent. -/
def HarvestExact (F : NumberFormat ν) (L : Loop ν) (numberText : ℚ → String) (run : HarvestRun ν) (ops : List MeterOp)
    (limit : Int) : Prop :=
  ∃ references, Harvests numberText run limit references ∧ ∀ others,
    references.map (fun r => some (js r)) =
      (List.range (min (min (ops.countP MeterOp.isTarget : Int) limit) HARVEST_MAX).toNat).map fun n =>
        sentReference F L ⟨scriptSalt (runSalt run.id), n, others⟩ run.body

variable {numberText : ℚ → String} {run : HarvestRun ν} {ops : List MeterOp} {limit : Int}

theorem harvests_iff (h : Finished F L scale run ops) (references : List String) :
    Harvests numberText run limit references ↔
      references = (List.range (max 0 (min (min (max 0 ((ops.countP MeterOp.isTarget : Int) - ops.countP MeterOp.isAuth))
        limit) HARVEST_MAX)).toNat).map fun n => let salt := runSalt run.id; s!"LT-{salt}-{n}" := by
  obtain ⟨runId, table, hsummary⟩ := h.summary
  obtain ⟨htotal, hauth⟩ := after_counts scale runId table ops
  have hstatus : ¬ (run.status ≠ .completed ∧ run.status ≠ .aborted) := fun hne => h.status.elim hne.1 hne.2
  have hplan : ¬ (run.method ≠ .post ∨ isRefTemplate run.body = false) := by
    simp [h.method, h.posts.template]
  simp only [Harvests, harvestReferences, hsummary, if_neg hstatus, if_neg hplan, RunAggregator.summary, htotal, hauth,
    referencesFor, List.length_map, List.length_range]
  generalize hcount : (max 0 (min (min (max 0 ((ops.countP MeterOp.isTarget : Int) - ops.countP MeterOp.isAuth)) limit)
    HARVEST_MAX)).toNat = count
  by_cases hzero : count = 0
  · simp [hzero]
  · simp only [if_neg hzero, List.map_map]
    have hfst : ∀ l : List String, ∀ f : String × Nat → HarvestRecord, (∀ p, (f p).reference = p.1) →
        l.zipIdx.map ((·.reference) ∘ f) = l := by
      intro l f hf
      have : (·.reference) ∘ f = Prod.fst := funext hf
      rw [this, List.zipIdx_map_fst]
    rw [hfst _ _ fun _ => rfl]
    exact eq_comm

/-- Exactly the references that were sent are harvested, exactly if the run made no request to the token endpoint, or so
many to the target that the limit is met without as many of them; or if there is nothing to harvest. -/
theorem harvestExact_iff (h : Finished F L scale run ops) (numberText : ℚ → String) (limit : Int) :
    HarvestExact F L numberText run ops limit ↔
      ops.countP MeterOp.isAuth = 0 ∨ ops.countP MeterOp.isTarget = 0 ∨ limit ≤ 0 ∨
        min limit HARVEST_MAX ≤ (ops.countP MeterOp.isTarget : Int) - ops.countP MeterOp.isAuth := by
  have hsalt : scriptSalt (runSalt run.id) = runSalt run.id := if_neg h.id
  have hsent : ∀ n others, sentReference F L ⟨scriptSalt (runSalt run.id), n, others⟩ run.body =
      some (js (let salt := runSalt run.id; s!"LT-{salt}-{n}")) := by
    intro n others
    rw [sentReference_eq h.posts, hsalt]
    rfl
  have hcounts : HarvestExact F L numberText run ops limit ↔
      (max 0 (min (min (max 0 ((ops.countP MeterOp.isTarget : Int) - ops.countP MeterOp.isAuth)) limit) HARVEST_MAX)).toNat =
        (min (min (ops.countP MeterOp.isTarget : Int) limit) HARVEST_MAX).toNat := by
    constructor
    · rintro ⟨references, hrefs, hexact⟩
      rw [harvests_iff h] at hrefs
      have hlength := congrArg List.length (hexact fun _ => none)
      simpa [hrefs] using hlength
    · intro hcount
      refine ⟨_, (harvests_iff h _).2 rfl, fun others => ?_⟩
      rw [hcount, List.map_map]
      refine List.map_congr_left fun n _ => ?_
      rw [hsent n others]
      rfl
  rw [hcounts, HARVEST_MAX]
  omega

/-! ### Three iterations and a token -/

/-- The sample of a token request. -/
def authSample : K6Line := ⟨true, some ("Point", "http_req_duration", ⟨0, 12, ⟨some "auth", some (some 200), none⟩⟩)⟩

def referenceBody : Value Nat := .obj [(js "reference", .str REF)]

/-- A run that was fed these samples. -/
def sampledRun (ops : List MeterOp) : HarvestRun Nat :=
  ⟨"1234abcd-0000-4000-8000-000000000000", .completed, some ((Metering.after flatScale 0 [] ops).agg.summary flatScale),
    .post, some referenceBody, "Collections", some .sandbox⟩

def noCoercion : Loop Nat := ⟨id, fun _ => none⟩

theorem referenceBody_posts : PostsReference decimal noCoercion (some referenceBody) :=
  ⟨by decide +kernel, by decide +kernel, by decide +kernel⟩

theorem sampledRun_finished (ops : List MeterOp) : Finished decimal noCoercion flatScale (sampledRun ops) ops where
  status := .inl rfl
  method := rfl
  posts := referenceBody_posts
  id := show runSalt "1234abcd-0000-4000-8000-000000000000" ≠ "" by decide +kernel
  summary := ⟨0, [], rfl⟩

def threeSamples : List MeterOp := [.feed (okSample 0), .feed (okSample 1), .feed (okSample 2)]

theorem harvestExact_three : HarvestExact decimal noCoercion (fun _ => "") (sampledRun threeSamples) threeSamples 100 :=
  (harvestExact_iff (sampledRun_finished threeSamples) (fun _ => "") 100).2 (.inl (by decide +kernel))

/-- With one token request, the reference of the last of three iterations is missing. -/
theorem last_reference_missing :
    Finished decimal noCoercion flatScale (sampledRun (.feed authSample :: threeSamples)) (.feed authSample :: threeSamples) ∧
      Harvests (fun _ => "") (sampledRun (.feed authSample :: threeSamples)) 100 ["LT-1234abcd-0", "LT-1234abcd-1"] ∧
      ¬ HarvestExact decimal noCoercion (fun _ => "") (sampledRun (.feed authSample :: threeSamples))
        (.feed authSample :: threeSamples) 100 := by
  have hfinished := sampledRun_finished (.feed authSample :: threeSamples)
  have hcount : (max 0 (min (min (max 0 (((MeterOp.feed authSample :: threeSamples).countP MeterOp.isTarget : Int) -
      (MeterOp.feed authSample :: threeSamples).countP MeterOp.isAuth)) 100) HARVEST_MAX)).toNat = 2 := by decide +kernel
  refine ⟨hfinished, (harvests_iff hfinished _).2 ?_, ?_⟩
  · rw [hcount]
    decide +kernel
  · rintro ⟨references, hrefs, hexact⟩
    have hlength := congrArg List.length (hexact fun _ => none)
    rw [harvests_iff hfinished, hcount] at hrefs
    rw [hrefs, List.length_map, List.length_map, List.length_map, List.length_range, List.length_range] at hlength
    exact absurd hlength (by decide +kernel)

end CronMonitor.LoadTest
