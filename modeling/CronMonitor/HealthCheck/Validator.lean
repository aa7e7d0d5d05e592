import CronMonitor.Lib.JsonAlike

/-!
# `validator.service.ts`

A response is judged by a rule of the target. A path is followed by JavaScript's own property access, which also finds what
an object has from its prototype, values are compared by their JSON texts, and numbers are read by `Number`. Where
`evaluate` throws, the check takes it for a fault of the target.
-/

namespace CronMonitor.HealthCheck.Validator
open Utf16 Json

/-- Numbers with what `Number` makes of a text that is not blank; `none` is `NaN`. -/
structure NumberReading (ν : Type) extends NumberFormat ν where
  numeral : JsString → Option ν

/-- What the built-ins throw here is a `TypeError`. -/
inductive JsError
  | typeError
deriving DecidableEq, Repr

variable {ν : Type}

/-! ### Conversions -/

def isBlank (s : JsString) : Bool := s.all isSpace

/-- The text of a plain object. -/
def objectText : JsString := js "[object Object]"

def isNull : Value ν → Bool
  | .null => true
  | _ => false

section Conversions
variable (C : NumberReading ν)

mutual

/-- `String(v)`. A member `toString` of a parsed object hides the method and cannot be called. -/
def toText : Value ν → Except JsError JsString
  | .null => .ok (js "null")
  | .bool b => .ok (js (if b then "true" else "false"))
  | .num x => .ok (C.text x)
  | .str s => .ok s
  | .arr xs => joined xs
  | .obj ms => if js "toString" ∈ ms.map Prod.fst then .error .typeError else .ok objectText

/-- `xs.join(',')`. -/
def joined : List (Value ν) → Except JsError JsString
  | [] => .ok []
  | x :: xs => do
    let first ← (if isNull x then .ok [] else toText x : Except JsError JsString)
    let rest ← joined xs
    return if xs.isEmpty then first else first ++ 0x2C :: rest

end

/-- `Number(s)` of a text. -/
def toNumber (s : JsString) : Option ν := if isBlank s then some (C.ofNat 0) else C.numeral s

end Conversions

/-! ### `json-path.ts` -/

/-- What `getByPath` comes across. -/
inductive Found (ν : Type)
  | json (v : Value ν)
  | undefined
  /-- A built-in function, by its name. -/
  | function (name : JsString)
  | objectPrototype

def parsePath (path : JsString) : List JsString :=
  let trimmed :=
    match path with
    | 0x24 :: 0x2E :: rest => rest
    | 0x24 :: rest => rest
    | _ => path
  (trimmed.splitOnP fun c => c = 0x2E || c = 0x5B || c = 0x5D).filter (· ≠ [])

/-- `Number.parseInt(segment, 10)`; `none` is `NaN`. -/
def parseIndex (segment : JsString) : Option Int :=
  let rest := segment.dropWhile isSpace
  let number := (sign rest).takeWhile isDigit
  if number = [] then none
  else some (if rest.head? = some 0x2D then -(readDecimal number : Int) else readDecimal number)

/-- The methods of `Object.prototype`. -/
def OBJECT_METHODS : List JsString :=
  [js "__defineGetter__", js "__defineSetter__", js "hasOwnProperty", js "__lookupGetter__", js "__lookupSetter__",
    js "isPrototypeOf", js "propertyIsEnumerable", js "toString", js "valueOf", js "toLocaleString"]

/-- What `segment` names in the prototype of an object. -/
def inherited (segment : JsString) : Option (Found ν) :=
  if segment = js "__proto__" then some .objectPrototype
  else if segment = js "constructor" then some (.function (js "Object"))
  else if segment ∈ OBJECT_METHODS then some (.function segment)
  else none

/-- One segment of the path. -/
def Found.segment (segment : JsString) : Found ν → Option (Found ν)
  | .json (.arr xs) =>
    match parseIndex segment with
    | none => none
    | some idx => if idx < 0 then none else (xs[idx.toNat]?).map .json
  | .json (.obj ms) =>
    match (Value.obj ms).get? segment with
    | some v => some (.json v)
    | none => inherited segment
  | .objectPrototype => if segment = js "__proto__" then some (.json .null) else inherited segment
  | _ => none

/-- `none` is `found: false`. -/
def getByPath (root : Found ν) (path : JsString) : Option (Found ν) :=
  (parsePath path).foldl (fun current segment => current.bind (·.segment segment)) (some root)

/-! ### Rules -/

inductive NumericOp
  | lt | le | gt | ge | eq
deriving DecidableEq, Repr

def NumericOp.label : NumericOp → JsString
  | .lt => js "<"
  | .le => js "<="
  | .gt => js ">"
  | .ge => js ">="
  | .eq => js "=="

def NumericOp.holds [LinearOrder ν] : NumericOp → ν → ν → Bool
  | .lt, n, value => n < value
  | .le, n, value => n ≤ value
  | .gt, n, value => n > value
  | .ge, n, value => n ≥ value
  | .eq, n, value => n = value

inductive CompositeMode
  | all | any
deriving DecidableEq, Repr

def CompositeMode.label : CompositeMode → JsString
  | .all => js "all"
  | .any => js "any"

/-- A rule that the target schema accepts. `equals` may be left out of the request. -/
inductive ValidationRule (ν : Type)
  | status (equals : Int)
  | jsonEquals (path : JsString) (equals : Option (Parsed ν))
  | jsonPathEquals (path : JsString) (equals : Option (Parsed ν))
  | contains (value : JsString) (negate : Bool)
  | numeric (path : JsString) (op : NumericOp) (value : ν)
  | jsonSchema (schema : List JsString)
  | composite (mode : CompositeMode) (rules : List (ValidationRule ν))

structure RuleResult where
  rule : JsString
  passed : Bool
  detail : Option JsString
deriving DecidableEq

structure ResponseFacts (ν : Type) where
  httpStatus : Nat
  bodyText : JsString
  /-- Nothing if the body is not JSON. -/
  json : Option (Parsed ν)

structure ValidationOutcome where
  passed : Bool
  results : List RuleResult
deriving DecidableEq

/-! ### `validateResponse` -/

def ResponseFacts.root (facts : ResponseFacts ν) : Found ν :=
  match facts.json with
  | some v => .json v.1
  | none => .undefined

section Evaluate
variable (C : NumberReading ν)

/-- `JSON.stringify`; of `undefined` and of a function there is no text. -/
def stringify : Found ν → Option JsString
  | .json v => some (compact C.toNumberFormat v)
  | .undefined | .function _ => none
  | .objectPrototype => some (js "\x7b\x7d")

def expectation (equals : Option (Parsed ν)) : Found ν :=
  match equals with
  | some v => .json v.1
  | none => .undefined

/-- `JSON.stringify(a) === JSON.stringify(b)`. -/
def deepEqual (a b : Found ν) : Bool := stringify C a = stringify C b

/-- `String(x)`. -/
def Found.text : Found ν → Except JsError JsString
  | .json v => toText C v
  | .undefined => .ok (js "undefined")
  | .function name => .ok (js "function " ++ name ++ js "() \x7b [native code] \x7d")
  | .objectPrototype => .ok objectText

/-- `Number(x)`; `none` is `NaN`. -/
def Found.number : Found ν → Except JsError (Option ν)
  | .json .null => .ok (some (C.ofNat 0))
  | .json (.bool b) => .ok (some (C.ofNat (if b then 1 else 0)))
  | .json (.num x) => .ok (some x)
  | .json v => (toText C v).map (toNumber C)
  | .undefined | .function _ | .objectPrototype => .ok none

/-- A text put into a template. -/
def shown (text : Option JsString) : JsString := text.getD (js "undefined")

def jsonEqualsResult (path : JsString) (equals : Option (Parsed ν)) (facts : ResponseFacts ν) : RuleResult :=
  let lookup := getByPath facts.root path
  let passed := lookup.any fun x => deepEqual C x (expectation equals)
  { rule := path ++ js " == " ++ shown (stringify C (expectation equals))
    passed := passed
    detail :=
      if passed then none
      else
        match lookup with
        | some x => some (js "got " ++ shown (stringify C x))
        | none => some (js "path not found") }

def numericResult [LinearOrder ν] (path : JsString) (op : NumericOp) (value : ν) (facts : ResponseFacts ν) :
    Except JsError RuleResult := do
  let lookup := getByPath facts.root path
  let n ← (lookup.getD .undefined).number C
  let passed := lookup.isSome && n.any fun n => op.holds n value
  let rule := path ++ 0x20 :: op.label ++ 0x20 :: C.text value
  if passed then return ⟨rule, true, none⟩
  else
    match lookup with
    | some x => return ⟨rule, false, some (js "got " ++ (← x.text C))⟩
    | none => return ⟨rule, false, some (js "path not found")⟩

/-- The names that arrays have from their prototype. -/
def ARRAY_MEMBERS : List JsString :=
  ["length", "at", "concat", "copyWithin", "fill", "find", "findIndex", "findLast", "findLastIndex", "lastIndexOf", "pop",
    "push", "reverse", "shift", "unshift", "slice", "sort", "splice", "includes", "indexOf", "join", "keys", "entries",
    "values", "forEach", "filter", "flat", "flatMap", "map", "every", "some", "reduce", "reduceRight", "toReversed",
    "toSorted", "toSpliced", "with"].map js

/-- `key in (json ?? {})`. -/
def isIn (key : JsString) : Option (Value ν) → Except JsError Bool
  | none | some .null => .ok (inherited (ν := ν) key).isSome
  | some (.obj ms) => .ok (key ∈ ms.map Prod.fst || (inherited (ν := ν) key).isSome)
  | some (.arr xs) =>
    .ok ((List.range xs.length).any (fun i => key = decimalDigits i) || key ∈ ARRAY_MEMBERS ||
      (inherited (ν := ν) key).isSome)
  | some (.bool _) | some (.num _) | some (.str _) => .error .typeError

/-- `Object.keys(schema).filter((k) => !(k in obj))`. -/
def missingKeys (json : Option (Value ν)) : List JsString → Except JsError (List JsString)
  | [] => .ok []
  | key :: keys => do
    let here ← isIn key json
    let rest ← missingKeys json keys
    return if here then rest else key :: rest

def jsonSchemaResult (schema : List JsString) (facts : ResponseFacts ν) : Except JsError RuleResult := do
  let missing ← missingKeys (facts.json.map (·.1)) schema
  return {
    rule := js "body matches declared schema"
    passed := missing = []
    detail := if missing = [] then none else some (js "missing keys: " ++ [0x2C, 0x20].intercalate missing) }

def containsResult (value : JsString) (negate : Bool) (facts : ResponseFacts ν) : RuleResult :=
  let has := decide (value <:+: facts.bodyText)
  { rule := js "body " ++ js (if negate then "excludes" else "contains") ++ js " \"" ++ value ++ js "\""
    passed := if negate then !has else has
    detail := none }

def statusResult (equals : Int) (facts : ResponseFacts ν) : RuleResult :=
  let passed := decide ((facts.httpStatus : Int) = equals)
  { rule := js s!"status == {equals}"
    passed := passed
    detail := if passed then none else some (js s!"got {facts.httpStatus}") }

def compositeResult (mode : CompositeMode) (sub : List RuleResult) : RuleResult where
  rule := mode.label ++ js " of [" ++ [0x2C, 0x20].intercalate (sub.map (·.rule)) ++ js "]"
  passed := match mode with
    | .all => sub.all (·.passed)
    | .any => sub.any (·.passed)
  detail := none

variable [LinearOrder ν]

mutual

def evaluate (facts : ResponseFacts ν) : ValidationRule ν → Except JsError RuleResult
  | .status equals => .ok (statusResult equals facts)
  | .jsonEquals path equals | .jsonPathEquals path equals => .ok (jsonEqualsResult C path equals facts)
  | .contains value negate => .ok (containsResult value negate facts)
  | .numeric path op value => numericResult C path op value facts
  | .jsonSchema schema => jsonSchemaResult schema facts
  | .composite mode rules => return compositeResult mode (← evaluateEach facts rules)

/-- `rule.rules.map((r) => evaluate(r, facts))`. -/
def evaluateEach (facts : ResponseFacts ν) : List (ValidationRule ν) → Except JsError (List RuleResult)
  | [] => .ok []
  | rule :: rules => return (← evaluate facts rule) :: (← evaluateEach facts rules)

end

/-- The contract of a target without expectations. -/
def implicitResult (facts : ResponseFacts ν) : RuleResult :=
  ⟨js "status is 2xx (implicit)", 200 ≤ facts.httpStatus && facts.httpStatus < 300, none⟩

def validateResponse (rule : Option (ValidationRule ν)) (expectedStatus : Option Int) (facts : ResponseFacts ν) :
    Except JsError ValidationOutcome := do
  let status := (expectedStatus.map fun equals => statusResult equals facts).toList
  let judged ← match rule with
    | some rule => (evaluate C facts rule).map fun r => [r]
    | none => pure []
  let results := if status ++ judged = [] then [implicitResult facts] else status ++ judged
  return ⟨results.all (·.passed), results⟩

end Evaluate

end CronMonitor.HealthCheck.Validator
