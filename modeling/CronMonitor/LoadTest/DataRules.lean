import CronMonitor.Lib.Json

/-!
# `load-test-data.ts`

A data set is rejected unless it is tagged, free of secrets and card numbers, and uses the synthetic conventions. The
records are JSON values; `walk` and `visit` go through them. What `toLowerCase`, `Number.isInteger` and `String` do is a
parameter, `DataEnv`.
-/

namespace CronMonitor.LoadTest.TestData

open Json Utf16

structure DataEnv (ν : Type) where
  toLowerCase : JsString → JsString
  isInteger : ν → Bool
  numberText : ν → JsString

structure DataViolation where
  path : JsString
  code : String
  message : String
deriving DecidableEq

structure DataSetInput (ν : Type) where
  environment : Option JsString
  records : List (Value ν)

structure DataValidationOptions where
  approvedCardFixtures : List JsString

def SECRET_KEYS : List JsString :=
  ["cvv", "cvc", "cvv2", "cvc2", "pin", "password", "passwd", "otp", "secret", "clientsecret", "apikey", "apisecret",
    "token", "accesstoken", "refreshtoken", "track1", "track2", "trackdata"].map js

/-- The keys with a convention, and what their values start with; six digits or more follow. -/
def ID_CONVENTIONS : List (JsString × JsString) :=
  [("customerid", "CUS-TST-"), ("merchantid", "MER-TST-"), ("walletid", "WLT-TST-"), ("accountref", "ACC-TST-"),
    ("accountreference", "ACC-TST-"), ("transactionref", "TXN-TST-"), ("transactionreference", "TXN-TST-"),
    ("idempotencykey", "IDEM-TST-")].map fun p => (js p.1, js p.2)

def EMAIL_KEYS : List JsString := ["email", "username"].map js

def NON_PRODUCTION_ENVS : List JsString := ["mock", "sandbox", "staging"].map js

/-! ### Texts -/

def isUpper (c : UInt16) : Bool := 0x41 ≤ c.toNat && c.toNat ≤ 0x5A

def isLower (c : UInt16) : Bool := 0x61 ≤ c.toNat && c.toNat ≤ 0x7A

def trim (s : JsString) : JsString := ((s.dropWhile isSpace).reverse.dropWhile isSpace).reverse

/-- `pre` and what follows it. -/
def after (pre s : JsString) : Option JsString := if pre.isPrefixOf s then some (s.drop pre.length) else none

/-- A reference `\x7b\x7bsecret:NAME\x7d\x7d`, resolved at run time from the secrets manager. -/
def isSecretRef (s : JsString) : Bool :=
  (after (js "\x7b\x7bsecret:") s).any fun rest =>
    let name := rest.take (rest.length - 2)
    (js "\x7d\x7d").isSuffixOf rest && name ≠ [] && name.all fun c => isDigit c || isUpper c || isLower c || c ∈ js "_.-"

def followsConvention (pre s : JsString) : Bool := (after pre s).any fun rest => 6 ≤ rest.length && rest.all isDigit

/-- `/(phone|msisdn|mobile)/`. -/
def isPhoneKey (nk : JsString) : Bool := nk.tails.any fun t => [js "phone", js "msisdn", js "mobile"].any (·.isPrefixOf t)

/-- `/@[^@]+\.test$/i`: what follows the last `@`. -/
def isTestEmail (s : JsString) : Bool :=
  let domain := (s.reverse.takeWhile (· ≠ 0x40)).reverse
  s.contains 0x40 && 6 ≤ domain.length &&
    (js ".test").isSuffixOf (domain.map fun c => if isUpper c then c + 0x20 else c)

def luhnSum (alt : Bool) : JsString → Nat
  | [] => 0
  | c :: s =>
    let n := c.toNat - 0x30
    let n := if alt then (if 9 < 2 * n then 2 * n - 9 else 2 * n) else n
    n + luhnSum (!alt) s

def luhnValid (digits : JsString) : Bool :=
  12 ≤ digits.length && digits.length ≤ 19 && digits.all isDigit && luhnSum false digits.reverse % 10 = 0

inductive MsisdnFault
  | characters | length | countryCode | range
deriving DecidableEq, Repr

/-- `[\s().-]`. -/
def isSeparator (c : UInt16) : Bool := isSpace c || c ∈ js "().-"

/-- A Ghanaian number as `+233` and nine digits. -/
def normalizeGhanaMsisdn (input : JsString) : Except MsisdnFault JsString :=
  let raw := trim input
  if raw = [] ∨ ¬ raw.all fun c => c = 0x2B || isDigit c || isSeparator c then .error .characters
  else
    let d := raw.filter fun c => !isSeparator c
    let d := if (js "+").isPrefixOf d then d.drop 1 else if (js "00").isPrefixOf d then d.drop 2
      else if (js "0").isPrefixOf d then js "233" ++ d.drop 1 else d
    if d = [] ∨ ¬ d.all isDigit then .error .characters
    else if ¬ (js "233").isPrefixOf d then .error .countryCode
    else if (d.drop 3).length ≠ 9 then .error .length
    else if (js "0").isPrefixOf (d.drop 3) then .error .range
    else .ok (js "+233" ++ d.drop 3)

/-! ### The checks of one value -/

variable {ν : Type} (env : DataEnv ν) (opts : DataValidationOptions)

def norm (k : JsString) : JsString := (env.toLowerCase k).filter fun c => isDigit c || isLower c

def isSecretKey (key : JsString) : Bool := norm env key ∈ SECRET_KEYS

/-- The value without spaces and hyphens. -/
def compactText (s : JsString) : JsString := s.filter fun c => !(isSpace c || c = 0x2D)

def suspectedPan (s : JsString) : Bool :=
  13 ≤ s.length && s.length ≤ 19 && s.all isDigit && luhnValid s && s ∉ opts.approvedCardFixtures

/-- A Class B record. -/
def authorized (record : Value ν) : Bool :=
  (match record.get? (js "providerAuthorized") with
    | some (.bool true) => true
    | _ => false) &&
  match record.get? (js "authorizationRef") with
  | some (.str _) => true
  | _ => false

def readsAsNumber (s : JsString) : Bool :=
  match normalizeGhanaMsisdn s with
  | .ok _ => true
  | .error _ => false

/-- The value has no `test` that could be called. -/
inductive TypeError
  | notAFunction
deriving DecidableEq, Repr

abbrev Checked := Except TypeError (List DataViolation)

def flag (bad : Bool) (path : JsString) (code message : String) : List DataViolation :=
  if bad then [⟨path, code, message⟩] else []

def both (x y : Checked) : Checked := do
  let a ← x
  let b ← y
  return a ++ b

def breaksConvention (key s : JsString) : Bool :=
  (ID_CONVENTIONS.find? (·.1 = norm env key)).any fun c => !followsConvention c.2 s

def nonTestEmail (key s : JsString) : Bool := norm env key ∈ EMAIL_KEYS && s.contains 0x40 && !isTestEmail s

def unauthorizedNumber (record : Value ν) (key s : JsString) : Bool :=
  isPhoneKey (norm env key) && !isSecretRef s && readsAsNumber s && !authorized record

def visitString (record : Value ν) (key s path : JsString) : Checked :=
  if isSecretKey env key && !isSecretRef s then
    .ok [⟨path, "SECRET_FIELD", "Secrets (PIN/CVV/OTP/password/token) must be \x7b\x7bsecret:NAME\x7d\x7d references."⟩]
  -- `ID_CONVENTIONS['constructor']` is what every object inherits, and has no `test`
  else if norm env key = js "constructor" then .error .notAFunction
  else
    .ok (flag (breaksConvention env key s) path "NON_SYNTHETIC_ID"
        "Identifier does not follow the synthetic *-TST-###### convention." ++
      flag (nonTestEmail env key s) path "NON_TEST_EMAIL" "Test identities must use the reserved .test domain." ++
      flag (unauthorizedNumber env record key s) path "UNAUTHORIZED_REAL_NUMBER"
        "A valid-format number needs providerAuthorized=true and an authorizationRef (or a \x7b\x7bsecret:…\x7d\x7d reference)." ++
      flag (suspectedPan opts (compactText s)) path "REAL_PAN_SUSPECTED"
        "Luhn-valid card number that is not an approved processor fixture.")

def secretFlag (key path : JsString) : List DataViolation :=
  flag (isSecretKey env key) path "SECRET_FIELD" "Secrets must be \x7b\x7bsecret:NAME\x7d\x7d references."

def visitNumber (key : JsString) (x : ν) (path : JsString) : List DataViolation :=
  if env.isInteger x then
    flag (suspectedPan opts (env.numberText x)) path "REAL_PAN_SUSPECTED"
        "Luhn-valid card number that is not an approved processor fixture." ++
      secretFlag env key path
  else []

/-! ### The walkers -/

def elementPath (path : JsString) (i : Nat) : JsString := path ++ js "[" ++ js (toString i) ++ js "]"

def memberPath (path key : JsString) : JsString := path ++ js "." ++ key

variable (record : Value ν)

mutual

def visit (key path : JsString) : Value ν → Checked
  | .null => .ok []
  | .bool _ => .ok []
  | .num x => .ok (visitNumber env opts key x path)
  | .str s => visitString env opts record key s path
  -- arrays and objects go on with `walk`
  | .arr xs => both (.ok (secretFlag env key path)) (walkElements path 0 xs)
  | .obj ms => both (.ok (secretFlag env key path)) (visitMembers path ms)

def walk (path : JsString) : Value ν → Checked
  | .arr xs => walkElements path 0 xs
  | .obj ms => visitMembers path ms
  | _ => .ok []

def walkElements (path : JsString) (i : Nat) : List (Value ν) → Checked
  | [] => .ok []
  | x :: xs => both (walk (elementPath path i) x) (walkElements path (i + 1) xs)

def visitMembers (path : JsString) : List (JsString × Value ν) → Checked
  | [] => .ok []
  | (key, v) :: ms => both (visit key (memberPath path key) v) (visitMembers path ms)

end

/-- The tags of a record. -/
def tagViolations (base : JsString) : List DataViolation :=
  flag (match record.get? (js "test_data") with
      | some (.bool true) => false
      | _ => true) (memberPath base (js "test_data")) "UNTAGGED" "Record must carry test_data: true." ++
    flag (match record.get? (js "test_case_id") with
      | some (.str s) => s = []
      | _ => true) (memberPath base (js "test_case_id")) "UNTAGGED" "Record must carry a test_case_id." ++
    flag (match record.get? (js "environment") with
      | some (.str s) => env.toLowerCase s ∉ NON_PRODUCTION_ENVS
      | _ => true) (memberPath base (js "environment")) "UNTAGGED"
        "Record must be tagged environment mock, sandbox or staging."

def checkRecord (idx : Nat) : Value ν → Checked
  | .obj ms =>
    both (.ok (tagViolations env (.obj ms) (elementPath (js "records") idx)))
      (visitMembers env opts (.obj ms) (elementPath (js "records") idx) ms)
  | _ => .ok [⟨elementPath (js "records") idx, "RECORD_SHAPE", "Each record must be an object."⟩]

def checkRecords (idx : Nat) : List (Value ν) → Checked
  | [] => .ok []
  | r :: rs => both (checkRecord env opts idx r) (checkRecords (idx + 1) rs)

structure DataValidation where
  valid : Bool
  violations : List DataViolation
  recordCount : Nat
deriving DecidableEq

def namesEnvironment (environment : Option JsString) : Bool :=
  environment.any fun e => e ≠ [] && env.toLowerCase e ∈ NON_PRODUCTION_ENVS

def validateDataSet (set : DataSetInput ν) : Except TypeError DataValidation := do
  let violations ← both
    (.ok (flag (!namesEnvironment env set.environment) (js "environment") "ENVIRONMENT"
      "Data set must declare environment mock, sandbox or staging."))
    (checkRecords env opts 0 set.records)
  return ⟨violations.isEmpty, violations, set.records.length⟩

end CronMonitor.LoadTest.TestData
