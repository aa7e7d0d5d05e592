import CronMonitor.Domain

/-!
# `contract/ismartpay.ts`

The part of the developer-API contract that the simulator computes with: amounts, fees, the sandbox numbers,
the errors with their HTTP status, and the requests. The schemas are zod's to run and the body hash is
SHA-256's; `Wire` is what they return for a body.
-/

namespace CronMonitor

namespace Simulator

/-! ### Money -/

/-- `"120.00"` is 12000 pesewas, strictly: digits, a point and two digits, at most 14 characters, not zero. -/
def parseAmount (s : String) : Option Nat :=
  let a := s.toList.takeWhile Char.isDigit
  match a, s.toList.dropWhile Char.isDigit with
  | _ :: _, ['.', x, y] =>
    if x.isDigit && y.isDigit && s.length ≤ 14 then
      let n := (a ++ [x, y]).foldl (fun n c => 10 * n + (c.toNat - 48)) 0
      if 0 < n then some n else none
    else none
  | _, _ => none

inductive FeeBearer
  | initiator | nonInitiator
deriving DecidableEq, Repr

structure FeeSplit where
  payerAmount : Nat
  recipientAmount : Int
deriving DecidableEq, Repr

/-- Fee maths from the docs (money-and-fees). All values in pesewas. -/
def applyFee (amount fee : Nat) : FeeBearer → FeeSplit
  | .initiator => ⟨amount + fee, amount⟩
  | .nonInitiator => ⟨amount, (amount : Int) - fee⟩

/-! ### Errors -/

inductive ErrorCode
  | invalidInput | ownHandle | transactionLimitExceeded | dailyLimitExceeded | notFound | productNotFound
  | duplicateReference | amountOutOfRange | currencyNotSupported | insufficientFunds | bankSettlementUnavailable
deriving DecidableEq, Repr

/-- `ERROR_HTTP`, and the 422 that the simulator gives to the codes the table has not. -/
def ErrorCode.http : ErrorCode → Nat
  | .invalidInput | .ownHandle => 400
  | .transactionLimitExceeded | .dailyLimitExceeded => 403
  | .notFound | .productNotFound => 404
  | .duplicateReference => 409
  | .amountOutOfRange | .currencyNotSupported | .insufficientFunds | .bankSettlementUnavailable => 422

structure SimError where
  code : ErrorCode
  message : String
deriving DecidableEq, Repr

/-- What a call may throw: a `SimError`, or an `Error` of the runtime. -/
inductive Thrown
  | sim (e : SimError)
  | crash (message : String)
deriving DecidableEq, Repr

def fail {α : Type} (code : ErrorCode) (message : String) : Except Thrown α := .error (.sim ⟨code, message⟩)

/-! ### Sandbox numbers -/

def providers : List String := ["mtn", "telecel", "calbank"]

inductive Outcome
  | ok | fail | failRefund | wrongPin
deriving DecidableEq, Repr

/-- The digits of a number, with the short form `000000000001` written out. -/
def normalizeFixtureNumber (value : String) : String :=
  let digits := value.toList.filter Char.isDigit
  if digits.length = 12 ∧ digits.take 9 = List.replicate 9 '0' then "233" ++ String.ofList (digits.drop 3)
  else String.ofList digits

/-- `TELECEL_FIXTURES`: what a documented test number does as payer and as destination. -/
def telecelFixture (number : String) : Option Outcome × Option Outcome :=
  if number = "233000000001" then (some .ok, some .ok)
  else if number = "233000000003" then (none, some .failRefund)
  else if number = "233000000004" then (some .wrongPin, none)
  else (none, none)

/-! ### Requests -/

inductive PartyType
  | msisdn | account | card
deriving DecidableEq, Repr

structure Party where
  type : PartyType
  value : String
deriving DecidableEq, Repr

structure CollectionRequest where
  reference : String
  amount : String
  currency : String
  provider : String
  payer : Party
  note : Option String
deriving DecidableEq, Repr

structure PayoutRequest where
  reference : String
  amount : String
  currency : String
  provider : String
  destination : Party
  note : Option String
deriving DecidableEq, Repr

/-- An item of a batch is the body of a payout, whose reference the batch looks at. -/
structure BatchItem (Body : Type) where
  reference : String
  body : Body
deriving DecidableEq, Repr

structure PayoutBatchRequest (Body : Type) where
  reference : String
  items : List (BatchItem Body)
deriving DecidableEq, Repr

structure Beneficiary where
  msisdn : String
  accountNumber : Option String
deriving DecidableEq, Repr

inductive FundingType
  | wallet | collection
deriving DecidableEq, Repr

structure Funding where
  type : FundingType
  payer : Option (String × String)
deriving DecidableEq, Repr

structure UtilityPurchaseRequest where
  reference : String
  productId : String
  amount : String
  currency : String
  beneficiary : Beneficiary
  funding : Funding
deriving DecidableEq, Repr

structure TransferRequest where
  reference : String
  handle : String
  amount : String
  currency : String
deriving DecidableEq, Repr

structure SettleNowRequest where
  reference : String
deriving DecidableEq, Repr

inductive SettlementDestination
  | momo | bank | split
deriving DecidableEq, Repr

structure PolicyRequest where
  destination : SettlementDestination
  schedule : String
  minimum : Option String
deriving DecidableEq, Repr

/-- The schemas run on a body, with the text of the first issue when one refuses it, and `hashOf`. -/
structure Wire (Body : Type) where
  collection : Body → Except String CollectionRequest
  payout : Body → Except String PayoutRequest
  -- `PayoutRequestSchema.passthrough()`
  payoutLoose : Body → Except String PayoutRequest
  payoutBatch : Body → Except String (PayoutBatchRequest Body)
  utilityPurchase : Body → Except String UtilityPurchaseRequest
  transfer : Body → Except String TransferRequest
  settleNow : Body → Except String SettleNowRequest
  policy : Body → Except String PolicyRequest
  -- a member of the body that is a string
  stringField : Body → String → Option String
  hashOf : Body → String

/-- Bodies that carry a request which its schema accepts. -/
inductive Form
  | collection (r : CollectionRequest)
  | payout (r : PayoutRequest)
  | transfer (r : TransferRequest)
  | settleNow (r : SettleNowRequest)
  | policy (r : PolicyRequest)

def Form.hashOf : Form → String
  | collection r => "collection " ++ r.reference ++ " " ++ r.amount
  | payout r => "payout " ++ r.reference ++ " " ++ r.amount
  | transfer r => "transfer " ++ r.reference ++ " " ++ r.amount
  | settleNow r => "settlement " ++ r.reference
  | policy _ => "policy"

def formWire : Wire Form where
  collection
    | .collection r => .ok r
    | _ => .error "payer: Required"
  payout
    | .payout r => .ok r
    | _ => .error "destination: Required"
  payoutLoose
    | .payout r => .ok r
    | _ => .error "destination: Required"
  payoutBatch _ := .error "items: Required"
  utilityPurchase _ := .error "productId: Required"
  transfer
    | .transfer r => .ok r
    | _ => .error "handle: Required"
  settleNow
    | .settleNow r => .ok r
    | _ => .error "reference: Required"
  policy
    | .policy r => .ok r
    | _ => .error "destination: Required"
  stringField _ _ := none
  hashOf := Form.hashOf

end Simulator

end CronMonitor
