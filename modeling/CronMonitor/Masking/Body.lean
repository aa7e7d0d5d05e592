import CronMonitor.Masking.Pci
import CronMonitor.Lib.JsonAlike

/-!
# `masking.ts`

`maskBody` masks a JSON text by the names of its members (`maskJson`) and any other text by `INLINE_SECRET`. A member
`__proto__` of the copy that `maskJson` makes sets its prototype and is not one of its own.
-/

namespace CronMonitor.Masking

open Utf16 Regex Json

def MASK : JsString := js "***MASKED***"

/-! ### The expressions -/

/-- A unit with the flag `i`. -/
def fold (c : UInt16) : UInt16 := if 0x41 ≤ c.toNat && c.toNat ≤ 0x5A then c + 0x20 else c

def literal : JsString → Regex UInt16
  | [] => .many (.unit fun _ => false) 0 none
  | [d] => .unit fun c => fold c = fold d
  | d :: s => .seq (.unit fun c => fold c = fold d) (literal s)

/-- Two words with `[_-]?` in between. -/
def joined (a b : String) : Regex UInt16 :=
  .seq (literal (js a)) (.seq (.many (.unit fun c => c = 0x5F || c = 0x2D) 0 (some 1)) (literal (js b)))

def anyOf : List (Regex UInt16) → Regex UInt16
  | [] => .unit fun _ => false
  | [r] => r
  | r :: rs => .alt r (anyOf rs)

/-- JSON keys whose value is masked wherever they appear, at any depth. -/
def SECRET_KEY : Regex UInt16 := anyOf
  [literal (js "password"), literal (js "passwd"), literal (js "pwd"), literal (js "secret"), literal (js "pin"),
    literal (js "otp"), literal (js "cvv"), literal (js "cvc"), literal (js "cav"), literal (js "token"),
    joined "access" "key", joined "api" "key", literal (js "apikey"), joined "client" "secret",
    joined "private" "key", joined "encryption" "key", joined "signing" "key", literal (js "authorization"),
    joined "auth" "token", joined "session" "id", joined "card" "number", literal (js "cardnumber"),
    literal (js "pan"), joined "account" "number", literal (js "iban"), literal (js "ssn"), joined "national" "id"]

def isSecretKey (key : JsString) : Bool := test isWord SECRET_KEY key

def spaces (min : ℕ) : Regex UInt16 := .many (.unit isSpace) min none

/-- The units of a token: letters, digits and `.`, `_`, `~`, `+`, `/`, `-`. -/
def isTokenUnit (c : UInt16) : Bool := isDigit c || isLetter c || c ∈ [0x2E, 0x5F, 0x7E, 0x2B, 0x2F, 0x2D]

/-- `(bearer\s+)`, eight units of a token or more, and `=*`. -/
def BEARER : Regex UInt16 :=
  .seq (.group 1 (.seq (literal (js "bearer")) (spaces 1)))
    (.seq (.many (.unit isTokenUnit) 8 none) (.many (.unit fun c => c = 0x3D) 0 none))

/-- `(?:api[_-]?key|…|signature)`. -/
def SECRET_WORD : Regex UInt16 := anyOf
  [joined "api" "key", literal (js "apikey"), literal (js "token"), joined "access" "token", joined "client" "secret",
    literal (js "password"), literal (js "secret"), literal (js "pin"), literal (js "otp"), literal (js "signature")]

/-- `((?:…)\s*[=:]\s*)(["']?)[^"'&\s]{4,}\3`. -/
def ASSIGNED : Regex UInt16 :=
  .seq (.group 2 (.seq SECRET_WORD (.seq (spaces 0) (.seq (.unit fun c => c = 0x3D || c = 0x3A) (spaces 0)))))
    (.seq (.group 3 (.many (.unit fun c => c = 0x22 || c = 0x27) 0 (some 1)))
      (.seq (.many (.unit fun c => !(c ∈ [0x22, 0x27, 0x26]) && !isSpace c) 4 none) (.ref 3)))

def INLINE_SECRET : Regex UInt16 := .alt BEARER ASSIGNED

def maskInlineSecrets (text : JsString) : JsString :=
  replaceAll isWord INLINE_SECRET
    (fun _ p => if p 1 ≠ [] then p 1 ++ MASK else p 2 ++ p 3 ++ MASK ++ p 3) text

/-! ### The maskers -/

variable {ν : Type}

mutual

/-- `depth` is that of the value; what lies deeper than 12 is returned as it is. -/
def maskJson (depth : ℕ) : Value ν → Value ν
  | .arr xs => if 12 < depth then .arr xs else .arr (maskElements (depth + 1) xs)
  | .obj ms => if 12 < depth then .obj ms else .obj (maskMembers (depth + 1) ms)
  | .str s => if 12 < depth then .str s else .str (scrubPci s)
  | .null => .null
  | .bool b => .bool b
  | .num x => .num x

def maskElements (depth : ℕ) : List (Value ν) → List (Value ν)
  | [] => []
  | x :: xs => maskJson depth x :: maskElements depth xs

def maskMembers (depth : ℕ) : List (JsString × Value ν) → List (JsString × Value ν)
  | [] => []
  | (key, v) :: ms =>
    if key = js "__proto__" then maskMembers depth ms
    else
      (key, if isSecretKey key then .str MASK
        else match v with
          | .str s => .str (scrubPci s)
          | v => maskJson depth v) :: maskMembers depth ms

end

variable (F : NumberFormat ν)

def maskBody (text : Option JsString) (maxBytes : ℕ) : Option JsString :=
  match text with
  | none => none
  | some [] => none
  | some text =>
    let clipped := if maxBytes < text.length then text.take maxBytes ++ js "…[truncated]" else text
    some (match parse F clipped with
      | some v => compact F (maskJson 0 v)
      | none => scrubPci (maskInlineSecrets clipped))

end CronMonitor.Masking
