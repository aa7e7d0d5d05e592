import CronMonitor.Lib.Utf16

/-!
# JSON texts

`text` is `JSON.stringify(v, null, 2)` and `parse` is `JSON.parse`. The numbers are a type of their own with the text of a
number and the value of a number token; of an object the member list is kept, in which the last member of a name counts.
-/

namespace Json
open Utf16

section Numbers

def isDigit (c : UInt16) : Bool := 0x30 ≤ c.toNat && c.toNat ≤ 0x39

/-- The units of number tokens: digits, `+`, `-`, `.`, `E` and `e`. -/
def isNumeric (c : UInt16) : Bool := isDigit c || c ∈ [0x2B, 0x2D, 0x2E, 0x45, 0x65]

/-- At least one digit, and what follows the digits. -/
def digits : JsString → Option JsString
  | [] => none
  | c :: s => if isDigit c then some (s.dropWhile isDigit) else none

def integerPart : JsString → Option JsString
  | [] => none
  | c :: s => if c = 0x30 then some s else digits (c :: s)

def fractionPart : JsString → Option JsString
  | [] => some []
  | c :: s => if c = 0x2E then digits s else some (c :: s)

def sign : JsString → JsString
  | [] => []
  | c :: s => if c = 0x2B || c = 0x2D then s else c :: s

def exponentPart : JsString → Option JsString
  | [] => some []
  | c :: s => if c = 0x45 || c = 0x65 then digits (sign s) else some (c :: s)

def minus : JsString → JsString
  | [] => []
  | c :: s => if c = 0x2D then s else c :: s

/-- A number token of the JSON grammar. -/
def isNumber (s : JsString) : Bool :=
  s.all isNumeric && (integerPart (minus s)).bind (fun s => (fractionPart s).bind exponentPart) = some []

end Numbers

/-- How numbers are written (`String(x)`) and read; `0` and `-0` are one number, as `===` has it. -/
structure NumberFormat (ν : Type) where
  text : ν → JsString
  read : JsString → ν
  finite : ν → Bool
  ofNat : Nat → ν
  isNumber_text : ∀ x, finite x → isNumber (text x)
  read_text : ∀ x, finite x → read (text x) = x
  finite_ofNat : ∀ n, finite (ofNat n)

inductive Value (ν : Type)
  | null
  | bool (b : Bool)
  | num (x : ν)
  | str (s : JsString)
  | arr (elements : List (Value ν))
  | obj (members : List (JsString × Value ν))

variable {ν : Type}

/-- The member of an object; anything else has none. -/
def Value.get? (key : JsString) : Value ν → Option (Value ν)
  | .obj members => (members.reverse.find? (·.1 = key)).map Prod.snd
  | _ => none

section Quote

def hexDigit (n : Nat) : UInt16 := UInt16.ofNat (if n < 10 then 0x30 + n else 0x57 + n)

def hex4 (n : Nat) : JsString := [hexDigit (n / 0x1000), hexDigit (n / 0x100 % 16), hexDigit (n / 16 % 16), hexDigit (n % 16)]

/-- The units with a two-unit escape: `\b \t \n \f \r \" \\`. -/
def shortEscape (c : UInt16) : Option UInt16 :=
  if c = 0x08 then some 0x62
  else if c = 0x09 then some 0x74
  else if c = 0x0A then some 0x6E
  else if c = 0x0C then some 0x66
  else if c = 0x0D then some 0x72
  else if c = 0x22 then some 0x22
  else if c = 0x5C then some 0x5C
  else none

def quoteUnit (c : UInt16) : JsString :=
  match shortEscape c with
  | some e => [0x5C, e]
  | none => if c.toNat < 0x20 || isSurrogate c then 0x5C :: 0x75 :: hex4 c.toNat else [c]

def quoteBody : JsString → JsString
  | [] => []
  | [c] => quoteUnit c
  | c :: d :: s => if isHigh c && isLow d then c :: d :: quoteBody s else quoteUnit c ++ quoteBody (d :: s)

/-- `JSON.stringify` of a string. -/
def quote (s : JsString) : JsString := 0x22 :: (quoteBody s ++ [0x22])

end Quote

section Text

variable (F : NumberFormat ν)

def indent (k : Nat) : JsString := 0x0A :: List.replicate (2 * k) 0x20

mutual

/-- The text of a value whose line is indented by `k` steps. -/
def textAt (k : Nat) : Value ν → JsString
  | .null => js "null"
  | .bool b => js (if b then "true" else "false")
  | .num x => if F.finite x then F.text x else js "null"
  | .str s => quote s
  | .arr [] => [0x5B, 0x5D]
  | .arr (x :: xs) => 0x5B :: (indent (k + 1) ++ textAt (k + 1) x ++ textElements (k + 1) xs ++ indent k ++ [0x5D])
  | .obj [] => [0x7B, 0x7D]
  | .obj ((key, v) :: ms) =>
    0x7B :: (indent (k + 1) ++ quote key ++ [0x3A, 0x20] ++ textAt (k + 1) v ++ textMembers (k + 1) ms ++ indent k ++ [0x7D])

def textElements (k : Nat) : List (Value ν) → JsString
  | [] => []
  | x :: xs => 0x2C :: (indent k ++ textAt k x ++ textElements k xs)

def textMembers (k : Nat) : List (JsString × Value ν) → JsString
  | [] => []
  | (key, v) :: ms => 0x2C :: (indent k ++ quote key ++ [0x3A, 0x20] ++ textAt k v ++ textMembers k ms)

end

/-- `JSON.stringify(v, null, 2)`. -/
def text (v : Value ν) : JsString := textAt F 0 v

mutual

/-- What the text keeps of a value: a number that is not finite is written as `null`. -/
def settle : Value ν → Value ν
  | .num x => if F.finite x then .num x else .null
  | .arr xs => .arr (settleElements xs)
  | .obj ms => .obj (settleMembers ms)
  | .null => .null
  | .bool b => .bool b
  | .str s => .str s

def settleElements : List (Value ν) → List (Value ν)
  | [] => []
  | x :: xs => settle x :: settleElements xs

def settleMembers : List (JsString × Value ν) → List (JsString × Value ν)
  | [] => []
  | (key, v) :: ms => (key, settle v) :: settleMembers ms

end

end Text

section Parse

def isWs (c : UInt16) : Bool := c = 0x20 || c = 0x09 || c = 0x0A || c = 0x0D

def skipWs (s : JsString) : JsString := s.dropWhile isWs

def hexValue (c : UInt16) : Option Nat :=
  if isDigit c then some (c.toNat - 0x30)
  else if 0x61 ≤ c.toNat && c.toNat ≤ 0x66 then some (c.toNat - 0x57)
  else if 0x41 ≤ c.toNat && c.toNat ≤ 0x46 then some (c.toNat - 0x37)
  else none

def readHex4 (a b c d : UInt16) : Option UInt16 := do
  let a ← hexValue a
  let b ← hexValue b
  let c ← hexValue c
  let d ← hexValue d
  some (UInt16.ofNat (((a * 16 + b) * 16 + c) * 16 + d))

def unescape (e : UInt16) : Option UInt16 :=
  if e = 0x62 then some 0x08
  else if e = 0x74 then some 0x09
  else if e = 0x6E then some 0x0A
  else if e = 0x66 then some 0x0C
  else if e = 0x72 then some 0x0D
  else if e = 0x22 || e = 0x5C || e = 0x2F then some e
  else none

/-- A string after its opening quote, and what follows its closing quote. -/
def string : JsString → Option (JsString × JsString)
  | [] => none
  | c :: s =>
    if c = 0x22 then some ([], s)
    else if c = 0x5C then
      match s with
      | [] => none
      | e :: s =>
        if e = 0x75 then
          match s with
          | a :: b :: c :: d :: s => (readHex4 a b c d).bind fun u => (string s).map fun p => (u :: p.1, p.2)
          | _ => none
        else (unescape e).bind fun u => (string s).map fun p => (u :: p.1, p.2)
    else if c.toNat < 0x20 then none
    else (string s).map fun p => (c :: p.1, p.2)

/-- What follows the word at the beginning of a text. -/
def word (w s : JsString) : Option JsString := if w.isPrefixOf s then some (s.drop w.length) else none

variable (F : NumberFormat ν)

def number (s : JsString) : Option (Value ν × JsString) :=
  if isNumber (s.takeWhile isNumeric) then some (.num (F.read (s.takeWhile isNumeric)), s.dropWhile isNumeric) else none

def name (s : JsString) : Option (JsString × JsString) :=
  match skipWs s with
  | [] => none
  | c :: s => if c = 0x22 then string s else none

def colon (s : JsString) : Option JsString :=
  match skipWs s with
  | [] => none
  | c :: s => if c = 0x3A then some s else none

mutual

/-- A value at the beginning of a text; the fuel bounds the number of units read. -/
def value : Nat → JsString → Option (Value ν × JsString)
  | 0, _ => none
  | n + 1, s =>
    match skipWs s with
    | [] => none
    | c :: s =>
      if c = 0x22 then (string s).map fun p => (.str p.1, p.2)
      else if c = 0x5B then
        if (skipWs s).head? = some 0x5D then some (.arr [], (skipWs s).tail)
        else (value n s).bind fun p => (elements n p.2).map fun q => (.arr (p.1 :: q.1), q.2)
      else if c = 0x7B then
        if (skipWs s).head? = some 0x7D then some (.obj [], (skipWs s).tail)
        else (name s).bind fun p => (colon p.2).bind fun s => (value n s).bind fun q =>
          (members n q.2).map fun q' => (.obj ((p.1, q.1) :: q'.1), q'.2)
      else if c = 0x6E then (word (js "null") (c :: s)).map fun s => (.null, s)
      else if c = 0x74 then (word (js "true") (c :: s)).map fun s => (.bool true, s)
      else if c = 0x66 then (word (js "false") (c :: s)).map fun s => (.bool false, s)
      else number F (c :: s)

/-- The rest of an array after its first element. -/
def elements : Nat → JsString → Option (List (Value ν) × JsString)
  | 0, _ => none
  | n + 1, s =>
    match skipWs s with
    | [] => none
    | c :: s =>
      if c = 0x5D then some ([], s)
      else if c = 0x2C then (value n s).bind fun p => (elements n p.2).map fun q => (p.1 :: q.1, q.2)
      else none

/-- The rest of an object after its first member. -/
def members : Nat → JsString → Option (List (JsString × Value ν) × JsString)
  | 0, _ => none
  | n + 1, s =>
    match skipWs s with
    | [] => none
    | c :: s =>
      if c = 0x7D then some ([], s)
      else if c = 0x2C then
        (name s).bind fun p => (colon p.2).bind fun s => (value n s).bind fun q =>
          (members n q.2).map fun q' => ((p.1, q.1) :: q'.1, q'.2)
      else none

end

/-- `JSON.parse`; `none` is its `SyntaxError`. -/
def parse (s : JsString) : Option (Value ν) :=
  (value F (s.length + 1) s).bind fun p => if skipWs p.2 = [] then some p.1 else none

end Parse

end Json
