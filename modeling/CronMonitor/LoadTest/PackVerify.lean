import CronMonitor.LoadTest.Pack

/-!
# Checking an evidence pack

`verifyPack` of `loadtest/compliance/pack.ts`, and `verifyUploadedPack` of `services/loadtest/compliance.service.ts` with
the append-only table of the packs that were issued. `verifyPack` is `none` where it throws a `TypeError`: a manifest may
be any JSON, so a listed file may be `null` or name a member that every object inherits.
-/

namespace CronMonitor.LoadTest.Pack
open Utf16

variable {ν α : Type}

/-- The names that every object inherits. What stands there is no data, and hashing it throws. -/
def objectMembers : List JsString :=
  ["__proto__", "constructor", "hasOwnProperty", "isPrototypeOf", "propertyIsEnumerable", "toLocaleString", "toString",
    "valueOf", "__defineGetter__", "__defineSetter__", "__lookupGetter__", "__lookupSetter__"].map js

inductive Found
  | missing
  | inherited
  | data (b : Bytes)

/-- `entries[path]`. -/
def Entries.lookup (e : Entries) (path : JsString) : Found :=
  match e.get? path with
  | some b => .data b
  | none => if path ∈ objectMembers then .inherited else .missing

section Text

variable (F : Json.NumberFormat ν)

mutual

/-- `String(v)`; it throws for an object with a member `toString`, which is no function. -/
def textOf : Json.Value ν → Option JsString
  | .null => some (js "null")
  | .bool b => some (js (if b then "true" else "false"))
  | .num x => some (F.text x)
  | .str s => some s
  | .arr xs => (textsOf xs).map [0x2C].intercalate
  | .obj ms => if ms.any (·.1 = js "toString") then none else some (js "[object Object]")

/-- The texts that `join` puts together: none of `null`. -/
def textsOf : List (Json.Value ν) → Option (List JsString)
  | [] => some []
  | x :: xs => do
    let t ← textOf x
    let ts ← textsOf xs
    some ((match x with | .null => [] | _ => t) :: ts)

end

/-- `String` of what a member holds, which may be missing. -/
def textOf? : Option (Json.Value ν) → Option JsString
  | none => some (js "undefined")
  | some v => textOf F v

end Text

/-- Whether two keys are one key of a `Map`: objects are only equal to themselves. -/
def sameKey [DecidableEq ν] : Option (Json.Value ν) → Option (Json.Value ν) → Bool
  | none, none => true
  | some .null, some .null => true
  | some (.bool b), some (.bool b') => b = b'
  | some (.num x), some (.num y) => x = y
  | some (.str s), some (.str t) => s = t
  | _, _ => false

/-- `map.set(key, v)`. -/
def putKey [DecidableEq ν] (m : List (Option (Json.Value ν) × Option (Json.Value ν)))
    (key v : Option (Json.Value ν)) : List (Option (Json.Value ν) × Option (Json.Value ν)) :=
  if m.any fun e => sameKey key e.1 then m.map fun e => if sameKey key e.1 then (e.1, v) else e else m ++ [(key, v)]

structure VerifyResult (ν : Type) where
  ok : Bool
  manifestSha256 : Option JsString
  packId : Option (Json.Value ν)
  fileCount : Nat
  problems : List JsString
  manifest : Option (Json.Value ν)

section Problems

variable [DecidableEq ν] (P : Platform ν α)

def unsafePaths (e : Entries) : List JsString :=
  (e.keys.filter isUnsafePath).map fun p => js "Unsafe path in archive: " ++ Json.quote p

/-- `manifest.files`, when the manifest has the expected schema. -/
def listedFiles (manifest : Json.Value ν) : Option (List (Json.Value ν)) :=
  match manifest.get? (js "schema"), manifest.get? (js "files") with
  | some (.str schema), some (.arr files) => if schema = PACK_SCHEMA then some files else none
  | _, _ => none

/-- `data.length !== f.bytes`. -/
def sizeProblems (path : JsString) (data : Bytes) (bytes : Option (Json.Value ν)) : Option (List JsString) :=
  match bytes with
  | some (.num x) =>
    if x = P.numbers.ofNat data.length then some []
    else some [js "Size changed: " ++ path ++ js " (" ++ P.numbers.text x ++ js " → " ++
      P.numbers.text (P.numbers.ofNat data.length) ++ js ")"]
  | _ => do
    let t ← textOf? P.numbers bytes
    some [js "Size changed: " ++ path ++ js " (" ++ t ++ js " → " ++ P.numbers.text (P.numbers.ofNat data.length) ++ js ")"]

/-- `sha256(data) !== f.sha256`. -/
def contentProblems (path : JsString) (data : Bytes) (sha256 : Option (Json.Value ν)) : List JsString :=
  match sha256 with
  | some (.str h) => if P.sha256 data = h then [] else [js "Content changed: " ++ path]
  | _ => [js "Content changed: " ++ path]

def fileProblems (e : Entries) (f : Json.Value ν) : Option (List JsString) := do
  let path ← match f with
    | .null => none
    | _ => textOf? P.numbers (f.get? (js "path"))
  match e.lookup path with
  | .missing => some [js "Listed file is missing: " ++ path]
  | .inherited => none
  | .data b => do
    let size ← sizeProblems P path b (f.get? (js "bytes"))
    some (size ++ contentProblems P path b (f.get? (js "sha256")))

def listedProblems (e : Entries) : List (Json.Value ν) → Option (List JsString)
  | [] => some []
  | f :: files => do
    let here ← fileProblems P e f
    let rest ← listedProblems e files
    some (here ++ rest)

/-- `listed.has(path)`. -/
def isListed (files : List (Json.Value ν)) (path : JsString) : Bool :=
  files.any fun f => match f.get? (js "path") with | some (.str p) => p = path | _ => false

def unlistedFiles (e : Entries) (files : List (Json.Value ν)) : List JsString :=
  (e.keys.filter fun p => p ≠ MANIFEST && p ≠ SUMS && !isListed files p).map fun p => js "Unlisted file added: " ++ p

/-- What `.` matches in a regular expression. -/
def isDot (c : UInt16) : Bool := c ∉ [0x0A, 0x0D, 0x2028, 0x2029]

/-- `/^([0-9a-f]{64}) {2}(.+)$/`. -/
def matchLine (line : JsString) : Option (JsString × JsString) :=
  let path := line.drop 66
  if (line.take 64).length = 64 ∧ (line.take 64).all isLowerHex ∧ (line.drop 64).take 2 = js "  " ∧ path ≠ [] ∧
    path.all isDot then some (line.take 64, path) else none

/-- The lines of `SHA256SUMS`. -/
def sumsLines (sBytes : Bytes) : List JsString := ((decode sBytes).splitOn 0x0A).filter (· ≠ [])

def malformedLines (lines : List JsString) : List JsString :=
  (lines.filter fun l => (matchLine l).isNone).map fun l => js "Malformed SHA256SUMS line: " ++ l.take 80

/-- The digests by path; a later line of a path replaces an earlier one. -/
def gotDigests (lines : List JsString) : OrderedMap JsString JsString :=
  (lines.filterMap matchLine).foldl (fun m l => m.set l.2 l.1) .empty

def expectedDigests (files : List (Json.Value ν)) (manifestSha256 : JsString) :
    List (Option (Json.Value ν) × Option (Json.Value ν)) :=
  putKey (files.foldl (fun m f => putKey m (f.get? (js "path")) (f.get? (js "sha256"))) []) (some (.str MANIFEST))
    (some (.str manifestSha256))

/-- `got.get(key) === digest`. -/
def agrees (got : OrderedMap JsString JsString) (key digest : Option (Json.Value ν)) : Bool :=
  match (match key with | some (.str p) => got.get? p | _ => none), digest with
  | none, none => true
  | some h, some (.str h') => h = h'
  | _, _ => false

def disagreements (got : OrderedMap JsString JsString) :
    List (Option (Json.Value ν) × Option (Json.Value ν)) → Option (List JsString)
  | [] => some []
  | (key, digest) :: rest => do
    let here ← if agrees got key digest then some [] else (textOf? P.numbers key).map fun t => [js "SHA256SUMS disagrees for " ++ t]
    let others ← disagreements got rest
    some (here ++ others)

def unknownFiles (got : OrderedMap JsString JsString) (expected : List (Option (Json.Value ν) × Option (Json.Value ν))) :
    List JsString :=
  (got.keys.filter fun p => !expected.any fun e => sameKey (some (.str p)) e.1).map fun p =>
    js "SHA256SUMS lists an unknown file: " ++ p

def sumsProblems (files : List (Json.Value ν)) (manifestSha256 : JsString) (sBytes : Bytes) : Option (List JsString) := do
  let lines := sumsLines sBytes
  let expected := expectedDigests files manifestSha256
  let disagree ← disagreements P (gotDigests lines) expected
  some (malformedLines lines ++ disagree ++ unknownFiles (gotDigests lines) expected)

/-- Re-derives everything from the bytes: file hashes, sizes, the SHA256SUMS file and the manifest hash. -/
def verifyPack (zip : α) : Option (VerifyResult ν) :=
  match P.zip.unzipSync zip with
  | .error message => some ⟨false, none, some .null, 0, [js "Not a readable zip: " ++ message], none⟩
  | .ok entries =>
    let noSums := if (entries.get? SUMS).isNone then [js "SHA256SUMS is missing"] else []
    match entries.get? MANIFEST with
    | none =>
      some ⟨false, none, some .null, entries.keys.length,
        unsafePaths entries ++ [js "manifest.json is missing"] ++ noSums, none⟩
    | some mBytes =>
      let manifest := Json.parse P.numbers (decode mBytes)
      match manifest.bind listedFiles with
      | none =>
        some ⟨false, some (P.sha256 mBytes), some .null, entries.keys.length,
          unsafePaths entries ++ noSums ++ (if manifest.isNone then [js "manifest.json is not valid JSON"] else []) ++
            [js "manifest.json does not match the expected schema"], none⟩
      | some files => do
        let listed ← listedProblems P entries files
        let sums ← match entries.get? SUMS with
          | none => some []
          | some sBytes => sumsProblems P files (P.sha256 mBytes) sBytes
        let problems := unsafePaths entries ++ noSums ++ listed ++ unlistedFiles entries files ++ sums
        some ⟨problems.isEmpty, some (P.sha256 mBytes), manifest.bind (·.get? (js "packId")), entries.keys.length, problems,
          manifest⟩

end Problems

end CronMonitor.LoadTest.Pack
