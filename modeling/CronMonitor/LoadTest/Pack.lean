import CronMonitor.Domain
import CronMonitor.Lib.Calendar
import CronMonitor.Lib.JsonRoundTrip
import CronMonitor.Lib.OrderedMap

/-!
# Evidence packs

`loadtest/compliance/pack.ts`: how a pack is put together and how it is checked. Strings are lists of code units, and the
JSON text of the manifest is written and read by `Lib/Json.lean`. The zip library, SHA-256 and the locale's order of
strings are parameters (`Platform`).
-/

namespace CronMonitor.LoadTest.Pack
open Utf16

variable {ν α : Type}

def PACK_SCHEMA : JsString := js "ismartpay-loadtest-evidence-pack/1"

def MANIFEST : JsString := js "manifest.json"

def SUMS : JsString := js "SHA256SUMS"

def README : JsString := js "README.txt"

/-- The one name that an assignment to an object does not make an entry of: it sets the prototype. -/
def PROTO : JsString := js "__proto__"

/-- A `Record<string, …>` built by assignments. -/
structure Entries where
  map : OrderedMap JsString Bytes
  no_proto : PROTO ∉ map.keys

namespace Entries

def empty : Entries := ⟨OrderedMap.empty, List.not_mem_nil⟩

/-- `Object.keys`. -/
def keys (e : Entries) : List JsString := e.map.keys

def get? (e : Entries) (path : JsString) : Option Bytes := e.map.get? path

theorem proto_not_mem_keys_set {m : OrderedMap JsString Bytes} (hm : PROTO ∉ m.keys) {path : JsString}
    (h : path ≠ PROTO) (data : Bytes) : PROTO ∉ (m.set path data).keys := by
  by_cases hp : path ∈ m.keys
  · rw [OrderedMap.keys_set_of_mem hp]
    exact hm
  · rw [OrderedMap.keys_set_of_not_mem hp]
    intro hmem
    rcases List.mem_append.1 hmem with hmem | hmem
    · exact hm hmem
    · exact h (List.mem_singleton.1 hmem).symm

/-- `entries[path] = data`. -/
def set (e : Entries) (path : JsString) (data : Bytes) : Entries :=
  if h : path = PROTO then e else ⟨e.map.set path data, proto_not_mem_keys_set e.no_proto h data⟩

end Entries

/-- `fflate`. The time is every entry's; `zipSync` throws for times that the format cannot hold. -/
structure ZipLibrary (α : Type) where
  zipSync : Entries → Time → Except JsString α
  unzipSync : α → Except JsString Entries
  bytes : α → Bytes
  unzipSync_zipSync : ∀ tree mtime zip, zipSync tree mtime = .ok zip → unzipSync zip = .ok tree

def isLowerHex (c : UInt16) : Bool := Json.isDigit c || 0x61 ≤ c.toNat && c.toNat ≤ 0x66

structure Platform (ν α : Type) where
  numbers : Json.NumberFormat ν
  zip : ZipLibrary α
  /-- `createHash('sha256').update(data).digest('hex')`. -/
  sha256 : Bytes → JsString
  length_sha256 : ∀ data, (sha256 data).length = 64
  isLowerHex_sha256 : ∀ data, (sha256 data).all isLowerHex
  localeCompare : JsString → JsString → Int

inductive Data
  | text (s : JsString)
  | bytes (b : Bytes)

structure PackFile where
  path : JsString
  data : Data

structure SourceRun where
  kind : JsString
  id : JsString
  finishedAt : Option JsString
  environment : JsString
  isReal : Bool

structure ManifestFile where
  path : JsString
  bytes : Nat
  sha256 : JsString

structure Target where
  id : JsString
  name : JsString
  host : JsString

/-- The manifest. `coverage` is `none` when it is a value that JSON leaves out. -/
structure PackManifest (ν : Type) where
  schema : JsString
  packId : JsString
  generatedAt : JsString
  generatedBy : JsString
  toolVersion : JsString
  libraryVersion : JsString
  target : Target
  basis : JsString
  disclaimer : JsString
  sourceRuns : List SourceRun
  coverage : Option (Json.Value ν)
  files : List ManifestFile

structure AssembleInput (ν : Type) where
  packId : JsString
  generatedAt : Time
  generatedBy : JsString
  toolVersion : JsString
  libraryVersion : JsString
  target : Target
  basis : JsString
  disclaimer : JsString
  sourceRuns : List SourceRun
  coverage : Option (Json.Value ν)
  files : List PackFile

structure AssembledPack (ν α : Type) where
  zip : α
  manifest : PackManifest ν
  manifestSha256 : JsString
  zipSha256 : JsString
  fileCount : Nat

def bytesOf : Data → Bytes
  | .text s => encode s
  | .bytes b => b

def isUnsafePath (path : JsString) : Bool :=
  path = [] || path.head? = some 0x2F || 0x5C ∈ path ||
    (path.splitOn 0x2F).any fun p => p = js ".." || p = [] || p = js "."

/-- Reject paths that could escape the extraction directory ("zip slip") or collide. -/
def assertSafePath (path : JsString) : Except JsString Unit :=
  if isUnsafePath path then .error (js "Unsafe pack path: " ++ Json.quote path) else .ok ()

section Manifest

/-- A number with at least so many digits. -/
def padded (width n : Nat) : JsString := js (String.ofList (List.replicate (width - (Nat.toDigits 10 n).length) '0' ++ Nat.toDigits 10 n))

/-- `Date.prototype.toISOString`. -/
def toISOString (t : Time) : JsString :=
  let day := t / 86400000
  let ms := (t % 86400000).toNat
  let month := Calendar.monthOf day
  let year := month / 12
  (if 0 ≤ year ∧ year ≤ 9999 then padded 4 year.toNat
    else (if year < 0 then js "-" else js "+") ++ padded 6 year.natAbs) ++ js "-" ++
  padded 2 (month % 12 + 1).toNat ++ js "-" ++ padded 2 (day - Calendar.dayFromMonth month + 1).toNat ++ js "T" ++
  padded 2 (ms / 3600000) ++ js ":" ++ padded 2 (ms / 60000 % 60) ++ js ":" ++ padded 2 (ms / 1000 % 60) ++ js "." ++
  padded 3 (ms % 1000) ++ js "Z"

def readmeText (m : PackManifest ν) : JsString :=
  js "EVIDENCE PACK " ++ m.packId ++ js "\nTarget: " ++ m.target.name ++ js " (" ++ m.target.host ++
  js ")\nGenerated: " ++ m.generatedAt ++ js " by " ++ m.generatedBy ++
  js "\nControl library: " ++ m.libraryVersion ++ js "   Evidence basis: " ++ m.basis ++
  js "\n\nREAD THIS FIRST\n" ++ m.disclaimer ++
  js "\n\nWHAT IS INSIDE
  assessment/      the compliance matrix (HTML, XLSX, CSV, JSON), the control library and reviewer sign-offs
  reports/         the test reports the matrix is built from (JSON for machines, HTML for people)
  evidence/        the per-call evidence log (method, path, status, Request-Id, reference — never bodies or secrets)
  manifest.json    every file with its size and SHA-256, plus the source runs
  SHA256SUMS       the same hashes in the standard format

HOW TO CHECK THAT NOTHING WAS CHANGED
  1. Unzip, then run:   shasum -a 256 -c SHA256SUMS      (every line must say OK)
  2. Or:                npm run verify:evidence-pack -- <this-file>.zip
  3. Compute the manifest hash:   shasum -a 256 manifest.json
     and ask the issuer to confirm it was recorded when this pack was generated.
     The issuer keeps the hash in an append-only table; a pack that was edited after
     issue will not match any recorded hash.
"

def SourceRun.toJson (r : SourceRun) : Json.Value ν :=
  .obj [(js "kind", .str r.kind), (js "id", .str r.id),
    (js "finishedAt", match r.finishedAt with | some t => .str t | none => .null),
    (js "environment", .str r.environment), (js "isReal", .bool r.isReal)]

def ManifestFile.toJson (F : Json.NumberFormat ν) (f : ManifestFile) : Json.Value ν :=
  .obj [(js "path", .str f.path), (js "bytes", .num (F.ofNat f.bytes)), (js "sha256", .str f.sha256)]

def PackManifest.toJson (F : Json.NumberFormat ν) (m : PackManifest ν) : Json.Value ν :=
  .obj ([(js "schema", .str m.schema), (js "packId", .str m.packId), (js "generatedAt", .str m.generatedAt),
    (js "generatedBy", .str m.generatedBy), (js "toolVersion", .str m.toolVersion),
    (js "libraryVersion", .str m.libraryVersion),
    (js "target", .obj [(js "id", .str m.target.id), (js "name", .str m.target.name), (js "host", .str m.target.host)]),
    (js "basis", .str m.basis), (js "disclaimer", .str m.disclaimer),
    (js "sourceRuns", .arr (m.sourceRuns.map SourceRun.toJson))] ++
    (m.coverage.map fun c => (js "coverage", c)).toList ++
    [(js "files", .arr (m.files.map (ManifestFile.toJson F)))])

end Manifest

section Assemble

variable (P : Platform ν α)

/-- `[...list].sort((a, b) => a.path.localeCompare(b.path))`. -/
def sortByPath {β : Type} (path : β → JsString) (list : List β) : List β :=
  list.mergeSort fun a b => P.localeCompare (path a) (path b) ≤ 0

/-- The paths that a pack refuses. -/
def checkFiles : List JsString → List PackFile → Except JsString Unit
  | _, [] => .ok ()
  | seen, f :: files => do
    assertSafePath f.path
    if f.path = MANIFEST ∨ f.path = SUMS then throw (f.path ++ js " is reserved")
    if f.path ∈ seen then throw (js "Duplicate pack path: " ++ f.path)
    checkFiles (seen ++ [f.path]) files

def manifestBase (input : AssembleInput ν) : PackManifest ν where
  schema := PACK_SCHEMA
  packId := input.packId
  generatedAt := toISOString input.generatedAt
  generatedBy := input.generatedBy
  toolVersion := input.toolVersion
  libraryVersion := input.libraryVersion
  target := input.target
  basis := input.basis
  disclaimer := input.disclaimer
  sourceRuns := input.sourceRuns
  coverage := input.coverage
  files := []

/-- The files of the pack beside `manifest.json` and `SHA256SUMS`. -/
def withReadme (input : AssembleInput ν) : List PackFile :=
  sortByPath P PackFile.path
    (sortByPath P PackFile.path input.files ++ [⟨README, .text (readmeText (manifestBase input))⟩])

def manifestFile (f : PackFile) : ManifestFile := ⟨f.path, (bytesOf f.data).length, P.sha256 (bytesOf f.data)⟩

def manifestOf (input : AssembleInput ν) : PackManifest ν :=
  { manifestBase input with files := (withReadme P input).map (manifestFile P) }

def manifestBytes (input : AssembleInput ν) : Bytes :=
  encode (Json.text P.numbers ((manifestOf P input).toJson P.numbers) ++ js "\n")

/-- The lines of `SHA256SUMS`: digest and path. -/
def sumLines (input : AssembleInput ν) : List (JsString × JsString) :=
  sortByPath P Prod.snd
    ((manifestOf P input).files.map (fun f => (f.sha256, f.path)) ++ [(P.sha256 (manifestBytes P input), MANIFEST)])

def sumsText (input : AssembleInput ν) : JsString :=
  [0x0A].intercalate ((sumLines P input).map fun l => l.1 ++ js "  " ++ l.2) ++ js "\n"

def fileTree (files : List PackFile) : Entries :=
  files.foldl (fun t f => Entries.set t f.path (bytesOf f.data)) Entries.empty

def tree (input : AssembleInput ν) : Entries :=
  ((fileTree (withReadme P input)).set MANIFEST (manifestBytes P input)).set SUMS (encode (sumsText P input))

/-- Builds the deterministic zip. Paths are sorted; entry times are fixed to generatedAt. -/
def assemblePack (input : AssembleInput ν) : Except JsString (AssembledPack ν α) := do
  checkFiles [] input.files
  let zip ← P.zip.zipSync (tree P input) input.generatedAt
  return {
    zip
    manifest := manifestOf P input
    manifestSha256 := P.sha256 (manifestBytes P input)
    zipSha256 := P.sha256 (P.zip.bytes zip)
    fileCount := (manifestOf P input).files.length + 2
  }

end Assemble

end CronMonitor.LoadTest.Pack
