import CronMonitor.Domain

/-!
# `ssrf.ts`

What a URL and an address are is Node's business: `UrlApi` holds `new URL`, `searchParams` and `isIP`, with what is
documented of them. `resolve` is the name service at the time of the call.
-/

namespace CronMonitor.HealthCheck

/-- What `ssrf.ts` reads of a URL. -/
structure Url where
  protocol : String
  hostname : String
deriving DecidableEq, Repr

inductive IpKind
  | v4 | v6
deriving DecidableEq, Repr

structure UrlApi where
  parse : String → Option Url
  /-- `searchParams.set` for each parameter, and `toString`. -/
  setParams : String → List (String × String) → Option String
  isIP : String → Option IpKind
  /-- Parameters leave the rest of a URL alone. -/
  parse_setParams : ∀ base query url, setParams base query = some url → parse url = parse base

def digits (cs : List Char) : Nat := cs.foldl (fun n c => 10 * n + (c.toNat - '0'.toNat)) 0

def ipv4ToInt (ip : String) : Nat :=
  ((ip.toList.splitOn '.').map digits).foldl (fun n part => 256 * n + part) 0

/-- The first `maskBits` bits are the same. -/
def inCidr (ip base : String) (maskBits : Nat) : Bool :=
  ipv4ToInt ip >>> (32 - maskBits) = ipv4ToInt base >>> (32 - maskBits)

def BLOCKED_V4 : List (String × Nat) :=
  [("0.0.0.0", 8), ("10.0.0.0", 8), ("100.64.0.0", 10), ("127.0.0.0", 8), ("169.254.0.0", 16), ("172.16.0.0", 12),
    ("192.0.0.0", 24), ("192.168.0.0", 16), ("198.18.0.0", 15), ("224.0.0.0", 4), ("240.0.0.0", 4)]

def startsWith (s pre : String) : Bool := pre.toList.isPrefixOf s.toList

def endsWith (s suffix : String) : Bool := suffix.toList.isSuffixOf s.toList

/-- The address in `^::ffff:(\d+\.\d+\.\d+\.\d+)$`. -/
def mappedV4 (v : String) : Option String :=
  if startsWith v "::ffff:" then
    let rest := v.toList.drop 7
    let parts := rest.splitOn '.'
    if parts.length = 4 && parts.all fun p => p ≠ [] && p.all Char.isDigit then some (String.ofList rest) else none
  else none

variable (api : UrlApi)

def isBlockedV4 (ip : String) : Bool := BLOCKED_V4.any fun b => inCidr ip b.1 b.2

def isBlockedIp (ip : String) : Bool :=
  match api.isIP ip with
  | some .v4 => isBlockedV4 ip
  | some .v6 =>
    let v := ip.toLower
    v = "::1" || v = "::" || v = "::ffff:0:0" || startsWith v "fe80" || startsWith v "fc" || startsWith v "fd" ||
      -- four numbers and dots are no IPv6 address
      (mappedV4 v).any fun mapped => api.isIP mapped = some .v4 && isBlockedV4 mapped
  | none => false

/-- The reason when it throws. -/
def assertUrlAllowed (resolve : String → Option (List String)) (rawUrl : String) (allowPrivateNetwork : Bool) :
    Except String Unit :=
  match api.parse rawUrl with
  | none => .error "not a valid URL"
  | some url =>
    if url.protocol ≠ "http:" ∧ url.protocol ≠ "https:" then .error s!"unsupported protocol \"{url.protocol}\""
    else
      let host := url.hostname.toLower
      if allowPrivateNetwork then .ok ()
      else if host = "localhost" || endsWith host ".localhost" || endsWith host ".internal" then
        .error s!"hostname \"{host}\" is internal"
      else
        match if (api.isIP host).isSome then some [host] else resolve host with
        | none => .error s!"could not resolve \"{host}\""
        | some [] => .error s!"\"{host}\" resolved to no addresses"
        | some addresses =>
          match addresses.find? (isBlockedIp api) with
          | some addr => .error s!"resolves to blocked address {addr}"
          | none => .ok ()

end CronMonitor.HealthCheck
