import Ren2Hub.Service.SsrfProtection

namespace Ren2Hub.Service
open Lib

/-- Of a URL what decides where a request goes; `host` may have a port. -/
structure NetURL where
  scheme : String
  host : String

namespace NetURL

/-- How `net/url` splits the host; a colon counts only before digits. -/
def splitHost (u : NetURL) : List Char × List Char :=
  let (host, port) := match cutLastColon u.host.toList with
    | some (host, port) => if port.all Char.isDigit then (host, port) else (u.host.toList, [])
    | none => (u.host.toList, [])
  match host with
  | '[' :: inner =>
    if inner.getLast? = some ']' then (inner.dropLast, port) else (host, port)
  | _ => (host, port)

def hostname (u : NetURL) : String := String.ofList u.splitHost.1

def port (u : NetURL) : String := String.ofList u.splitHost.2

end NetURL

/-- Reading and writing URLs and the ASCII form of names, whatever they do. -/
structure Texts where
  parse : String → Option NetURL
  text : NetURL → String
  idnaASCII : String → Option String

variable (t : Texts)

/-- The address the transport dials for a URL. -/
def canonicalAddr (u : NetURL) : String :=
  let host := (t.idnaASCII u.hostname).getD u.hostname
  let port := if u.port ≠ "" then u.port
    else if u.scheme = "http" then "80" else if u.scheme = "https" then "443" else ""
  joinHostPort host port

/-- `answer` is what the lookup of the host gives, if one is made. -/
def SSRFProtection.validateURL (p : SSRFProtection) (urlStr : String) (answer : Option (List IP)) :
    Except Refusal Unit :=
  match t.parse urlStr with
  | none => .error .invalidURL
  | some u =>
    if u.scheme ≠ "http" ∧ u.scheme ≠ "https" then .error (.unsupportedProtocol u.scheme)
    else
      let (host, portStr) := (splitHostPort u.host).getD
        (u.hostname, if u.scheme = "https" then "443" else "80")
      match atoi portStr with
      | none => .error (.invalidPort portStr)
      | some port => do
        p.validateNetworkTarget host port
        if (parseIP host).isSome ∨ p.applyIPFilterForDomain = false then return
        match answer with
        | none => throw (.lookupFailed host)
        | some ips => ips.forM (p.validateResolvedIP host)

variable (s : FetchSetting)

def validateSSRFProtectedFetchURL (urlStr : String) (answer : Option (List IP)) :
    Except Refusal Unit :=
  if s.enableSSRFProtection then do
    let p ← newSSRFProtectionFromFetchSetting s
    p.validateURL t urlStr answer
  else .ok ()

/-- `none` when protection is off. -/
def currentFetchProtection : Except Refusal (Option SSRFProtection) :=
  if s.enableSSRFProtection then some <$> newSSRFProtectionFromFetchSetting s else .ok none

/-- What the network dialer is given: an address, or a text it resolves itself. -/
inductive Target where
  | literal (ip : IP) (port : String)
  | unresolved (addr : String)
deriving DecidableEq, Repr

/-- A connection that is tried, with the host it is for. -/
structure Attempt where
  host : String
  target : Target
deriving DecidableEq, Repr

/-- What the resolver answers, maybe entries without an address, and which connections come about.
-/
structure Dial where
  network : String := "tcp"
  answer : Option (List (Option IP))
  connects : Target → Bool

def networkAllowsIP (network : String) (ip : IP) : Bool :=
  if network = "tcp4" then ip.to4.isSome
  else if network = "tcp6" then ip.to4.isNone
  else true

/-- The addresses to try; one that is not allowed refuses them all. -/
def SSRFProtection.candidateIPs (p : SSRFProtection) (network host : String) :
    List (Option IP) → Except Refusal (List IP)
  | [] => .ok []
  | none :: resolved => p.candidateIPs network host resolved
  | some ip :: resolved =>
    if networkAllowsIP network ip = false then p.candidateIPs network host resolved
    else do
      p.validateResolvedIP host ip
      let ips ← p.candidateIPs network host resolved
      return ip :: ips

def tried (connects : Target → Bool) : List Target → List Target
  | [] => []
  | target :: rest => if connects target then [target] else target :: tried connects rest

def protectedDial (p : SSRFProtection) (addr : String) (d : Dial) :
    List Attempt × Except Refusal Target :=
  let dialAll (host : String) (targets : List Target) : List Attempt × Except Refusal Target :=
    ((tried d.connects targets).map (⟨host, ·⟩),
      match targets.find? d.connects with
      | some target => .ok target
      | none => .error (if targets = [] then .noUsableAddress host else .dialFailed))
  match splitHostPort addr with
  | none => ([], .error (.invalidDialAddress addr))
  | some (host, portText) =>
    match atoi portText with
    | none => ([], .error (.invalidPort portText))
    | some port =>
      match p.validateNetworkTarget host port with
      | .error e => ([], .error e)
      | .ok () =>
        match parseIP host with
        | some ip => dialAll host [.literal ip portText]
        | none =>
          if p.applyIPFilterForDomain = false then dialAll host [.unresolved addr]
          else
            match d.answer with
            | none => ([], .error (.lookupFailed host))
            | some resolved =>
              match p.candidateIPs d.network host resolved with
              | .error e => ([], .error e)
              | .ok ips => dialAll host (ips.map (.literal · portText))

def dialContext (addr : String) (d : Dial) : List Attempt × Except Refusal Target :=
  match currentFetchProtection s with
  | .error e => ([], .error e)
  | .ok none =>
    ([⟨addr, .unresolved addr⟩],
      if d.connects (.unresolved addr) then .ok (.unresolved addr) else .error .dialFailed)
  | .ok (some p) => protectedDial p addr d

/-- What its URL resolves to when checked as the target of a redirect and when sent, and its dials,
none if a connection is reused. -/
structure Hop where
  url : NetURL
  redirectLookup : Option (List IP) := none
  lookup : Option (List IP) := none
  dials : List Dial := []

def roundTrip (hop : Hop) : List Attempt × Except Refusal Unit :=
  match validateSSRFProtectedFetchURL t s (t.text hop.url) hop.lookup with
  | .error e => ([], .error e)
  | .ok () => (hop.dials.flatMap fun d => (dialContext s (canonicalAddr t hop.url) d).1, .ok ())

def checkProtectedFetchRedirect (hop : Hop) (via : Nat) : Except Refusal Unit :=
  match validateSSRFProtectedFetchURL t s (t.text hop.url) hop.redirectLookup with
  | .error e => .error (.redirectBlocked e)
  | .ok () => if via ≥ 10 then .error .tooManyRedirects else .ok ()

/-- The connections tried while redirects are followed, after `via` requests. -/
def followRedirects (t : Texts) (s : FetchSetting) : (via : Nat) → List Hop → List Attempt
  | _, [] => []
  | via, hop :: hops =>
    match checkProtectedFetchRedirect t s hop via with
    | .error _ => []
    | .ok () =>
      match roundTrip t s hop with
      | (attempts, .ok ()) => attempts ++ followRedirects t s (via + 1) hops
      | (attempts, .error _) => attempts

def fetch : List Hop → List Attempt
  | [] => []
  | hop :: hops =>
    match roundTrip t s hop with
    | (attempts, .ok ()) => attempts ++ followRedirects t s 1 hops
    | (attempts, .error _) => attempts

end Ren2Hub.Service
