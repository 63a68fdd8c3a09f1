import Ren2Hub.Lib.Net

namespace Ren2Hub.Service
open Lib

structure FetchSetting where
  enableSSRFProtection : Bool := true
  allowPrivateIp : Bool := false
  domainFilterMode : Bool := false
  ipFilterMode : Bool := false
  domainList : List String := []
  ipList : List String := []
  allowedPorts : List String := ["80", "443", "8080", "8443"]
  applyIPFilterForDomain : Bool := true

/-- A filter mode that is set makes its list a whitelist, else it is a blacklist. -/
structure SSRFProtection where
  allowPrivateIp : Bool
  domainFilterMode : Bool
  domainList : List String
  ipFilterMode : Bool
  ipList : List String
  allowedPorts : List Int
  applyIPFilterForDomain : Bool

inductive PortError where
  | rangeFormat (config : String)
  | startPort (config : String)
  | endPort (config : String)
  | order (config : String)
  | rangeNumbers (config : String)
  | number (config : String)
  | outside (port : Int)

inductive IPRefusal where
  | privateAddress
  | notInWhitelist
  | inBlacklist

/-- The errors of checks and client; `none` for the host of an address given as such. -/
inductive Refusal where
  | portConfiguration (error : PortError)
  | invalidURL
  | unsupportedProtocol (scheme : String)
  | invalidPort (text : String)
  | invalidHost
  | portOutside (port : Int)
  | portNotAllowed (port : Int)
  | ipAccess (host : Option String) (ip : IP) (why : IPRefusal)
  | domainNotInWhitelist (host : String)
  | domainInBlacklist (host : String)
  | lookupFailed (host : String)
  | invalidDialAddress (addr : String)
  | noUsableAddress (host : String)
  | dialFailed
  | redirectBlocked (why : Refusal)
  | tooManyRedirects

def parsePortRange (config : String) : Except PortError (List Int) :=
  match config.toList.splitOn '-' with
  | [first, last] =>
    match atoi (trimSpace (String.ofList first)), atoi (trimSpace (String.ofList last)) with
    | none, _ => .error (.startPort config)
    | some _, none => .error (.endPort config)
    | some startPort, some endPort =>
      if startPort > endPort then .error (.order config)
      else if startPort < 1 ∨ startPort > 65535 ∨ endPort < 1 ∨ endPort > 65535 then
        .error (.rangeNumbers config)
      else .ok ((List.range (endPort - startPort + 1).toNat).map fun i => startPort + i)
  | _ => .error (.rangeFormat config)

def parsePort (config : String) : Except PortError (List Int) :=
  match atoi config with
  | none => .error (.number config)
  | some port => if port < 1 ∨ port > 65535 then .error (.outside port) else .ok [port]

def parsePortRanges (portConfigs : List String) : Except PortError (List Int) :=
  List.flatten <$> portConfigs.mapM fun config =>
    let config := trimSpace config
    if config = "" then .ok []
    else if within "-" config then parsePortRange config
    else parsePort config

def newSSRFProtectionFromFetchSetting (s : FetchSetting) : Except Refusal SSRFProtection :=
  match parsePortRanges s.allowedPorts with
  | .error e => .error (.portConfiguration e)
  | .ok allowedPorts =>
    .ok {
      allowPrivateIp := s.allowPrivateIp
      domainFilterMode := s.domainFilterMode
      domainList := s.domainList
      ipFilterMode := s.ipFilterMode
      ipList := s.ipList
      allowedPorts
      applyIPFilterForDomain := s.applyIPFilterForDomain }

def privateIPv4Nets : List IPNet :=
  [⟨.v4 (IP.ipv4 0 0 0 0), 8⟩, ⟨.v4 (IP.ipv4 10 0 0 0), 8⟩, ⟨.v4 (IP.ipv4 100 64 0 0), 10⟩,
    ⟨.v4 (IP.ipv4 127 0 0 0), 8⟩, ⟨.v4 (IP.ipv4 169 254 0 0), 16⟩, ⟨.v4 (IP.ipv4 172 16 0 0), 12⟩,
    ⟨.v4 (IP.ipv4 192 0 0 0), 24⟩, ⟨.v4 (IP.ipv4 192 0 2 0), 24⟩, ⟨.v4 (IP.ipv4 192 168 0 0), 16⟩,
    ⟨.v4 (IP.ipv4 198 18 0 0), 15⟩, ⟨.v4 (IP.ipv4 198 51 100 0), 24⟩,
    ⟨.v4 (IP.ipv4 203 0 113 0), 24⟩, ⟨.v4 (IP.ipv4 224 0 0 0), 4⟩, ⟨.v4 (IP.ipv4 240 0 0 0), 4⟩,
    ⟨.v4 (IP.ipv4 255 255 255 255), 32⟩]

def privateIPv6Nets : List IPNet :=
  ["::/128", "::1/128", "::ffff:0:0/96", "64:ff9b::/96", "100::/64", "2001::/23", "2001:db8::/32",
    "fc00::/7", "fe80::/10", "ff00::/8"].filterMap parseCIDR

def isPrivateIP (ip : IP) : Bool :=
  if ip.isUnspecified then true
  else if ip.isLoopback || ip.isLinkLocalUnicast || ip.isLinkLocalMulticast then true
  else if ip.isInterfaceLocalMulticast then true
  else
    match ip.to4 with
    | some v4 => privateIPv4Nets.any fun privateNet => privateNet.contains (.v4 v4)
    | none => (privateIPv6Nets.any fun privateNet => privateNet.contains ip) || ip.isPrivate

def isIpInCIDRList (ip : IP) (cidrList : List String) : Bool :=
  cidrList.any fun cidr =>
    match parseCIDR cidr with
    | some network => network.contains ip
    | none =>
      match parseIP cidr with
      | some whitelistIP => ip.equal whitelistIP
      | none => false

def isDomainListed (domain : String) (list : List String) : Bool :=
  list.any fun item =>
    let item := lower (trimSpace item)
    item ≠ "" ∧ (lower domain = item ∨
      startsWith "*." item ∧
        (endsWith ("." ++ dropStart "*." item) (lower domain) ∨
          lower domain = dropStart "*." item))

namespace SSRFProtection

variable (p : SSRFProtection)

def isAllowedPort (port : Int) : Bool :=
  p.allowedPorts = [] ∨ port ∈ p.allowedPorts

def isDomainAllowed (domain : String) : Bool :=
  if p.domainFilterMode then isDomainListed domain p.domainList
  else !isDomainListed domain p.domainList

def isIPAccessAllowed (ip : IP) : Bool :=
  if isPrivateIP ip && !p.allowPrivateIp then false
  else if p.ipFilterMode then isIpInCIDRList ip p.ipList
  else !isIpInCIDRList ip p.ipList

def ipAccessError (host : Option String) (ip : IP) : Refusal :=
  .ipAccess host ip <|
    if isPrivateIP ip && !p.allowPrivateIp then .privateAddress
    else if p.ipFilterMode then .notInWhitelist
    else .inBlacklist

def validateNetworkTarget (host : String) (port : Int) : Except Refusal Unit :=
  let host := trimSpace host
  if host = "" then .error .invalidHost
  else if port < 1 ∨ port > 65535 then .error (.portOutside port)
  else if p.isAllowedPort port = false then .error (.portNotAllowed port)
  else
    match parseIP host with
    | some ip => if p.isIPAccessAllowed ip then .ok () else .error (p.ipAccessError none ip)
    | none =>
      if p.isDomainAllowed host then .ok ()
      else if p.domainFilterMode then .error (.domainNotInWhitelist host)
      else .error (.domainInBlacklist host)

def validateResolvedIP (host : String) (ip : IP) : Except Refusal Unit :=
  if p.isIPAccessAllowed ip then .ok () else .error (p.ipAccessError (some host) ip)

end SSRFProtection

end Ren2Hub.Service
