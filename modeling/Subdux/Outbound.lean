import Subdux.Lib.GoStrings
import Subdux.Lib.IPAddresses
import Subdux.Lib.Results
/-!
# Outbound connections

`newOutboundHTTPClient`, `NewOutboundDialContext` and `NewSafeOutboundDialContext` of
`internal/service/outbound_http.go`, with the checks of
`notification_outbound_security.go` and `ssrf_settings.go`. A request or a dial is the
list of connections it may make (`Dial`): to an address, or to a proxy. Packages that
are not here are fields of `OutboundEnv`; the resolver is asked with a network and a
host, by the check and by a dialer, and may answer each as it likes. An address is
given by its host, and the text of an IP stands for the IP.
-/

namespace Subdux
open GoStrings Results IPAddresses

inductive OutboundError where
  | missingHost (fieldLabel : String)
  | restricted (fieldLabel : String) (resolved : Bool)
  | filtered (fieldLabel mode targetType : String)
  | resolveFailed (fieldLabel : String)
  | noAddresses (fieldLabel : String)
  | proxyType | proxyURL | proxyScheme
    (scheme : String) | proxyPort | proxyDialer | proxyNetwork | settings

def OutboundError.text : OutboundError → String
  | missingHost fieldLabel => fieldLabel ++ " must include a host"
  | restricted fieldLabel true => fieldLabel ++ " resolves to localhost or private network addresses"
  | restricted fieldLabel false =>
    fieldLabel ++ " must not target localhost or private network addresses"
  | filtered fieldLabel mode targetType =>
    if mode = "whitelist" then fieldLabel ++ " is not allowed by ssrf " ++ targetType ++ " whitelist"
    else fieldLabel ++ " is blocked by ssrf " ++ targetType ++ " blacklist"
  | resolveFailed fieldLabel => "failed to resolve " ++ fieldLabel ++ " host"
  | noAddresses fieldLabel => fieldLabel ++ " host resolves to no addresses"
  | proxyType => "system proxy type must be http or socks5"
  | proxyURL => "system proxy url must include a host"
  | proxyScheme scheme => "system proxy url must start with " ++ scheme ++ "://"
  | proxyPort => "system proxy url port is invalid"
  | proxyDialer => "unknown proxy scheme"
  | proxyNetwork => "http proxy only supports tcp network"
  | settings => "system settings could not be read"

/-- What `url.Parse` gives of a URL, as far as the proxy settings look at it. -/
structure ProxyURL where
  scheme : String
  hostname : String
  port : String

structure SSRFProtectionConfig where
  enabled : Bool
  allowPrivateIP : Bool
  domainFilterMode : String
  domainFilters : List String
  ipFilterMode : String
  ipFilters : List Prefix
  filterResolvedIP : Bool

def defaultSSRFProtectionConfig : SSRFProtectionConfig :=
  ⟨true, false, "blacklist", [], "blacklist", [], true⟩

/-- What the database holds: the SSRF settings as `loadSSRFProtectionConfig` reads them,
and the rows of the proxy's settings, unless the query fails. -/
structure OutboundDB where
  ssrf : SSRFProtectionConfig
  proxyRows : Except OutboundError (List (String × String))

structure OutboundEnv where
  /-- `pkg.DecryptSystemSettingValue`. -/
  decrypt : String → Option String
  parseURL : String → Option ProxyURL
  lookupPort : String → Option Nat
  /-- `proxy.FromURL` gives a dialer. -/
  fromURL : ProxyURL → Bool
  /-- `http.ProxyFromEnvironment` has a proxy for the host. -/
  environmentProxy : String → Bool

/-- The answers of a resolver to a network and a host; `none` is an error. -/
abbrev Answers := String → String → Option (List IP)

inductive Dial where
  | direct (ip : IP)
  | proxy
  deriving DecidableEq

/-! ## Checks -/

/-- `strings.HasSuffix`. -/
def hasSuffix (s suffix : String) : Bool := suffix.toList.isSuffixOf s.toList

/-- `strings.Contains`, on the characters. -/
def containsChars (sub : List Char) : List Char → Bool
  | [] => sub.isEmpty
  | c :: cs => sub.isPrefixOf (c :: cs) || containsChars sub cs

def ssrfProtectionConfigForDB (db : Option OutboundDB) : SSRFProtectionConfig :=
  (db.map OutboundDB.ssrf).getD defaultSSRFProtectionConfig

def normalizeOutboundHostname (hostname : String) : Option String :=
  let lowered := toLower (trimSpace hostname)
  let normalized := if hasSuffix lowered "." then String.ofList lowered.toList.dropLast else lowered
  if normalized = "" then none else some normalized

def isCarrierGradeNATIP (ip : IP) : Bool :=
  match ip.to4 with
  | some ip4 => byte4 ip4 0 = 100 && 64 ≤ byte4 ip4 1 && byte4 ip4 1 ≤ 127
  | none => false

def isRestrictedOutboundIP (ip : IP) (allowPrivateIP : Bool) : Bool :=
  if ip.isPrivate then !allowPrivateIP
  else
    ip.isLoopback || ip.isLinkLocalUnicast || ip.isLinkLocalMulticast || ip.isUnspecified ||
      ip.isMulticast ||
      isCarrierGradeNATIP ip

def netIPToAddr (ip : IP) : Addr :=
  match ip.to4 with
  | some ip4 => .v4 ip4
  | none => .v6 ip.bits

def ipMatchesSSRFFilter (ip : IP) (filters : List Prefix) : Bool :=
  filters.any (·.contains (netIPToAddr ip))

def domainMatchesSSRFFilter (hostname : String) (filters : List String) : Bool :=
  match normalizeOutboundHostname hostname with
  | none => false
  | some normalized =>
    (parseIP normalized).isNone && filters.any fun filter =>
      normalized = filter || hasSuffix normalized ("." ++ filter)

def validateOutboundIPWithConfig (ip : IP) (fieldLabel : String) (cfg : SSRFProtectionConfig) :
    Except OutboundError Unit :=
  if !cfg.enabled then .ok ()
  else if isRestrictedOutboundIP ip cfg.allowPrivateIP then .error (.restricted fieldLabel false)
  else if cfg.ipFilterMode = "whitelist" then
    refuseIf (ipMatchesSSRFFilter ip cfg.ipFilters = false) (.filtered fieldLabel cfg.ipFilterMode "ip")
  else if cfg.ipFilterMode = "blacklist" then
    refuseIf (ipMatchesSSRFFilter ip cfg.ipFilters = true) (.filtered fieldLabel cfg.ipFilterMode "ip")
  else .ok ()

def validateOutboundHostWithConfig (hostname fieldLabel : String) (cfg : SSRFProtectionConfig) :
    Except OutboundError Unit :=
  match normalizeOutboundHostname hostname with
  | none => .error (.missingHost fieldLabel)
  | some normalized =>
    if !cfg.enabled then .ok ()
    else if normalized = "localhost" || hasSuffix normalized ".localhost" then
      .error (.restricted fieldLabel false)
    else
      match parseIP normalized with
      | some ip =>
        if cfg.domainFilterMode = "whitelist" ∧ cfg.ipFilterMode ≠ "whitelist" then
          .error (if isRestrictedOutboundIP ip cfg.allowPrivateIP then .restricted fieldLabel false
            else .filtered fieldLabel cfg.domainFilterMode "domain")
        else validateOutboundIPWithConfig ip fieldLabel cfg
      | none =>
        if cfg.domainFilterMode = "whitelist" then
          refuseIf (domainMatchesSSRFFilter normalized cfg.domainFilters = false)
            (.filtered fieldLabel cfg.domainFilterMode "domain")
        else if cfg.domainFilterMode = "blacklist" then
          refuseIf (domainMatchesSSRFFilter normalized cfg.domainFilters = true)
            (.filtered fieldLabel cfg.domainFilterMode "domain")
        else .ok ()

def validateOutboundHost (hostname fieldLabel : String) (db : Option OutboundDB) :
    Except OutboundError Unit :=
  validateOutboundHostWithConfig hostname fieldLabel (ssrfProtectionConfigForDB db)

/-- The host check, where it is asked for. -/
def checkHostWhen (asked : Bool) (hostname : String) (db : Option OutboundDB) :
    Except OutboundError Unit :=
  if asked then validateOutboundHost hostname "outbound request url" db else .ok ()

def lookupIPNetwork (network : String) : String :=
  match toLower (trimSpace network) with
  | "tcp4" | "ip4" => "ip4"
  | "tcp6" | "ip6" => "ip6"
  | _ => "ip"

/-- The error of a check of a resolved address. -/
def resolvedError (fieldLabel : String) : OutboundError → OutboundError
  | .restricted _ _ => .restricted fieldLabel true
  | err => err

/-- The check of the addresses in turn, up to the first that is rejected. -/
def validateResolvedIPs (fieldLabel : String) (cfg : SSRFProtectionConfig) :
    List IP → Except OutboundError Unit
  | [] => .ok ()
  | ip :: rest =>
    match validateOutboundIPWithConfig ip fieldLabel cfg with
    | .error err => .error (resolvedError fieldLabel err)
    | .ok _ => validateResolvedIPs fieldLabel cfg rest

def resolveSafeOutboundHostIPs (answers : Answers) (network hostname fieldLabel : String)
    (db : Option OutboundDB) :
    Except OutboundError (List IP) := do
  let cfg := ssrfProtectionConfigForDB db
  validateOutboundHostWithConfig hostname fieldLabel cfg
  match normalizeOutboundHostname hostname with
  | none => .error (.missingHost fieldLabel)
  | some normalized =>
    match parseIP normalized with
    | some ip => .ok [ip]
    | none =>
      match answers (lookupIPNetwork network) normalized with
      | none => .error (.resolveFailed fieldLabel)
      | some [] => .error (.noAddresses fieldLabel)
      | some ips =>
        if cfg.enabled && cfg.filterResolvedIP then
          validateResolvedIPs fieldLabel cfg ips >>= fun _ => .ok ips
        else .ok ips

/-! ## The proxy's settings -/

structure SystemProxyConfig where
  enabled : Bool
  type : String
  url : String
  hasValue : Bool

def encryptedSystemSettingKeys : List String :=
  ["smtp_password", "oidc_client_secret", "currencyapi_key", "system_proxy_url",
   "backup_encryption_password"]

section Proxy
variable (env : OutboundEnv)

/-- The stored value, decrypted where that is needed and possible. -/
def settingValue (key value : String) : String :=
  if key ∈ encryptedSystemSettingKeys then (env.decrypt value).getD value else value

def readProxySetting (cfg : SystemProxyConfig) (item : String × String) : SystemProxyConfig :=
  let value := settingValue env item.1 item.2
  match item.1 with
  | "system_proxy_enabled" => { cfg with enabled := value = "true" }
  | "system_proxy_type" => { cfg with type := trimSpace (toLower value) }
  | "system_proxy_url" => { cfg with url := value, hasValue := trimSpace value ≠ "" }
  | _ => cfg

def loadSystemProxyConfig (db : OutboundDB) : Except OutboundError SystemProxyConfig := do
  let items ← db.proxyRows
  let cfg := items.foldl (readProxySetting env) ⟨false, "http", "", false⟩
  return if trimSpace cfg.type = "" then { cfg with type := "http" } else cfg

def normalizeSystemProxyType (proxyType : String) : Except OutboundError String :=
  let normalized := trimSpace (toLower proxyType)
  if normalized = "" then .ok "http"
  else if normalized = "http" ∨ normalized = "socks5" then .ok normalized
  else .error .proxyType

def normalizeSystemProxyURL (proxyType rawURL : String) : Except OutboundError ProxyURL := do
  let normalizedType ← normalizeSystemProxyType proxyType
  let trimmed := trimSpace rawURL
  refuseIf (trimmed = "") .proxyURL
  let full :=
    if containsChars "://".toList trimmed.toList then trimmed else normalizedType ++ "://" ++ trimmed
  match env.parseURL full with
  | none => .error .proxyURL
  | some parsed =>
    refuseIf (parsed.hostname = "") .proxyURL
    refuseIf (normalizedType = "http" ∧ parsed.scheme ≠ "http") (.proxyScheme "http")
    refuseIf (normalizedType = "socks5" ∧ parsed.scheme ≠ "socks5" ∧ parsed.scheme ≠ "socks5h")
      (.proxyScheme "socks5")
    refuseIf (parsed.port ≠ "" ∧
      ((env.lookupPort parsed.port).all fun port => port < 1 ∨ 65535 < port)) .proxyPort
    return if normalizedType = "socks5" then { parsed with scheme := "socks5" } else parsed

/-! ## Dialers -/

def isTCPNetwork (network : String) : Bool := toLower (trimSpace network) ∈ ["tcp", "tcp4", "tcp6"]

/-- `net.Dialer`: an address as it is, or the addresses of a name. -/
def dialDirect (answers : Answers) (network host : String) : List Dial :=
  match parseIP host with
  | some ip => [.direct ip]
  | none => ((answers (lookupIPNetwork network) host).getD []).map .direct

/-- `safeOutboundDialer.DialContext`: the addresses that the check resolved, in turn. -/
def safeDial (answers : Answers) (db : Option OutboundDB) (network host : String) :
    Except OutboundError (List Dial) :=
  if !isTCPNetwork network then .ok (dialDirect answers network host)
  else (resolveSafeOutboundHostIPs answers network host "outbound request url" db).map (·.map .direct)

/-- The function that `NewOutboundDialContext` returns. -/
def newOutboundDialContext (db : Option OutboundDB) (answers : Answers) (network host : String) :
    Except OutboundError (List Dial) :=
  let direct := Except.ok (dialDirect answers network host)
  match db.map (loadSystemProxyConfig env) with
  | some (.ok cfg) =>
    if !cfg.enabled then direct
    else
      match normalizeSystemProxyURL env cfg.type cfg.url with
      | .error _ => direct
      | .ok proxyURL =>
        if cfg.type = "http" then
          if network ∈ ["tcp", "tcp4", "tcp6"] then .ok [.proxy] else .error .proxyNetwork
        else if cfg.type = "socks5" then (if env.fromURL proxyURL then .ok [.proxy] else direct)
        else direct
  | _ => direct

/-- The function that `NewSafeOutboundDialContext` returns. -/
def newSafeOutboundDialContext (db : Option OutboundDB) (answers : Answers) (network host : String) :
    Except OutboundError (List Dial) :=
  match db.map (loadSystemProxyConfig env) with
  | some (.ok cfg) =>
    if cfg.enabled then do
      checkHostWhen (isTCPNetwork network) host db
      newOutboundDialContext env db answers network host
    else safeDial answers db network host
  | _ => safeDial answers db network host

/-! ## The client -/

structure OutboundHTTPClientOptions where
  db : Option OutboundDB
  secureEgress : Bool

inductive Transport where
  /-- `http.DefaultTransport`, also where a client has no transport. -/
  | default
  /-- No proxy, and the safe dialer. -/
  | safe
  /-- Every request goes to the proxy, with `outboundProxyRoundTripper`'s check where it is `checked`. -/
  | proxied (checked : Bool)

def newOutboundHTTPTransport (options : OutboundHTTPClientOptions) : Except OutboundError Transport :=
  match options.db with
  | none => .ok (if options.secureEgress then .safe else .default)
  | some db => do
    let cfg ← loadSystemProxyConfig env db
    if !cfg.enabled then .ok (if options.secureEgress then .safe else .default)
    else if cfg.type = "http" then do
      let _ ← normalizeSystemProxyURL env cfg.type cfg.url
      .ok (.proxied options.secureEgress)
    else if cfg.type = "socks5" then do
      let proxyURL ← normalizeSystemProxyURL env cfg.type cfg.url
      if env.fromURL proxyURL then .ok (.proxied options.secureEgress) else .error .proxyDialer
    else .error .proxyType

/-- The client's transport: none, and so the default one, after an error. -/
def newOutboundHTTPClient (options : OutboundHTTPClientOptions) : Transport :=
  match newOutboundHTTPTransport env options with
  | .error _ => .default
  | .ok transport => transport

/-- A request to a host, first or redirected. -/
def Transport.roundTrip (db : Option OutboundDB) (answers : Answers) (host : String) :
    Transport → Except OutboundError (List Dial)
  | .default => .ok (if env.environmentProxy host then [.proxy] else dialDirect answers "tcp" host)
  | .safe => safeDial answers db "tcp" host
  | .proxied checked => do
    checkHostWhen checked host db
    .ok [.proxy]

def clientRequest (options : OutboundHTTPClientOptions) (answers : Answers) (host : String) :
    Except OutboundError (List Dial) :=
  (newOutboundHTTPClient env options).roundTrip env options.db answers host

end Proxy

/-! ## What is dialled directly -/

def isRejected (cfg : SSRFProtectionConfig) (ip : IP) : Bool :=
  match validateOutboundIPWithConfig ip "outbound request url" cfg with
  | .ok _ => false
  | .error _ => true

def dialsOf : Except OutboundError (List Dial) → List Dial
  | .ok dials => dials
  | .error _ => []

/-- No rejected address is dialled directly. -/
def FailsClosed (cfg : SSRFProtectionConfig) (result : Except OutboundError (List Dial)) : Prop :=
  ∀ ip, .direct ip ∈ dialsOf result → isRejected cfg ip = false

section Checks
variable {cfg : SSRFProtectionConfig} {answers : Answers} {db : Option OutboundDB}
  {network host : String}

theorem failsClosed_error (err : OutboundError) : FailsClosed cfg (.error err) := by
  intro ip hip
  cases hip

theorem failsClosed_proxy : FailsClosed cfg (.ok [.proxy]) := by
  intro ip hip
  cases List.mem_singleton.1 hip

theorem FailsClosed.after {check : Except OutboundError Unit} {result : Except OutboundError (List Dial)}
    (h : FailsClosed cfg result) : FailsClosed cfg (check >>= fun _ => result) := by
  cases check with
  | error err => exact failsClosed_error err
  | ok _ => exact h

theorem validateResolvedIPs_ok {fieldLabel : String} {ips : List IP}
    (h : validateResolvedIPs fieldLabel cfg ips = .ok ()) :
    ∀ ip ∈ ips, validateOutboundIPWithConfig ip fieldLabel cfg = .ok () := by
  induction ips with
  | nil => simp
  | cons ip rest ih =>
    unfold validateResolvedIPs at h
    split at h
    · cases h
    · rename_i hip
      intro other hother
      rcases List.mem_cons.1 hother with rfl | hother
      · exact hip
      · exact ih h other hother

/-- A literal address that passes the host check passes the address check. -/
theorem validateOutboundHost_literal {fieldLabel normalized : String} {ip : IP}
    (henabled : cfg.enabled = true) (hnormalized : normalizeOutboundHostname host = some normalized)
    (hip : parseIP normalized = some ip)
    (h : validateOutboundHostWithConfig host fieldLabel cfg = .ok ()) :
    validateOutboundIPWithConfig ip fieldLabel cfg = .ok () := by
  delta validateOutboundHostWithConfig at h
  simp only [hnormalized, henabled, hip, Bool.not_true, Bool.false_eq_true, if_false] at h
  split at h
  · cases h
  · split at h
    · cases h
    · exact h

/-- What the check resolves, it accepts. -/
theorem resolveSafe_accepted {fieldLabel : String} {ips : List IP}
    (henabled : (ssrfProtectionConfigForDB db).enabled = true)
    (hfilter : (ssrfProtectionConfigForDB db).filterResolvedIP = true)
    (h : resolveSafeOutboundHostIPs answers network host fieldLabel db = .ok ips) :
    ∀ ip ∈ ips, validateOutboundIPWithConfig ip fieldLabel (ssrfProtectionConfigForDB db) = .ok () := by
  obtain ⟨_, hhost, h⟩ := bind_eq_ok h
  split at h
  · cases h
  · rename_i normalized hnormalized
    split at h
    · rename_i ip hip
      obtain rfl := Except.ok.inj h
      intro other hother
      rw [List.mem_singleton.1 hother]
      exact validateOutboundHost_literal henabled hnormalized hip hhost
    · split at h
      · cases h
      · cases h
      · rw [henabled, hfilter, Bool.and_self, if_pos rfl] at h
        obtain ⟨_, hall, h⟩ := bind_eq_ok h
        obtain rfl := Except.ok.inj h
        exact validateResolvedIPs_ok hall

theorem safeDial_failsClosed (henabled : (ssrfProtectionConfigForDB db).enabled = true)
    (hfilter : (ssrfProtectionConfigForDB db).filterResolvedIP = true)
    (htcp : isTCPNetwork network = true) :
    FailsClosed (ssrfProtectionConfigForDB db) (safeDial answers db network host) := by
  unfold safeDial
  rw [htcp, Bool.not_true, if_neg Bool.false_ne_true]
  cases hresolve : resolveSafeOutboundHostIPs answers network host "outbound request url" db with
  | error err => exact failsClosed_error err
  | ok ips =>
    intro ip hip
    obtain ⟨other, hother, heq⟩ := List.mem_map.1 hip
    cases heq
    rw [isRejected, resolveSafe_accepted henabled hfilter hresolve ip hother]

end Checks

/-! ## When the protection fails closed -/

section FailsClosed
variable (env : OutboundEnv)

/-- The proxy's type and URL give a transport and a dialer. -/
def ProxyUsable (cfg : SystemProxyConfig) : Prop :=
  (cfg.type = "http" ∨ cfg.type = "socks5") ∧
    ∃ proxyURL, normalizeSystemProxyURL env cfg.type cfg.url = .ok proxyURL ∧
      (cfg.type = "socks5" → env.fromURL proxyURL = true)

/-- The client has a transport of its own that checks or goes through the proxy. -/
def ClientChecked (options : OutboundHTTPClientOptions) : Prop :=
  match options.db.map (loadSystemProxyConfig env) with
  | none => options.secureEgress = true
  | some (.error _) => False
  | some (.ok cfg) => if cfg.enabled then ProxyUsable env cfg else options.secureEgress = true

/-- The dialer checks, goes through the proxy or refuses the host. -/
def DialChecked (db : Option OutboundDB) (network host : String) : Prop :=
  match db.map (loadSystemProxyConfig env) with
  | some (.ok cfg) =>
    if cfg.enabled then
      ProxyUsable env cfg ∨
        (isTCPNetwork network = true ∧ validateOutboundHost host "outbound request url" db ≠ .ok ())
    else isTCPNetwork network = true
  | _ => isTCPNetwork network = true

variable {env} {options : OutboundHTTPClientOptions} {answers : Answers} {db : Option OutboundDB}
  {network host : String}

/-- An enabled proxy that cannot be used leaves the client without a transport. -/
theorem newOutboundHTTPClient_enabled {cfg : SystemProxyConfig} {stored : OutboundDB}
    (hdb : options.db = some stored) (hload : loadSystemProxyConfig env stored = .ok cfg)
    (hon : cfg.enabled = true) :
    (ProxyUsable env cfg ∧ newOutboundHTTPClient env options = .proxied options.secureEgress) ∨
      (¬ ProxyUsable env cfg ∧ newOutboundHTTPClient env options = .default) := by
  have hne : ¬ "socks5" = "http" := by decide
  by_cases hhttp : cfg.type = "http"
  · cases hurl : normalizeSystemProxyURL env "http" cfg.url with
    | error err =>
      refine .inr ⟨?_, by simp [newOutboundHTTPClient, newOutboundHTTPTransport, hdb, hload, hon,
        hhttp, hurl, bind, Except.bind]⟩
      rintro ⟨-, proxyURL, hok, -⟩
      rw [hhttp, hurl] at hok
      cases hok
    | ok proxyURL =>
      refine .inl ⟨⟨.inl hhttp, proxyURL, by rw [hhttp, hurl],
        fun h => absurd (h.symm.trans hhttp) hne⟩, ?_⟩
      simp [newOutboundHTTPClient, newOutboundHTTPTransport, hdb, hload, hon, hhttp, hurl, bind,
        Except.bind]
  · by_cases hsocks : cfg.type = "socks5"
    · cases hurl : normalizeSystemProxyURL env "socks5" cfg.url with
      | error err =>
        refine .inr ⟨?_, by simp [newOutboundHTTPClient, newOutboundHTTPTransport, hdb, hload, hon,
          hsocks, hurl, bind, Except.bind]⟩
        rintro ⟨-, proxyURL, hok, -⟩
        rw [hsocks, hurl] at hok
        cases hok
      | ok proxyURL =>
        cases hfrom : env.fromURL proxyURL with
        | true =>
          refine .inl ⟨⟨.inr hsocks, proxyURL, by rw [hsocks, hurl], fun _ => hfrom⟩, ?_⟩
          simp [newOutboundHTTPClient, newOutboundHTTPTransport, hdb, hload, hon, hsocks, hurl,
            hfrom, bind, Except.bind]
        | false =>
          refine .inr ⟨?_, by
            simp [newOutboundHTTPClient, newOutboundHTTPTransport, hdb, hload, hon, hsocks, hurl,
              hfrom, bind, Except.bind]⟩
          rintro ⟨-, other, hok, htrue⟩
          rw [hsocks, hurl] at hok
          cases hok
          rw [htrue hsocks] at hfrom
          cases hfrom
    · refine .inr ⟨?_,
        by simp [newOutboundHTTPClient, newOutboundHTTPTransport, hdb, hload, hon, hhttp, hsocks,
          bind, Except.bind]⟩
      rintro ⟨htype | htype, -⟩
      · exact hhttp htype
      · exact hsocks htype

/-- With a usable proxy nothing is dialled directly. -/
theorem newOutboundDialContext_usable {cfg : SystemProxyConfig} {stored : OutboundDB}
    {ssrf : SSRFProtectionConfig} (hload : loadSystemProxyConfig env stored = .ok cfg)
    (hon : cfg.enabled = true) (husable : ProxyUsable env cfg) :
    FailsClosed ssrf (newOutboundDialContext env (some stored) answers network host) := by
  obtain ⟨htype, proxyURL, hurl, hfrom⟩ := husable
  have hne : ¬ "socks5" = "http" := by decide
  simp only [newOutboundDialContext, Option.map_some, hload, hon, Bool.not_true, Bool.false_eq_true,
    if_false, hurl]
  rcases htype with htype | htype
  · rw [if_pos htype]
    split
    · exact failsClosed_proxy
    · exact failsClosed_error _
  · rw [htype, if_neg hne, if_pos rfl, hfrom htype, if_pos rfl]
    exact failsClosed_proxy

theorem newOutboundDialContext_unusable {cfg : SystemProxyConfig} {stored : OutboundDB}
    (hload : loadSystemProxyConfig env stored = .ok cfg) (hon : cfg.enabled = true)
    (hunusable : ¬ ProxyUsable env cfg) :
    newOutboundDialContext env (some stored) answers network host = .ok
    (dialDirect answers network host) := by
  simp only [newOutboundDialContext, Option.map_some, hload, hon, Bool.not_true, Bool.false_eq_true,
    if_false]
  cases hurl : normalizeSystemProxyURL env cfg.type cfg.url with
  | error err => rfl
  | ok proxyURL =>
    dsimp only
    split
    · rename_i hhttp
      exact absurd ⟨.inl hhttp, proxyURL, hurl, fun h => absurd (h.symm.trans hhttp) (by decide)⟩
        hunusable
    · split
      · rename_i hsocks
        split
        · rename_i hfrom
          exact absurd ⟨.inr hsocks, proxyURL, hurl, fun _ => hfrom⟩ hunusable
        · rfl
      · rfl

/-- A client that is not checked has the default transport. -/
theorem newOutboundHTTPClient_cases :
    (ClientChecked env options ∧
      (newOutboundHTTPClient env options = .safe ∨
        newOutboundHTTPClient env options = .proxied options.secureEgress)) ∨
      (¬ ClientChecked env options ∧ newOutboundHTTPClient env options = .default) := by
  unfold ClientChecked
  cases hdb : options.db with
  | none =>
    cases hsecure : options.secureEgress <;> simp
      [newOutboundHTTPClient, newOutboundHTTPTransport, hdb, hsecure]
  | some stored =>
    rw [Option.map_some]
    cases hload : loadSystemProxyConfig env stored with
    | error err => simp [newOutboundHTTPClient, newOutboundHTTPTransport, hdb, hload, bind, Except.bind]
    | ok cfg =>
      cases hon : cfg.enabled with
      | true =>
        simp only [hon, if_pos]
        rcases newOutboundHTTPClient_enabled hdb hload hon with ⟨husable, h⟩ | ⟨hunusable, h⟩
        · exact .inl ⟨husable, .inr h⟩
        · exact .inr ⟨hunusable, h⟩
      | false =>
        cases hsecure : options.secureEgress <;>
          simp [newOutboundHTTPClient, newOutboundHTTPTransport, hdb, hload, hon, hsecure, bind,
            Except.bind]

theorem roundTrip_default_iff {cfg : SSRFProtectionConfig} :
    FailsClosed cfg (Transport.roundTrip env db answers host .default) ↔
      env.environmentProxy host = true ∨ FailsClosed cfg (.ok (dialDirect answers "tcp" host)) := by
  simp only [Transport.roundTrip]
  cases env.environmentProxy host with
  | true => simp [failsClosed_proxy]
  | false => simp

theorem clientRequest_failsClosed_iff (henabled : (ssrfProtectionConfigForDB options.db).enabled = true)
    (hfilter : (ssrfProtectionConfigForDB options.db).filterResolvedIP = true) :
    FailsClosed (ssrfProtectionConfigForDB options.db) (clientRequest env options answers host) ↔
      ClientChecked env options ∨ env.environmentProxy host = true ∨
        FailsClosed (ssrfProtectionConfigForDB options.db) (.ok (dialDirect answers "tcp" host)) := by
  unfold clientRequest
  rcases newOutboundHTTPClient_cases with ⟨hchecked, hsafe | hproxied⟩ | ⟨hunchecked, hdefault⟩
  · rw [hsafe]
    exact ⟨fun _ => .inl hchecked, fun _ => safeDial_failsClosed henabled hfilter (by decide +kernel)⟩
  · rw [hproxied]
    exact ⟨fun _ => .inl hchecked, fun _ => failsClosed_proxy.after⟩
  · rw [hdefault, roundTrip_default_iff]
    exact ⟨.inr, fun h => h.resolve_left hunchecked⟩

theorem safeDialContext_failsClosed_iff (henabled : (ssrfProtectionConfigForDB db).enabled = true)
    (hfilter : (ssrfProtectionConfigForDB db).filterResolvedIP = true) :
    FailsClosed (ssrfProtectionConfigForDB db) (newSafeOutboundDialContext env db answers network host) ↔
      DialChecked env db network host ∨ FailsClosed (ssrfProtectionConfigForDB db)
        (.ok (dialDirect answers network host)) := by
  have hsafe : FailsClosed (ssrfProtectionConfigForDB db) (safeDial answers db network host) ↔
      isTCPNetwork network = true ∨ FailsClosed (ssrfProtectionConfigForDB db)
        (.ok (dialDirect answers network host)) := by
    by_cases htcp : isTCPNetwork network = true
    · exact ⟨fun _ => .inl htcp, fun _ => safeDial_failsClosed henabled hfilter htcp⟩
    · have hdirect : safeDial answers db network host = .ok (dialDirect answers network host) := by
        rw [safeDial, (Bool.not_eq_true _).mp htcp, Bool.not_false, if_pos rfl]
      rw [hdirect]
      exact ⟨.inr, fun h => h.resolve_left htcp⟩
  unfold newSafeOutboundDialContext DialChecked
  cases db with
  | none => exact hsafe
  | some stored =>
    rw [Option.map_some]
    cases hload : loadSystemProxyConfig env stored with
    | error err => exact hsafe
    | ok cfg =>
      dsimp only
      cases hon : cfg.enabled with
      | false =>
        simp only [Bool.false_eq_true, if_false]
        exact hsafe
      | true =>
        simp only [if_true]
        by_cases husable : ProxyUsable env cfg
        · exact ⟨fun _ => .inl (.inl husable), fun _ =>
            (newOutboundDialContext_usable hload hon husable).after⟩
        · rw [newOutboundDialContext_unusable hload hon husable]
          cases htcp : isTCPNetwork network with
          | false => simp [checkHostWhen, husable, bind, Except.bind]
          | true =>
            cases hhost : validateOutboundHost host "outbound request url" (some stored) with
            | error err => simp [checkHostWhen, hhost, bind, Except.bind, failsClosed_error]
            | ok _ => simp [checkHostWhen, hhost, husable, bind, Except.bind]

/-- With SSRF protection on, the client and the dialer dial no rejected address directly
if and only if they check, or the host resolves to accepted addresses alone. -/
theorem ssrf_fails_closed_iff (env : OutboundEnv) (db : Option OutboundDB) (secureEgress : Bool)
    (answers : Answers) (network host : String)
    (henabled : (ssrfProtectionConfigForDB db).enabled = true)
    (hfilter : (ssrfProtectionConfigForDB db).filterResolvedIP = true) :
    (FailsClosed (ssrfProtectionConfigForDB db) (clientRequest env ⟨db, secureEgress⟩ answers host) ↔
      ClientChecked env ⟨db, secureEgress⟩ ∨ env.environmentProxy host = true ∨
        FailsClosed (ssrfProtectionConfigForDB db) (.ok (dialDirect answers "tcp" host))) ∧
    (FailsClosed (ssrfProtectionConfigForDB db)
      (newSafeOutboundDialContext env db answers network host) ↔
      DialChecked env db network host ∨
        FailsClosed (ssrfProtectionConfigForDB db) (.ok (dialDirect answers network host))) :=
  ⟨@clientRequest_failsClosed_iff env ⟨db, secureEgress⟩ answers host henabled hfilter,
    safeDialContext_failsClosed_iff henabled hfilter⟩

end FailsClosed

/-! ### A malformed proxy URL -/

def sampleOutboundEnv : OutboundEnv where
  decrypt _ := none
  parseURL url :=
    if url = "http://proxy.example.com:8080" then some ⟨"http", "proxy.example.com", "8080"⟩ else none
  lookupPort port := if port = "8080" then some 8080 else none
  fromURL _ := true
  environmentProxy _ := false

def sampleOutboundDB (url : String) : OutboundDB :=
  ⟨defaultSSRFProtectionConfig, .ok [("system_proxy_enabled", "true"), ("system_proxy_url", url)]⟩

/-- Every name is in a private network. -/
def privateAnswers : Answers := fun _ _ => some [ofBytes4 10 0 0 1]

/-- The proxy is enabled and its URL is malformed: both fall back to a direct connection. -/
theorem ssrf_fails_open :
    (¬ ∀ (env : OutboundEnv) (db : Option OutboundDB) (answers : Answers) (host : String),
      (ssrfProtectionConfigForDB db).enabled = true →
        (ssrfProtectionConfigForDB db).filterResolvedIP = true →
        FailsClosed (ssrfProtectionConfigForDB db) (clientRequest env ⟨db, true⟩ answers host)) ∧
    ¬ ∀ (env : OutboundEnv) (db : Option OutboundDB) (answers : Answers) (host : String),
      (ssrfProtectionConfigForDB db).enabled = true →
        (ssrfProtectionConfigForDB db).filterResolvedIP = true →
        FailsClosed (ssrfProtectionConfigForDB db)
          (newSafeOutboundDialContext env db answers "tcp" host) := by
  have hrejected : isRejected defaultSSRFProtectionConfig (ofBytes4 10 0 0 1) = true := by decide +kernel
  constructor
  · intro h
    have hdial : .direct (ofBytes4 10 0 0 1) ∈ dialsOf (clientRequest sampleOutboundEnv
        ⟨some (sampleOutboundDB "http://["), true⟩ privateAnswers "internal.example.com") := by
          decide +kernel
    have haccepted := h _ (some (sampleOutboundDB "http://[")) _ _ rfl rfl _ hdial
    exact Bool.false_ne_true (haccepted.symm.trans hrejected)
  · intro h
    have hdial : .direct (ofBytes4 10 0 0 1) ∈ dialsOf (newSafeOutboundDialContext sampleOutboundEnv
        (some (sampleOutboundDB "http://[")) privateAnswers "tcp" "internal.example.com") := by
          decide +kernel
    have haccepted := h _ (some (sampleOutboundDB "http://[")) _ _ rfl rfl _ hdial
    exact Bool.false_ne_true (haccepted.symm.trans hrejected)

/-- With a well-formed URL both go through the proxy. -/
theorem ssrf_fails_closed_sample :
    dialsOf (clientRequest sampleOutboundEnv
      ⟨some (sampleOutboundDB "http://proxy.example.com:8080"), true⟩ privateAnswers
      "internal.example.com") = [.proxy] ∧
    (FailsClosed defaultSSRFProtectionConfig
        (clientRequest sampleOutboundEnv
          ⟨some (sampleOutboundDB "http://proxy.example.com:8080"), true⟩ privateAnswers
          "internal.example.com") ↔
      ClientChecked sampleOutboundEnv ⟨some (sampleOutboundDB "http://proxy.example.com:8080"), true⟩ ∨
        sampleOutboundEnv.environmentProxy "internal.example.com" = true ∨
          FailsClosed defaultSSRFProtectionConfig
            (.ok (dialDirect privateAnswers "tcp" "internal.example.com"))) ∧
    (FailsClosed defaultSSRFProtectionConfig
        (newSafeOutboundDialContext sampleOutboundEnv
          (some (sampleOutboundDB "http://proxy.example.com:8080")) privateAnswers "tcp"
          "internal.example.com") ↔
      DialChecked sampleOutboundEnv
        (some (sampleOutboundDB "http://proxy.example.com:8080")) "tcp" "internal.example.com" ∨
        FailsClosed defaultSSRFProtectionConfig
          (.ok (dialDirect privateAnswers "tcp" "internal.example.com"))) :=
  ⟨by decide +kernel,
    ssrf_fails_closed_iff sampleOutboundEnv
    (some (sampleOutboundDB "http://proxy.example.com:8080")) true
    privateAnswers "tcp" "internal.example.com" rfl rfl⟩

end Subdux
