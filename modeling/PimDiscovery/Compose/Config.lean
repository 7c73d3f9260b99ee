import PimDiscovery.Crates
import PimDiscovery.Autoconfig.Config
import PimDiscovery.Pacc.Config
import PimDiscovery.Rfc6186.Service

/-! The common output of every mechanism, and the conversions of each mechanism's document into it. -/

namespace PimDiscovery

inductive DiscoveryService where
  | imap | pop3 | smtp | jmap | caldav | carddav | webdav | managesieve
  | gmail | gcal | gpeople | msgraph | msgraphCalendar | msgraphContacts
  deriving DecidableEq, Repr

inductive DiscoverySecurity where
  | plain | starttls | tls
  deriving DecidableEq, Repr

inductive DiscoveryEndpoint where
  | tcp (host : String) (port : UInt16) (security : DiscoverySecurity)
  | http (url : String)
  deriving DecidableEq, Repr

inductive DiscoveryAuthMethod where
  | password
  | bearer
  | oauthAuthorizationCodeGrant (authorizationEndpoint tokenEndpoint : String)
      (scope resource : Option String) (scopesSupported : List String)
  | oauthDeviceAuthorizationGrant (deviceAuthorizationEndpoint tokenEndpoint : String)
      (scope resource : Option String) (scopesSupported : List String)
  | oauthIssuer (issuer : String)
  deriving DecidableEq, Repr

inductive DiscoveryKnownProvider where
  | google | microsoft
  deriving DecidableEq, Repr

inductive DiscoveryConfigSource where
  | provider (provider : DiscoveryKnownProvider)
  | pacc | ispMain | ispFallback | mailconf | ispdb | mx | srv | dav | jmap
  deriving DecidableEq, Repr

structure DiscoveryServiceConfig where
  service : DiscoveryService
  endpoint : DiscoveryEndpoint
  username : Option String
  auth : List DiscoveryAuthMethod
  source : DiscoveryConfigSource
  resolved : Bool
  deriving DecidableEq, Repr

namespace DiscoveryEndpoint
variable [UrlCrate]

def equivalent (self other : DiscoveryEndpoint) : Bool :=
  if self = other then true
  else match self, other with
    | .http a, .http b =>
      match UrlCrate.parse a, UrlCrate.parse b with
      | .ok a, .ok b => a == b
      | _, _ => false
    | _, _ => false

def subdomainOf (self other : DiscoveryEndpoint) : Bool :=
  match self, other with
  | .http a, .http b =>
    match UrlCrate.parse a, UrlCrate.parse b with
    | .ok a, .ok b =>
      match a.host, b.host with
      | some a, some b =>
        let a := Text.bytes a
        let b := Text.bytes b
        decide (b.length < a.length) && b.isSuffixOf a &&
          a[a.length - b.length - 1]? == some '.'.toUInt8
      | _, _ => false
    | _, _ => false
  | _, _ => false

end DiscoveryEndpoint

def pushMethod (auth : List DiscoveryAuthMethod) (method : DiscoveryAuthMethod) :
    List DiscoveryAuthMethod :=
  if auth.contains method then auth else auth ++ [method]

/-- The methods the `basic` and `bearer` schemes stand for, in order. -/
def schemeMethods (schemes : List String) : List DiscoveryAuthMethod :=
  schemes.filterMap fun scheme =>
    match scheme with
    | "basic" => some .password
    | "bearer" => some .bearer
    | _ => none

def substitute (value email : String) : String :=
  let (localPart, domain) := (Text.splitOnce email '@').getD (email, "")
  Text.replace (Text.replace (Text.replace value "%EMAILADDRESS%" email)
    "%EMAILLOCALPART%" localPart) "%EMAILDOMAIN%" domain

def defaultPort : DiscoveryService → DiscoverySecurity → Option UInt16
  | .imap, .tls => some 993
  | .imap, _ => some 143
  | .pop3, .tls => some 995
  | .pop3, _ => some 110
  | .smtp, .tls => some 465
  | .smtp, .starttls => some 587
  | .smtp, .plain => some 25
  | .managesieve, _ => some 4190
  | _, _ => none

namespace DiscoveryServiceConfig

section
variable [UrlCrate]

def isSecure (self : DiscoveryServiceConfig) : Bool :=
  match self.endpoint with
  | .tcp _ _ security => security != .plain
  | .http url =>
    match UrlCrate.parse url with
    | .ok url => url.scheme == "https"
    | .error _ => false

def probeUrls (self : DiscoveryServiceConfig) : List Url :=
  match self.service with
  | .jmap | .caldav | .carddav | .webdav =>
    match self.endpoint with
    | .tcp _ _ _ => []
    | .http raw =>
      match UrlCrate.parse raw with
      | .error _ => []
      | .ok url =>
        let wellKnown := match self.service with
          | .caldav => some "/.well-known/caldav"
          | .carddav => some "/.well-known/carddav"
          | _ => none
        url :: wellKnown.toList.map url.setPath
  | _ => []

end

def refineAuth (self : DiscoveryServiceConfig) (schemes : List String) : DiscoveryServiceConfig :=
  let auth := schemeMethods schemes
  if auth.isEmpty then self
  else
    { self with
      auth := self.auth.foldl (fun auth method =>
        match method with
        | .password | .bearer => auth
        | method => pushMethod auth method) auth }

def isOauth : DiscoveryAuthMethod → Bool
  | .oauthAuthorizationCodeGrant .. | .oauthDeviceAuthorizationGrant .. | .oauthIssuer _ => true
  | _ => false

def addResourceIssuers (self : DiscoveryServiceConfig) (servers : List String) :
    DiscoveryServiceConfig :=
  if self.auth.any isOauth then self
  else { self with auth := servers.foldl (fun auth server => pushMethod auth (.oauthIssuer server)) self.auth }

def bindResource (resource : String) (scopes : List String) :
    DiscoveryAuthMethod → DiscoveryAuthMethod
  | .oauthAuthorizationCodeGrant authorization token scope _ scopesSupported =>
    .oauthAuthorizationCodeGrant authorization token scope (some resource)
      (if scopes.isEmpty then scopesSupported else scopes)
  | .oauthDeviceAuthorizationGrant device token scope _ scopesSupported =>
    .oauthDeviceAuthorizationGrant device token scope (some resource)
      (if scopes.isEmpty then scopesSupported else scopes)
  | method => method

def setOauthResource (self : DiscoveryServiceConfig) (resource : String) (scopes : List String) :
    DiscoveryServiceConfig :=
  { self with auth := self.auth.map (bindResource resource scopes) }

def autoconfigMethod (config : DiscoveryAutoconfig) :
    DiscoveryAuthenticationType → Option DiscoveryAuthMethod
  | .passwordCleartext | .passwordEncrypted => some .password
  | .oAuth2 => config.oauth2.map fun oauth =>
      .oauthAuthorizationCodeGrant oauth.authUrl oauth.tokenUrl (some oauth.scope) none []
  | _ => none

/-- The config of one autoconfig server, when it names a host and a port is known. -/
def ofAutoconfigServer (config : DiscoveryAutoconfig) (email : String)
    (source : DiscoveryConfigSource) (server : DiscoveryServer) : Option DiscoveryServiceConfig :=
  match server.hostname with
  | none => none
  | some hostname =>
    let service := match server.type with
      | .imap => .imap
      | .pop3 => .pop3
      | .smtp => .smtp
    let security := match server.socketType with
      | some .tls | none => .tls
      | some .starttls => .starttls
      | some .plain => .plain
    match server.port.or (defaultPort service security) with
    | none => none
    | some port => some
      { service
        endpoint := .tcp (substitute hostname email) port security
        username := server.username.map (substitute · email)
        auth := (server.authentication.filterMap (autoconfigMethod config)).foldl pushMethod []
        source
        resolved := false }

def fromAutoconfig (config : DiscoveryAutoconfig) (email : String)
    (source : DiscoveryConfigSource) : List DiscoveryServiceConfig :=
  let provider := config.emailProvider
  (provider.incomingServer ++ provider.outgoingServer).filterMap
    (ofAutoconfigServer config email source)

def fromPacc (config : DiscoveryPaccConfig) : List DiscoveryServiceConfig :=
  let auth := (config.authentication.oauthPublic.map
      (DiscoveryAuthMethod.oauthIssuer ·.issuer)).toList ++
    (if config.authentication.password = some true then [.password] else [])
  let protocols := config.protocols
  let tcpProtocols : List (DiscoveryService × Option DiscoveryTextProtocol × UInt16) :=
    [(.imap, protocols.imap, 993), (.pop3, protocols.pop3, 995), (.smtp, protocols.smtp, 465),
      (.managesieve, protocols.managesieve, 4190)]
  let httpProtocols : List (DiscoveryService × Option DiscoveryHttpProtocol) :=
    [(.jmap, protocols.jmap), (.caldav, protocols.caldav), (.carddav, protocols.carddav),
      (.webdav, protocols.webdav)]
  (tcpProtocols.filterMap fun (service, protocol, port) =>
    protocol.map fun protocol =>
      { service, endpoint := .tcp protocol.host port .tls, username := none, auth,
        source := .pacc, resolved := false }) ++
  (httpProtocols.filterMap fun (service, protocol) =>
    protocol.map fun protocol =>
      { service, endpoint := .http protocol.url, username := none, auth,
        source := .pacc, resolved := false })

def fromSrv (report : DiscoverySrvReport) : List DiscoveryServiceConfig :=
  let services : List (DiscoveryService × Option DiscoverySrvService × DiscoverySecurity) :=
    [(.imap, report.imaps, .tls), (.imap, report.imap, .starttls),
      (.smtp, report.submissions, .tls), (.smtp, report.submission, .starttls)]
  services.filterMap fun (service, record, security) =>
    match record with
    | none => none
    | some record =>
      if record.host.isEmpty then none
      else some
        { service, endpoint := .tcp record.host record.port security, username := none,
          auth := [.password], source := .srv, resolved := false }

def fromDav (service : DiscoveryService) (url : String) : DiscoveryServiceConfig :=
  { service, endpoint := .http url, username := none, auth := [.password], source := .dav,
    resolved := true }

def fromJmap (url : String) (schemes : List String) : DiscoveryServiceConfig :=
  { service := .jmap, endpoint := .http url, username := none, auth := schemeMethods schemes,
    source := .jmap, resolved := false }

end DiscoveryServiceConfig
end PimDiscovery
