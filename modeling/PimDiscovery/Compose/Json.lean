import PimDiscovery.Serde.Json
import PimDiscovery.Compose.Config

/-! A service config as JSON, through its wire shape: the source named apart from the provider. -/

namespace PimDiscovery
open Serde Serialize Deserialize

instance : UnitEnum DiscoveryService where
  name
    | .imap => "imap"
    | .pop3 => "pop3"
    | .smtp => "smtp"
    | .jmap => "jmap"
    | .caldav => "caldav"
    | .carddav => "carddav"
    | .webdav => "webdav"
    | .managesieve => "managesieve"
    | .gmail => "gmail"
    | .gcal => "gcal"
    | .gpeople => "gpeople"
    | .msgraph => "msgraph"
    | .msgraphCalendar => "msgraphCalendar"
    | .msgraphContacts => "msgraphContacts"
  variants :=
    [("imap", .imap), ("pop3", .pop3), ("smtp", .smtp), ("jmap", .jmap), ("caldav", .caldav),
      ("carddav", .carddav), ("webdav", .webdav), ("managesieve", .managesieve),
      ("gmail", .gmail), ("gcal", .gcal), ("gpeople", .gpeople), ("msgraph", .msgraph),
      ("msgraphCalendar", .msgraphCalendar), ("msgraphContacts", .msgraphContacts)]
  lookup_name service := by cases service <;> rfl

instance : UnitEnum DiscoverySecurity where
  name
    | .plain => "plain"
    | .starttls => "starttls"
    | .tls => "tls"
  variants := [("plain", .plain), ("starttls", .starttls), ("tls", .tls)]
  lookup_name security := by cases security <;> rfl

instance : UnitEnum DiscoveryKnownProvider where
  name
    | .google => "google"
    | .microsoft => "microsoft"
  variants := [("google", .google), ("microsoft", .microsoft)]
  lookup_name provider := by cases provider <;> rfl

instance : Enum DiscoveryEndpoint where
  write
    | .tcp host port security =>
      ("tcp", some (.object
        [("host", serialize host), ("port", serialize port), ("security", serialize security)]))
    | .http url => ("http", some (serialize url))
  read
    | ("tcp", payload) =>
      structVariant "struct variant DiscoveryEndpoint::Tcp" (fun entries => do
        return .tcp (← field entries "host" []) (← field entries "port" [])
          (← field entries "security" [])) payload
    | ("http", payload) => newtypeVariant .http payload
    | (tag, _) => .error (.unknownVariant tag)

instance : LawfulEnum DiscoveryEndpoint where
  read_write endpoint := by
    cases endpoint with
    | tcp host port security =>
      simp [Enum.read, Enum.write, structVariant, entriesOf, field, fieldWith, named]
    | http url => simp [Enum.read, Enum.write, newtypeVariant]

/-- The entries of an OAuth grant, its first endpoint under a name of its own. -/
def writeGrant (endpointName endpoint tokenEndpoint : String) (scope resource : Option String)
    (scopesSupported : List String) : JsonValue :=
  .object
    [(endpointName, serialize endpoint), ("tokenEndpoint", serialize tokenEndpoint),
      ("scope", serialize scope), ("resource", serialize resource),
      ("scopesSupported", serialize scopesSupported)]

def readGrant {α : Type}
    (variant : String → String → Option String → Option String → List String → α)
    (endpointName : String) (entries : List (String × JsonValue)) : Except Error α := do
  return variant (← field entries endpointName []) (← field entries "tokenEndpoint" [])
    (← field entries "scope" []) (← fieldOr entries "resource" [] none)
    (← fieldOr entries "scopesSupported" [] [])

instance : Enum DiscoveryAuthMethod where
  write
    | .password => ("password", none)
    | .bearer => ("bearer", none)
    | .oauthAuthorizationCodeGrant authorizationEndpoint tokenEndpoint scope resource
        scopesSupported =>
      ("oauthAuthorizationCodeGrant",
        some (writeGrant "authorizationEndpoint" authorizationEndpoint tokenEndpoint scope resource
          scopesSupported))
    | .oauthDeviceAuthorizationGrant deviceAuthorizationEndpoint tokenEndpoint scope resource
        scopesSupported =>
      ("oauthDeviceAuthorizationGrant",
        some (writeGrant "deviceAuthorizationEndpoint" deviceAuthorizationEndpoint tokenEndpoint
          scope resource scopesSupported))
    | .oauthIssuer issuer => ("oauthIssuer", some (serialize issuer))
  read
    | ("password", payload) => unitVariant .password payload
    | ("bearer", payload) => unitVariant .bearer payload
    | ("oauthAuthorizationCodeGrant", payload) =>
      structVariant "struct variant DiscoveryAuthMethod::OauthAuthorizationCodeGrant"
        (readGrant .oauthAuthorizationCodeGrant "authorizationEndpoint") payload
    | ("oauthDeviceAuthorizationGrant", payload) =>
      structVariant "struct variant DiscoveryAuthMethod::OauthDeviceAuthorizationGrant"
        (readGrant .oauthDeviceAuthorizationGrant "deviceAuthorizationEndpoint") payload
    | ("oauthIssuer", payload) => newtypeVariant .oauthIssuer payload
    | (tag, _) => .error (.unknownVariant tag)

instance : LawfulEnum DiscoveryAuthMethod where
  read_write method := by
    cases method with
    | password => rfl
    | bearer => rfl
    | oauthIssuer issuer => simp [Enum.read, Enum.write, newtypeVariant]
    | oauthAuthorizationCodeGrant authorizationEndpoint tokenEndpoint scope resource scopes =>
      simp [Enum.read, Enum.write, structVariant, writeGrant, readGrant, entriesOf, field, fieldOr,
        fieldWith, named]
    | oauthDeviceAuthorizationGrant deviceAuthorizationEndpoint tokenEndpoint scope resource
        scopes =>
      simp [Enum.read, Enum.write, structVariant, writeGrant, readGrant, entriesOf, field, fieldOr,
        fieldWith, named]

inductive DiscoveryConfigSourceWire where
  | provider | pacc | ispMain | ispFallback | mailconf | ispdb | mx | srv | dav | jmap
  deriving DecidableEq, Repr

instance : UnitEnum DiscoveryConfigSourceWire where
  name
    | .provider => "provider"
    | .pacc => "pacc"
    | .ispMain => "ispMain"
    | .ispFallback => "ispFallback"
    | .mailconf => "mailconf"
    | .ispdb => "ispdb"
    | .mx => "mx"
    | .srv => "srv"
    | .dav => "dav"
    | .jmap => "jmap"
  variants :=
    [("provider", .provider), ("pacc", .pacc), ("ispMain", .ispMain),
      ("ispFallback", .ispFallback), ("mailconf", .mailconf), ("ispdb", .ispdb), ("mx", .mx),
      ("srv", .srv), ("dav", .dav), ("jmap", .jmap)]
  lookup_name source := by cases source <;> rfl

structure DiscoveryServiceConfigWire where
  service : DiscoveryService
  endpoint : DiscoveryEndpoint
  username : Option String
  auth : List DiscoveryAuthMethod
  source : DiscoveryConfigSourceWire
  resolved : Bool
  provider : Option DiscoveryKnownProvider
  deriving DecidableEq, Repr

instance : Struct DiscoveryServiceConfigWire where
  expected := "struct DiscoveryServiceConfigWire"
  write self :=
    [("service", serialize self.service), ("endpoint", serialize self.endpoint),
      ("username", serialize self.username), ("auth", serialize self.auth),
      ("source", serialize self.source), ("resolved", serialize self.resolved)] ++
    if self.provider.isNone then [] else [("provider", serialize self.provider)]
  read entries := return {
    service := ← field entries "service" []
    endpoint := ← field entries "endpoint" []
    username := ← field entries "username" []
    auth := ← field entries "auth" []
    source := ← field entries "source" []
    resolved := ← fieldOr entries "resolved" [] false
    provider := ← fieldOr entries "provider" [] none }

instance : LawfulStruct DiscoveryServiceConfigWire where
  read_write self := by
    obtain ⟨service, endpoint, username, auth, source, resolved, _ | provider⟩ := self <;>
      simp [Struct.read, Struct.write, field, fieldOr, fieldWith, named]

def DiscoveryServiceConfigWire.fromConfig (config : DiscoveryServiceConfig) :
    DiscoveryServiceConfigWire :=
  let (source, provider) := match config.source with
    | .provider p => (.provider, some p)
    | .pacc => (.pacc, none)
    | .ispMain => (.ispMain, none)
    | .ispFallback => (.ispFallback, none)
    | .mailconf => (.mailconf, none)
    | .ispdb => (.ispdb, none)
    | .mx => (.mx, none)
    | .srv => (.srv, none)
    | .dav => (.dav, none)
    | .jmap => (.jmap, none)
  { service := config.service, endpoint := config.endpoint, username := config.username
    auth := config.auth, source, resolved := config.resolved, provider }

namespace DiscoveryServiceConfig
open DiscoveryServiceConfigWire (fromConfig)

def tryFrom (wire : DiscoveryServiceConfigWire) : Except String DiscoveryServiceConfig := do
  let source ← match wire.source with
    | .provider => match wire.provider with
      | some provider => .ok (.provider provider)
      | none => .error "Provider source without a provider field"
    | .pacc => .ok .pacc
    | .ispMain => .ok .ispMain
    | .ispFallback => .ok .ispFallback
    | .mailconf => .ok .mailconf
    | .ispdb => .ok .ispdb
    | .mx => .ok .mx
    | .srv => .ok .srv
    | .dav => .ok .dav
    | .jmap => .ok .jmap
  return { service := wire.service, endpoint := wire.endpoint, username := wire.username
           auth := wire.auth, source, resolved := wire.resolved }

instance : Serialize DiscoveryServiceConfig := ⟨fun config => serialize (fromConfig config)⟩

instance : Deserialize DiscoveryServiceConfig where
  deserialize value := do
    let wire : DiscoveryServiceConfigWire ← deserialize value
    (tryFrom wire).mapError .custom

theorem tryFrom_fromConfig (config : DiscoveryServiceConfig) :
    tryFrom (fromConfig config) = .ok config := by
  obtain ⟨service, endpoint, username, auth, source, resolved⟩ := config
  cases source <;> rfl

theorem tryFrom_error_iff (wire : DiscoveryServiceConfigWire) :
    (∃ e, tryFrom wire = .error e) ↔ wire.source = .provider ∧ wire.provider = none := by
  obtain ⟨service, endpoint, username, auth, source, resolved, provider⟩ := wire
  cases source <;> cases provider <;> simp [tryFrom]

end DiscoveryServiceConfig

def DiscoveryServiceConfigWire.StrayProvider (wire : DiscoveryServiceConfigWire) : Prop :=
  wire.source ≠ .provider ∧ wire.provider ≠ none

namespace DiscoveryServiceConfig
open DiscoveryServiceConfigWire (fromConfig)

/-- The conversion loses nothing but a stray provider. -/
theorem fromConfig_eq_iff {wire : DiscoveryServiceConfigWire} {config : DiscoveryServiceConfig}
    (h : tryFrom wire = .ok config) : fromConfig config = wire ↔ ¬ wire.StrayProvider := by
  obtain ⟨service, endpoint, username, auth, source, resolved, provider⟩ := wire
  -- The refused case goes with `h`; each of the others is one row of the two source tables.
  cases source <;> cases provider <;> cases h <;>
    simp [fromConfig, DiscoveryServiceConfigWire.StrayProvider]

theorem deserialize_of_wire {value : JsonValue} {wire : DiscoveryServiceConfigWire}
    (h : deserialize value = .ok wire) :
    (deserialize value : Except Error DiscoveryServiceConfig) =
      (tryFrom wire).mapError .custom := by
  show deserialize value >>= (fun wire => (tryFrom wire).mapError .custom) = _
  rw [h, ok_bind]

instance : RoundTrip DiscoveryServiceConfig where
  deserialize_serialize config := by
    have hwire : deserialize (serialize config) = .ok (fromConfig config) :=
      RoundTrip.deserialize_serialize (fromConfig config)
    rw [deserialize_of_wire hwire, tryFrom_fromConfig]
    rfl

/-- The JSON of a config is read back as the config; an accepted wire object without a stray
provider is written again with the same fields; and the conversion refuses exactly a provider
source that names no provider. -/
theorem json_is_faithful :
    (∀ config : DiscoveryServiceConfig, deserialize (serialize config) = .ok config) ∧
    (∀ (value : JsonValue) (wire : DiscoveryServiceConfigWire) (config : DiscoveryServiceConfig),
      deserialize value = .ok wire → deserialize value = .ok config → ¬ wire.StrayProvider →
        serialize config = serialize wire ∧ deserialize (serialize config) = .ok wire) ∧
    ∀ wire : DiscoveryServiceConfigWire,
      (∃ e, tryFrom wire = .error e) ↔ wire.source = .provider ∧ wire.provider = none := by
  refine ⟨RoundTrip.deserialize_serialize, ?_, tryFrom_error_iff⟩
  intro value wire config hwire hconfig hstray
  have hfrom : tryFrom wire = .ok config := by
    rw [deserialize_of_wire hwire] at hconfig
    cases hwire : tryFrom wire with
    | error e => rw [hwire] at hconfig; cases hconfig
    | ok _ => rw [hwire] at hconfig; cases hconfig; rfl
  have hwritten : serialize config = serialize wire :=
    congrArg serialize ((fromConfig_eq_iff hfrom).mpr hstray)
  refine ⟨hwritten, ?_⟩
  rw [hwritten, RoundTrip.deserialize_serialize]

end DiscoveryServiceConfig
end PimDiscovery
