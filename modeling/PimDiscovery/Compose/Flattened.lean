import PimDiscovery.Compose.Refined

/-! How an autoconfig document is flattened: the config of each of its servers. -/

namespace PimDiscovery
namespace DiscoveryServiceConfig

def mailService : DiscoveryServerType → DiscoveryService
  | .imap => .imap
  | .pop3 => .pop3
  | .smtp => .smtp

/-- The security a socket type asks for; a server that names none is taken to speak TLS. -/
def mailSecurity : Option DiscoverySecurityType → DiscoverySecurity
  | none => .tls
  | some .tls => .tls
  | some .starttls => .starttls
  | some .plain => .plain

inductive Recognised (document : DiscoveryAutoconfig) :
    DiscoveryAuthenticationType → DiscoveryAuthMethod → Prop where
  | cleartext : Recognised document .passwordCleartext .password
  | encrypted : Recognised document .passwordEncrypted .password
  | oauth {oauth : DiscoveryOAuth2Config} (h : document.oauth2 = some oauth) :
      Recognised document .oAuth2
        (.oauthAuthorizationCodeGrant oauth.authUrl oauth.tokenUrl (some oauth.scope) none [])

structure Flattens (document : DiscoveryAutoconfig) (email : String) (source : DiscoveryConfigSource)
    (server : DiscoveryServer) (config : DiscoveryServiceConfig) : Prop where
  service : config.service = mailService server.type
  endpoint : ∃ hostname port, server.hostname = some hostname ∧
    config.endpoint = .tcp (substitute hostname email) port (mailSecurity server.socketType) ∧
    (∀ given, server.port = some given → port = given) ∧
    (server.port = none → defaultPort config.service (mailSecurity server.socketType) = some port)
  username : config.username = server.username.map (substitute · email)
  source : config.source = source
  unresolved : config.resolved = false
  /-- In the order in which the entries first name them. -/
  auth : config.auth = (server.authentication.filterMap (autoconfigMethod document)).eraseDups
  once : config.auth.Nodup
  methods : ∀ method, method ∈ config.auth ↔
    ∃ entry ∈ server.authentication, Recognised document entry method

theorem autoconfigMethod_eq_some {document : DiscoveryAutoconfig}
    {entry : DiscoveryAuthenticationType} {method : DiscoveryAuthMethod} :
    autoconfigMethod document entry = some method ↔ Recognised document entry method := by
  constructor
  · intro h
    cases entry with
    | passwordCleartext =>
      obtain rfl := Option.some.inj h
      exact .cleartext
    | passwordEncrypted =>
      obtain rfl := Option.some.inj h
      exact .encrypted
    | oAuth2 =>
      obtain ⟨oauth, hoauth, rfl⟩ := Option.map_eq_some_iff.mp h
      exact .oauth hoauth
    | ntlm | gsApi | clientIPAddress | tlsClientCert | none => cases h
  · rintro (_ | _ | h)
    · rfl
    · rfl
    · simp [autoconfigMethod, h]

theorem defaultPort_mailService (type : DiscoveryServerType) (security : DiscoverySecurity) :
    ∃ port, defaultPort (mailService type) security = some port := by
  cases type <;> cases security <;> exact ⟨_, rfl⟩

variable (document : DiscoveryAutoconfig) (email : String) (source : DiscoveryConfigSource)

theorem ofAutoconfigServer_eq (server : DiscoveryServer) :
    ofAutoconfigServer document email source server = server.hostname.bind fun hostname =>
      (server.port.or (defaultPort (mailService server.type) (mailSecurity server.socketType))).map
        fun port =>
          { service := mailService server.type
            endpoint := .tcp (substitute hostname email) port (mailSecurity server.socketType)
            username := server.username.map (substitute · email)
            auth := (server.authentication.filterMap (autoconfigMethod document)).foldl pushMethod []
            source
            resolved := false } := by
  obtain ⟨type, _ | hostname, port, socketType, username, authentication, pop3⟩ := server
  · rfl
  · cases type <;> rcases socketType with _ | _ | _ | _ <;> cases port <;> rfl

theorem ofAutoconfigServer_flattens {server : DiscoveryServer} (h : server.hostname.isSome = true) :
    ∃ config, ofAutoconfigServer document email source server = some config ∧
      Flattens document email source server config := by
  obtain ⟨hostname, hhostname⟩ := Option.isSome_iff_exists.mp h
  obtain ⟨default, hdefault⟩ := defaultPort_mailService server.type (mailSecurity server.socketType)
  have hauth : (server.authentication.filterMap (autoconfigMethod document)).foldl pushMethod [] =
      (server.authentication.filterMap (autoconfigMethod document)).eraseDups := by
    rw [DiscoveryConfigCollector.foldl_pushMethod]
    simp
  have hport : server.port.or (some default) = some (server.port.getD default) := by
    cases server.port <;> rfl
  rw [ofAutoconfigServer_eq, hhostname, hdefault, hauth, hport]
  refine ⟨_, rfl, ?_⟩
  constructor
  case endpoint =>
    refine ⟨hostname, server.port.getD default, hhostname, rfl, fun given hgiven => ?_, fun hnone => ?_⟩
    · rw [hgiven]
      rfl
    · rw [hnone]
      exact hdefault
  case once => exact nodup_eraseDups _
  case methods =>
    intro method
    simp only [List.mem_eraseDups, List.mem_filterMap, autoconfigMethod_eq_some]
  all_goals rfl

/-- Flattening gives one config for each server with a hostname, the incoming ones first, in the
order of the document. -/
theorem fromAutoconfig_faithful :
    List.Forall₂ (Flattens document email source)
      ((document.emailProvider.incomingServer ++ document.emailProvider.outgoingServer).filter
        (·.hostname.isSome))
      (fromAutoconfig document email source) := by
  simp only [fromAutoconfig]
  generalize document.emailProvider.incomingServer ++ document.emailProvider.outgoingServer = servers
  induction servers with
  | nil => exact .nil
  | cons server servers ih =>
    cases hhostname : server.hostname.isSome with
    | true =>
      obtain ⟨config, hconfig, hflattens⟩ := ofAutoconfigServer_flattens document email source hhostname
      rw [List.filter_cons, if_pos hhostname, List.filterMap_cons_some hconfig]
      exact .cons hflattens ih
    | false =>
      have hnone : server.hostname = none := by simpa using hhostname
      have hskipped : ofAutoconfigServer document email source server = none := by
        rw [ofAutoconfigServer_eq, hnone]
        rfl
      rw [List.filter_cons, if_neg (by simp [hhostname]), List.filterMap_cons_none hskipped]
      exact ih

end DiscoveryServiceConfig
end PimDiscovery
