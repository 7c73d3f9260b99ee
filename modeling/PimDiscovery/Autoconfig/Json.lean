import PimDiscovery.Serde.Json
import PimDiscovery.Autoconfig.Config

/-! The autoconfig document as JSON: what is written, and what is read back. -/

namespace PimDiscovery
open Serde Serialize Deserialize

instance : UnitEnum DiscoveryServerType where
  name
    | .pop3 => "pop3"
    | .imap => "imap"
    | .smtp => "smtp"
  variants := [("pop3", .pop3), ("imap", .imap), ("smtp", .smtp)]
  lookup_name a := by cases a <;> rfl

instance : UnitEnum DiscoverySecurityType where
  name
    | .plain => "plain"
    | .starttls => "starttls"
    | .tls => "tls"
  variants :=
    [("plain", .plain), ("starttls", .starttls), ("STARTTLS", .starttls), ("tls", .tls),
      ("SSL", .tls)]
  lookup_name a := by cases a <;> rfl

instance : UnitEnum DiscoveryAuthenticationType where
  name
    | .passwordCleartext => "passwordCleartext"
    | .passwordEncrypted => "passwordEncrypted"
    | .ntlm => "ntlm"
    | .gsApi => "gsApi"
    | .clientIPAddress => "clientIPAddress"
    | .tlsClientCert => "tlsClientCert"
    | .oAuth2 => "oAuth2"
    | .none => "none"
  variants :=
    [("passwordCleartext", .passwordCleartext), ("password-cleartext", .passwordCleartext),
      ("passwordEncrypted", .passwordEncrypted), ("password-encrypted", .passwordEncrypted),
      ("ntlm", .ntlm), ("NTLM", .ntlm), ("gsApi", .gsApi), ("GSAPI", .gsApi),
      ("clientIPAddress", .clientIPAddress), ("client-IP-address", .clientIPAddress),
      ("tlsClientCert", .tlsClientCert), ("TLS-client-cert", .tlsClientCert),
      ("oAuth2", .oAuth2), ("OAuth2", .oAuth2), ("none", .none)]
  lookup_name a := by cases a <;> rfl

namespace TextEnum

/-- The text content of an XML leaf element. -/
structure Text (α : Type) where
  text : α

variable {α : Type} [Deserialize α]

instance : Deserialize (Text α) where
  deserialize value := do
    let entries ← entriesOf "struct Text" value
    return { text := ← field entries "#text" [] }

def Option.deserialize (value : JsonValue) : Except Error (Option α) := do
  let t : Text α ← Deserialize.deserialize value
  return some t.text

def Vec.deserialize (value : JsonValue) : Except Error (List α) := do
  let v : List (Text α) ← Deserialize.deserialize value
  return v.map Text.text

end TextEnum

instance : Struct DiscoveryCheckInterval where
  expected := "struct DiscoveryCheckInterval"
  write self := [("minutes", serialize self.minutes)]
  read entries := return { minutes := ← field entries "minutes" ["@minutes"] }

instance : LawfulStruct DiscoveryCheckInterval where
  read_write self := by simp [Struct.read, Struct.write, field, fieldWith, named]

instance : Struct DiscoveryPop3Config where
  expected := "struct DiscoveryPop3Config"
  write self :=
    [("leaveMessagesOnServer", serialize self.leaveMessagesOnServer),
      ("downloadOnBiff", serialize self.downloadOnBiff),
      ("daysToLeaveMessagesOnServer", serialize self.daysToLeaveMessagesOnServer),
      ("checkInterval", serialize self.checkInterval)]
  read entries := return {
    leaveMessagesOnServer := ← field entries "leaveMessagesOnServer" []
    downloadOnBiff := ← field entries "downloadOnBiff" []
    daysToLeaveMessagesOnServer := ← field entries "daysToLeaveMessagesOnServer" []
    checkInterval := ← field entries "checkInterval" [] }

instance : LawfulStruct DiscoveryPop3Config where
  read_write self := by simp [Struct.read, Struct.write, field, fieldWith, named]

instance : Struct DiscoveryServer where
  expected := "struct DiscoveryServer"
  write self :=
    [("type", serialize self.type), ("hostname", serialize self.hostname),
      ("port", serialize self.port), ("socketType", serialize self.socketType),
      ("username", serialize self.username), ("authentication", serialize self.authentication),
      ("pop3", serialize self.pop3)]
  read entries := return {
    type := ← field entries "type" ["@type"]
    hostname := ← field entries "hostname" []
    port := ← field entries "port" []
    socketType := ← fieldWith entries "socketType" [] (.ok none) TextEnum.Option.deserialize
    username := ← field entries "username" []
    authentication := ← fieldWith entries "authentication" [] (.ok []) TextEnum.Vec.deserialize
    pop3 := ← field entries "pop3" [] }

instance : Struct DiscoveryDescription where
  expected := "struct DiscoveryDescription"
  write self := [("lang", serialize self.lang), ("text", serialize self.text)]
  read entries := return {
    lang := ← field entries "lang" ["@lang"]
    text := ← field entries "text" ["#text"] }

instance : LawfulStruct DiscoveryDescription where
  read_write self := by simp [Struct.read, Struct.write, field, fieldWith, named]

instance : Struct DiscoveryDocumentation where
  expected := "struct DiscoveryDocumentation"
  write self := [("url", serialize self.url), ("descriptions", serialize self.descriptions)]
  read entries := return {
    url := ← field entries "url" ["@url"]
    descriptions := ← fieldOr entries "descriptions" ["descr"] [] }

instance : LawfulStruct DiscoveryDocumentation where
  read_write self := by simp [Struct.read, Struct.write, field, fieldOr, fieldWith, named]

instance : Struct DiscoveryEmailProvider where
  expected := "struct DiscoveryEmailProvider"
  write self :=
    [("id", serialize self.id), ("domain", serialize self.domain),
      ("displayName", serialize self.displayName),
      ("displayShortName", serialize self.displayShortName),
      ("incomingServer", serialize self.incomingServer),
      ("outgoingServer", serialize self.outgoingServer),
      ("documentation", serialize self.documentation)]
  read entries := return {
    id := ← field entries "id" ["@id"]
    domain := ← fieldOr entries "domain" [] []
    displayName := ← field entries "displayName" []
    displayShortName := ← field entries "displayShortName" []
    incomingServer := ← fieldOr entries "incomingServer" [] []
    outgoingServer := ← fieldOr entries "outgoingServer" [] []
    documentation := ← fieldOr entries "documentation" [] [] }

instance : Struct DiscoveryOAuth2Config where
  expected := "struct DiscoveryOAuth2Config"
  write self :=
    [("issuer", serialize self.issuer), ("scope", serialize self.scope),
      ("authUrl", serialize self.authUrl), ("tokenUrl", serialize self.tokenUrl)]
  read entries := return {
    issuer := ← field entries "issuer" []
    scope := ← field entries "scope" []
    authUrl := ← field entries "authUrl" ["authURL"]
    tokenUrl := ← field entries "tokenUrl" ["tokenURL"] }

instance : LawfulStruct DiscoveryOAuth2Config where
  read_write self := by simp [Struct.read, Struct.write, field, fieldWith, named]

instance : Struct DiscoveryAutoconfig where
  expected := "struct DiscoveryAutoconfig"
  write self :=
    [("version", serialize self.version), ("emailProvider", serialize self.emailProvider),
      ("oauth2", serialize self.oauth2)]
  read entries := return {
    version := ← field entries "version" ["@version"]
    emailProvider := ← field entries "emailProvider" []
    oauth2 := ← field entries "oauth2" ["oAuth2"] }

/-- A socket type is written as a name or as null, never as an object holding `#text`. -/
theorem socketType_rejected (socketType : Option DiscoverySecurityType) :
    ∃ e, TextEnum.Option.deserialize (α := DiscoverySecurityType) (serialize socketType) =
      .error e := by
  cases socketType with
  | none => exact ⟨_, rfl⟩
  | some security => exact ⟨_, rfl⟩

theorem server_rejected (server : DiscoveryServer) :
    ∃ e, (deserialize (serialize server) : Except Error DiscoveryServer) = .error e := by
  obtain ⟨e, he⟩ := socketType_rejected server.socketType
  refine ⟨e, ?_⟩
  rw [deserialize_serialize_struct]
  -- The type, the hostname and the port are read back; the socket type is not.
  simp [Struct.read, Struct.write, field, fieldWith, named, he]

theorem servers_read_iff (servers : List DiscoveryServer) :
    deserialize (serialize servers) = .ok servers ↔ servers = [] := by
  constructor
  · intro h
    cases servers with
    | nil => rfl
    | cons server servers =>
      obtain ⟨e, he⟩ := server_rejected server
      rw [show serialize (server :: servers) =
        .array (serialize server :: servers.map serialize) from rfl, deserialize_cons_error he] at h
      cases h
  · rintro rfl
    rfl

theorem provider_read_write (provider : DiscoveryEmailProvider) :
    (deserialize (serialize provider) : Except Error DiscoveryEmailProvider) =
      deserialize (serialize provider.incomingServer) >>= fun incomingServer =>
        deserialize (serialize provider.outgoingServer) >>= fun outgoingServer =>
          .ok { provider with incomingServer, outgoingServer } := by
  rw [deserialize_serialize_struct]
  simp [Struct.read, Struct.write, field, fieldOr, fieldWith, named]

theorem provider_read_iff (provider : DiscoveryEmailProvider) :
    deserialize (serialize provider) = .ok provider ↔
      provider.incomingServer = [] ∧ provider.outgoingServer = [] := by
  rw [provider_read_write, ← servers_read_iff, ← servers_read_iff, bind_eq_ok]
  constructor
  · rintro ⟨incomingServer, hincoming, h⟩
    obtain ⟨outgoingServer, houtgoing, h⟩ := bind_eq_ok.mp h
    rw [Except.ok.injEq] at h
    rw [hincoming, houtgoing, ← h]
    exact ⟨rfl, rfl⟩
  · rintro ⟨hincoming, houtgoing⟩
    exact ⟨_, hincoming, bind_eq_ok.mpr ⟨_, houtgoing, rfl⟩⟩

theorem autoconfig_read_write (config : DiscoveryAutoconfig) :
    (deserialize (serialize config) : Except Error DiscoveryAutoconfig) =
      deserialize (serialize config.emailProvider) >>= fun emailProvider =>
        .ok { config with emailProvider } := by
  rw [deserialize_serialize_struct]
  simp [Struct.read, Struct.write, field, fieldWith, named]

/-- A document is read back from its own JSON exactly when it lists no server. -/
theorem DiscoveryAutoconfig.json_round_trips_iff (config : DiscoveryAutoconfig) :
    deserialize (serialize config) = .ok config ↔
      config.emailProvider.incomingServer = [] ∧ config.emailProvider.outgoingServer = [] := by
  rw [autoconfig_read_write, ← provider_read_iff, bind_eq_ok]
  constructor
  · rintro ⟨emailProvider, hprovider, h⟩
    rw [Except.ok.injEq] at h
    rw [hprovider, ← h]
  · intro hprovider
    exact ⟨_, hprovider, rfl⟩

def imapDocument : DiscoveryAutoconfig where
  version := "1.1"
  emailProvider :=
    { id := "example.com", domain := ["example.com"], displayName := none, displayShortName := none
      incomingServer :=
        [{ type := .imap, hostname := some "imap.example.com", port := some 993
           socketType := some .tls, username := none, authentication := [.passwordCleartext]
           pop3 := none }]
      outgoingServer := [], documentation := [] }
  oauth2 := none

theorem imapDocument_not_read_back :
    deserialize (serialize imapDocument) ≠ .ok imapDocument := by
  have hrejected : (deserialize (serialize imapDocument) : Except Error DiscoveryAutoconfig) =
      .error (.invalid (.str "tls") "struct Text") := rfl
  rw [hrejected]
  intro h
  cases h

end PimDiscovery
