import PimDiscovery.Pacc.Config
import PimDiscovery.Serde.Redraft

/-! The PACC document whole, as JSON: with the block that is shown to a person. -/

namespace PimDiscovery
open Serde Serialize Deserialize

structure DiscoveryLogo where
  url : String
  contentType : Option String
  deriving DecidableEq, Repr

structure DiscoveryProvider where
  name : String
  shortName : Option String
  logo : Option (List DiscoveryLogo)
  deriving DecidableEq, Repr

structure DiscoveryHelp where
  documentation : Option String
  developer : Option String
  contact : Option (List String)
  deriving DecidableEq, Repr

structure DiscoveryInfo where
  provider : DiscoveryProvider
  help : Option DiscoveryHelp
  deriving DecidableEq, Repr

structure Wire.DiscoveryPaccConfig where
  protocols : DiscoveryProtocols
  authentication : DiscoveryAuthentication
  info : DiscoveryInfo
  deriving DecidableEq, Repr

def Wire.DiscoveryPaccConfig.core (self : Wire.DiscoveryPaccConfig) : PimDiscovery.DiscoveryPaccConfig where
  protocols := self.protocols
  authentication := self.authentication

instance : Struct DiscoveryHttpProtocol where
  expected := "struct DiscoveryHttpProtocol"
  write self := [("url", serialize self.url)]
  read entries := return { url := ← field entries "url" [] }

instance : Struct DiscoveryTextProtocol where
  expected := "struct DiscoveryTextProtocol"
  write self := [("host", serialize self.host)]
  read entries := return { host := ← field entries "host" [] }

instance : LawfulStruct DiscoveryHttpProtocol where
  read_write self := by simp [Struct.read, Struct.write, field, fieldWith, named]

instance : LawfulStruct DiscoveryTextProtocol where
  read_write self := by simp [Struct.read, Struct.write, field, fieldWith, named]

instance : Struct DiscoveryProtocols where
  expected := "struct DiscoveryProtocols"
  write self :=
    skipNone "jmap" self.jmap ++ skipNone "caldav" self.caldav ++ skipNone "carddav" self.carddav ++
      skipNone "webdav" self.webdav ++ skipNone "imap" self.imap ++ skipNone "pop3" self.pop3 ++
      skipNone "smtp" self.smtp ++ skipNone "managesieve" self.managesieve
  read entries := return {
    jmap := ← field entries "jmap" []
    caldav := ← field entries "caldav" []
    carddav := ← field entries "carddav" []
    webdav := ← field entries "webdav" []
    imap := ← field entries "imap" []
    pop3 := ← field entries "pop3" []
    smtp := ← field entries "smtp" []
    managesieve := ← field entries "managesieve" [] }

instance : LawfulStruct DiscoveryProtocols where
  read_write self := by simp [Struct.read, Struct.write, field_option]

instance : Struct DiscoveryOauthPublic where
  expected := "struct DiscoveryOauthPublic"
  write self := [("issuer", serialize self.issuer)]
  read entries := return { issuer := ← field entries "issuer" [] }

instance : LawfulStruct DiscoveryOauthPublic where
  read_write self := by simp [Struct.read, Struct.write, field, fieldWith, named]

instance : Struct DiscoveryAuthentication where
  expected := "struct DiscoveryAuthentication"
  write self := skipNone "oauth-public" self.oauthPublic ++ skipNone "password" self.password
  read entries := return {
    oauthPublic := ← field entries "oauth-public" []
    password := ← field entries "password" [] }

instance : LawfulStruct DiscoveryAuthentication where
  read_write self := by simp [Struct.read, Struct.write, field_option]

instance : Struct DiscoveryLogo where
  expected := "struct DiscoveryLogo"
  write self := ("url", serialize self.url) :: skipNone "content-type" self.contentType
  read entries := return {
    url := ← field entries "url" []
    contentType := ← field entries "content-type" [] }

instance : LawfulStruct DiscoveryLogo where
  read_write self := by
    simp only [Struct.read, Struct.write, field_option]
    simp [field, fieldWith, named_cons]

instance : Struct DiscoveryProvider where
  expected := "struct DiscoveryProvider"
  write self :=
    ("name", serialize self.name) :: skipNone "shortName" self.shortName ++ skipNone "logo" self.logo
  read entries := return {
    name := ← field entries "name" []
    shortName := ← field entries "shortName" []
    logo := ← field entries "logo" [] }

instance : LawfulStruct DiscoveryProvider where
  read_write self := by
    simp only [Struct.read, Struct.write, field_option]
    simp [field, fieldWith, named_cons]

instance : Struct DiscoveryHelp where
  expected := "struct DiscoveryHelp"
  write self :=
    skipNone "documentation" self.documentation ++ skipNone "developer" self.developer ++
      skipNone "contact" self.contact
  read entries := return {
    documentation := ← field entries "documentation" []
    developer := ← field entries "developer" []
    contact := ← field entries "contact" [] }

instance : LawfulStruct DiscoveryHelp where
  read_write self := by simp [Struct.read, Struct.write, field_option]

instance : Struct DiscoveryInfo where
  expected := "struct DiscoveryInfo"
  write self := ("provider", serialize self.provider) :: skipNone "help" self.help
  read entries := return {
    provider := ← field entries "provider" []
    help := ← field entries "help" [] }

instance : LawfulStruct DiscoveryInfo where
  read_write self := by
    simp only [Struct.read, Struct.write, field_option]
    simp [field, fieldWith, named_cons]

instance : Struct Wire.DiscoveryPaccConfig where
  expected := "struct DiscoveryPaccConfig"
  write self :=
    [("protocols", serialize self.protocols), ("authentication", serialize self.authentication),
      ("info", serialize self.info)]
  read entries := return {
    protocols := ← field entries "protocols" []
    authentication := ← field entries "authentication" []
    info := ← field entries "info" [] }

instance : LawfulStruct Wire.DiscoveryPaccConfig where
  read_write self := by simp [Struct.read, Struct.write, field, fieldWith, named]

def Wire.DiscoveryPaccConfig.names : List String :=
  ["protocols", "authentication", "info", "jmap", "caldav", "carddav", "webdav", "imap", "pop3", "smtp",
    "managesieve", "url", "host", "oauth-public", "password", "issuer", "provider", "help", "name",
    "shortName", "logo", "content-type", "documentation", "developer", "contact"]

namespace Wire.DiscoveryPaccConfig
variable {known : String → Bool} (h : ∀ name ∈ DiscoveryPaccConfig.names, known name = true)
include h

theorem protocols_tolerant : Tolerant known DiscoveryProtocols := by
  simp only [names, List.forall_mem_cons] at h
  have hhttp : Tolerant known DiscoveryHttpProtocol := tolerant_struct fun {entries entries'} hentries => by
    simp only [Struct.read, field_redraft hentries, h]
  have htext : Tolerant known DiscoveryTextProtocol := tolerant_struct fun {entries entries'} hentries => by
    simp only [Struct.read, field_redraft hentries, h]
  refine tolerant_struct fun {entries entries'} hentries => ?_
  simp only [Struct.read, field_redraft hentries, h]

theorem authentication_tolerant : Tolerant known DiscoveryAuthentication := by
  simp only [names, List.forall_mem_cons] at h
  have hoauth : Tolerant known DiscoveryOauthPublic := tolerant_struct fun {entries entries'} hentries => by
    simp only [Struct.read, field_redraft hentries, h]
  refine tolerant_struct fun {entries entries'} hentries => ?_
  simp only [Struct.read, field_redraft hentries, h]

theorem info_tolerant : Tolerant known DiscoveryInfo := by
  simp only [names, List.forall_mem_cons] at h
  have hlogo : Tolerant known DiscoveryLogo := tolerant_struct fun {entries entries'} hentries => by
    simp only [Struct.read, field_redraft hentries, h]
  have hprovider : Tolerant known DiscoveryProvider := tolerant_struct fun {entries entries'} hentries => by
    simp only [Struct.read, field_redraft hentries, h]
  have hhelp : Tolerant known DiscoveryHelp := tolerant_struct fun {entries entries'} hentries => by
    simp only [Struct.read, field_redraft hentries, h]
  refine tolerant_struct fun {entries entries'} hentries => ?_
  simp only [Struct.read, field_redraft hentries, h]

theorem tolerant : Tolerant known DiscoveryPaccConfig := by
  have hprotocols := protocols_tolerant h
  have hauthentication := authentication_tolerant h
  have hinfo := info_tolerant h
  simp only [names, List.forall_mem_cons] at h
  refine tolerant_struct fun {entries entries'} hentries => ?_
  simp only [Struct.read, field_redraft hentries, h]

omit h in
instance : Tolerant DiscoveryPaccConfig.names.contains DiscoveryPaccConfig :=
  tolerant fun _ => List.contains_iff_mem.mpr

end Wire.DiscoveryPaccConfig
end PimDiscovery
