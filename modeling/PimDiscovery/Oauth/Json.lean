import PimDiscovery.Documents
import PimDiscovery.Serde.Redraft

/-! The OAuth metadata documents whole, as JSON: what is written, what is read back, and what of them a
composition goes on with. -/

namespace PimDiscovery
open Serde Serialize Deserialize

/-- A URL as the crate hands them out: one that some text parses to. -/
structure ParsedUrl [UrlCrate] where
  url : Url
  parsed : ∃ text, UrlCrate.parse text = .ok url

/-- A URL is written as a text that it is parsed from again. -/
class LawfulUrl [UrlCrate] : Prop where
  parse_asStr {text : String} {url : Url} (h : UrlCrate.parse text = .ok url) :
    UrlCrate.parse (UrlCrate.asStr url) = .ok url

section
variable [UrlCrate]

@[ext] theorem ParsedUrl.ext {a b : ParsedUrl} (h : a.url = b.url) : a = b := by
  cases a
  cases b
  cases h
  rfl

instance : Serialize ParsedUrl := ⟨fun self => .string (UrlCrate.asStr self.url)⟩

def ParsedUrl.ofText (text : String) : Except Error ParsedUrl :=
  match h : UrlCrate.parse text with
  | .ok url => .ok ⟨url, text, h⟩
  | .error err => .error (.invalid (.str text) err)

instance : Deserialize ParsedUrl where
  deserialize
    | .string text => ParsedUrl.ofText text
    | value => .error (.invalid (unexpected value) "a string representing an URL")

theorem ParsedUrl.ofText_eq {text : String} {url : Url} (h : UrlCrate.parse text = .ok url) :
    ParsedUrl.ofText text = .ok ⟨url, text, h⟩ := by
  unfold ofText
  split
  · rename_i found hfound
    rw [h] at hfound
    obtain rfl := Except.ok.inj hfound
    rfl
  · rename_i err herr
    rw [h] at herr
    cases herr

instance [LawfulUrl] : RoundTrip ParsedUrl where
  deserialize_serialize self := by
    obtain ⟨url, text, h⟩ := self
    exact ParsedUrl.ofText_eq (LawfulUrl.parse_asStr h)

instance : NonNull ParsedUrl := ⟨fun _ h => by cases h⟩

instance {known : String → Bool} : Tolerant known ParsedUrl :=
  ⟨fun h => h.scalar (fun _ => rfl) fun _ => rfl⟩

end

namespace Wire
variable [UrlCrate]

structure DiscoveryOauthServerMetadata where
  issuer : ParsedUrl
  authorizationEndpoint : Option ParsedUrl
  tokenEndpoint : Option ParsedUrl
  jwksUri : Option ParsedUrl
  registrationEndpoint : Option ParsedUrl
  scopesSupported : List String
  responseTypesSupported : List String
  responseModesSupported : List String
  grantTypesSupported : List String
  tokenEndpointAuthMethodsSupported : List String
  serviceDocumentation : Option ParsedUrl
  revocationEndpoint : Option ParsedUrl
  introspectionEndpoint : Option ParsedUrl
  codeChallengeMethodsSupported : List String
  deviceAuthorizationEndpoint : Option ParsedUrl

structure DiscoveryOauthResourceMetadata where
  resource : ParsedUrl
  authorizationServers : List ParsedUrl
  jwksUri : Option ParsedUrl
  scopesSupported : List String
  bearerMethodsSupported : List String
  resourceName : Option String
  resourceDocumentation : Option ParsedUrl
  resourcePolicyUri : Option ParsedUrl
  resourceTosUri : Option ParsedUrl

def DiscoveryOauthServerMetadata.core (self : DiscoveryOauthServerMetadata) :
    PimDiscovery.DiscoveryOauthServerMetadata where
  issuer := self.issuer.url
  authorizationEndpoint := self.authorizationEndpoint.map (·.url)
  tokenEndpoint := self.tokenEndpoint.map (·.url)
  scopesSupported := self.scopesSupported
  deviceAuthorizationEndpoint := self.deviceAuthorizationEndpoint.map (·.url)

def DiscoveryOauthResourceMetadata.core (self : DiscoveryOauthResourceMetadata) :
    PimDiscovery.DiscoveryOauthResourceMetadata where
  resource := self.resource.url
  authorizationServers := self.authorizationServers.map (·.url)
  scopesSupported := self.scopesSupported

instance : Struct DiscoveryOauthServerMetadata where
  expected := "struct DiscoveryOauthServerMetadata"
  write self :=
    [("issuer", serialize self.issuer),
      ("authorization_endpoint", serialize self.authorizationEndpoint),
      ("token_endpoint", serialize self.tokenEndpoint), ("jwks_uri", serialize self.jwksUri),
      ("registration_endpoint", serialize self.registrationEndpoint),
      ("scopes_supported", serialize self.scopesSupported),
      ("response_types_supported", serialize self.responseTypesSupported),
      ("response_modes_supported", serialize self.responseModesSupported),
      ("grant_types_supported", serialize self.grantTypesSupported),
      ("token_endpoint_auth_methods_supported", serialize self.tokenEndpointAuthMethodsSupported),
      ("service_documentation", serialize self.serviceDocumentation),
      ("revocation_endpoint", serialize self.revocationEndpoint),
      ("introspection_endpoint", serialize self.introspectionEndpoint),
      ("code_challenge_methods_supported", serialize self.codeChallengeMethodsSupported),
      ("device_authorization_endpoint", serialize self.deviceAuthorizationEndpoint)]
  read entries := return {
    issuer := ← field entries "issuer" []
    authorizationEndpoint := ← field entries "authorization_endpoint" []
    tokenEndpoint := ← field entries "token_endpoint" []
    jwksUri := ← field entries "jwks_uri" []
    registrationEndpoint := ← field entries "registration_endpoint" []
    scopesSupported := ← fieldOr entries "scopes_supported" [] []
    responseTypesSupported := ← fieldOr entries "response_types_supported" [] []
    responseModesSupported := ← fieldOr entries "response_modes_supported" [] []
    grantTypesSupported := ← fieldOr entries "grant_types_supported" [] []
    tokenEndpointAuthMethodsSupported :=
      ← fieldOr entries "token_endpoint_auth_methods_supported" [] []
    serviceDocumentation := ← field entries "service_documentation" []
    revocationEndpoint := ← field entries "revocation_endpoint" []
    introspectionEndpoint := ← field entries "introspection_endpoint" []
    codeChallengeMethodsSupported := ← fieldOr entries "code_challenge_methods_supported" [] []
    deviceAuthorizationEndpoint := ← field entries "device_authorization_endpoint" [] }

instance : Struct DiscoveryOauthResourceMetadata where
  expected := "struct DiscoveryOauthResourceMetadata"
  write self :=
    [("resource", serialize self.resource),
      ("authorization_servers", serialize self.authorizationServers),
      ("jwks_uri", serialize self.jwksUri), ("scopes_supported", serialize self.scopesSupported),
      ("bearer_methods_supported", serialize self.bearerMethodsSupported),
      ("resource_name", serialize self.resourceName),
      ("resource_documentation", serialize self.resourceDocumentation),
      ("resource_policy_uri", serialize self.resourcePolicyUri),
      ("resource_tos_uri", serialize self.resourceTosUri)]
  read entries := return {
    resource := ← field entries "resource" []
    authorizationServers := ← fieldOr entries "authorization_servers" [] []
    jwksUri := ← field entries "jwks_uri" []
    scopesSupported := ← fieldOr entries "scopes_supported" [] []
    bearerMethodsSupported := ← fieldOr entries "bearer_methods_supported" [] []
    resourceName := ← field entries "resource_name" []
    resourceDocumentation := ← field entries "resource_documentation" []
    resourcePolicyUri := ← field entries "resource_policy_uri" []
    resourceTosUri := ← field entries "resource_tos_uri" [] }

instance [LawfulUrl] : LawfulStruct DiscoveryOauthServerMetadata where
  read_write self := by simp [Struct.read, Struct.write, field, fieldOr, fieldWith, named]

instance [LawfulUrl] : LawfulStruct DiscoveryOauthResourceMetadata where
  read_write self := by simp [Struct.read, Struct.write, field, fieldOr, fieldWith, named]

def DiscoveryOauthServerMetadata.names : List String :=
  ["issuer", "authorization_endpoint", "token_endpoint", "jwks_uri", "registration_endpoint",
    "scopes_supported", "response_types_supported", "response_modes_supported",
    "grant_types_supported", "token_endpoint_auth_methods_supported", "service_documentation",
    "revocation_endpoint", "introspection_endpoint", "code_challenge_methods_supported",
    "device_authorization_endpoint"]

def DiscoveryOauthResourceMetadata.names : List String :=
  ["resource", "authorization_servers", "jwks_uri", "scopes_supported", "bearer_methods_supported",
    "resource_name", "resource_documentation", "resource_policy_uri", "resource_tos_uri"]

section
variable {known : String → Bool}

theorem DiscoveryOauthServerMetadata.tolerant
    (h : ∀ name ∈ DiscoveryOauthServerMetadata.names, known name = true) :
    Tolerant known DiscoveryOauthServerMetadata := by
  refine tolerant_struct fun {entries entries'} hentries => ?_
  simp only [DiscoveryOauthServerMetadata.names, List.forall_mem_cons] at h
  simp only [Struct.read, field_redraft hentries, fieldOr_redraft hentries, h]

theorem DiscoveryOauthResourceMetadata.tolerant
    (h : ∀ name ∈ DiscoveryOauthResourceMetadata.names, known name = true) :
    Tolerant known DiscoveryOauthResourceMetadata := by
  refine tolerant_struct fun {entries entries'} hentries => ?_
  simp only [DiscoveryOauthResourceMetadata.names, List.forall_mem_cons] at h
  simp only [Struct.read, field_redraft hentries, fieldOr_redraft hentries, h]

instance : Tolerant DiscoveryOauthServerMetadata.names.contains DiscoveryOauthServerMetadata :=
  DiscoveryOauthServerMetadata.tolerant fun _ => List.contains_iff_mem.mpr

instance : Tolerant DiscoveryOauthResourceMetadata.names.contains DiscoveryOauthResourceMetadata :=
  DiscoveryOauthResourceMetadata.tolerant fun _ => List.contains_iff_mem.mpr

end
end Wire
end PimDiscovery
