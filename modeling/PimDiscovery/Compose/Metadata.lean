import PimDiscovery.Compose.OauthPass
import PimDiscovery.Compose.Traced
import PimDiscovery.Pacc.Vouched

/-! Where the metadata of the OAuth pass comes from: each issuer and each endpoint is described by a
document that one of its own well-known URLs answered with, whatever party the document names. -/

namespace PimDiscovery
open Interaction

def DocumentAt {μ : Type} (parse : Bytes → Except String μ) (heard : Hearing) (url : Url)
    (metadata : μ) : Prop :=
  ∃ response, heard (.send (oauthRequest url)) (.response response) ∧ response.isSuccess = true ∧
    parse response.body = .ok metadata

def NoDocumentAt {μ : Type} (parse : Bytes → Except String μ) (heard : Hearing) (url : Url) : Prop :=
  ∃ answer, heard (.send (oauthRequest url)) answer ∧ ∀ metadata, oauthFinish parse answer ≠ .ok metadata

theorem oauthFinish_ok {μ : Type} {parse : Bytes → Except String μ} {answer : HttpSendEnd}
    {metadata : μ} (h : oauthFinish parse answer = .ok metadata) : ∃ response,
      answer = .response response ∧ response.isSuccess = true ∧ parse response.body = .ok metadata := by
  cases answer with
  | redirect | failed => exact nomatch h
  | response response =>
    unfold oauthFinish at h
    cases hsuccess : response.isSuccess with
    | false => simp [hsuccess] at h
    | true =>
      cases hparse : parse response.body with
      | error err => simp [hsuccess, hparse] at h
      | ok found =>
        obtain rfl : found = metadata := by simpa [hsuccess, hparse] using h
        exact ⟨response, rfl, hsuccess, hparse⟩

theorem oauthFetch_heard {μ : Type} {parse : Bytes → Except String μ} {heard : Hearing} {url : Url}
    {result : Except OauthResolveError μ}
    (h : (HttpFetch.program oauthRequest (oauthFinish parse) url).Returns heard result) :
    (∀ metadata, result = .ok metadata → DocumentAt parse heard url metadata) ∧
      ∀ err, result = .error err → NoDocumentAt parse heard url := by
  obtain ⟨answer, hanswer, rfl⟩ := h
  refine ⟨fun metadata hok => ?_, fun err herr => ⟨answer, hanswer, fun metadata hok => ?_⟩⟩
  · obtain ⟨response, rfl, hsuccess, hparse⟩ := oauthFinish_ok hok
    exact ⟨response, hanswer, hsuccess, hparse⟩
  · rw [herr] at hok
    exact nomatch hok

section
variable [UrlCrate] [SerdeCrate]

/-- The document of an issuer: the one of its OAuth well-known URL, or else of its OpenID one. -/
def ServerDocument (heard : Hearing) (issuer : Url) (metadata : DiscoveryOauthServerMetadata) : Prop :=
  DocumentAt SerdeCrate.parseServerMetadata heard
      (DiscoveryOauthServerMetadata.wellKnownUrl issuer) metadata ∨
    NoDocumentAt SerdeCrate.parseServerMetadata heard
        (DiscoveryOauthServerMetadata.wellKnownUrl issuer) ∧
      DocumentAt SerdeCrate.parseServerMetadata heard
        (DiscoveryOauthServerMetadata.openidWellKnownUrl issuer) metadata

def NoServerDocument (heard : Hearing) (issuer : Url) : Prop :=
  NoDocumentAt SerdeCrate.parseServerMetadata heard
      (DiscoveryOauthServerMetadata.wellKnownUrl issuer) ∧
    NoDocumentAt SerdeCrate.parseServerMetadata heard
      (DiscoveryOauthServerMetadata.openidWellKnownUrl issuer)

open DiscoveryComposeClientStd in
/-- What an issuer is replaced by: the grants of its document, or itself when it has no document or one
without grants. -/
def ResolvedBy (heard : Hearing) (issuer : String) (methods : List DiscoveryAuthMethod) : Prop :=
  (∃ url metadata, UrlCrate.parse issuer = .ok url ∧ ServerDocument heard url metadata ∧
    methods = if (issuerMethods metadata).isEmpty then [.oauthIssuer issuer]
      else issuerMethods metadata) ∨
  methods = [.oauthIssuer issuer] ∧ ∀ url, UrlCrate.parse issuer = .ok url → NoServerDocument heard url

def BoundBy (heard : Hearing) (raw : String) (metadata : DiscoveryOauthResourceMetadata) : Prop :=
  ∃ url, UrlCrate.parse raw = .ok url ∧ DocumentAt SerdeCrate.parseResourceMetadata heard
    (DiscoveryOauthResourceMetadata.wellKnownUrl url) metadata

end

namespace DiscoveryComposeClientStd
variable [UrlCrate] [DomainCrate] [IoHttpCrate] [SerdeCrate] [DigestCrate]

variable {client : DiscoveryComposeClientStd} {heard : Hearing}

theorem Publishes.document {url : Url} {metadata : DiscoveryOauthServerMetadata}
    (h : Publishes (client.Overhears heard) url metadata) : ServerDocument heard url metadata := by
  obtain h | ⟨⟨err, hfailed⟩, h⟩ := h
  · exact .inl ((oauthFetch_heard h).1 metadata rfl)
  · exact .inr ⟨(oauthFetch_heard hfailed).2 err rfl, (oauthFetch_heard h).1 metadata rfl⟩

theorem PublishesNone.noDocument {url : Url} (h : PublishesNone (client.Overhears heard) url) :
    NoServerDocument heard url := by
  obtain ⟨⟨err, hfailed⟩, ⟨err', hfailed'⟩⟩ := h
  exact ⟨(oauthFetch_heard hfailed).2 err rfl, (oauthFetch_heard hfailed').2 err' rfl⟩

theorem IssuerMethods.resolvedBy {issuer : String} {methods : List DiscoveryAuthMethod}
    (h : IssuerMethods (client.Overhears heard) issuer methods) : ResolvedBy heard issuer methods := by
  obtain ⟨url, metadata, hparse, hpublishes, rfl⟩ | ⟨rfl, hnone⟩ := h
  · exact .inl ⟨url, metadata, hparse, hpublishes.document, rfl⟩
  · exact .inr ⟨rfl, fun url hurl => (hnone url hurl).noDocument⟩

variable [PslCrate]

/-- In any run of the OAuth pass, each issuer of a config is replaced by the grants of a document that
this issuer's own well-known URLs answered with, and each config with an HTTP endpoint is given the
servers, resource and scopes of a document that this endpoint's own well-known URL answered with. -/
theorem resolveOauth_documents {configs resolved : List DiscoveryServiceConfig}
    (h : (resolveOauth configs).Returns (client.Backed (client.Overhears heard)) resolved) :
    ∃ resourceOf methodsOf,
      (∀ raw metadata, resourceOf raw = some metadata → BoundBy heard raw metadata) ∧
      (∀ issuer methods, methodsOf issuer = some methods → ResolvedBy heard issuer methods) ∧
      resolved = configs.map fun config =>
        { config with
          auth := oauthAuth ((httpEndpoint config).bind resourceOf) methodsOf config.auth } := by
  obtain ⟨resourceOf, methodsOf, hfetched, rfl⟩ :=
    (resolveOauth_backed configs).returns h
  refine ⟨resourceOf, methodsOf, fun raw metadata hraw => ?_, fun issuer methods hissuer => ?_, ?_⟩
  · obtain ⟨url, hparse, hfetch⟩ := hfetched.answered hraw
    exact ⟨url, hparse, (oauthFetch_heard hfetch).1 metadata rfl⟩
  · exact (hfetched.issuer_methods hissuer).resolvedBy
  apply List.map_congr_left
  intro config _
  exact passes_eq resourceOf methodsOf config

end DiscoveryComposeClientStd

def strangerServerJson : String :=
  "\x7b\"issuer\":\"https://stranger.example/\"," ++
    "\"authorization_endpoint\":\"https://stranger.example/authorize\"," ++
    "\"token_endpoint\":\"https://stranger.example/token\",\"scopes_supported\":[\"openid\"]\x7d"

def strangerResourceJson : String :=
  "\x7b\"resource\":\"https://stranger.example/\"," ++
    "\"authorization_servers\":[\"https://stranger.example/\"],\"scopes_supported\":[\"mail\"]\x7d"

def strangerOrigin : Url := { exampleOrigin with host := some "stranger.example" }

@[reducible] def strangerSerde : SerdeCrate :=
  { plainSerde with
    parseServerMetadata := fun body =>
      if body = Text.bytes strangerServerJson then .ok
        { issuer := strangerOrigin
          authorizationEndpoint := some { strangerOrigin with path := "/authorize" }
          tokenEndpoint := some { strangerOrigin with path := "/token" }
          scopesSupported := ["openid"], deviceAuthorizationEndpoint := none }
      else .error "expected value"
    parseResourceMetadata := fun body =>
      if body = Text.bytes strangerResourceJson then .ok
        { resource := strangerOrigin, authorizationServers := [strangerOrigin]
          scopesSupported := ["mail"] }
      else .error "expected value" }

/-- A network whose metadata documents all speak of another party. -/
def strangerNetwork : Network
  | .dns _ _ _ => .error .eof
  | .hop _ _ _ => .error "unexpected EOF"
  | .send request => .response
      { status := 200, headers := []
        body := Text.bytes
          (if request.url.path = "/.well-known/oauth-protected-resource/jmap" then strangerResourceJson
            else strangerServerJson) }

def exampleIssued : DiscoveryServiceConfig where
  service := .jmap
  endpoint := .http "https://example.org/jmap"
  username := none
  auth := [.oauthIssuer "https://example.org/"]
  source := .pacc
  resolved := false

def strangerIssued : DiscoveryServiceConfig :=
  { exampleIssued with
    auth := [.oauthAuthorizationCodeGrant "https://stranger.example/authorize"
      "https://stranger.example/token" none (some "https://stranger.example/") ["mail"]] }

namespace DiscoveryComposeClientStd

theorem stranger_run :
    letI := plainUrl
    letI := plainDns
    letI := plainHttp
    letI := plainPsl
    letI := strangerSerde
    letI := DiscoveryPacc.vouchedCrates
    let client := new exampleResolver
    (resolveOauth [exampleIssued]).Returns
      (client.Backed (client.Overhears fun q answer => answer = strangerNetwork q))
        [strangerIssued] := by
  let _ := plainUrl
  let _ := plainDns
  let _ := plainHttp
  let _ := plainPsl
  let _ := strangerSerde
  let _ := DiscoveryPacc.vouchedCrates
  have heval : (resolveOauth [exampleIssued]).eval ((new exampleResolver).answers fun job =>
      (job.program (new exampleResolver)).eval strangerNetwork) = [strangerIssued] := by
    rw [eval_resolveOauth (reports_answers _ _)]
    decide +kernel
  show (resolveOauth [exampleIssued]).Returns _ [strangerIssued]
  rw [← heval]
  exact Prog.returns_eval (backed_answers (overhears_eval strangerNetwork)) _

theorem resolveOauth_documents_stranger :
    letI := plainUrl
    letI := plainDns
    letI := plainHttp
    letI := plainPsl
    letI := strangerSerde
    letI := DiscoveryPacc.vouchedCrates
    let heard : Hearing := fun q answer => answer = strangerNetwork q
    ∃ (resourceOf : String → Option DiscoveryOauthResourceMetadata)
      (methodsOf : String → Option (List DiscoveryAuthMethod)),
      (∀ raw metadata, resourceOf raw = some metadata → BoundBy heard raw metadata) ∧
      (∀ issuer methods, methodsOf issuer = some methods → ResolvedBy heard issuer methods) ∧
      strangerIssued.auth =
        oauthAuth (resourceOf "https://example.org/jmap") methodsOf exampleIssued.auth := by
  let _ := plainUrl
  let _ := plainDns
  let _ := plainHttp
  let _ := plainPsl
  let _ := strangerSerde
  let _ := DiscoveryPacc.vouchedCrates
  obtain ⟨resourceOf, methodsOf, hbound, hresolved, hpass⟩ := resolveOauth_documents stranger_run
  refine ⟨resourceOf, methodsOf, hbound, hresolved, ?_⟩
  exact congrArg DiscoveryServiceConfig.auth (List.cons.inj hpass).1

/-- Documents that all name another party: the issuer is replaced by that party's grant, and the grant
bound to that party's resource. -/
theorem resolveOauth_trusts_stranger :
    letI := plainUrl
    letI := plainDns
    letI := plainHttp
    letI := plainPsl
    letI := strangerSerde
    letI := DiscoveryPacc.vouchedCrates
    let client := new exampleResolver
    let heard : Hearing := fun q answer => answer = strangerNetwork q
    (resolveOauth [exampleIssued]).Returns (client.Backed (client.Overhears heard)) [strangerIssued] ∧
    (∀ url metadata, DocumentAt SerdeCrate.parseServerMetadata heard url metadata →
      UrlCrate.parse "https://example.org/" ≠ .ok metadata.issuer) ∧
    ∀ url metadata, DocumentAt SerdeCrate.parseResourceMetadata heard url metadata →
      UrlCrate.parse "https://example.org/jmap" ≠ .ok metadata.resource := by
  let _ := plainUrl
  let _ := plainDns
  let _ := plainHttp
  let _ := plainPsl
  let _ := strangerSerde
  let _ := DiscoveryPacc.vouchedCrates
  refine ⟨stranger_run, ?_, ?_⟩
  · rintro url metadata ⟨response, -, -, hparse⟩
    have hissuer : metadata.issuer = strangerOrigin := by
      simp only [SerdeCrate.parseServerMetadata] at hparse
      split at hparse
      · rw [← Except.ok.inj hparse]
      · exact nomatch hparse
    rw [hissuer]
    decide +kernel
  · rintro url metadata ⟨response, -, -, hparse⟩
    have hresource : metadata.resource = strangerOrigin := by
      simp only [SerdeCrate.parseResourceMetadata] at hparse
      split at hparse
      · rw [← Except.ok.inj hparse]
      · exact nomatch hparse
    rw [hresource]
    decide +kernel

end DiscoveryComposeClientStd
end PimDiscovery
