import PimDiscovery.Compose.Machines
import PimDiscovery.Coroutines.Redrafted
import PimDiscovery.Pacc.Vouched

/-! The documents of a provider who publishes them as they are written here, in any draft: they are read back
whole, and the coroutines find them. -/

namespace PimDiscovery
open Interaction Serde Serialize Deserialize

section
variable [UrlCrate] [LawfulUrl]

/-- A document that was written is read back whole, however it is drafted anew: its members in another order,
at any depth, and among members of any names that it is not read by. -/
theorem documents_round_trip :
    (∀ (config : Wire.DiscoveryPaccConfig) (value : JsonValue),
      Redraft Wire.DiscoveryPaccConfig.names.contains (serialize config) value →
        deserialize value = .ok config) ∧
    (∀ (metadata : Wire.DiscoveryOauthServerMetadata) (value : JsonValue),
      Redraft Wire.DiscoveryOauthServerMetadata.names.contains (serialize metadata) value →
        deserialize value = .ok metadata) ∧
    ∀ (metadata : Wire.DiscoveryOauthResourceMetadata) (value : JsonValue),
      Redraft Wire.DiscoveryOauthResourceMetadata.names.contains (serialize metadata) value →
        deserialize value = .ok metadata :=
  ⟨fun _ _ => Tolerant.deserialize_draft, fun _ _ => Tolerant.deserialize_draft,
    fun _ _ => Tolerant.deserialize_draft⟩

end

/-- `UrlCrate` on the URLs whose text is parsed to them again. -/
@[reducible] def strictUrl : UrlCrate :=
  { plainUrl with
    parse := fun text =>
      match PlainUrl.parse text with
      | .ok url =>
        if PlainUrl.parse (PlainUrl.asStr url) = .ok url then .ok url else .error "invalid port number"
      | .error err => .error err }

theorem strictUrl_lawful : @LawfulUrl strictUrl := by
  refine @LawfulUrl.mk strictUrl fun {text url} h => ?_
  have hagain : PlainUrl.parse (PlainUrl.asStr url) = .ok url := by
    simp only [UrlCrate.parse] at h
    split at h
    · split at h
      · rename_i hagain
        obtain rfl := Except.ok.inj h
        exact hagain
      · cases h
    · cases h
  simp only [UrlCrate.parse, UrlCrate.asStr, hagain, if_true]

def publishedServer : @Wire.DiscoveryOauthServerMetadata strictUrl :=
  letI := strictUrl
  { issuer := ⟨{ exampleOrigin with host := some "auth.example.org" }, "https://auth.example.org/",
      by decide +kernel⟩
    authorizationEndpoint := none
    tokenEndpoint := some ⟨{ exampleOrigin with host := some "auth.example.org", path := "/token" },
      "https://auth.example.org/token", by decide +kernel⟩
    jwksUri := none, registrationEndpoint := none, scopesSupported := ["mail"]
    responseTypesSupported := ["code"], responseModesSupported := [], grantTypesSupported := []
    tokenEndpointAuthMethodsSupported := ["none"], serviceDocumentation := none
    revocationEndpoint := none, introspectionEndpoint := none
    codeChallengeMethodsSupported := ["S256"], deviceAuthorizationEndpoint := none }

theorem documents_round_trip_signed :
    letI := strictUrl
    deserialize (.object (("signed_metadata", .string "e30") :: (Struct.write publishedServer).reverse)) =
      .ok publishedServer := by
  let _ := strictUrl
  have _ := strictUrl_lawful
  exact documents_round_trip.2.1 publishedServer _
    (.reversed (by decide +kernel) (by decide +kernel) (.string "e30"))

/-! The coroutines on such documents. -/

section
variable [UrlCrate] (writes : Bytes → JsonValue → Prop)

/-- A body that holds a document as it is written, drafted anew but for the members it is read by. -/
def HoldsDraft (names : List String) (document : JsonValue) (body : Bytes) : Prop :=
  ∃ entries : List (String × JsonValue), writes body (.object entries) ∧
    Redraft names.contains document (.object entries)

/-- `serde_json` on the texts of a PACC document too. -/
structure PaccTexts [SerdeCrate] : Prop extends JsonTexts writes where
  pacc : ∀ {body : Bytes} {entries : List (String × JsonValue)} {config : Wire.DiscoveryPaccConfig},
    writes body (.object entries) → deserialize (.object entries) = .ok config →
    SerdeCrate.parsePacc body = .ok config.core

end

/-- A fetch of metadata ends with the document that is read of a successful response. -/
theorem oauthFetch_published {ρ : Type} {parse : Bytes → Except String ρ} {o : Network} {url : Url}
    {response : HttpResponse} {metadata : ρ} (hsuccess : response.isSuccess = true)
    (hsend : o (.send (oauthRequest url)) = HttpSendEnd.response response)
    (hparse : (parse response.body).toOption = some metadata) :
    (HttpFetch.program oauthRequest (oauthFinish parse) url).eval o = .ok metadata := by
  have hread : oauthFinish parse (.response response) = .ok metadata := by
    unfold oauthFinish
    simp only
    rw [if_pos hsuccess]
    cases hbody : parse response.body with
    | error err =>
      rw [hbody] at hparse
      cases hparse
    | ok found =>
      rw [hbody] at hparse
      obtain rfl := Option.some.inj hparse
      rfl
  rw [← hsend] at hread
  exact hread

section
variable [UrlCrate] [DomainCrate] [IoHttpCrate] [SerdeCrate] [DigestCrate]
  {writes : Bytes → JsonValue → Prop}

/-- Who publishes a document that is written here is found, in whichever draft it is served: the fetches of
metadata end with it on any successful response, and the one of the PACC document where a TXT record vouches
for the very body. -/
theorem published_found [LawfulUrl] (htexts : PaccTexts writes) (client : DiscoveryComposeClientStd)
    (o : Network) :
    (∀ (metadata : Wire.DiscoveryOauthServerMetadata) (url : Url) (response : HttpResponse)
      (args : List (Option Bytes)), HoldsDraft writes Wire.DiscoveryOauthServerMetadata.names
        (serialize metadata) response.body → response.isSuccess = true →
      o (.send (oauthRequest url)) = HttpSendEnd.response response →
      Serves exchanges o ((Job.oauthServer url).program client) args →
      ((Job.oauthServer url).machine client).outcome args = some (.ok metadata.core)) ∧
    (∀ (metadata : Wire.DiscoveryOauthResourceMetadata) (url : Url) (response : HttpResponse)
      (args : List (Option Bytes)), HoldsDraft writes Wire.DiscoveryOauthResourceMetadata.names
        (serialize metadata) response.body → response.isSuccess = true →
      o (.send (oauthRequest url)) = HttpSendEnd.response response →
      Serves exchanges o ((Job.oauthResource url).program client) args →
      ((Job.oauthResource url).machine client).outcome args = some (.ok metadata.core)) ∧
    ∀ (config : Wire.DiscoveryPaccConfig) (domain : String) (url : Url) (body : Bytes)
      (records : List (List Bytes)) (args : List (Option Bytes)),
      HoldsDraft writes Wire.DiscoveryPaccConfig.names (serialize config) body →
      DiscoveryPacc.url domain = .ok url →
      o.httpGet url = .ok body →
      o.lookup .txt readTxt (DiscoveryPacc.txtQname domain) client.dns = .ok records →
      (∃ record ∈ records, Qualifies body record) →
      Serves exchanges o ((Job.pacc domain).program client) args →
      ((Job.pacc domain).machine client).outcome args = some (.ok config.core) := by
  refine ⟨?_, ?_, ?_⟩
  · intro metadata url response args hdraft hsuccess hsend hserves
    obtain ⟨entries, hwrites, hredraft⟩ := hdraft
    rw [((Job.oauthServer url).machine_performs client).outcome_eq hserves]
    have hparse := htexts.server hwrites
    rw [Tolerant.deserialize_draft hredraft] at hparse
    exact congrArg some (oauthFetch_published hsuccess hsend hparse)
  · intro metadata url response args hdraft hsuccess hsend hserves
    obtain ⟨entries, hwrites, hredraft⟩ := hdraft
    rw [((Job.oauthResource url).machine_performs client).outcome_eq hserves]
    have hparse := htexts.resource hwrites
    rw [Tolerant.deserialize_draft hredraft] at hparse
    exact congrArg some (oauthFetch_published hsuccess hsend hparse)
  · intro config domain url body records args hdraft hurl hbody hrecords hqualifies hserves
    obtain ⟨entries, hwrites, hredraft⟩ := hdraft
    rw [((Job.pacc domain).machine_performs client).outcome_eq hserves]
    have hparse := htexts.pacc hwrites (Tolerant.deserialize_draft hredraft)
    have heval : ((Job.pacc domain).program client).eval o = verifyRecords body records := by
      simp only [Job.program, hurl, DiscoveryPacc.program, Prog.eval_bind, DiscoveryHttpGet.eval_program,
        hbody, DiscoveryPacc.afterFetch, DiscoveryDnsTxt.program, DnsLookup.eval_program, hrecords,
        Prog.eval_pure, DiscoveryPacc.finish]
    rw [heval, (verifyRecords_ok_iff body records config.core).mpr ⟨hqualifies, hparse⟩]

end

def publishedPacc : Wire.DiscoveryPaccConfig where
  protocols := DiscoveryPacc.vouchedConfig.protocols
  authentication := DiscoveryPacc.vouchedConfig.authentication
  info := { provider := { name := "Example", shortName := none, logo := none }, help := none }

def parsePublished (body : Bytes) : Except String JsonValue :=
  if body = Text.bytes DiscoveryPacc.vouchedText then .ok (serialize publishedPacc)
  else .error "expected value"

theorem valueSerde_paccTexts [UrlCrate] (parse : Bytes → Except String JsonValue) :
    letI := valueSerde parse
    PaccTexts fun body value => parse body = .ok value := by
  refine @PaccTexts.mk _ _ (valueSerde parse) (valueSerde_jsonTexts parse) ?_
  intro body entries config h hconfig
  simp only [SerdeCrate.parsePacc, h, Except.map, hconfig]

theorem published_found_pacc :
    letI := strictUrl
    letI := plainDns
    letI := plainHttp
    letI := valueSerde parsePublished
    letI := DiscoveryPacc.vouchedCrates
    ((Job.pacc "example.org").machine (.new exampleResolver)).outcome
      DiscoveryPacc.vouchedReplies.flatten = some (.ok publishedPacc.core) := by
  let _ := strictUrl
  let _ := plainDns
  let _ := plainHttp
  let _ := valueSerde parsePublished
  let _ := DiscoveryPacc.vouchedCrates
  have _ := strictUrl_lawful
  have hdraft : HoldsDraft (fun body value => parsePublished body = .ok value)
      Wire.DiscoveryPaccConfig.names (serialize publishedPacc) (Text.bytes DiscoveryPacc.vouchedText) := by
    have hparse : parsePublished (Text.bytes DiscoveryPacc.vouchedText) = .ok (serialize publishedPacc) :=
      if_pos rfl
    exact ⟨Struct.write publishedPacc, hparse, .refl _⟩
  have hurl : DiscoveryPacc.url "example.org" = .ok DiscoveryPacc.vouchedUrl := by decide +kernel
  have hfetch : DiscoveryPacc.vouchedNetwork.httpGet DiscoveryPacc.vouchedUrl =
      .ok (Text.bytes DiscoveryPacc.vouchedText) := by decide +kernel
  have hlookup : DiscoveryPacc.vouchedNetwork.lookup .txt readTxt
      (DiscoveryPacc.txtQname "example.org") exampleResolver = .ok [[Text.bytes "other"],
        [Text.bytes ("V=1; v=UAAC1; a=SHA256; d=" ++ DiscoveryPacc.vouchedBase64)]] := by decide +kernel
  have hvouches : vouches (Text.bytes DiscoveryPacc.vouchedText)
      [Text.bytes ("V=1; v=UAAC1; a=SHA256; d=" ++ DiscoveryPacc.vouchedBase64)] = true := by
    decide +kernel
  have hprogram : (Job.pacc "example.org").program (.new exampleResolver) =
      DiscoveryPacc.program DiscoveryPacc.vouchedUrl "example.org" exampleResolver := by
    simp only [Job.program, hurl]
    rfl
  have hserves : Serves exchanges DiscoveryPacc.vouchedNetwork
      ((Job.pacc "example.org").program (.new exampleResolver)) DiscoveryPacc.vouchedReplies.flatten := by
    rw [hprogram]
    apply serves_sound
    decide +kernel
  exact (published_found (valueSerde_paccTexts parsePublished) (.new exampleResolver)
    DiscoveryPacc.vouchedNetwork).2.2 publishedPacc "example.org" DiscoveryPacc.vouchedUrl _ _ _ hdraft
    hurl hfetch hlookup ⟨_, by simp, (vouches_iff _ _).mp hvouches⟩ hserves

end PimDiscovery
