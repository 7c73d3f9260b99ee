import PimDiscovery.Compose.Passes
import PimDiscovery.Compose.Refined
import PimDiscovery.Compose.Runners

/-! What a secure-only client keeps over its runs: every config it handles is encrypted, and every
issuer in it is of a kind that the answers are known to keep to. -/

namespace PimDiscovery
open Interaction

def providerHosts : List String :=
  ["apidata.googleusercontent.com", "www.googleapis.com", "gmail.googleapis.com",
    "people.googleapis.com", "graph.microsoft.com"]

/-- What `url` makes of `https` URLs. -/
structure HttpsUrls [UrlCrate] : Prop where
  scheme : ∀ rest url, UrlCrate.parse ("https://" ++ rest) = .ok url → url.scheme = "https"
  /-- A path never fails to parse. -/
  path : ∀ host ∈ providerHosts, ∀ path, ∃ url,
    UrlCrate.parse ("https://" ++ (host ++ ("/" ++ path))) = .ok url
  reparse : ∀ url, url.scheme = "https" → ∃ again, UrlCrate.parse (UrlCrate.asStr url) = .ok again ∧
    again.scheme = "https"

theorem plainUrl_https : letI := plainUrl; HttpsUrls := by
  let _ := plainUrl
  have hparse : ∀ rest, ∃ url, PlainUrl.parse ("https://" ++ rest) = .ok url ∧
      url.scheme = "https" := by
    intro rest
    have hsplit : "https://" ++ rest = "https" ++ ("://" ++ rest) := by
      rw [← String.append_assoc]
      rfl
    rw [hsplit]
    exact PlainUrl.parse_scheme (by decide) rest
  constructor
  · intro rest url hurl
    obtain ⟨parsed, hparsed, hscheme⟩ := hparse rest
    have hsame : parsed = url := Except.ok.inj (hparsed.symm.trans hurl)
    rwa [← hsame]
  · intro host _ path
    obtain ⟨url, hurl, -⟩ := hparse (host ++ ("/" ++ path))
    exact ⟨url, hurl⟩
  · intro url hscheme
    obtain ⟨rest, hrest⟩ := PlainUrl.asStr_eq url
    obtain ⟨again, hagain, hsame⟩ := PlainUrl.parse_scheme
      (show ':' ∉ url.scheme.toList by rw [hscheme]; decide) rest
    exact ⟨again, (congrArg PlainUrl.parse hrest).trans hagain, hsame.trans hscheme⟩

/-- An encrypted config whose issuers are good. -/
structure Guarded [UrlCrate] (goodIssuer : String → Prop) (config : DiscoveryServiceConfig) :
    Prop where
  secure : config.isSecure = true
  issuers : ∀ issuer, .oauthIssuer issuer ∈ config.auth → goodIssuer issuer

section
variable [UrlCrate] {goodIssuer : String → Prop}

theorem isSecure_congr {c d : DiscoveryServiceConfig} (h : c.endpoint = d.endpoint) :
    c.isSecure = d.isSecure := by
  simp only [DiscoveryServiceConfig.isSecure, h]

theorem isSecure_tcp {config : DiscoveryServiceConfig} {host : String} {port : UInt16}
    {security : DiscoverySecurity} (h : config.endpoint = .tcp host port security) :
    config.isSecure = true ↔ security ≠ .plain := by
  simp [DiscoveryServiceConfig.isSecure, h]

theorem isSecure_http {config : DiscoveryServiceConfig} {raw : String}
    (h : config.endpoint = .http raw) :
    config.isSecure = true ↔ ∃ url, UrlCrate.parse raw = .ok url ∧ url.scheme = "https" := by
  simp only [DiscoveryServiceConfig.isSecure, h]
  cases UrlCrate.parse raw <;> simp

omit [UrlCrate] in
theorem mem_foldl_pushMethod {acc methods : List DiscoveryAuthMethod} {m : DiscoveryAuthMethod} :
    m ∈ methods.foldl pushMethod acc ↔ m ∈ acc ∨ m ∈ methods :=
  mem_foldl_of_step fun _ _ => DiscoveryConfigCollector.mem_pushMethod

theorem Guarded.merge {c d : DiscoveryServiceConfig} (hc : Guarded goodIssuer c)
    (hd : Guarded goodIssuer d) : Guarded goodIssuer (DiscoveryConfigCollector.merge c d) := by
  have hm := DiscoveryConfigCollector.merge_endpoint_source_resolved c d
  constructor
  · split at hm
    · exact (isSecure_congr hm.1).trans hd.secure
    · exact (isSecure_congr hm.1).trans hc.secure
  · intro issuer hissuer
    rw [DiscoveryConfigCollector.merge_auth, mem_foldl_pushMethod] at hissuer
    exact hissuer.elim (hc.issuers issuer) (hd.issuers issuer)

omit [UrlCrate] in
theorem not_mem_schemeMethods {schemes : List String} {issuer : String} :
    .oauthIssuer issuer ∉ schemeMethods schemes := by
  simp [mem_schemeMethods]

omit [UrlCrate] in
theorem mem_refineAuth {config : DiscoveryServiceConfig} {schemes : List String} {issuer : String} :
    .oauthIssuer issuer ∈ (config.refineAuth schemes).auth ↔ .oauthIssuer issuer ∈ config.auth := by
  by_cases h : schemeMethods schemes = []
  · rw [DiscoveryServiceConfig.refineAuth_of_eq_nil config h]
  · rw [DiscoveryServiceConfig.refineAuth_of_ne_nil config h, List.mem_append,
      or_iff_right not_mem_schemeMethods, DiscoveryServiceConfig.mem_oauthMethods]
    exact and_iff_left rfl

theorem Guarded.keepSecure {client : DiscoveryComposeClientStd} (hsecure : client.secureOnly = true)
    {configs : List DiscoveryServiceConfig}
    (h : Reported (fun c => ∀ issuer, .oauthIssuer issuer ∈ c.auth → goodIssuer issuer) configs) :
    Reported (Guarded goodIssuer) (client.keepSecure configs) := by
  unfold DiscoveryComposeClientStd.keepSecure
  rw [if_pos hsecure]
  intro config hconfig
  obtain ⟨hmem, hkept⟩ := List.mem_filter.mp hconfig
  exact ⟨hkept, h config hmem⟩

/-! What the conversions give. -/

omit [UrlCrate] in
theorem fromAutoconfig_issuers (config : DiscoveryAutoconfig) (email : String)
    (source : DiscoveryConfigSource) :
    Reported (fun c => ∀ issuer, .oauthIssuer issuer ∉ c.auth)
      (DiscoveryServiceConfig.fromAutoconfig config email source) := by
  intro c hc issuer hissuer
  obtain ⟨server, -, -, -, hauth⟩ := DiscoveryServiceConfig.mem_fromAutoconfig hc
  rw [hauth, mem_foldl_pushMethod] at hissuer
  obtain ⟨kind, -, hkind⟩ := List.mem_filterMap.mp (hissuer.resolve_left List.not_mem_nil)
  cases kind <;> simp [DiscoveryServiceConfig.autoconfigMethod] at hkind

omit [UrlCrate] in
theorem fromPacc_issuers (config : DiscoveryPaccConfig) :
    Reported (fun c => ∀ issuer, .oauthIssuer issuer ∈ c.auth →
      ∃ oauth, config.authentication.oauthPublic = some oauth ∧ oauth.issuer = issuer)
      (DiscoveryServiceConfig.fromPacc config) := by
  intro c hc issuer hissuer
  obtain ⟨-, -, hauth⟩ := DiscoveryServiceConfig.mem_fromPacc hc
  rw [hauth, List.mem_append, Option.mem_toList, Option.map_eq_some_iff] at hissuer
  rcases hissuer with ⟨oauth, hoauth, hissuer⟩ | hissuer
  · exact ⟨oauth, hoauth, DiscoveryAuthMethod.oauthIssuer.inj hissuer⟩
  · split at hissuer <;> simp at hissuer

theorem fromSrv_guarded (report : DiscoverySrvReport) :
    Reported (Guarded goodIssuer) (DiscoveryServiceConfig.fromSrv report) := by
  intro c hc
  obtain ⟨-, -, -, hauth, host, port, security, hsecurity, hendpoint⟩ :=
    DiscoveryServiceConfig.mem_fromSrv hc
  refine ⟨(isSecure_tcp hendpoint).mpr hsecurity, fun issuer hissuer => ?_⟩
  rw [hauth] at hissuer
  simp at hissuer

theorem provider_guarded (h : HttpsUrls) (provider : DiscoveryKnownProvider) (email : String) :
    Reported (Guarded goodIssuer) (provider.configs email) := by
  have hhttp : ∀ (service : DiscoveryService) (raw : String) (auth : List DiscoveryAuthMethod)
      (host path : String), host ∈ providerHosts → "https://" ++ (host ++ ("/" ++ path)) = raw →
      (providerConfig provider email service (.http raw) auth).isSecure = true := by
    intro service raw auth host path hhost hraw
    obtain ⟨url, hurl⟩ := h.path host hhost path
    exact (isSecure_http rfl).mpr ⟨url, hraw ▸ hurl, h.scheme _ url hurl⟩
  -- The two URLs that hold the address, split behind their hosts.
  have hcaldav : "https://" ++ ("apidata.googleusercontent.com" ++ ("/" ++
      ("caldav/v2/" ++ (email ++ "/user")))) =
        "https://apidata.googleusercontent.com/caldav/v2/" ++ (email ++ "/user") := by
    simp only [← String.append_assoc]
    rfl
  have hcarddav : "https://" ++ ("www.googleapis.com" ++ ("/" ++
      ("carddav/v1/principals/" ++ (email ++ "/")))) =
        "https://www.googleapis.com/carddav/v1/principals/" ++ (email ++ "/") := by
    simp only [← String.append_assoc]
    rfl
  have hgraph : "https://" ++ ("graph.microsoft.com" ++ ("/" ++ "v1.0/")) = microsoftGraphUrl := rfl
  intro c hc
  cases provider with
  | google =>
    simp only [DiscoveryKnownProvider.configs, googleConfigs, List.mem_cons, List.not_mem_nil,
      or_false] at hc
    rcases hc with rfl | rfl | rfl | rfl | rfl | rfl | rfl | rfl
    · exact ⟨(isSecure_tcp rfl).mpr (by decide), by simp [providerConfig, googleOauth]⟩
    · exact ⟨(isSecure_tcp rfl).mpr (by decide), by simp [providerConfig, googleOauth]⟩
    · exact ⟨(isSecure_tcp rfl).mpr (by decide), by simp [providerConfig, googleOauth]⟩
    · exact ⟨hhttp _ _ _ _ _ (by decide) hcaldav, by simp [providerConfig, googleOauth]⟩
    · exact ⟨hhttp _ _ _ _ _ (by decide) hcarddav, by simp [providerConfig, googleOauth]⟩
    · exact ⟨hhttp _ _ _ "gmail.googleapis.com" "" (by decide) rfl,
        by simp [providerConfig, googleOauth]⟩
    · exact ⟨hhttp _ _ _ "www.googleapis.com" "calendar/v3/" (by decide) rfl,
        by simp [providerConfig, googleOauth]⟩
    · exact ⟨hhttp _ _ _ "people.googleapis.com" "" (by decide) rfl,
        by simp [providerConfig, googleOauth]⟩
  | microsoft =>
    simp only [DiscoveryKnownProvider.configs, microsoftConfigs, List.mem_cons, List.not_mem_nil,
      or_false] at hc
    rcases hc with rfl | rfl | rfl | rfl | rfl | rfl
    · exact ⟨(isSecure_tcp rfl).mpr (by decide), by simp [providerConfig, microsoftAuth]⟩
    · exact ⟨(isSecure_tcp rfl).mpr (by decide), by simp [providerConfig, microsoftAuth]⟩
    · exact ⟨(isSecure_tcp rfl).mpr (by decide), by simp [providerConfig, microsoftAuth]⟩
    · exact ⟨hhttp _ _ _ _ _ (by decide) hgraph, by simp [providerConfig, microsoftAuth]⟩
    · exact ⟨hhttp _ _ _ _ _ (by decide) hgraph, by simp [providerConfig, microsoftAuth]⟩
    · exact ⟨hhttp _ _ _ _ _ (by decide) hgraph, by simp [providerConfig, microsoftAuth]⟩

end

def Job.IsNamed : Job → Prop
  | check _ | mx _ | pacc _ | mailconf _ | cname _ | srv _ | dav _ _ | jmap _ => True
  | isp _ | wellKnown _ _ | auth _ | oauthServer _ | oauthResource _ => False

namespace DiscoveryComposeClientStd
variable [UrlCrate]

/-- What the runners rely on to handle guarded configs only: named jobs and `https` documents may be
run, and a PACC document names good issuers. -/
structure Sources (asks : Job → Prop) (allowed : ∀ job : Job, job.Answer → Prop)
    (goodIssuer : String → Prop) : Prop where
  named : ∀ job : Job, job.IsNamed → asks job
  isp : ∀ url, url.scheme = "https" → asks (.isp url)
  auth : ∀ url, url.scheme = "https" → asks (.auth url)
  wellKnown : ∀ origin service, origin.scheme = "http" ∨ origin.scheme = "https" →
    asks (.wellKnown origin service)
  oauthServer : ∀ issuer url, goodIssuer issuer → UrlCrate.parse issuer = .ok url →
    asks (.oauthServer (DiscoveryOauthServerMetadata.wellKnownUrl url)) ∧
      asks (.oauthServer (DiscoveryOauthServerMetadata.openidWellKnownUrl url))
  oauthResource : ∀ url, url.scheme = "https" →
    asks (.oauthResource (DiscoveryOauthResourceMetadata.wellKnownUrl url))
  pacc : ∀ domain config oauth, allowed (.pacc domain) (.ok config) →
    config.authentication.oauthPublic = some oauth → goodIssuer oauth.issuer
  resource : ∀ url metadata, allowed (.oauthResource url) (.ok metadata) →
    ∀ server ∈ metadata.authorizationServers, goodIssuer (UrlCrate.asStr server)

def GoodTask (goodIssuer : String → Prop) : {kind : TaskKind} → Task kind → Prop
  | _, .check _ | _, .mechanism _ _ _ _ => True
  | _, .davRoot _ origin => origin.scheme = "http" ∨ origin.scheme = "https"
  | _, .schemes urls => ∀ url ∈ urls, url.scheme = "https"
  | _, .issuer issuer => goodIssuer issuer
  | _, .resource _ url => url.scheme = "https"

def GoodResult (goodIssuer : String → Prop) : {kind : TaskKind} → Task kind → kind.Result → Prop
  | _, .mechanism _ _ _ _, configs => Reported (Guarded goodIssuer) configs
  | _, .resource _ _, result => ∀ entry, result = some entry →
    ∀ server ∈ entry.2.authorizationServers, goodIssuer (UrlCrate.asStr server)
  | _, _, _ => True

namespace Sources
variable {client : DiscoveryComposeClientStd} {asks : Job → Prop}
  {allowed : ∀ job : Job, job.Answer → Prop} {goodIssuer : String → Prop}
variable (h : Sources asks allowed goodIssuer)
include h

theorem checkResolver (input : String) :
    (client.checkResolver input).Always asks allowed fun _ => True := by
  unfold DiscoveryComposeClientStd.checkResolver
  split
  · trivial
  · refine Prog.Always.bind (.call (h.named _ trivial)) fun answer _ => ?_
    cases answer with
    | error err => trivial
    | ok rcode =>
      simp only
      split <;> trivial

theorem probeDavRoot {origin : Url} (ho : origin.scheme = "http" ∨ origin.scheme = "https")
    (service : DiscoveryDavService) :
    (DiscoveryComposeClientStd.probeDavRoot service origin).Always asks allowed fun _ => True := by
  refine Prog.Always.bind (.call (h.wellKnown origin service ho)) fun answer _ => ?_
  cases answer <;> trivial

theorem probeSchemes {urls : List Url} (hurls : ∀ url ∈ urls, url.scheme = "https") :
    (DiscoveryComposeClientStd.probeSchemes urls).Always asks allowed fun _ => True := by
  induction urls with
  | nil => trivial
  | cons url urls ih =>
    have hrest := ih fun u hu => hurls u (List.mem_cons_of_mem _ hu)
    refine Prog.Always.bind (.call (h.auth url (hurls url List.mem_cons_self))) fun answer _ => ?_
    cases answer with
    | error err => exact hrest
    | ok schemes =>
      simp only
      split
      · trivial
      · exact hrest

theorem resolveIssuer {issuer : String} (hi : goodIssuer issuer) :
    (DiscoveryComposeClientStd.resolveIssuer issuer).Always asks allowed fun _ => True := by
  unfold DiscoveryComposeClientStd.resolveIssuer
  cases hparse : UrlCrate.parse issuer with
  | error err => trivial
  | ok url =>
    obtain ⟨hfirst, hsecond⟩ := h.oauthServer issuer url hi hparse
    refine (oauthServer_always hfirst hsecond).bind fun metadata _ => ?_
    cases metadata <;> trivial

variable (hsecure : client.secureOnly = true)
include hsecure

theorem runPacc (domain : String) :
    (client.runPacc domain).Always asks allowed (Reported (Guarded goodIssuer)) := by
  refine runPacc_always (h.named _ trivial) fun config ha => ?_
  refine Guarded.keepSecure hsecure fun c hc issuer hissuer => ?_
  obtain ⟨oauth, hoauth, rfl⟩ := fromPacc_issuers config c hc issuer hissuer
  exact h.pacc domain config oauth ha hoauth

theorem runDav (domain : String) (service : DiscoveryDavService) :
    (client.runDav domain service).Always asks allowed (Reported (Guarded goodIssuer)) := by
  refine runDav_always (h.named _ trivial) fun url _ => Guarded.keepSecure hsecure ?_
  simp [Reported, DiscoveryServiceConfig.fromDav]

theorem runJmap (domain : String) :
    (client.runJmap domain).Always asks allowed (Reported (Guarded goodIssuer)) := by
  refine runJmap_always (h.named _ trivial) fun session _ => Guarded.keepSecure hsecure ?_
  intro c hc issuer hissuer
  rw [List.mem_singleton.mp hc] at hissuer
  exact absurd hissuer not_mem_schemeMethods

variable (hurls : HttpsUrls)
include hurls

theorem autoconfigures (email : String) :
    client.Autoconfigures asks allowed (Guarded goodIssuer) email where
  mx _ := h.named _ trivial
  cname _ := h.named _ trivial
  mailconf _ := h.named _ trivial
  built rest url hparse query := h.isp { url with query } (hurls.scheme rest url hparse)
  followed _ url _ hfollowed := h.isp url (hfollowed hsecure)
  document _ config _ source := by
    refine Guarded.keepSecure hsecure fun c hc issuer hissuer => ?_
    exact absurd hissuer (fromAutoconfig_issuers config email source c hc issuer)

variable [PslCrate]

theorem runMechanism (mechanism : Mechanism) (localPart domain email : String) :
    (client.runMechanism mechanism localPart domain email).Always asks allowed
      (Reported (Guarded goodIssuer)) := by
  have hauto := h.autoconfigures hsecure hurls email
  cases mechanism with
  | mx => exact runMx_always (h.named _ trivial) fun provider => provider_guarded hurls provider email
  | pacc => exact h.runPacc hsecure domain
  | ispMain => exact hauto.runIspMain localPart domain
  | ispFallback => exact hauto.runIspFallback domain
  | mailconf => exact hauto.runMailconf domain
  | ispdb => exact hauto.runIspdb domain
  | mxAutoconfig => exact hauto.runMxAutoconfig domain
  | srv => exact runSrv_always (h.named _ trivial) fun report _ => fromSrv_guarded report
  | caldav => exact h.runDav hsecure domain .caldav
  | carddav => exact h.runDav hsecure domain .carddav
  | jmap => exact h.runJmap hsecure domain

/-- A thread given a good task runs jobs of the sources, to a good result. -/
theorem taskBody {kind : TaskKind} {task : Task kind} (ht : GoodTask goodIssuer task) :
    (client.taskBody task).Always asks allowed (GoodResult goodIssuer task) := by
  cases task with
  | check domain => exact h.checkResolver domain
  | mechanism mechanism localPart domain email =>
    exact h.runMechanism hsecure hurls mechanism localPart domain email
  | davRoot service origin => exact h.probeDavRoot ht service
  | schemes urls => exact h.probeSchemes ht
  | issuer issuer => exact (h.resolveIssuer ht).bind fun _ _ => trivial
  | resource raw url =>
    refine (oauthResource_always (h.oauthResource url ht)).bind fun metadata hmetadata => ?_
    intro entry hentry
    obtain ⟨found, hfound, rfl⟩ := Option.map_eq_some_iff.mp hentry
    exact h.resource _ found (hmetadata found hfound)

end Sources
end DiscoveryComposeClientStd
end PimDiscovery
