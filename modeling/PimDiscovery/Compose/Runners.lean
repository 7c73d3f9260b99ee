import PimDiscovery.Compose.Mechanisms

/-! What the runners of the mechanisms ask of their coroutines and report. -/

namespace PimDiscovery
open Interaction

def Reported (post : DiscoveryServiceConfig → Prop) (configs : List DiscoveryServiceConfig) : Prop :=
  ∀ config ∈ configs, post config

theorem Reported.nil {post : DiscoveryServiceConfig → Prop} : Reported post [] :=
  List.forall_mem_nil _

theorem Reported.append {post : DiscoveryServiceConfig → Prop} {cs ds : List DiscoveryServiceConfig}
    (h : Reported post cs) (h' : Reported post ds) : Reported post (cs ++ ds) :=
  List.forall_mem_append.mpr ⟨h, h'⟩

namespace DiscoveryServiceConfig

theorem mem_fromAutoconfig {config : DiscoveryAutoconfig} {email : String}
    {source : DiscoveryConfigSource} {c : DiscoveryServiceConfig}
    (h : c ∈ fromAutoconfig config email source) : ∃ server : DiscoveryServer,
      c.service ∈ [.imap, .pop3, .smtp] ∧ c.resolved = false ∧ c.source = source ∧
      c.auth = (server.authentication.filterMap (autoconfigMethod config)).foldl pushMethod [] := by
  obtain ⟨server, -, hserver⟩ := List.mem_filterMap.mp h
  unfold ofAutoconfigServer at hserver
  split at hserver
  · cases hserver
  · simp only at hserver
    split at hserver
    · cases hserver
    · obtain rfl := Option.some.inj hserver
      refine ⟨server, ?_, rfl, rfl, rfl⟩
      simp only
      cases server.type <;> simp

theorem mem_fromSrv {report : DiscoverySrvReport} {c : DiscoveryServiceConfig}
    (h : c ∈ fromSrv report) : c.service ∈ [.imap, .smtp] ∧ c.resolved = false ∧ c.source = .srv ∧
      c.auth = [.password] ∧
      ∃ host port security, security ≠ .plain ∧ c.endpoint = .tcp host port security := by
  obtain ⟨⟨service, record, security⟩, hslot, hc⟩ := List.mem_filterMap.mp h
  have hservice : service ∈ [.imap, .smtp] ∧ security ≠ .plain := by
    simp only [List.mem_cons, Prod.mk.injEq, List.not_mem_nil, or_false] at hslot
    obtain ⟨rfl, -, rfl⟩ | ⟨rfl, -, rfl⟩ | ⟨rfl, -, rfl⟩ | ⟨rfl, -, rfl⟩ := hslot <;> decide
  simp only at hc
  split at hc
  · cases hc
  · split at hc
    · cases hc
    · obtain rfl := Option.some.inj hc
      exact ⟨hservice.1, rfl, rfl, rfl, _, _, _, hservice.2, rfl⟩

theorem mem_fromPacc {config : DiscoveryPaccConfig} {c : DiscoveryServiceConfig}
    (h : c ∈ fromPacc config) : c.resolved = false ∧ c.source = .pacc ∧
      c.auth =
        (config.authentication.oauthPublic.map (DiscoveryAuthMethod.oauthIssuer ·.issuer)).toList ++
          (if config.authentication.password = some true then [.password] else []) := by
  rcases List.mem_append.mp h with h | h
  · obtain ⟨⟨service, protocol, port⟩, -, hprotocol⟩ := List.mem_filterMap.mp h
    obtain ⟨found, -, rfl⟩ := Option.map_eq_some_iff.mp hprotocol
    exact ⟨rfl, rfl, rfl⟩
  · obtain ⟨⟨service, protocol⟩, -, hprotocol⟩ := List.mem_filterMap.mp h
    obtain ⟨found, -, rfl⟩ := Option.map_eq_some_iff.mp hprotocol
    exact ⟨rfl, rfl, rfl⟩

end DiscoveryServiceConfig

theorem DiscoveryKnownProvider.mem_configs {self : DiscoveryKnownProvider} {email : String}
    {c : DiscoveryServiceConfig} (h : c ∈ self.configs email) :
    ∃ service endpoint auth, c = providerConfig self email service endpoint auth := by
  cases self with
  | google | microsoft =>
    simp only [configs, googleConfigs, microsoftConfigs, List.mem_cons, List.not_mem_nil,
      or_false] at h
    rcases h with rfl | rfl | rfl | rfl | rfl | rfl | rfl | rfl <;> exact ⟨_, _, _, rfl⟩

namespace DiscoveryComposeClientStd
variable {client : DiscoveryComposeClientStd} {asks : Job → Prop}
  {allowed : ∀ job : Job, job.Answer → Prop} {post : DiscoveryServiceConfig → Prop}

theorem providerFromMx_always {domain : String} (hmx : asks (.mx domain)) :
    (providerFromMx domain).Always asks allowed fun _ => True := by
  refine Prog.Always.bind (.call hmx) fun answer _ => ?_
  cases answer <;> trivial

theorem runMx_always {domain email : String} (hmx : asks (.mx domain))
    (hpost : ∀ provider : DiscoveryKnownProvider, Reported post (provider.configs email)) :
    (runMx domain email).Always asks allowed (Reported post) := by
  refine (providerFromMx_always hmx).bind fun provider _ => ?_
  cases provider with
  | none => exact .nil
  | some provider => exact hpost provider

theorem runSrv_always {domain : String} (hsrv : asks (.srv domain))
    (hpost : ∀ report, allowed (.srv domain) (.ok report) →
      Reported post (DiscoveryServiceConfig.fromSrv report)) :
    (runSrv domain).Always asks allowed (Reported post) := by
  refine Prog.Always.bind (.call hsrv) fun answer ha => ?_
  cases answer with
  | error err => exact .nil
  | ok report => exact hpost report ha

variable [UrlCrate]

theorem runPacc_always {domain : String} (hpacc : asks (.pacc domain))
    (hpost : ∀ config, allowed (.pacc domain) (.ok config) →
      Reported post (client.keepSecure (DiscoveryServiceConfig.fromPacc config))) :
    (client.runPacc domain).Always asks allowed (Reported post) := by
  refine Prog.Always.bind (.call hpacc) fun answer ha => ?_
  cases answer with
  | error err => exact .nil
  | ok config => exact hpost config ha

def configService : DiscoveryDavService → DiscoveryService
  | .caldav => .caldav
  | .carddav => .carddav

structure Advertises (config : DiscoveryServiceConfig) (service : DiscoveryDavService)
    (origin : Url) : Prop where
  service : config.service = configService service
  unresolved : config.resolved = false
  bare : ∃ raw url, config.endpoint = .http raw ∧ UrlCrate.parse raw = .ok url ∧
    (url.scheme = "http" ∨ url.scheme = "https") ∧ (url.path = "" ∨ url.path = "/") ∧
    url.query = none ∧ origin = { url.setPath "/" with fragment := none }

theorem davRootTarget_eq_some {config : DiscoveryServiceConfig}
    {target : DiscoveryDavService × Url} :
    davRootTarget config = some target ↔ Advertises config target.1 target.2 := by
  constructor
  · intro h
    unfold davRootTarget at h
    simp only at h
    split at h
    · cases h
    · rename_i service hservice
      split at h
      · cases h
      · rename_i hresolved
        split at h
        · cases h
        · rename_i raw hendpoint
          split at h
          · cases h
          · rename_i url hurl
            split at h
            · cases h
            · rename_i hkept
              obtain rfl := Option.some.inj h
              -- What is left after the early returns is a bare http(s) origin.
              simp only [Bool.or_eq_true, Bool.not_eq_true', not_or, Bool.not_eq_false,
                beq_iff_eq, Bool.not_eq_true, Option.isSome_eq_false_iff,
                Option.isNone_iff_eq_none] at hkept
              obtain ⟨⟨hpath, hquery⟩, hscheme⟩ := hkept
              have hunresolved : config.resolved = false := Bool.eq_false_iff.mpr hresolved
              refine ⟨?_, hunresolved, raw, url, hendpoint, hurl, hscheme, hpath, hquery, rfl⟩
              split at hservice
              · rename_i hcaldav
                obtain rfl := Option.some.inj hservice
                exact hcaldav
              · rename_i hcarddav
                obtain rfl := Option.some.inj hservice
                exact hcarddav
              · cases hservice
  · obtain ⟨service, origin⟩ := target
    rintro ⟨hservice, hresolved, raw, url, hendpoint, hurl, hscheme, hpath, hquery, rfl⟩
    have hpath : (url.path == "" || url.path == "/") = true := by simpa using hpath
    have hscheme : (url.scheme == "http" || url.scheme == "https") = true := by simpa using hscheme
    unfold davRootTarget
    simp only [hresolved, hendpoint, hurl, hpath, hscheme, hquery]
    cases service <;> simp [hservice, configService]

theorem runDav_always {domain : String} {service : DiscoveryDavService}
    (hdav : asks (.dav domain service))
    (hpost : ∀ url, allowed (.dav domain service) (.ok url) →
      Reported post (client.keepSecure
        [DiscoveryServiceConfig.fromDav (configService service) (UrlCrate.asStr url)])) :
    (client.runDav domain service).Always asks allowed (Reported post) := by
  refine Prog.Always.bind (.call hdav) fun answer ha => ?_
  cases answer with
  | error err => exact .nil
  | ok url => cases service <;> exact hpost url ha

theorem runJmap_always {domain : String} (hjmap : asks (.jmap domain))
    (hpost : ∀ session, allowed (.jmap domain) (.ok session) →
      Reported post (client.keepSecure
        [DiscoveryServiceConfig.fromJmap (UrlCrate.asStr session.url) session.authSchemes])) :
    (client.runJmap domain).Always asks allowed (Reported post) := by
  refine Prog.Always.bind (.call hjmap) fun answer ha => ?_
  cases answer with
  | error err => exact .nil
  | ok session => exact hpost session ha

omit [UrlCrate] in
theorem auth_always {url : Url} (h : asks (.auth url)) :
    (auth url).Always asks allowed fun _ => True := by
  refine Prog.Always.bind (.call h) fun answer _ => ?_
  cases answer with
  | error err => trivial
  | ok schemes =>
    simp only
    split <;> trivial

theorem oauthServer_always {issuer : Url}
    (h : asks (.oauthServer (DiscoveryOauthServerMetadata.wellKnownUrl issuer)))
    (h' : asks (.oauthServer (DiscoveryOauthServerMetadata.openidWellKnownUrl issuer))) :
    (oauthServer issuer).Always asks allowed fun _ => True := by
  refine Prog.Always.bind (.call h) fun answer _ => ?_
  cases answer with
  | ok metadata => trivial
  | error err =>
    refine Prog.Always.bind (.call h') fun answer _ => ?_
    cases answer <;> trivial

theorem oauthResource_always {resource : Url}
    (h : asks (.oauthResource (DiscoveryOauthResourceMetadata.wellKnownUrl resource))) :
    (oauthResource resource).Always asks allowed fun result => ∀ metadata, result = some metadata →
      allowed (.oauthResource (DiscoveryOauthResourceMetadata.wellKnownUrl resource))
        (.ok metadata) := by
  refine Prog.Always.bind (.call h) fun answer ha => ?_
  cases answer with
  | error err => exact nofun
  | ok metadata =>
    intro found hfound
    obtain rfl := Option.some.inj hfound
    exact ha

section
variable (client asks allowed post) (email : String)

/-- What the autoconfig runners rely on: the lookups and the documents at `https` URLs may be asked
for, and the documents convert to `post` configs of an address only. -/
structure Autoconfigures : Prop where
  mx : ∀ domain, asks (.mx domain)
  cname : ∀ host, asks (.cname host)
  mailconf : ∀ domain, asks (.mailconf domain)
  built : ∀ rest url, UrlCrate.parse ("https://" ++ rest) = .ok url → ∀ query,
    asks (.isp { url with query })
  followed : ∀ domain url, allowed (.mailconf domain) (.ok url) →
    (client.secureOnly = true → url.scheme = "https") → asks (.isp url)
  document : ∀ url config, allowed (.isp url) (.ok config) → ∀ source,
    Reported post (client.keepSecure (DiscoveryServiceConfig.fromAutoconfig config email source))

end

namespace Autoconfigures
variable {email : String} (h : Autoconfigures client asks allowed post email)
include h

theorem runIsp {url : Url} (hurl : asks (.isp url)) (source : DiscoveryConfigSource) :
    (client.runIsp url email source).Always asks allowed (Reported post) := by
  refine Prog.Always.bind (.call hurl) fun answer ha => ?_
  cases answer with
  | error err => exact .nil
  | ok config => exact h.document url config ha source

theorem runIspAt {url : Except String Url} (hurl : ∀ u, url = .ok u → asks (.isp u))
    (source : DiscoveryConfigSource) :
    (client.runIspAt url email source).Always asks allowed (Reported post) := by
  unfold DiscoveryComposeClientStd.runIspAt
  cases url with
  | error err => exact .nil
  | ok url => exact h.runIsp (hurl url rfl) source

theorem hostUrl (host : String) (source : DiscoveryConfigSource) :
    (client.runIspAt (DiscoveryIsp.hostUrl email host true) email source).Always asks allowed
      (Reported post) := by
  refine h.runIspAt (fun u hu => ?_) source
  have hscheme : DiscoveryIsp.httpScheme true ++ "://" = "https://" := rfl
  simp only [DiscoveryIsp.hostUrl, hscheme, String.append_assoc] at hu
  cases hparse : UrlCrate.parse
      ("https://" ++ (Text.trimMatches host '.' ++ "/mail/config-v1.1.xml")) with
  | error err => simp [hparse, Except.map] at hu
  | ok url =>
    rw [hparse] at hu
    obtain rfl := Except.ok.inj hu
    exact h.built _ url hparse _

theorem runIspAlias (host : String) (source : DiscoveryConfigSource) :
    (client.runIspAlias host email source).Always asks allowed (Reported post) := by
  refine Prog.Always.bind (.call (h.cname host)) fun answer _ => ?_
  rcases answer with err | _ | target
  · exact .nil
  · exact .nil
  · exact h.hostUrl target source

theorem runIspMain (localPart domain : String) :
    (client.runIspMain localPart domain email).Always asks allowed (Reported post) := by
  have hmain : (client.runIspAt (DiscoveryIsp.mainUrl localPart domain true) email .ispMain).Always
      asks allowed (Reported post) := by
    refine h.runIspAt (fun u hu => ?_) .ispMain
    have hscheme : DiscoveryIsp.httpScheme true ++ "://autoconfig." = "https://" ++ "autoconfig." :=
      rfl
    simp only [DiscoveryIsp.mainUrl, hscheme, String.append_assoc] at hu
    exact h.built _ u hu u.query
  refine hmain.bind fun configs hconfigs => ?_
  split
  · exact h.runIspAlias _ .ispMain
  · exact hconfigs

theorem runIspFallback (domain : String) :
    (client.runIspFallback domain email).Always asks allowed (Reported post) := by
  refine h.runIspAt (fun u hu => ?_) .ispFallback
  have hscheme : DiscoveryIsp.httpScheme true ++ "://" = "https://" := rfl
  simp only [DiscoveryIsp.fallbackUrl, hscheme, String.append_assoc] at hu
  exact h.built _ u hu u.query

theorem dbUrl (base : String) (source : DiscoveryConfigSource) :
    (client.runIspAt (DiscoveryIsp.dbUrl base true) email source).Always asks allowed
      (Reported post) := by
  refine h.runIspAt (fun u hu => ?_) source
  have hscheme : DiscoveryIsp.httpScheme true ++ "://autoconfig.thunderbird.net/v1.1/" =
      "https://" ++ "autoconfig.thunderbird.net/v1.1/" := rfl
  simp only [DiscoveryIsp.dbUrl, hscheme, String.append_assoc] at hu
  exact h.built _ u hu u.query

theorem runIspdb (domain : String) :
    (client.runIspdb domain email).Always asks allowed (Reported post) := h.dbUrl domain .ispdb

theorem runMailconf (domain : String) :
    (client.runMailconf domain email).Always asks allowed (Reported post) := by
  refine Prog.Always.bind (.call (h.mailconf domain)) fun answer ha => ?_
  cases answer with
  | error err => exact .nil
  | ok url =>
    simp only
    split
    · exact .nil
    · rename_i hplain
      have hfollowed : client.secureOnly = true → url.scheme = "https" := by
        simpa using hplain
      exact h.runIsp (h.followed domain url ha hfollowed) .mailconf

theorem tryBases (bases : List String) :
    (client.tryBases email bases).Always asks allowed (Reported post) := by
  induction bases with
  | nil => exact .nil
  | cons base bases ih =>
    refine (h.hostUrl _ .mx).bind fun configs hconfigs => ?_
    split
    · exact hconfigs
    refine (h.runIspAlias _ .mx).bind fun configs hconfigs => ?_
    split
    · exact hconfigs
    refine (h.dbUrl base .mx).bind fun configs hconfigs => ?_
    split
    · exact hconfigs
    · exact ih

theorem runMxAutoconfig [PslCrate] (domain : String) :
    (client.runMxAutoconfig domain email).Always asks allowed (Reported post) := by
  refine Prog.Always.bind (.call (h.mx domain)) fun answer _ => ?_
  cases answer with
  | error err => exact .nil
  | ok records => exact h.tryBases _

end Autoconfigures
end DiscoveryComposeClientStd
end PimDiscovery
