import PimDiscovery.Compose.Restricted
import PimDiscovery.Compose.Traced
import PimDiscovery.Pacc.Vouched
import PimDiscovery.Rfc6764.Rooted
import PimDiscovery.Rfc6764.Unrelated

/-! The resolved flag over a whole composition: it stands on exactly the configs whose endpoint a
`PROPFIND` walk of that run ended on, and the others keep the endpoint their mechanism advertised. -/

namespace PimDiscovery
open Interaction

namespace DiscoveryComposeClientStd
variable [UrlCrate] [PslCrate] [DomainCrate] [IoHttpCrate] [SerdeCrate] [DigestCrate]

section
variable (client : DiscoveryComposeClientStd) (heard : Hearing) (plan : Plan) (email : String)

/-- The configs that the mechanisms of a run read off what they were answered with. -/
inductive Advertised : DiscoveryServiceConfig → Prop where
  | provider {provider : DiscoveryKnownProvider} {config : DiscoveryServiceConfig}
      (h : config ∈ provider.configs (Text.trim email)) : Advertised config
  | pacc {document : DiscoveryPaccConfig} {config : DiscoveryServiceConfig}
      (h : client.Overhears heard (.pacc plan.domain) (.ok document))
      (hconfig : config ∈ DiscoveryServiceConfig.fromPacc document) : Advertised config
  | autoconfig {url : Url} {document : DiscoveryAutoconfig} {source : DiscoveryConfigSource}
      {config : DiscoveryServiceConfig} (h : client.Overhears heard (.isp url) (.ok document))
      (hconfig : config ∈ DiscoveryServiceConfig.fromAutoconfig document (Text.trim email) source) :
      Advertised config
  | srv {report : DiscoverySrvReport} {config : DiscoveryServiceConfig}
      (h : client.Overhears heard (.srv plan.domain) (.ok report))
      (hconfig : config ∈ DiscoveryServiceConfig.fromSrv report) : Advertised config
  | jmap {session : DiscoveryJmapSessionResource}
      (h : client.Overhears heard (.jmap plan.domain) (.ok session)) :
      Advertised (DiscoveryServiceConfig.fromJmap (UrlCrate.asStr session.url) session.authSchemes)

/-- A root of a DAV service that a run found: `DiscoveryDavResolve` returned it, or the probe of an
advertised origin did after a redirect. -/
def FindsRoot (service : DiscoveryDavService) (root : Url) : Prop :=
  (client.Overhears heard (.dav plan.domain service) (.ok root) ∧
    DiscoveryDavResolve.Resolved heard service plan.domain root) ∨
  ∃ origin start, client.Overhears heard (.wellKnown origin service) (.ok (some root)) ∧
    DavStart service origin .wellKnown start ∧ RootWalk heard .wellKnown start root

/-- A resolved config is at a root the run found for its service; any other is where the mechanism it
names advertised that service. -/
structure Truthful (config : DiscoveryServiceConfig) : Prop where
  resolved : config.resolved = true → ∃ service root, config.service = configService service ∧
    config.endpoint = .http (UrlCrate.asStr root) ∧ client.FindsRoot heard plan service root
  unresolved : config.resolved = false → ∃ advertised, client.Advertised heard plan email advertised ∧
    advertised.resolved = false ∧ advertised.service = config.service ∧
    advertised.source = config.source ∧ advertised.endpoint = config.endpoint

end

variable {client : DiscoveryComposeClientStd} {heard : Hearing} {plan : Plan} {email : String}

omit [PslCrate] in
theorem Advertised.resolved {config : DiscoveryServiceConfig}
    (h : client.Advertised heard plan email config) : config.resolved = false := by
  cases h with
  | provider h =>
    obtain ⟨service, endpoint, auth, rfl⟩ := DiscoveryKnownProvider.mem_configs h
    rfl
  | pacc h hconfig => exact (DiscoveryServiceConfig.mem_fromPacc hconfig).1
  | autoconfig h hconfig =>
    obtain ⟨server, -, hresolved, -⟩ := DiscoveryServiceConfig.mem_fromAutoconfig hconfig
    exact hresolved
  | srv h hconfig => exact (DiscoveryServiceConfig.mem_fromSrv hconfig).2.1
  | jmap h => rfl

omit [PslCrate] in
theorem Advertised.truthful {config : DiscoveryServiceConfig}
    (h : client.Advertised heard plan email config) : client.Truthful heard plan email config := by
  have hresolved := h.resolved
  refine ⟨fun hr => ?_, fun _ => ⟨config, h, hresolved, rfl, rfl, rfl⟩⟩
  rw [hresolved] at hr
  exact nomatch hr

omit [PslCrate] in
theorem Truthful.of_root {config : DiscoveryServiceConfig} {service : DiscoveryDavService} {root : Url}
    (hservice : config.service = configService service)
    (hendpoint : config.endpoint = .http (UrlCrate.asStr root)) (hresolved : config.resolved = true)
    (h : client.FindsRoot heard plan service root) : client.Truthful heard plan email config := by
  refine ⟨fun _ => ⟨service, root, hservice, hendpoint, h⟩, fun hr => ?_⟩
  rw [hresolved] at hr
  exact nomatch hr

omit [PslCrate] in
theorem Truthful.congr {c d : DiscoveryServiceConfig} (h : client.Truthful heard plan email c)
    (hservice : d.service = c.service) (hsource : d.source = c.source)
    (hendpoint : d.endpoint = c.endpoint) (hresolved : d.resolved = c.resolved) :
    client.Truthful heard plan email d := by
  constructor
  · rw [hresolved, hservice, hendpoint]
    exact h.resolved
  · rw [hresolved, hservice, hsource, hendpoint]
    exact h.unresolved

theorem runMechanism_truthful (mechanism : Mechanism) :
    (client.runMechanism mechanism plan.localPart plan.domain (Text.trim email)).Always
      (fun _ => True) (client.Overhears heard) (Reported (client.Truthful heard plan email)) := by
  have hauto : client.Autoconfigures (fun _ => True) (client.Overhears heard)
      (client.Truthful heard plan email) (Text.trim email) :=
    { mx := fun _ => trivial, cname := fun _ => trivial, mailconf := fun _ => trivial
      built := fun _ _ _ _ => trivial, followed := fun _ _ _ _ => trivial
      document := fun url document h source => client.keepSecure_reported fun config hconfig =>
        Advertised.truthful (.autoconfig h hconfig) }
  have hdav : ∀ service, (client.runDav plan.domain service).Always (fun _ => True)
      (client.Overhears heard) (Reported (client.Truthful heard plan email)) := by
    intro service
    refine runDav_always trivial fun root hroot => client.keepSecure_reported ?_
    have hfound := (DiscoveryDavResolve.program_rooted plan.domain service client.dns
      client.secureOnly).returns hroot root rfl
    intro config hconfig
    obtain rfl := List.mem_singleton.mp hconfig
    exact .of_root rfl rfl rfl (.inl ⟨hroot, hfound⟩)
  cases mechanism with
  | mx => exact runMx_always trivial fun provider config hconfig => Advertised.truthful (.provider hconfig)
  | pacc =>
    refine runPacc_always trivial fun document h => client.keepSecure_reported ?_
    exact fun config hconfig => Advertised.truthful (.pacc h hconfig)
  | ispMain => exact hauto.runIspMain _ _
  | ispFallback => exact hauto.runIspFallback _
  | mailconf => exact hauto.runMailconf _
  | ispdb => exact hauto.runIspdb _
  | mxAutoconfig => exact hauto.runMxAutoconfig _
  | srv => exact runSrv_always trivial fun report h config hconfig => Advertised.truthful (.srv h hconfig)
  | caldav => exact hdav .caldav
  | carddav => exact hdav .carddav
  | jmap =>
    refine runJmap_always trivial fun session h => client.keepSecure_reported ?_
    exact fun config hconfig => List.mem_singleton.mp hconfig ▸ Advertised.truthful (.jmap h)

/-- The stages up to the OAuth pass keep the flag truthful. -/
theorem maintained_truthful :
    client.Maintained (client.Overhears heard) (client.Truthful heard plan email) where
  root config target root htarget hproduces _ := by
    have hservice := (davRootTarget_eq_some.mp htarget).service
    have hprobe : (client.taskBody (.davRoot target.1 target.2)).Always (fun _ => True)
        (client.Overhears heard) fun result => ∀ found, result = some found →
          client.FindsRoot heard plan target.1 found := by
      refine Prog.Always.bind (.call trivial) fun answer hanswer => ?_
      cases answer with
      | error err => exact fun _ => nofun
      | ok found =>
        intro root hroot
        obtain rfl := hroot
        obtain ⟨start, hstart, hwalk⟩ :=
          (DiscoveryWellKnown.program_rooted target.2 target.1).returns hanswer root rfl
        exact .inr ⟨target.2, start, hanswer, hstart, hwalk⟩
    exact .of_root hservice rfl rfl (hprobe.returns hproduces root rfl)
  merge c d hrelated hc hd := by
    have hservice := ((DiscoveryConfigCollector.related_iff c d).mp hrelated).1
    have hmoved := DiscoveryConfigCollector.merge_endpoint_source_resolved c d
    split at hmoved
    · obtain ⟨hendpoint, hsource, hresolved⟩ := hmoved
      exact hd.congr ((DiscoveryConfigCollector.merge_service c d).trans hservice) hsource hendpoint
        hresolved
    · obtain ⟨hendpoint, hsource, hresolved⟩ := hmoved
      exact hc.congr (DiscoveryConfigCollector.merge_service c d) hsource hendpoint hresolved
  probed config schemes _ hconfig := by
    have hsame := refineProbed_sameButAuth config (some schemes)
    exact hconfig.congr hsame.service hsame.source hsame.endpoint hsame.resolved

/-- Whatever the network answers, every config that a composition returns is truthful about its
endpoint. -/
theorem composes_truthful {services : Finset DiscoveryService} {entry : ConfigEntry}
    (hentry : entry.Composes email services) {configs : List DiscoveryServiceConfig}
    (hrun : (entry.program client).Returns (client.Backed (client.Overhears heard)) (.ok configs)) :
    ∃ plan, Plan.of email services = .ok plan ∧
      ∀ config ∈ configs, client.Truthful heard plan email config := by
  obtain ⟨reduced, resourceOf, methodsOf, ⟨plan, reports, rootOf, hplan, hreports, hroots, hreduced⟩, -,
    rfl⟩ := (composes_backed hentry).returns hrun configs rfl
  refine ⟨plan, hplan, fun config hconfig => ?_⟩
  obtain ⟨before, hbefore, rfl⟩ := List.mem_map.mp hconfig
  have houtputs : ∀ output ∈ plan.outputs reports, ∀ config ∈ output,
      client.Truthful heard plan email config := by
    refine outputs_forall ?_ ?_ hplan hreports
    · exact fun provider config hconfig => Advertised.truthful (.provider hconfig)
    · exact fun mechanism configs hproduces => (runMechanism_truthful mechanism).returns hproduces
  have htruthful := maintained_truthful.reduced houtputs hroots hreduced before hbefore
  have hsame := (bindResources_sameButAuth resourceOf _).trans
    ((setIssuers_sameButAuth methodsOf _).trans (addIssuers_sameButAuth resourceOf before))
  exact htruthful.congr hsame.service hsame.source hsame.endpoint hsame.resolved

omit [UrlCrate] [PslCrate] [DomainCrate] [IoHttpCrate] [SerdeCrate] [DigestCrate] in
theorem composes_truthful_caldav :
    letI := plainUrl
    letI := plainPsl
    letI := plainDns
    letI := plainHttp
    letI := plainSerde
    letI := DiscoveryPacc.vouchedCrates
    let client := DiscoveryComposeClientStd.new exampleResolver
    let net := foundNetwork (.ok (PlainDns.srvAnswer "" []))
    let found := DiscoveryServiceConfig.fromDav .caldav "https://dav.example.org:8443/"
    ∃ plan, Plan.of "user@example.org" {.caldav} = .ok plan ∧
      client.Truthful (fun q answer => answer = net q) plan "user@example.org" found := by
  let _ := plainUrl
  let _ := plainPsl
  let _ := plainDns
  let _ := plainHttp
  let _ := plainSerde
  let _ := DiscoveryPacc.vouchedCrates
  let client := DiscoveryComposeClientStd.new exampleResolver
  let net := foundNetwork (.ok (PlainDns.srvAnswer "" []))
  let o := client.answers fun job => (job.program client).eval net
  have heval : (client.composeAll "user@example.org" {.caldav}).eval o =
      .ok [.fromDav .caldav "https://dav.example.org:8443/"] := by
    rw [eval_composeAll (reports_answers client _)]
    decide +kernel
  have hrun : (client.composeAll "user@example.org" {.caldav}).Returns
      (client.Backed (client.Overhears fun q answer => answer = net q))
      (.ok [.fromDav .caldav "https://dav.example.org:8443/"]) := by
    rw [← heval]
    exact Prog.returns_eval (backed_answers (overhears_eval net)) _
  have hentry : (ConfigEntry.composeAll "user@example.org" {.caldav}).Composes
      "user@example.org" {.caldav} := ⟨rfl, rfl⟩
  obtain ⟨plan, hplan, htruthful⟩ := composes_truthful hentry hrun
  exact ⟨plan, hplan, htruthful _ (List.mem_singleton.mpr rfl)⟩

end DiscoveryComposeClientStd
end PimDiscovery
