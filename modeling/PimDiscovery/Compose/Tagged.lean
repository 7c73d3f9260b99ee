import PimDiscovery.Compose.Restricted

/-! The source that the configs of a mechanism are tagged with. -/

namespace PimDiscovery
open Interaction

namespace Mechanism

def tags : Mechanism → DiscoveryConfigSource → Bool
  | mx, .provider _ | pacc, .pacc | ispMain, .ispMain | ispFallback, .ispFallback => true
  | mailconf, .mailconf | ispdb, .ispdb | mxAutoconfig, .mx | srv, .srv => true
  | caldav, .dav | carddav, .dav | jmap, .jmap => true
  | _, _ => false

end Mechanism

namespace DiscoveryServiceConfig

theorem fromAutoconfig_source (config : DiscoveryAutoconfig) (email : String)
    (source : DiscoveryConfigSource) :
    Reported (fun c => c.source = source) (fromAutoconfig config email source) := by
  intro c hc
  obtain ⟨server, -, -, hsource, -⟩ := mem_fromAutoconfig hc
  exact hsource

theorem fromPacc_source (config : DiscoveryPaccConfig) :
    Reported (fun c => c.source = .pacc) (fromPacc config) :=
  fun _ hc => (mem_fromPacc hc).2.1

theorem fromSrv_source (report : DiscoverySrvReport) :
    Reported (fun c => c.source = .srv) (fromSrv report) :=
  fun _ hc => (mem_fromSrv hc).2.2.1

end DiscoveryServiceConfig

namespace DiscoveryKnownProvider

theorem configs_source (self : DiscoveryKnownProvider) (email : String) :
    Reported (fun c => c.source = .provider self) (self.configs email) := by
  intro c hc
  obtain ⟨service, endpoint, auth, rfl⟩ := mem_configs hc
  rfl

end DiscoveryKnownProvider

namespace DiscoveryComposeClientStd
variable [UrlCrate] (client : DiscoveryComposeClientStd)

def Tagged (source : DiscoveryConfigSource) (work : Work (List DiscoveryServiceConfig)) : Prop :=
  work.Always (fun _ => True) (fun _ _ => True) (Reported fun c => c.source = source)

theorem runIsp_tagged (url : Url) (email : String) (source : DiscoveryConfigSource) :
    Tagged source (client.runIsp url email source) := by
  refine Prog.Always.bind (.call trivial) fun answer _ => ?_
  cases answer with
  | error err => exact .nil
  | ok config =>
    exact client.keepSecure_reported (DiscoveryServiceConfig.fromAutoconfig_source config email source)

theorem runIspAt_tagged (url : Except String Url) (email : String) (source : DiscoveryConfigSource) :
    Tagged source (client.runIspAt url email source) := by
  unfold runIspAt
  cases url with
  | error err => exact .nil
  | ok url => exact client.runIsp_tagged url email source

theorem runIspAlias_tagged (host email : String) (source : DiscoveryConfigSource) :
    Tagged source (client.runIspAlias host email source) := by
  refine Prog.Always.bind (.call trivial) fun answer _ => ?_
  rcases answer with err | _ | target
  · exact .nil
  · exact .nil
  · exact client.runIspAt_tagged _ email source

theorem runIspMain_tagged (localPart domain email : String) :
    Tagged .ispMain (client.runIspMain localPart domain email) := by
  refine (client.runIspAt_tagged _ email .ispMain).bind fun configs hconfigs => ?_
  split
  · exact client.runIspAlias_tagged _ email .ispMain
  · exact hconfigs

theorem runMailconf_tagged (domain email : String) :
    Tagged .mailconf (client.runMailconf domain email) := by
  refine Prog.Always.bind (.call trivial) fun answer _ => ?_
  cases answer with
  | error err => exact .nil
  | ok url =>
    simp only
    split
    · exact .nil
    · exact client.runIsp_tagged url email .mailconf

theorem tryBases_tagged (email : String) (bases : List String) :
    Tagged .mx (client.tryBases email bases) := by
  induction bases with
  | nil => exact .nil
  | cons base bases ih =>
    refine (client.runIspAt_tagged _ email .mx).bind fun configs hconfigs => ?_
    split
    · exact hconfigs
    refine (client.runIspAlias_tagged _ email .mx).bind fun configs hconfigs => ?_
    split
    · exact hconfigs
    refine (client.runIspAt_tagged _ email .mx).bind fun configs hconfigs => ?_
    split
    · exact hconfigs
    · exact ih

theorem runMxAutoconfig_tagged [PslCrate] (domain email : String) :
    Tagged .mx (client.runMxAutoconfig domain email) := by
  refine Prog.Always.bind (.call trivial) fun answer _ => ?_
  cases answer with
  | error err => exact .nil
  | ok records => exact client.tryBases_tagged email _

/-- Each mechanism tags its configs with its own source, of the provider it has found for the MX. -/
theorem runMechanism_tags [PslCrate] (mechanism : Mechanism) (localPart domain email : String) :
    (client.runMechanism mechanism localPart domain email).Always (fun _ => True) (fun _ _ => True)
      (Reported fun c => mechanism.tags c.source = true) := by
  have htag : ∀ {source : DiscoveryConfigSource} {work : Work (List DiscoveryServiceConfig)},
      Tagged source work → mechanism.tags source = true →
        work.Always (fun _ => True) (fun _ _ => True)
          (Reported fun c => mechanism.tags c.source = true) := by
    intro source work hwork hsource
    refine hwork.mono fun configs hconfigs c hc => ?_
    exact (congrArg mechanism.tags (hconfigs c hc)).trans hsource
  have hone : ∀ {c : DiscoveryServiceConfig}, mechanism.tags c.source = true →
      Reported (fun c => mechanism.tags c.source = true) (client.keepSecure [c]) := by
    intro c hc
    refine client.keepSecure_reported fun d hd => ?_
    obtain rfl := List.mem_singleton.mp hd
    exact hc
  cases mechanism with
  | mx =>
    refine runMx_always trivial fun provider c hc => ?_
    rw [provider.configs_source email c hc]
    rfl
  | pacc =>
    apply runPacc_always trivial
    intro config _ c hc
    rw [client.keepSecure_reported (DiscoveryServiceConfig.fromPacc_source config) c hc]
    rfl
  | ispMain => exact htag (client.runIspMain_tagged localPart domain email) rfl
  | ispFallback => exact htag (client.runIspAt_tagged _ email .ispFallback) rfl
  | mailconf => exact htag (client.runMailconf_tagged domain email) rfl
  | ispdb => exact htag (client.runIspAt_tagged _ email .ispdb) rfl
  | mxAutoconfig => exact htag (client.runMxAutoconfig_tagged domain email) rfl
  | srv =>
    apply runSrv_always trivial
    intro report _ c hc
    rw [DiscoveryServiceConfig.fromSrv_source report c hc]
    rfl
  | caldav => exact runDav_always trivial fun _ _ => hone rfl
  | carddav => exact runDav_always trivial fun _ _ => hone rfl
  | jmap => exact runJmap_always trivial fun _ _ => hone rfl

end DiscoveryComposeClientStd
end PimDiscovery
