import PimDiscovery.Compose.Distinct
import PimDiscovery.Coroutines.Ended
import PimDiscovery.Interaction.Cost

/-! What a composition costs: the exchanges its jobs make with the servers, whatever these answer. -/

namespace PimDiscovery
open Interaction

section
variable [UrlCrate] [DomainCrate] [IoHttpCrate] [SerdeCrate] [DigestCrate]

namespace DiscoveryComposeClientStd
variable (client : DiscoveryComposeClientStd) (servers : Job → Network)

def served (job : Job) : job.Answer := (job.program client).eval (servers job)

def jobExchanges (job : Job) : Nat := ((job.program client).asked (servers job)).length

theorem jobExchanges_le (job : Job) : client.jobExchanges servers job ≤ job.exchangesLimit :=
  (job.atMost_exchangesLimit client).length_asked _

end DiscoveryComposeClientStd
end

def DiscoveryComposeClientStd.effectCost [UrlCrate] [PslCrate] (client : DiscoveryComposeClientStd)
    (weight : Job → Nat) (net : ∀ job : Job, job.Answer) : Effect → Nat
  | .run job => weight job
  | .join _ task => (client.taskBody task).cost weight net
  | .spawn _ _ _ | .recv _ _ _ | .now => 0

def namedServers [UrlCrate] (net : ∀ job : Job, job.Answer) : Effect → Nat
  | .join .resource (.resource _ url) =>
    match (DiscoveryComposeClientStd.oauthResource url).eval net with
    | some metadata => metadata.authorizationServers.length
    | none => 0
  | _ => 0

def mxProviders [PslCrate] (net : ∀ job : Job, job.Answer) (domain : String) : Nat :=
  match net (.mx domain) with
  | .ok records => (mxBases domain records).length
  | .error _ => 0

def Mechanism.exchangesLimit (providers : Nat) : Mechanism → Nat
  | mx | ispFallback | ispdb => 1
  | pacc | mailconf => 2
  | ispMain => 3
  | mxAutoconfig => 1 + 4 * providers
  | srv => 4
  | caldav | carddav => 23
  | jmap => 7

/-! The jobs of each task. -/

section
variable {weight : Job → Nat} (hweight : ∀ job, weight job ≤ job.exchangesLimit)
  {net : ∀ job : Job, job.Answer}
include hweight

theorem Work.cost_run_le {α : Type} (job : Job) {f : job.Answer → Work α} {n : Nat}
    (hf : ∀ answer, (f answer).cost weight net ≤ n) :
    (Work.run job >>= f).cost weight net ≤ job.exchangesLimit + n := by
  have hjob : (Work.run job).cost weight net = weight job := Prog.cost_call job
  exact Prog.cost_bind_le (hjob.trans_le (hweight job)) hf

namespace DiscoveryComposeClientStd
variable (client : DiscoveryComposeClientStd)

theorem checkResolver_cost (input : String) : (client.checkResolver input).cost weight net ≤ 1 := by
  unfold checkResolver
  split
  · exact Nat.zero_le 1
  · refine Work.cost_run_le hweight (.check (domainPart input)) (n := 0) fun answer => ?_
    rcases answer with err | rcode
    · exact le_rfl
    · simp only
      split <;> exact le_rfl

theorem runMx_cost (domain email : String) : (runMx domain email).cost weight net ≤ 1 := by
  have hmx : (providerFromMx domain).cost weight net ≤ 1 :=
    Work.cost_run_le hweight (.mx domain) (n := 0) fun answer => by cases answer <;> exact le_rfl
  refine Prog.cost_bind_le (n := 0) hmx fun provider => ?_
  cases provider <;> exact le_rfl

theorem runSrv_cost (domain : String) : (runSrv domain).cost weight net ≤ 4 :=
  Work.cost_run_le hweight (.srv domain) (n := 0) fun answer => by cases answer <;> exact le_rfl

variable [UrlCrate]

theorem runPacc_cost (domain : String) : (client.runPacc domain).cost weight net ≤ 2 :=
  Work.cost_run_le hweight (.pacc domain) (n := 0) fun answer => by cases answer <;> exact le_rfl

theorem runDav_cost (domain : String) (service : DiscoveryDavService) :
    (client.runDav domain service).cost weight net ≤ 23 :=
  Work.cost_run_le hweight (.dav domain service) (n := 0) fun answer => by cases answer <;> exact le_rfl

theorem runJmap_cost (domain : String) : (client.runJmap domain).cost weight net ≤ 7 :=
  Work.cost_run_le hweight (.jmap domain) (n := 0) fun answer => by cases answer <;> exact le_rfl

theorem runIsp_cost (url : Url) (email : String) (source : DiscoveryConfigSource) :
    (client.runIsp url email source).cost weight net ≤ 1 :=
  Work.cost_run_le hweight (.isp url) (n := 0) fun answer => by cases answer <;> exact le_rfl

theorem runIspAt_cost (url : Except String Url) (email : String) (source : DiscoveryConfigSource) :
    (client.runIspAt url email source).cost weight net ≤ 1 := by
  cases url with
  | error err => exact Nat.zero_le 1
  | ok url => exact client.runIsp_cost hweight url email source

theorem runIspAlias_cost (host email : String) (source : DiscoveryConfigSource) :
    (client.runIspAlias host email source).cost weight net ≤ 2 := by
  refine Work.cost_run_le hweight (.cname host) (n := 1) fun answer => ?_
  rcases answer with err | _ | target
  · exact Nat.zero_le 1
  · exact Nat.zero_le 1
  · exact client.runIspAt_cost hweight _ email source

theorem runIspMain_cost (localPart domain email : String) :
    (client.runIspMain localPart domain email).cost weight net ≤ 3 := by
  refine Prog.cost_bind_le (n := 2) (client.runIspAt_cost hweight _ email .ispMain) fun configs => ?_
  split
  · exact client.runIspAlias_cost hweight _ email .ispMain
  · exact Nat.zero_le 2

theorem runMailconf_cost (domain email : String) :
    (client.runMailconf domain email).cost weight net ≤ 2 := by
  refine Work.cost_run_le hweight (.mailconf domain) (n := 1) fun answer => ?_
  rcases answer with err | url
  · exact Nat.zero_le 1
  · simp only
    split
    · exact Nat.zero_le 1
    · exact client.runIsp_cost hweight url email .mailconf

/-- Each provider is asked for its document, for an alias of its host, for the document of the alias, and in
the ISPDB. -/
theorem tryBases_cost (email : String) (bases : List String) :
    (client.tryBases email bases).cost weight net ≤ 4 * bases.length := by
  induction bases with
  | nil => exact le_rfl
  | cons base bases ih =>
    have hlength : 4 * (base :: bases).length = 1 + (2 + (1 + 4 * bases.length)) := by
      rw [List.length_cons]
      omega
    rw [hlength]
    unfold tryBases
    refine Prog.cost_bind_le (client.runIspAt_cost hweight _ email .mx) fun configs => ?_
    split
    · exact Nat.zero_le _
    refine Prog.cost_bind_le (client.runIspAlias_cost hweight _ email .mx) fun configs => ?_
    split
    · exact Nat.zero_le _
    refine Prog.cost_bind_le (client.runIspAt_cost hweight _ email .mx) fun configs => ?_
    split
    · exact Nat.zero_le _
    · exact ih

theorem runMxAutoconfig_cost [PslCrate] (domain email : String) :
    (client.runMxAutoconfig domain email).cost weight net ≤ 1 + 4 * mxProviders net domain := by
  unfold runMxAutoconfig mxProviders
  have hmx : (Work.run (.mx domain)).cost weight net ≤ 1 :=
    (Prog.cost_call _).trans_le (hweight (.mx domain))
  have heval : (Work.run (.mx domain)).eval net = net (.mx domain) := rfl
  rw [Prog.cost_bind, heval]
  apply Nat.add_le_add hmx
  cases net (.mx domain) with
  | error err => exact le_rfl
  | ok records => exact client.tryBases_cost hweight email (mxBases domain records)

theorem runMechanism_cost [PslCrate] (mechanism : Mechanism) (localPart domain email : String) :
    (client.runMechanism mechanism localPart domain email).cost weight net ≤
      mechanism.exchangesLimit (mxProviders net domain) := by
  cases mechanism with
  | mx => exact runMx_cost hweight domain email
  | pacc => exact client.runPacc_cost hweight domain
  | ispMain => exact client.runIspMain_cost hweight localPart domain email
  | ispFallback => exact client.runIspAt_cost hweight _ email .ispFallback
  | mailconf => exact client.runMailconf_cost hweight domain email
  | ispdb => exact client.runIspAt_cost hweight _ email .ispdb
  | mxAutoconfig => exact client.runMxAutoconfig_cost hweight domain email
  | srv => exact runSrv_cost hweight domain
  | caldav => exact client.runDav_cost hweight domain .caldav
  | carddav => exact client.runDav_cost hweight domain .carddav
  | jmap => exact client.runJmap_cost hweight domain

omit [UrlCrate] in
theorem probeDavRoot_cost (service : DiscoveryDavService) (origin : Url) :
    (probeDavRoot service origin).cost weight net ≤ 6 :=
  Work.cost_run_le hweight (.wellKnown origin service) (n := 0) fun answer => by
    cases answer <;> exact le_rfl

omit [UrlCrate] in
theorem probeSchemes_cost (urls : List Url) :
    (probeSchemes urls).cost weight net ≤ 6 * urls.length := by
  induction urls with
  | nil => exact le_rfl
  | cons url urls ih =>
    have hlength : 6 * (url :: urls).length = 6 + 6 * urls.length := by
      rw [List.length_cons]
      omega
    rw [hlength]
    refine Work.cost_run_le hweight (.auth url) fun answer => ?_
    cases answer with
    | error err => exact ih
    | ok schemes =>
      simp only
      split
      · exact Nat.zero_le _
      · exact ih

theorem oauthServer_cost (issuer : Url) : (oauthServer issuer).cost weight net ≤ 2 := by
  refine Work.cost_run_le hweight (.oauthServer _) (n := 1) fun answer => ?_
  cases answer with
  | ok metadata => exact Nat.zero_le 1
  | error err =>
    refine Work.cost_run_le hweight (.oauthServer _) (n := 0) fun answer => ?_
    cases answer <;> exact le_rfl

theorem resolveIssuer_cost (issuer : String) : (resolveIssuer issuer).cost weight net ≤ 2 := by
  unfold resolveIssuer
  cases UrlCrate.parse issuer with
  | error err => exact Nat.zero_le 2
  | ok url =>
    refine Prog.cost_bind_le (n := 0) (oauthServer_cost hweight url) fun metadata => ?_
    cases metadata <;> exact le_rfl

theorem oauthResource_cost (url : Url) : (oauthResource url).cost weight net ≤ 1 :=
  Work.cost_run_le hweight (.oauthResource _) (n := 0) fun answer => by cases answer <;> exact le_rfl

end DiscoveryComposeClientStd
end

/-! The HTTP endpoints a composition finds. -/

def isHttp (config : DiscoveryServiceConfig) : Bool :=
  (DiscoveryComposeClientStd.httpEndpoint config).isSome

def Mechanism.endpointsLimit : Mechanism → Nat
  | mx => 5
  | pacc => 4
  | caldav | carddav | jmap => 1
  | _ => 0

theorem isHttp_congr {c d : DiscoveryServiceConfig} (h : c.endpoint = d.endpoint) :
    isHttp c = isHttp d := by
  simp only [isHttp, DiscoveryComposeClientStd.httpEndpoint, h]

theorem DiscoveryKnownProvider.endpoints_le (provider : DiscoveryKnownProvider) (email : String) :
    (provider.configs email).countP isHttp ≤ 5 := by
  cases provider with
  | google => exact le_rfl
  | microsoft => exact Nat.le_of_ble_eq_true rfl

theorem fromPacc_endpoints (config : DiscoveryPaccConfig) :
    (DiscoveryServiceConfig.fromPacc config).countP isHttp ≤ 4 := by
  unfold DiscoveryServiceConfig.fromPacc
  rw [List.countP_append]
  show _ ≤ 0 + 4
  refine Nat.add_le_add (Nat.le_of_eq ?_) (List.countP_le_length.trans (List.length_filterMap_le _ _))
  -- The text protocols have no HTTP endpoint.
  rw [List.countP_eq_zero]
  intro c hc
  obtain ⟨⟨service, protocol, port⟩, -, hprotocol⟩ := List.mem_filterMap.mp hc
  obtain ⟨found, -, rfl⟩ := Option.map_eq_some_iff.mp hprotocol
  exact Bool.false_ne_true

theorem none_http {configs : List DiscoveryServiceConfig}
    (h : Reported (fun c => isHttp c = false) configs) : configs.countP isHttp = 0 := by
  rw [List.countP_eq_zero]
  intro c hc
  rw [h c hc]
  exact Bool.false_ne_true

namespace DiscoveryComposeClientStd
variable [UrlCrate] (client : DiscoveryComposeClientStd)

theorem keepSecure_endpoints {configs : List DiscoveryServiceConfig} {n : Nat}
    (h : configs.countP isHttp ≤ n) : (client.keepSecure configs).countP isHttp ≤ n := by
  unfold DiscoveryComposeClientStd.keepSecure
  split
  · exact (List.filter_sublist.countP_le).trans h
  · exact h

theorem autoconfigures_tcp (email : String) : client.Autoconfigures (fun _ => True)
    (fun _ _ => True) (fun c => isHttp c = false) email where
  mx _ := trivial
  cname _ := trivial
  mailconf _ := trivial
  built _ _ _ _ := trivial
  followed _ _ _ _ := trivial
  document _ config _ source := by
    refine client.keepSecure_reported fun c hc => ?_
    obtain ⟨server, -, hserver⟩ := List.mem_filterMap.mp hc
    unfold DiscoveryServiceConfig.ofAutoconfigServer at hserver
    split at hserver
    · cases hserver
    · simp only at hserver
      split at hserver
      · cases hserver
      · obtain rfl := Option.some.inj hserver
        rfl

theorem runMechanism_endpoints [PslCrate] (net : ∀ job : Job, job.Answer) (mechanism : Mechanism)
    (localPart domain email : String) :
    ((client.runMechanism mechanism localPart domain email).eval net).countP isHttp ≤
      mechanism.endpointsLimit := by
  have hmail := client.autoconfigures_tcp email
  have hnone : ∀ {work : Work (List DiscoveryServiceConfig)},
      work.Always (fun _ => True) (fun _ _ => True) (Reported fun c => isHttp c = false) →
        (work.eval net).countP isHttp ≤ 0 := by
    intro work hwork
    exact (none_http (hwork.returns (Prog.returns_eval (fun _ => trivial) work))).le
  have hone : ∀ config : DiscoveryServiceConfig,
      (client.keepSecure [config]).countP isHttp ≤ 1 :=
    fun config => client.keepSecure_endpoints List.countP_le_length
  have hrun : ∀ job, (Work.run job).eval net = net job := fun _ => rfl
  have hdav : ∀ service, ((client.runDav domain service).eval net).countP isHttp ≤ 1 := by
    intro service
    unfold runDav
    rw [Prog.eval_bind, hrun]
    cases net (.dav domain service) with
    | error err => exact Nat.zero_le 1
    | ok url => exact hone _
  cases mechanism with
  | mx =>
    show ((runMx domain email).eval net).countP isHttp ≤ 5
    unfold runMx
    rw [Prog.eval_bind]
    cases (providerFromMx domain).eval net with
    | none => exact Nat.zero_le 5
    | some provider => exact provider.endpoints_le email
  | pacc =>
    show ((client.runPacc domain).eval net).countP isHttp ≤ 4
    unfold runPacc
    rw [Prog.eval_bind, hrun]
    cases net (.pacc domain) with
    | error err => exact Nat.zero_le 4
    | ok config => exact client.keepSecure_endpoints (fromPacc_endpoints config)
  | ispMain => exact hnone (hmail.runIspMain localPart domain)
  | ispFallback => exact hnone (hmail.runIspFallback domain)
  | mailconf => exact hnone (hmail.runMailconf domain)
  | ispdb => exact hnone (hmail.runIspdb domain)
  | mxAutoconfig => exact hnone (hmail.runMxAutoconfig domain)
  | srv =>
    refine hnone (runSrv_always trivial fun report _ c hc => ?_)
    obtain ⟨-, -, -, -, host, port, security, -, hendpoint⟩ := DiscoveryServiceConfig.mem_fromSrv hc
    simp only [isHttp, httpEndpoint, hendpoint, Option.isSome_none]
  | caldav => exact hdav .caldav
  | carddav => exact hdav .carddav
  | jmap =>
    show ((client.runJmap domain).eval net).countP isHttp ≤ 1
    unfold runJmap
    rw [Prog.eval_bind, hrun]
    cases net (.jmap domain) with
    | error err => exact Nat.zero_le 1
    | ok session => exact hone _

end DiscoveryComposeClientStd
end PimDiscovery
