import PimDiscovery.Compose.Costs
import PimDiscovery.Compose.Mailbox
import PimDiscovery.Compose.Supervised
import PimDiscovery.Compose.Within

/-! The budget of a composition: past a constant, only the providers that the MX records name and the
authorization servers that resources name cost exchanges. -/

namespace PimDiscovery
open Interaction

namespace Compose
variable {o : Answers} {weight : Effect → Nat}

@[simp] theorem cost_inline {α : Type} (work : Work α) : (inline work).cost weight o =
    work.cost (fun job => weight (.run job)) fun job => o (.run job) := by
  have hweight : ∀ job, (ask (.run job)).cost weight o = weight (.run job) :=
    fun job => Prog.cost_call _
  unfold inline
  rw [Prog.cost_interpret]
  simp only [hweight]
  rfl

@[simp] theorem cost_scope {kind : TaskKind} (tasks : List (Task kind)) :
    (scope tasks).cost weight o = (tasks.map fun task => weight (.join kind task)).sum := by
  have hweight : ∀ task : Task kind, (ask (.join kind task)).cost weight o = weight (.join kind task) :=
    fun task => Prog.cost_call _
  unfold scope
  rw [Prog.cost_forEach]
  simp only [hweight]

end Compose

theorem sum_map_le {α : Type} {f : α → Nat} {n : Nat} {xs : List α} (h : ∀ x ∈ xs, f x ≤ n) :
    (xs.map f).sum ≤ n * xs.length := by
  induction xs with
  | nil => exact le_rfl
  | cons x xs ih =>
    obtain ⟨hx, hxs⟩ := List.forall_mem_cons.mp h
    rw [List.map_cons, List.sum_cons, List.length_cons, Nat.mul_succ, Nat.add_comm]
    exact Nat.add_le_add (ih hxs) hx

theorem sum_filter_le {α : Type} (f : α → Nat) (p : α → Bool) (xs : List α) :
    ((xs.filter p).map f).sum ≤ (xs.map f).sum :=
  (List.filter_sublist.map f).sum_le_sum fun _ _ => Nat.zero_le _

theorem mechanismsFor_exchanges (provider : Option DiscoveryKnownProvider)
    (services : Finset DiscoveryService) (providers : Nat) :
    ((Plan.mechanismsFor provider services).map (Mechanism.exchangesLimit providers)).sum ≤
      68 + 4 * providers := by
  rw [Plan.mechanismsFor_eq]
  apply (sum_filter_le _ _ _).trans
  cases provider <;> simp [Plan.mechanismsFor, DiscoveryConfigCollector.wants_empty,
    Mechanism.exchangesLimit] <;> omega

theorem mechanismsFor_endpoints (provider : Option DiscoveryKnownProvider)
    (services : Finset DiscoveryService) (email : String) :
    ((provider.map (·.configs email)).toList.map (List.countP isHttp)).sum +
        ((Plan.mechanismsFor provider services).map Mechanism.endpointsLimit).sum ≤ 12 := by
  rw [Plan.mechanismsFor_eq]
  have hmechanisms := sum_filter_le Mechanism.endpointsLimit (Mechanism.relevant services)
    (Plan.mechanismsFor provider ∅)
  cases provider with
  | none =>
    have hall : ((Plan.mechanismsFor none ∅).map Mechanism.endpointsLimit).sum = 12 := by decide
    simp only [Option.map_none, Option.toList_none, List.map_nil, List.sum_nil]
    omega
  | some provider =>
    have hall : ((Plan.mechanismsFor (some provider) ∅).map Mechanism.endpointsLimit).sum = 7 := by
      cases provider <;> decide
    have hprovider := provider.endpoints_le email
    simp only [Option.map_some, Option.toList_some, List.map_cons, List.map_nil, List.sum_cons,
      List.sum_nil]
    omega

theorem length_btreeSet_le (strings : List String) : (btreeSet strings).length ≤ strings.length := by
  unfold btreeSet
  rw [List.length_mergeSort]
  exact (List.dedup_sublist strings).length_le

theorem length_issuersOf_le {configs : List DiscoveryServiceConfig} {issuers : List String}
    (h : ∀ config ∈ configs, ∀ issuer, .oauthIssuer issuer ∈ config.auth → issuer ∈ issuers) :
    (DiscoveryComposeClientStd.issuersOf configs).length ≤ issuers.length := by
  have hnodup : (DiscoveryComposeClientStd.issuersOf configs).Nodup := by
    unfold DiscoveryComposeClientStd.issuersOf btreeSet
    exact (List.mergeSort_perm _ _).nodup_iff.mpr (List.nodup_dedup _)
  refine (hnodup.subperm fun issuer hissuer => ?_).length_le
  obtain ⟨config, hconfig, hmethod⟩ := DiscoveryComposeClientStd.mem_issuersOf.mp hissuer
  exact h config hconfig issuer hmethod

namespace DiscoveryComposeClientStd
variable [UrlCrate] (client : DiscoveryComposeClientStd)

theorem isHttp_of_davRootTarget {config : DiscoveryServiceConfig} {target : DiscoveryDavService × Url}
    (h : davRootTarget config = some target) : isHttp config = true := by
  obtain ⟨raw, url, hendpoint, -⟩ := (davRootTarget_eq_some.mp h).bare
  simp only [isHttp, httpEndpoint, hendpoint, Option.isSome_some]

theorem setDavRoot_isHttp (rootOf : DiscoveryDavService × Url → Option Url)
    (config : DiscoveryServiceConfig) : isHttp (client.setDavRoot rootOf config) = isHttp config := by
  unfold setDavRoot
  cases htarget : davRootTarget config with
  | none => rfl
  | some target =>
    have hhttp := isHttp_of_davRootTarget htarget
    split
    · rfl
    · split
      · rfl
      · rw [hhttp]
        rfl

theorem setDavRoot_endpoints (rootOf : DiscoveryDavService × Url → Option Url)
    (outputs : List (List DiscoveryServiceConfig)) :
    (outputs.map (·.map (client.setDavRoot rootOf))).flatten.countP isHttp =
      outputs.flatten.countP isHttp := by
  have hsame : isHttp ∘ client.setDavRoot rootOf = isHttp := by
    funext config
    exact client.setDavRoot_isHttp rootOf config
  rw [← List.map_flatten, List.countP_map, hsame]

theorem length_davTargets_le (outputs : List (List DiscoveryServiceConfig)) :
    (davTargets outputs).length ≤ outputs.flatten.countP isHttp := by
  have hsubset : davTargets outputs ⊆ outputs.flatten.filterMap davRootTarget := by
    intro target htarget
    obtain ⟨config, hconfig, hfound⟩ := mem_davTargets.mp htarget
    exact List.mem_filterMap.mpr ⟨config, hconfig, hfound⟩
  have hlength := ((davTargets_nodup outputs).subperm hsubset).length_le
  rw [List.length_filterMap_eq_countP] at hlength
  refine hlength.trans (List.countP_mono_left fun config _ hfound => ?_)
  obtain ⟨target, htarget⟩ := Option.isSome_iff_exists.mp hfound
  exact isHttp_of_davRootTarget htarget

theorem collectOutputs_endpoints (first : Bool) (collector : DiscoveryConfigCollector)
    (outputs : List (List DiscoveryServiceConfig)) :
    (collectOutputs first collector outputs).finish.countP isHttp ≤
      collector.configs.countP isHttp + outputs.flatten.countP isHttp := by
  have hmerge : ∀ c d, isHttp (DiscoveryConfigCollector.merge c d) = true →
      isHttp c = true ∨ isHttp d = true := by
    intro c d hhttp
    have hmerged := DiscoveryConfigCollector.merge_endpoint_source_resolved c d
    split at hmerged
    · exact .inr ((isHttp_congr hmerged.1).symm.trans hhttp)
    · exact .inl ((isHttp_congr hmerged.1).symm.trans hhttp)
  induction outputs generalizing collector with
  | nil => exact Nat.le_add_right _ _
  | cons output outputs ih =>
    have hcollect : (collector.collect output).configs.countP isHttp ≤
        collector.configs.countP isHttp + output.countP isHttp := by
      rw [DiscoveryConfigCollector.collect_eq]
      refine (FirstFit.countP_run_le hmerge _ _).trans (Nat.add_le_add_left ?_ _)
      exact List.filter_sublist.countP_le
    have hrest := ih (collector.collect output)
    rw [List.flatten_cons, List.countP_append, collectOutputs]
    split
    · exact hcollect.trans (by omega)
    · omega

theorem length_resourceTasks_le (configs : List DiscoveryServiceConfig) :
    (resourceTasks configs).length ≤ configs.countP isHttp := by
  unfold resourceTasks
  refine (List.length_filterMap_le _ _).trans ((length_btreeSet_le _).trans ?_)
  rw [List.length_filterMap_eq_countP]
  exact le_rfl

theorem length_probeUrls_le (config : DiscoveryServiceConfig) :
    config.probeUrls.length ≤ if isHttp config then 2 else 0 := by
  unfold DiscoveryServiceConfig.probeUrls isHttp httpEndpoint
  cases config.service <;> cases config.endpoint <;> simp only [List.length_nil, Nat.zero_le] <;>
    split <;> simp

section
variable [PslCrate] {weight : Job → Nat} (hweight : ∀ job, weight job ≤ job.exchangesLimit)
  (net : ∀ job : Job, job.Answer) {o : Answers}
include hweight

theorem resolveDavRoots_cost (outputs : List (List DiscoveryServiceConfig)) :
    (client.resolveDavRoots outputs none).cost (client.effectCost weight net) o ≤
      6 * outputs.flatten.countP isHttp := by
  unfold resolveDavRoots
  simp only
  split
  · exact Nat.zero_le _
  · have htask : ∀ target ∈ davTargets outputs, client.effectCost weight net
        (.join .davRoot (.davRoot target.1 target.2)) ≤ 6 :=
      fun target _ => probeDavRoot_cost hweight target.1 target.2
    have hsum := sum_map_le htask
    have hlength := length_davTargets_le outputs
    rw [Prog.cost_bind, @Compose.cost_scope _ _ .davRoot, List.map_map]
    exact hsum.trans (Nat.mul_le_mul_left 6 hlength)

theorem probe_cost (configs : List DiscoveryServiceConfig) :
    (probe configs).cost (client.effectCost weight net) o ≤ 12 * configs.countP isHttp := by
  have htasks : (configs.map fun config => client.effectCost weight net
      (.join .schemes (.schemes config.probeUrls))).sum ≤ 12 * configs.countP isHttp := by
    induction configs with
    | nil => exact le_rfl
    | cons config configs ih =>
      have hprobe : client.effectCost weight net (.join .schemes (.schemes config.probeUrls)) ≤
          6 * config.probeUrls.length := probeSchemes_cost hweight config.probeUrls
      have hurls := length_probeUrls_le config
      rw [List.map_cons, List.sum_cons, List.countP_cons]
      split at hurls <;> rename_i hhttp
      · rw [if_pos hhttp]
        omega
      · rw [if_neg hhttp]
        omega
  unfold probe
  rw [Prog.cost_bind, @Compose.cost_scope _ _ .schemes, List.map_map]
  exact htasks

theorem resolveIssuers_cost (configs : List DiscoveryServiceConfig) :
    (resolveIssuers configs).cost (client.effectCost weight net) o ≤
      2 * (issuersOf configs).length := by
  unfold resolveIssuers
  simp only
  split
  · exact Nat.zero_le _
  · have htask : ∀ issuer ∈ issuersOf configs,
        client.effectCost weight net (.join .issuer (.issuer issuer)) ≤ 2 := by
      intro issuer _
      exact Prog.cost_bind_le (n := 0) (resolveIssuer_cost hweight issuer) fun _ => le_rfl
    have hsum := sum_map_le htask
    rw [Prog.cost_bind, @Compose.cost_scope _ _ .issuer, List.map_map]
    exact hsum

theorem fetchResources_cost (configs : List DiscoveryServiceConfig) :
    ((resourceTasks configs).map fun task => client.effectCost weight net (.join .resource task)).sum ≤
      configs.countP isHttp := by
  have htask : ∀ task ∈ resourceTasks configs,
      client.effectCost weight net (.join .resource task) ≤ 1 := by
    intro task _
    cases task with
    | resource raw url => exact Prog.cost_bind_le (n := 0) (oauthResource_cost hweight url) fun _ => le_rfl
  have hsum := sum_map_le htask
  have hlength := length_resourceTasks_le configs
  omega

theorem parallelOutputs_cost {email : String} {services : Finset DiscoveryService} {plan : Plan}
    (hplan : Plan.of email services = .ok plan) :
    (client.parallelOutputs email services).cost (client.effectCost weight net) (client.answers net) ≤
      69 + 4 * mxProviders net plan.domain := by
  have hcheck : (client.checkResolver plan.domain).cost weight net ≤ 1 :=
    client.checkResolver_cost hweight plan.domain
  have hmechanisms : ((plan.tasks email).map fun task =>
      client.effectCost weight net (.join .mechanism task)).sum ≤
        68 + 4 * mxProviders net plan.domain := by
    obtain ⟨-, hmechanisms⟩ := plan_eq email hplan
    have htask : ∀ mechanism ∈ plan.mechanisms, client.effectCost weight net (.join .mechanism
        (.mechanism mechanism plan.localPart plan.domain (Text.trim email))) ≤
          mechanism.exchangesLimit (mxProviders net plan.domain) :=
      fun mechanism _ => client.runMechanism_cost hweight mechanism _ _ _
    have hall := mechanismsFor_exchanges (DiscoveryKnownProvider.fromDomain plan.domain) services
      (mxProviders net plan.domain)
    rw [← hmechanisms] at hall
    unfold Plan.tasks
    rw [List.map_map]
    exact (List.sum_le_sum htask).trans hall
  unfold parallelOutputs
  rw [hplan]
  simp only
  rw [Prog.cost_bind, Compose.cost_inline]
  have hinline : (client.checkResolver plan.domain).cost
      (fun job => client.effectCost weight net (.run job)) (fun job => client.answers net (.run job)) ≤
        1 := hcheck
  split
  · rw [Prog.return_eq, Prog.cost_pure]
    omega
  · rw [Prog.cost_bind, @Compose.cost_scope _ _ .mechanism, Prog.return_eq, Prog.cost_pure]
    omega

end

/-! The issuers that cost exchanges: those of the PACC document, and those that the resources name. -/

def paccIssuers (net : ∀ job : Job, job.Answer) (domain : String) : List String :=
  match net (.pacc domain) with
  | .ok config => (config.authentication.oauthPublic.map (·.issuer)).toList
  | .error _ => []

omit [UrlCrate] in
theorem length_paccIssuers_le (net : ∀ job : Job, job.Answer) (domain : String) :
    (paccIssuers net domain).length ≤ 1 := by
  unfold paccIssuers
  cases net (.pacc domain) with
  | error err => exact Nat.zero_le 1
  | ok config =>
    simp only
    cases config.authentication.oauthPublic <;> simp

def IssuersIn (issuers : List String) (config : DiscoveryServiceConfig) : Prop :=
  ∀ issuer, .oauthIssuer issuer ∈ config.auth → issuer ∈ issuers

structure Modest (issuers : List String) (configs : List DiscoveryServiceConfig) : Prop where
  endpoints : configs.countP isHttp ≤ 12
  issuers : ∀ config ∈ configs, IssuersIn issuers config

namespace Modest
variable {issuers : List String}

theorem setDavRoot {outputs : List (List DiscoveryServiceConfig)} (h : Modest issuers outputs.flatten)
    (rootOf : DiscoveryDavService × Url → Option Url) :
    Modest issuers (outputs.map (·.map (client.setDavRoot rootOf))).flatten := by
  constructor
  · rw [setDavRoot_endpoints]
    exact h.endpoints
  · have hauth : ∀ config, (client.setDavRoot rootOf config).auth = config.auth := by
      intro config
      unfold DiscoveryComposeClientStd.setDavRoot
      split
      · rfl
      · split <;> rfl
    rw [← List.map_flatten]
    intro config hconfig issuer hissuer
    obtain ⟨found, hfound, rfl⟩ := List.mem_map.mp hconfig
    rw [hauth] at hissuer
    exact h.issuers found hfound issuer hissuer

theorem collectOutputs {outputs : List (List DiscoveryServiceConfig)}
    (h : Modest issuers outputs.flatten) (first : Bool) (services : Finset DiscoveryService) :
    Modest issuers (collectOutputs first (DiscoveryConfigCollector.new services) outputs).finish := by
  constructor
  · have hcollected := collectOutputs_endpoints first (DiscoveryConfigCollector.new services) outputs
    have hnone : (DiscoveryConfigCollector.new services).configs.countP isHttp = 0 := rfl
    have hendpoints := h.endpoints
    omega
  · refine forall_collectOutputs (fun c d _ hc hd issuer hissuer => ?_) first
      (fun output houtput config hconfig => ?_) (List.forall_mem_nil _)
    · rw [DiscoveryConfigCollector.merge_auth, mem_foldl_pushMethod] at hissuer
      exact hissuer.elim (hc issuer) (hd issuer)
    · exact h.issuers config (List.mem_flatten.mpr ⟨output, houtput, hconfig⟩)

theorem probed {configs : List DiscoveryServiceConfig} (h : Modest issuers configs) (o : Answers) :
    Modest issuers (configs.map (probed o)) := by
  constructor
  · have hsame : isHttp ∘ DiscoveryComposeClientStd.probed o = isHttp := by
      funext config
      exact isHttp_congr (refineProbed_sameButAuth config (schemesOf o config)).endpoint
    rw [List.countP_map, hsame]
    exact h.endpoints
  · intro config hconfig issuer hissuer
    obtain ⟨plain, hplain, rfl⟩ := List.mem_map.mp hconfig
    apply h.issuers plain hplain issuer
    unfold DiscoveryComposeClientStd.probed refineProbed at hissuer
    split at hissuer
    · exact mem_refineAuth.mp hissuer
    · exact hissuer

omit [UrlCrate] in
theorem filter {configs : List DiscoveryServiceConfig} (h : Modest issuers configs)
    (p : DiscoveryServiceConfig → Bool) : Modest issuers (configs.filter p) :=
  ⟨List.filter_sublist.countP_le.trans h.endpoints,
    fun config hconfig => h.issuers config (List.mem_filter.mp hconfig).1⟩

end Modest

omit [UrlCrate] in
theorem provider_issuersIn (provider : DiscoveryKnownProvider) (email : String) (issuers : List String) :
    Reported (IssuersIn issuers) (provider.configs email) := by
  cases provider <;>
    simp [Reported, IssuersIn, DiscoveryKnownProvider.configs, googleConfigs, microsoftConfigs,
      providerConfig, googleOauth, microsoftAuth]

theorem runMechanism_issuersIn [PslCrate] (net : ∀ job : Job, job.Answer) (mechanism : Mechanism)
    (localPart domain email : String) :
    Reported (IssuersIn (paccIssuers net domain))
      ((client.runMechanism mechanism localPart domain email).eval net) := by
  have hreturns : (client.runMechanism mechanism localPart domain email).Returns
      (fun job answer => answer = net job)
      ((client.runMechanism mechanism localPart domain email).eval net) := by
    apply Prog.returns_eval
    intro job
    rfl
  suffices h : (client.runMechanism mechanism localPart domain email).Always (fun _ => True)
      (fun job answer => answer = net job) (Reported (IssuersIn (paccIssuers net domain))) from
    h.returns hreturns
  have hmail : client.Autoconfigures (fun _ => True) (fun job answer => answer = net job)
      (IssuersIn (paccIssuers net domain)) email :=
    { mx := fun _ => trivial, cname := fun _ => trivial, mailconf := fun _ => trivial
      built := fun _ _ _ _ => trivial, followed := fun _ _ _ _ => trivial
      document := fun _ document _ source => client.keepSecure_reported fun c hc issuer hissuer =>
        absurd hissuer (fromAutoconfig_issuers document email source c hc issuer) }
  have hone : ∀ config : DiscoveryServiceConfig, IssuersIn (paccIssuers net domain) config →
      Reported (IssuersIn (paccIssuers net domain)) (client.keepSecure [config]) := by
    intro config hconfig
    refine client.keepSecure_reported fun c hc => ?_
    rwa [List.mem_singleton.mp hc]
  cases mechanism with
  | mx => exact runMx_always trivial fun provider => provider_issuersIn provider email _
  | pacc =>
    refine runPacc_always trivial fun config hconfig => client.keepSecure_reported ?_
    intro c hc issuer hissuer
    obtain ⟨oauth, hoauth, rfl⟩ := fromPacc_issuers config c hc issuer hissuer
    simp [paccIssuers, ← hconfig, hoauth]
  | ispMain => exact hmail.runIspMain localPart domain
  | ispFallback => exact hmail.runIspFallback domain
  | mailconf => exact hmail.runMailconf domain
  | ispdb => exact hmail.runIspdb domain
  | mxAutoconfig => exact hmail.runMxAutoconfig domain
  | srv =>
    refine runSrv_always trivial fun report _ c hc issuer hissuer => ?_
    obtain ⟨-, -, -, hauth, -⟩ := DiscoveryServiceConfig.mem_fromSrv hc
    simp [hauth] at hissuer
  | caldav | carddav =>
    refine runDav_always trivial fun url _ => hone _ fun issuer hissuer => ?_
    simp [DiscoveryServiceConfig.fromDav] at hissuer
  | jmap =>
    exact runJmap_always trivial fun session _ => hone _ fun issuer hissuer =>
      absurd hissuer not_mem_schemeMethods

def fetchedResources [PslCrate] (net : ∀ job : Job, job.Answer) (tasks : List (Task .resource)) :
    List (String × DiscoveryOauthResourceMetadata) :=
  (tasks.map fun task => client.answers net (.join .resource task)).filterMap (·.join)

def serversIn (resources : List (String × DiscoveryOauthResourceMetadata)) : List String :=
  resources.flatMap fun resource => resource.2.authorizationServers.map UrlCrate.asStr

theorem length_serversIn [PslCrate] (net : ∀ job : Job, job.Answer) (tasks : List (Task .resource)) :
    (serversIn (client.fetchedResources net tasks)).length =
      (tasks.map fun task => namedServers net (.join .resource task)).sum := by
  induction tasks with
  | nil => rfl
  | cons task tasks ih =>
    cases task with
    | resource raw url =>
      have hanswer : client.answers net (.join .resource (.resource raw url)) =
          some (((oauthResource url).eval net).map (raw, ·)) := by
        simp only [answers, taskBody, Prog.eval_bind]
        rfl
      unfold serversIn fetchedResources at ih ⊢
      rw [List.map_cons, List.map_cons, List.sum_cons, hanswer, ← ih, namedServers]
      cases (oauthResource url).eval net with
      | none => simp
      | some metadata => simp

theorem addIssuers_issuersIn {issuers : List String} {config : DiscoveryServiceConfig}
    (h : IssuersIn issuers config) (resources : List (String × DiscoveryOauthResourceMetadata)) :
    IssuersIn (issuers ++ serversIn resources) (addIssuers (List.lookup · resources) config) := by
  intro issuer hissuer
  rw [List.mem_append]
  unfold addIssuers at hissuer
  cases hfound : (httpEndpoint config).bind (List.lookup · resources) with
  | none =>
    rw [hfound] at hissuer
    exact .inl (h issuer hissuer)
  | some metadata =>
    rw [hfound] at hissuer
    refine (mem_addResourceIssuers hissuer).imp (h issuer) fun hserver => ?_
    obtain ⟨raw, -, hlookup⟩ := Option.bind_eq_some_iff.mp hfound
    exact List.mem_flatMap.mpr ⟨(raw, metadata), mem_of_lookup hlookup, hserver⟩

theorem resolveIssuers_names (net : ∀ job : Job, job.Answer) (o : Answers)
    (configs : List DiscoveryServiceConfig) :
    (resolveIssuers configs).cost (namedServers net) o = 0 := by
  unfold resolveIssuers
  simp only
  split
  · rfl
  · rw [Prog.cost_bind, @Compose.cost_scope _ _ .issuer, List.map_map, Prog.return_eq, Prog.cost_pure,
      Nat.add_zero, List.sum_eq_zero_iff]
    intro n hn
    obtain ⟨issuer, -, rfl⟩ := List.mem_map.mp hn
    rfl

section
variable [PslCrate] {weight : Job → Nat} (hweight : ∀ job, weight job ≤ job.exchangesLimit)
  (net : ∀ job : Job, job.Answer)
include hweight

theorem resolveOauth_cost {configs : List DiscoveryServiceConfig} {issuers : List String}
    (h : ∀ config ∈ configs, IssuersIn issuers config) :
    (resolveOauth configs).cost (client.effectCost weight net) (client.answers net) ≤
      configs.countP isHttp + 2 * (issuers.length +
        (resolveOauth configs).cost (namedServers net) (client.answers net)) := by
  have hfetch := client.fetchResources_cost hweight net configs
  have hnames := client.length_serversIn net (resourceTasks configs)
  have hissuers : ∀ config ∈ configs.map (addIssuers
      (List.lookup · (client.fetchedResources net (resourceTasks configs)))),
      IssuersIn (issuers ++ serversIn (client.fetchedResources net (resourceTasks configs))) config := by
    intro config hconfig
    obtain ⟨plain, hplain, rfl⟩ := List.mem_map.mp hconfig
    exact addIssuers_issuersIn (h plain hplain) _
  have hlength := length_issuersOf_le hissuers
  rw [List.length_append, hnames] at hlength
  have hresolve := client.resolveIssuers_cost hweight net (o := client.answers net)
    (configs.map (addIssuers
      (List.lookup · (client.fetchedResources net (resourceTasks configs)))))
  unfold resolveOauth
  simp only [Prog.cost_bind, @Compose.cost_scope _ _ .resource, @Compose.eval_scope _ .resource,
    resolveIssuers_names, Prog.return_eq, Prog.cost_pure, Nat.add_zero]
  unfold fetchedResources at hlength hresolve
  omega

omit hweight in
/-- The configs that the passes start from: few HTTP endpoints, and one issuer. -/
theorem planOutputs_modest {email : String} {services : Finset DiscoveryService} {plan : Plan}
    (hplan : Plan.of email services = .ok plan) :
    Modest (paccIssuers net plan.domain) (planOutputs (client.answers net) plan email).flatten := by
  obtain ⟨hprovider, hmechanisms⟩ := plan_eq email hplan
  have houtputs : planOutputs (client.answers net) plan email =
      ((DiscoveryKnownProvider.fromDomain plan.domain).map (·.configs (Text.trim email))).toList ++
        plan.mechanisms.map fun mechanism => (client.runMechanism mechanism plan.localPart plan.domain
          (Text.trim email)).eval net := by
    unfold planOutputs Plan.outputs Plan.tasks
    rw [hprovider, List.map_map, List.map_map]
    rfl
  rw [houtputs]
  constructor
  · have hall := mechanismsFor_endpoints (DiscoveryKnownProvider.fromDomain plan.domain) services
      (Text.trim email)
    rw [← hmechanisms] at hall
    have hmechanism : ∀ mechanism ∈ plan.mechanisms, ((client.runMechanism mechanism plan.localPart
        plan.domain (Text.trim email)).eval net).countP isHttp ≤ mechanism.endpointsLimit :=
      fun mechanism _ => client.runMechanism_endpoints net mechanism _ _ _
    have hsum := List.sum_le_sum hmechanism
    rw [List.countP_flatten, List.map_append, List.sum_append, List.map_map]
    exact (Nat.add_le_add_left hsum _).trans hall
  · intro config hconfig
    obtain ⟨output, houtput, hconfig⟩ := List.mem_flatten.mp hconfig
    rcases List.mem_append.mp houtput with hfixed | hreported
    · obtain ⟨provider, -, rfl⟩ := Option.map_eq_some_iff.mp (Option.mem_toList.mp hfixed)
      exact provider_issuersIn provider _ _ config hconfig
    · obtain ⟨mechanism, -, rfl⟩ := List.mem_map.mp hreported
      exact client.runMechanism_issuersIn net mechanism _ _ _ config hconfig

theorem finish_cost {domain : String} {configs : List DiscoveryServiceConfig}
    (h : Modest (paccIssuers net domain) configs) :
    (resolveOauth configs).cost (client.effectCost weight net) (client.answers net) ≤
      12 + 2 * (1 + (resolveOauth configs).cost (namedServers net) (client.answers net)) := by
  have hone := length_paccIssuers_le net domain
  have hendpoints := h.endpoints
  refine (client.resolveOauth_cost hweight net h.issuers).trans ?_
  omega

theorem compose_cost {email : String} {services : Finset DiscoveryService} {plan : Plan}
    (hplan : Plan.of email services = .ok plan) (first : Bool) :
    (client.compose email services first none).cost (client.effectCost weight net)
        (client.answers net) ≤
      297 + 4 * mxProviders net plan.domain + 2 * (1 +
        (client.compose email services first none).cost (namedServers net) (client.answers net)) := by
  have hplanned := client.parallelOutputs_cost hweight net hplan
  have hmodest := client.planOutputs_modest net hplan
  have hnow : ∀ weight : Effect → Nat, (Compose.ask .now).cost weight (client.answers net) =
      weight .now := fun _ => Prog.cost_call _
  have hidle : client.effectCost weight net .now = 0 ∧ namedServers net .now = 0 := ⟨rfl, rfl⟩
  unfold compose
  simp only [Prog.cost_bind, hnow, hidle]
  rw [eval_parallelOutputs, hplan]
  simp only
  cases (client.checkResolver plan.domain).eval fun job => client.answers net (.run job) with
  | error err =>
    simp only [Prog.return_eq, Prog.cost_pure]
    omega
  | ok =>
    have hresolved := hmodest.setDavRoot client (rootOf (client.answers net))
    have hcollected := hresolved.collectOutputs first services
    have hroots := client.resolveDavRoots_cost hweight net (o := client.answers net)
      (planOutputs (client.answers net) plan email)
    have hprobe := client.probe_cost hweight net (o := client.answers net)
      (collectOutputs first (DiscoveryConfigCollector.new services)
        ((planOutputs (client.answers net) plan email).map
          (·.map (client.setDavRoot (rootOf (client.answers net)))))).finish
    have hoauth := client.finish_cost hweight net (hcollected.probed (client.answers net))
    have hendpoints := hmodest.endpoints
    have hleft := hcollected.endpoints
    simp only [Prog.cost_bind, Prog.return_eq, Prog.cost_pure, Prog.eval_pure, eval_resolveDavRoots,
      eval_probe]
    unfold planOutputs at hroots hprobe hoauth hendpoints hleft
    omega

theorem composeRaw_cost {email : String} {services : Finset DiscoveryService} {plan : Plan}
    (hplan : Plan.of email services = .ok plan) :
    (client.composeRaw email services).cost (client.effectCost weight net) (client.answers net) ≤
      297 + 4 * mxProviders net plan.domain + 2 * (1 +
        (client.composeRaw email services).cost (namedServers net) (client.answers net)) := by
  have hplanned := client.parallelOutputs_cost hweight net hplan
  have hmodest := client.planOutputs_modest net hplan
  unfold composeRaw
  simp only [Prog.cost_bind]
  rw [eval_parallelOutputs, hplan]
  simp only
  cases (client.checkResolver plan.domain).eval fun job => client.answers net (.run job) with
  | error err =>
    simp only [Prog.return_eq, Prog.cost_pure]
    omega
  | ok =>
    have hresolved := hmodest.setDavRoot client (rootOf (client.answers net))
    have hroots := client.resolveDavRoots_cost hweight net (o := client.answers net)
      (planOutputs (client.answers net) plan email)
    have hoauth := client.finish_cost hweight net (hresolved.filter fun config =>
      services = ∅ || config.service ∈ services)
    have hendpoints := hmodest.endpoints
    simp only [Prog.cost_bind, Prog.return_eq, Prog.cost_pure, eval_resolveDavRoots]
    unfold planOutputs at hroots hoauth hendpoints
    omega

end

section
variable [DomainCrate] [IoHttpCrate] [SerdeCrate] [DigestCrate] [PslCrate]

/-- Whatever the servers answer, and however they change their answers from job to job, a composition
makes a bounded number of exchanges, but for four with each provider that the MX records name and two with
each authorization server that a resource names. -/
theorem composes_budget (servers : Job → Network) {email : String}
    {services : Finset DiscoveryService} {plan : Plan} (hplan : Plan.of email services = .ok plan)
    {program : Compose ComposeResult} (hprogram : program ∈ [client.composeAll email services,
      client.composeFirst email services, client.composeRaw email services]) :
    program.cost (client.effectCost (client.jobExchanges servers) (client.served servers))
        (client.answers (client.served servers)) ≤
      297 + 4 * mxProviders (client.served servers) plan.domain + 2 * (1 +
        program.cost (namedServers (client.served servers)) (client.answers (client.served servers))) := by
  have hweight := client.jobExchanges_le servers
  simp only [List.mem_cons, List.not_mem_nil, or_false] at hprogram
  rcases hprogram with rfl | rfl | rfl
  · exact client.compose_cost hweight (client.served servers) hplan false
  · exact client.compose_cost hweight (client.served servers) hplan true
  · exact client.composeRaw_cost hweight (client.served servers) hplan

end

omit [UrlCrate] in
theorem composes_budget_jmap :
    letI := plainUrl
    letI := plainPsl
    letI := plainDns
    letI := plainHttp
    letI := plainSerde
    letI := DiscoveryPacc.vouchedCrates
    let client := DiscoveryComposeClientStd.new exampleResolver
    let net := client.served fun _ => repeatingNetwork
    let program := client.composeAll "user@example.org" {.jmap}
    program.cost (client.effectCost (client.jobExchanges fun _ => repeatingNetwork) net)
        (client.answers net) ≤
      297 + 4 * mxProviders net "example.org" + 2 * (1 + program.cost (namedServers net) (client.answers net)) := by
  let _ := plainUrl
  let _ := plainPsl
  let _ := plainDns
  let _ := plainHttp
  let _ := plainSerde
  let _ := DiscoveryPacc.vouchedCrates
  have hplan : Plan.of "user@example.org" {.jmap} = .ok
      { providerOutput := none, localPart := "user", domain := "example.org"
        mechanisms := Plan.mechanismsFor none {.jmap} } := by
    decide +kernel
  exact composes_budget (new exampleResolver) (fun _ => repeatingNetwork) hplan (List.mem_cons_self ..)

end DiscoveryComposeClientStd
end PimDiscovery
