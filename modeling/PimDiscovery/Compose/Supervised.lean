import PimDiscovery.Compose.Guarded

/-! Whole runs of a secure-only client: what its entry points hand to threads and return, whatever
the threads and the clock answer within bounds. -/

namespace PimDiscovery
open Interaction

namespace DiscoveryComposeClientStd
variable [UrlCrate]

/-- What the entry points rely on: good tasks may be run, and come back with good results. -/
structure Supervised (asks : Effect → Prop) (allowed : ∀ effect : Effect, effect.Answer → Prop)
    (goodIssuer : String → Prop) : Prop where
  inline : Sources (fun job => asks (.run job)) (fun job => allowed (.run job)) goodIssuer
  join : ∀ kind (task : Task kind), GoodTask goodIssuer task → asks (.join kind task)
  spawn : ∀ kind index (task : Task kind), GoodTask goodIssuer task → asks (.spawn kind index task)
  recv : ∀ kind (tasks : List (Task kind)) remaining, asks (.recv kind tasks remaining)
  now : asks .now
  joined : ∀ kind (task : Task kind) result, GoodTask goodIssuer task →
    allowed (.join kind task) (some result) → GoodResult goodIssuer task result
  received : ∀ kind (tasks : List (Task kind)) remaining index result,
    (∀ task ∈ tasks, GoodTask goodIssuer task) →
      allowed (.recv kind tasks remaining) (some (index, result)) →
        ∃ task ∈ tasks, GoodResult goodIssuer task result

def Collected (goodIssuer : String → Prop) {kind : TaskKind} (tasks : List (Task kind))
    (results : List (Option kind.Result)) : Prop :=
  ∀ result, some result ∈ results → ∃ task ∈ tasks, GoodResult goodIssuer task result

theorem davTargets_scheme {outputs : List (List DiscoveryServiceConfig)}
    {target : DiscoveryDavService × Url} (h : target ∈ davTargets outputs) :
    target.2.scheme = "http" ∨ target.2.scheme = "https" := by
  obtain ⟨config, -, htarget⟩ := mem_davTargets.mp h
  obtain ⟨raw, url, -, -, hscheme, -, -, horigin⟩ := (davRootTarget_eq_some.mp htarget).bare
  rw [horigin]
  exact hscheme

theorem probeUrls_scheme {config : DiscoveryServiceConfig} (h : config.isSecure = true) :
    ∀ url ∈ config.probeUrls, url.scheme = "https" := by
  intro url hurl
  unfold DiscoveryServiceConfig.probeUrls at hurl
  cases hendpoint : config.endpoint with
  | tcp => split at hurl <;> simp [hendpoint] at hurl
  | http raw =>
    obtain ⟨parsed, hparse, hscheme⟩ := (isSecure_http hendpoint).mp h
    have hwellKnown : ∀ path : Option String, url ∈ parsed :: path.toList.map parsed.setPath →
        url.scheme = "https" := by
      intro path hmem
      rcases List.mem_cons.mp hmem with rfl | hmem
      · exact hscheme
      · obtain ⟨path, -, rfl⟩ := List.mem_map.mp hmem
        exact hscheme
    simp only [hendpoint, hparse] at hurl
    split at hurl
    · exact hwellKnown _ hurl
    · exact hwellKnown _ hurl
    · exact hwellKnown _ hurl
    · exact hwellKnown _ hurl
    · exact nomatch hurl

theorem refineProbed_guarded {goodIssuer : String → Prop} {config : DiscoveryServiceConfig}
    (h : Guarded goodIssuer config) (schemes : Option (List String)) :
    Guarded goodIssuer (refineProbed config schemes) := by
  constructor
  · rw [isSecure_congr (refineProbed_sameButAuth config schemes).endpoint]
    exact h.secure
  · intro issuer hissuer
    unfold DiscoveryComposeClientStd.refineProbed at hissuer
    split at hissuer
    · exact h.issuers issuer (mem_refineAuth.mp hissuer)
    · exact h.issuers issuer hissuer

theorem resourceTasks_scheme {goodIssuer : String → Prop} {configs : List DiscoveryServiceConfig}
    (h : Reported (fun c => c.isSecure = true) configs) {task : Task .resource}
    (htask : task ∈ resourceTasks configs) : GoodTask goodIssuer task := by
  cases task with
  | resource raw url =>
    obtain ⟨⟨config, hconfig, hhttp⟩, hurl⟩ := mem_resourceTasks.mp htask
    obtain ⟨url', hurl', hscheme⟩ := (isSecure_http hhttp).mp (h config hconfig)
    obtain rfl : url' = url := Except.ok.inj (hurl'.symm.trans hurl)
    exact hscheme

omit [UrlCrate] in
theorem mem_addResourceIssuers {config : DiscoveryServiceConfig} {servers : List String}
    {issuer : String} (h : .oauthIssuer issuer ∈ (config.addResourceIssuers servers).auth) :
    .oauthIssuer issuer ∈ config.auth ∨ issuer ∈ servers := by
  unfold DiscoveryServiceConfig.addResourceIssuers at h
  split at h
  · exact .inl h
  · rw [← @List.foldl_map _ _ _ DiscoveryAuthMethod.oauthIssuer, mem_foldl_pushMethod] at h
    simpa using h

theorem collectOutputs_guarded {goodIssuer : String → Prop} (first : Bool)
    {collector : DiscoveryConfigCollector} (hcollector : Reported (Guarded goodIssuer) collector.configs)
    {outputs : List (List DiscoveryServiceConfig)}
    (houtputs : Reported (Guarded goodIssuer) outputs.flatten) :
    Reported (Guarded goodIssuer) (collectOutputs first collector outputs).configs := by
  refine forall_collectOutputs (fun _ _ _ hs hx => hs.merge hx) first ?_ hcollector
  intro output houtput config hconfig
  exact houtputs config (List.mem_flatten.mpr ⟨output, houtput, hconfig⟩)

omit [UrlCrate] in
theorem goodTask_mechanism {goodIssuer : String → Prop} (plan : Plan) (email : String) :
    ∀ task ∈ plan.tasks email, GoodTask goodIssuer task := by
  intro task htask
  obtain ⟨mechanism, -, rfl⟩ := List.mem_map.mp htask
  trivial

theorem Collected.outputs {goodIssuer : String → Prop} (hurls : HttpsUrls) {email : String}
    {services : Finset DiscoveryService} {plan : Plan} (hplan : Plan.of email services = .ok plan)
    {reports : List (Option (List DiscoveryServiceConfig))}
    (hreports : Collected goodIssuer (plan.tasks email) reports) :
    Reported (Guarded goodIssuer) (plan.outputs reports).flatten := by
  have hprovider : ∀ configs, plan.providerOutput = some configs →
      Reported (Guarded goodIssuer) configs := by
    intro configs hconfigs
    unfold Plan.of at hplan
    cases hsplit : Text.splitOnce (Text.trim email) '@' with
    | none => simp [hsplit] at hplan
    | some parts =>
      simp only [hsplit] at hplan
      obtain rfl := Except.ok.inj hplan
      simp only [Option.map_eq_some_iff] at hconfigs
      obtain ⟨provider, -, rfl⟩ := hconfigs
      exact provider_guarded hurls provider _
  intro config hconfig
  obtain ⟨configs, hconfigs, hconfig⟩ := List.mem_flatten.mp hconfig
  rcases List.mem_append.mp hconfigs with hconfigs | hconfigs
  · exact hprovider configs (Option.mem_toList.mp hconfigs) config hconfig
  · obtain ⟨report, hreport, rfl⟩ := List.mem_map.mp hconfigs
    cases report with
    | none => exact nomatch hconfig
    | some configs =>
      obtain ⟨task, -, hgood⟩ := hreports configs hreport
      cases task with
      | mechanism => exact hgood config hconfig

theorem single_guarded {asks : Effect → Prop} {allowed : ∀ effect : Effect, effect.Answer → Prop}
    (goodIssuer : String → Prop) {work : Work (List DiscoveryServiceConfig)}
    (hwork : work.Always (fun job => asks (.run job)) (fun job => allowed (.run job))
      (Reported (Guarded goodIssuer))) :
    (Compose.single work).Always asks allowed
      fun result => ∀ configs, result = .ok configs → Reported (fun c => c.isSecure = true) configs := by
  have hinline : (Compose.inline work).Always asks allowed (Reported (Guarded goodIssuer)) :=
    hwork.interpret fun job hjob => .call hjob
  refine hinline.bind fun configs hconfigs => ?_
  intro found hfound
  obtain rfl := Except.ok.inj hfound
  exact fun config hconfig => (hconfigs config hconfig).secure

namespace Supervised
variable {asks : Effect → Prop} {allowed : ∀ effect : Effect, effect.Answer → Prop}
  {goodIssuer : String → Prop}
variable (h : Supervised asks allowed goodIssuer)
include h

section
variable {kind : TaskKind} {tasks : List (Task kind)}
variable (ht : ∀ task ∈ tasks, GoodTask goodIssuer task)
include ht

theorem scope :
    (Compose.scope tasks).Always asks allowed (Collected goodIssuer tasks) := by
  have hone : ∀ task ∈ tasks, (Compose.ask (.join kind task)).Always asks allowed
      fun answer => ∀ result, answer = some result →
        ∃ task ∈ tasks, GoodResult goodIssuer task result := by
    intro task htask
    refine (Prog.Always.call (h.join kind task (ht task htask))).mono fun answer ha result hr => ?_
    subst hr
    exact ⟨task, htask, h.joined kind task result (ht task htask) ha⟩
  refine (Prog.Always.forEach_mem hone).mono fun results hresults result hresult => ?_
  exact hresults _ hresult result rfl

theorem spawnFrom {left : List (Task kind)} (hleft : left ⊆ tasks) (index : Nat) :
    (Compose.spawnFrom index left).Always asks allowed fun _ => True := by
  induction left generalizing index with
  | nil => trivial
  | cons task left ih =>
    have htask := ht task (hleft List.mem_cons_self)
    refine Prog.Always.bind (.call (h.spawn kind index task htask)) fun _ _ => ?_
    exact ih (fun t hmem => hleft (List.mem_cons_of_mem _ hmem)) _

theorem receive (stop count : Nat) {results : List (Option kind.Result)}
    (hresults : Collected goodIssuer tasks results) :
    (Compose.receive tasks stop count results).Always asks allowed (Collected goodIssuer tasks) := by
  induction count generalizing results with
  | zero => exact hresults
  | succ count ih =>
    refine Prog.Always.bind (.call h.now) fun now _ => ?_
    split
    · exact hresults
    · refine Prog.Always.bind (.call (h.recv kind tasks _)) fun answer ha => ?_
      rcases answer with _ | ⟨index, value⟩
      · exact hresults
      · refine ih fun result hresult => ?_
        rcases List.mem_or_eq_of_mem_set hresult with hold | hnew
        · exact hresults result hold
        · obtain rfl := Option.some.inj hnew
          exact h.received kind tasks _ index _ ht ha

theorem collectWithin (deadline : Nat) :
    (Compose.collectWithin tasks deadline).Always asks allowed (Collected goodIssuer tasks) := by
  refine (h.spawnFrom ht (List.Subset.refl _) 0).bind fun _ _ => ?_
  refine Prog.Always.bind (.call h.now) fun now _ => ?_
  refine h.receive ht _ _ fun result hresult => ?_
  obtain ⟨task, -, hnone⟩ := List.mem_map.mp hresult
  exact nomatch hnone

end

variable {client : DiscoveryComposeClientStd} (hurls : HttpsUrls)
include hurls

theorem parallelOutputs (email : String) (services : Finset DiscoveryService) :
    (client.parallelOutputs email services).Always asks allowed fun result =>
      ∀ outputs, result = .ok outputs → Reported (Guarded goodIssuer) outputs.flatten := by
  unfold DiscoveryComposeClientStd.parallelOutputs
  cases hplan : Plan.of email services with
  | error err => exact nofun
  | ok plan =>
    have hcheck : (Compose.inline (client.checkResolver plan.domain)).Always asks allowed
        fun _ => True :=
      (h.inline.checkResolver plan.domain).interpret fun job hjob => .call hjob
    refine hcheck.bind fun checked _ => ?_
    cases checked with
    | error err => exact nofun
    | ok =>
      refine (h.scope (goodTask_mechanism plan email)).bind fun reports hreports => ?_
      intro outputs houtputs
      obtain rfl := Except.ok.inj houtputs
      exact hreports.outputs hurls hplan

theorem parallelOutputsWithin (email : String) (services : Finset DiscoveryService)
    (deadline : Nat) :
    (client.parallelOutputsWithin email services deadline).Always asks allowed fun result =>
      ∀ outputs, result = .ok outputs → Reported (Guarded goodIssuer) outputs.flatten := by
  unfold DiscoveryComposeClientStd.parallelOutputsWithin
  cases hplan : Plan.of email services with
  | error err => exact nofun
  | ok plan =>
    have hcheck : ∀ task ∈ [Task.check plan.domain], GoodTask goodIssuer task := by
      intro task htask
      rw [List.mem_singleton.mp htask]
      trivial
    refine Prog.Always.bind (.call h.now) fun started _ => ?_
    refine (h.collectWithin hcheck deadline).bind fun checks _ => ?_
    rcases checks.getLast?.join with _ | err | _
    · exact nofun
    · exact nofun
    · refine Prog.Always.bind (.call h.now) fun now _ => ?_
      refine (h.collectWithin (goodTask_mechanism plan email) _).bind fun reports hreports => ?_
      intro outputs houtputs
      obtain rfl := Except.ok.inj houtputs
      exact hreports.outputs hurls hplan

variable (hsecure : client.secureOnly = true)
include hsecure

theorem resolveDavRoots {outputs : List (List DiscoveryServiceConfig)} (deadline : Option Nat)
    (houtputs : Reported (Guarded goodIssuer) outputs.flatten) :
    (client.resolveDavRoots outputs deadline).Always asks allowed fun outputs =>
      Reported (Guarded goodIssuer) outputs.flatten := by
  have htargets : ∀ task ∈ (davTargets outputs).map fun target => Task.davRoot target.1 target.2,
      GoodTask goodIssuer task := by
    intro task htask
    obtain ⟨target, htarget, rfl⟩ := List.mem_map.mp htask
    exact davTargets_scheme htarget
  have hset : ∀ rootOf, ∀ config ∈ outputs.flatten,
      Guarded goodIssuer (client.setDavRoot rootOf config) := by
    intro rootOf config hconfig
    have hguarded := houtputs config hconfig
    unfold setDavRoot
    split
    · exact hguarded
    · rename_i root hroot
      split
      · exact hguarded
      · rename_i hscheme
        have hhttps : root.scheme = "https" := by simpa [hsecure] using hscheme
        obtain ⟨again, hparse, hagain⟩ := hurls.reparse root hhttps
        exact ⟨(isSecure_http rfl).mpr ⟨again, hparse, hagain⟩, hguarded.issuers⟩
  have hdone : ∀ rootOf, Reported (Guarded goodIssuer)
      (outputs.map (·.map (client.setDavRoot rootOf))).flatten := by
    intro rootOf
    rw [← List.map_flatten]
    exact List.forall_mem_map.mpr (hset rootOf)
  unfold DiscoveryComposeClientStd.resolveDavRoots
  simp only
  split
  · exact houtputs
  · cases deadline with
    | none => exact (h.scope htargets).bind fun reports _ => hdone _
    | some deadline => exact (h.collectWithin htargets deadline).bind fun reports _ => hdone _

omit hurls hsecure in
theorem probe {configs : List DiscoveryServiceConfig}
    (hconfigs : Reported (Guarded goodIssuer) configs) :
    (DiscoveryComposeClientStd.probe configs).Always asks allowed
      (Reported (Guarded goodIssuer)) := by
  have htasks : ∀ task ∈ configs.map fun config => Task.schemes config.probeUrls,
      GoodTask goodIssuer task := by
    intro task htask
    obtain ⟨config, hconfig, rfl⟩ := List.mem_map.mp htask
    exact probeUrls_scheme (hconfigs config hconfig).secure
  refine (h.scope htasks).bind fun schemes _ => ?_
  intro config hconfig
  obtain ⟨⟨found, answer⟩, hzip, rfl⟩ := List.mem_map.mp hconfig
  exact refineProbed_guarded (hconfigs found (List.of_mem_zip hzip).1) _

omit hurls hsecure in
theorem resolveIssuers {configs : List DiscoveryServiceConfig}
    (hconfigs : Reported (Guarded goodIssuer) configs) :
    (DiscoveryComposeClientStd.resolveIssuers configs).Always asks allowed
      (Reported fun c => c.isSecure = true) := by
  have htasks : ∀ task ∈ (issuersOf configs).map Task.issuer, GoodTask goodIssuer task := by
    intro task htask
    obtain ⟨issuer, hissuer, rfl⟩ := List.mem_map.mp htask
    obtain ⟨config, hconfig, hmem⟩ := mem_issuersOf.mp hissuer
    exact (hconfigs config hconfig).issuers issuer hmem
  unfold DiscoveryComposeClientStd.resolveIssuers
  simp only
  split
  · exact fun config hconfig => (hconfigs config hconfig).secure
  · refine (h.scope htasks).bind fun joined _ => ?_
    intro config hconfig
    obtain ⟨found, hfound, rfl⟩ := List.mem_map.mp hconfig
    exact (isSecure_congr (setIssuers_sameButAuth _ found).endpoint).trans
      (hconfigs found hfound).secure

omit hurls hsecure in
theorem resolveOauth {configs : List DiscoveryServiceConfig}
    (hconfigs : Reported (Guarded goodIssuer) configs) :
    (DiscoveryComposeClientStd.resolveOauth configs).Always asks allowed
      (Reported fun c => c.isSecure = true) := by
  have htasks : ∀ task ∈ resourceTasks configs, GoodTask goodIssuer task := by
    intro task htask
    exact resourceTasks_scheme (fun config hconfig => (hconfigs config hconfig).secure) htask
  refine (h.scope htasks).bind fun fetched hfetched => ?_
  have hadded : Reported (Guarded goodIssuer)
      (configs.map (addIssuers (List.lookup · (fetched.filterMap (·.join))))) := by
    refine List.forall_mem_map.mpr fun config hconfig => ?_
    have hguarded := hconfigs config hconfig
    refine ⟨?_, fun issuer hissuer => ?_⟩
    · rw [isSecure_congr (addIssuers_sameButAuth _ config).endpoint]
      exact hguarded.secure
    · unfold addIssuers at hissuer
      split at hissuer
      · rename_i metadata hmetadata
        rcases mem_addResourceIssuers hissuer with hissuer | hissuer
        · exact hguarded.issuers issuer hissuer
        · obtain ⟨server, hserver, rfl⟩ := List.mem_map.mp hissuer
          obtain ⟨raw, -, hlookup⟩ := Option.bind_eq_some_iff.mp hmetadata
          obtain ⟨before, after, hsplit, -⟩ := List.lookup_eq_some_iff.mp hlookup
          have hentry : (raw, metadata) ∈ fetched.filterMap (·.join) := by simp [hsplit]
          obtain ⟨result, hresult, hjoin⟩ := List.mem_filterMap.mp hentry
          obtain ⟨task, -, hgood⟩ := hfetched _ (Option.join_eq_some_iff.mp hjoin ▸ hresult)
          cases task with
          | resource => exact hgood _ rfl server hserver
      · exact hguarded.issuers issuer hissuer
  refine (h.resolveIssuers hadded).bind fun configs hresolved => ?_
  refine List.forall_mem_map.mpr fun config hconfig => ?_
  rw [isSecure_congr (bindResources_sameButAuth _ config).endpoint]
  exact hresolved config hconfig

theorem finished (services : Finset DiscoveryService) (first : Bool)
    {outputs : List (List DiscoveryServiceConfig)}
    (houtputs : Reported (Guarded goodIssuer) outputs.flatten) (deadline : Option Nat) :
    (client.resolveDavRoots outputs deadline >>= fun outputs =>
      DiscoveryComposeClientStd.probe
        (collectOutputs first (DiscoveryConfigCollector.new services) outputs).finish >>= fun configs =>
      DiscoveryComposeClientStd.resolveOauth configs >>= fun configs =>
      (Prog.pure (.ok configs) : Compose ComposeResult)).Always asks allowed
        fun result => ∀ configs, result = .ok configs → Reported (fun c => c.isSecure = true) configs := by
  refine (h.resolveDavRoots hurls hsecure deadline houtputs).bind fun outputs houtputs => ?_
  have hnew : Reported (Guarded goodIssuer) (DiscoveryConfigCollector.new services).configs :=
    List.forall_mem_nil _
  have hcollected := collectOutputs_guarded first hnew houtputs
  refine (h.probe hcollected).bind fun configs hconfigs => ?_
  refine (h.resolveOauth hconfigs).bind fun configs hconfigs => ?_
  intro found hfound
  obtain rfl := Except.ok.inj hfound
  exact hconfigs

theorem compose (email : String) (services : Finset DiscoveryService) (first : Bool)
    (deadline : Option Nat) :
    (client.compose email services first deadline).Always asks allowed
      fun result => ∀ configs, result = .ok configs → Reported (fun c => c.isSecure = true) configs := by
  unfold DiscoveryComposeClientStd.compose
  refine Prog.Always.bind (.call h.now) fun started _ => ?_
  cases deadline with
  | none =>
    simp only
    refine (h.parallelOutputs hurls email services).bind fun result hresult => ?_
    cases result with
    | error err => exact nofun
    | ok outputs => exact h.finished hurls hsecure services first (hresult outputs rfl) none
  | some deadline =>
    simp only
    refine (h.parallelOutputsWithin hurls email services deadline).bind fun result hresult => ?_
    cases result with
    | error err => exact nofun
    | ok outputs =>
      refine Prog.Always.bind (.call h.now) fun now _ => ?_
      exact h.finished hurls hsecure services first (hresult outputs rfl) _

theorem composeRaw (email : String) (services : Finset DiscoveryService) :
    (client.composeRaw email services).Always asks allowed
      fun result => ∀ configs, result = .ok configs → Reported (fun c => c.isSecure = true) configs := by
  unfold DiscoveryComposeClientStd.composeRaw
  refine (h.parallelOutputs hurls email services).bind fun result hresult => ?_
  cases result with
  | error err => exact nofun
  | ok outputs =>
    refine (h.resolveDavRoots hurls hsecure none (hresult outputs rfl)).bind fun outputs houtputs => ?_
    have hwanted : Reported (Guarded goodIssuer) (outputs.flatten.filter fun config =>
        services = ∅ || config.service ∈ services) := fun config hconfig =>
      houtputs config (List.mem_filter.mp hconfig).1
    refine (h.resolveOauth hwanted).bind fun configs hconfigs => ?_
    intro found hfound
    obtain rfl := Except.ok.inj hfound
    exact hconfigs

/-- Every entry point hands out good tasks only, and returns encrypted configs only. -/
theorem entry [PslCrate] (entry : ConfigEntry) :
    (entry.program client).Always asks allowed
      fun result => ∀ configs, result = .ok configs → Reported (fun c => c.isSecure = true) configs := by
  have hjobs := h.inline
  have hprovider : ∀ email, (detectProvider email).Always (fun job => asks (.run job))
      (fun job => allowed (.run job)) fun _ => True := by
    intro email
    unfold detectProvider
    cases DiscoveryKnownProvider.fromDomain (domainPart email) with
    | none => exact providerFromMx_always (hjobs.named _ trivial)
    | some provider => trivial
  cases entry with
  | composeAll email services => exact h.compose hurls hsecure email services false none
  | composeAllWithin email services deadline =>
    exact h.compose hurls hsecure email services false (some deadline)
  | composeFirst email services => exact h.compose hurls hsecure email services true none
  | composeRaw email services => exact h.composeRaw hurls hsecure email services
  | provider email =>
    refine single_guarded goodIssuer ((hprovider email).bind fun provider _ => ?_)
    cases provider with
    | none => exact .nil
    | some provider => exact provider_guarded hurls provider email
  | isGoogle email =>
    refine single_guarded goodIssuer ((hprovider email).bind fun provider _ => ?_)
    rcases provider with _ | _ | _
    · exact .nil
    · exact provider_guarded hurls .google email
    · exact .nil
  | isMicrosoft email =>
    refine single_guarded goodIssuer ((hprovider email).bind fun provider _ => ?_)
    rcases provider with _ | _ | _
    · exact .nil
    · exact .nil
    · exact provider_guarded hurls .microsoft email
  | autoconfig email =>
    have hauto := hjobs.autoconfigures hsecure hurls email
    apply single_guarded goodIssuer
    -- The five locations one after the other, concatenated.
    refine (hauto.runIspMain _ _).bind fun main hmain => ?_
    refine (hauto.runIspFallback _).bind fun fallback hfallback => ?_
    refine (hauto.runIspdb _).bind fun ispdb hispdb => ?_
    refine (hauto.runMailconf _).bind fun mailconf hmailconf => ?_
    refine (hauto.runMxAutoconfig _).bind fun mx hmx => ?_
    exact (((hmain.append hfallback).append hispdb).append hmailconf).append hmx
  | srv input =>
    exact single_guarded goodIssuer (runSrv_always (hjobs.named _ trivial) fun report _ => fromSrv_guarded report)
  | pacc input => exact single_guarded goodIssuer (hjobs.runPacc hsecure _)
  | dav input service => exact single_guarded goodIssuer (hjobs.runDav hsecure _ service)
  | jmap input => exact single_guarded goodIssuer (hjobs.runJmap hsecure _)

end Supervised
end DiscoveryComposeClientStd
end PimDiscovery
