import PimDiscovery.Compose.Guarded
import PimDiscovery.Compose.Within
import PimDiscovery.Pacc.Vouched

/-! What a composition within a deadline waits for: up to its passes, receives that fit in what is left
of the deadline; in its passes, threads that it joins however long they take. -/

namespace PimDiscovery
open Interaction

section
variable [UrlCrate]

def DiscoveryEndpoint.OnUrl (self : DiscoveryEndpoint) : Prop :=
  ∃ raw url, self = .http raw ∧ UrlCrate.parse raw = .ok url

/-- A config that the passes follow up on the network: it is on a URL, or names an OAuth issuer, that
parses. -/
def FollowedUp (config : DiscoveryServiceConfig) : Prop :=
  config.endpoint.OnUrl ∨
    ∃ issuer url, .oauthIssuer issuer ∈ config.auth ∧ UrlCrate.parse issuer = .ok url

theorem DiscoveryEndpoint.Below.onUrl {e f : DiscoveryEndpoint} (h : Below e f) :
    e.OnUrl ↔ f.OnUrl := by
  have hhost : ∀ {e : DiscoveryEndpoint} {host : String}, e.host = some host → e.OnUrl := by
    intro e host hhost
    unfold DiscoveryEndpoint.host at hhost
    split at hhost
    · cases hhost
    · split at hhost
      · rename_i raw _ url hurl
        exact ⟨raw, url, rfl, hurl⟩
      · cases hhost
  rcases h with h | h
  · rw [equivalent_iff] at h
    obtain rfl | ⟨a, b, url, rfl, rfl, ha, hb⟩ := h
    · rfl
    · exact iff_of_true ⟨a, url, rfl, ha⟩ ⟨b, url, rfl, hb⟩
  · obtain ⟨a, b, _, ha, hb, -⟩ := (subdomainOf_iff e f).mp h
    exact iff_of_true (hhost ha) (hhost hb)

theorem followedUp_merge {c d : DiscoveryServiceConfig}
    (h : DiscoveryConfigCollector.related c d = true) :
    FollowedUp (DiscoveryConfigCollector.merge c d) ↔ FollowedUp c ∨ FollowedUp d := by
  have hurl : c.endpoint.OnUrl ↔ d.endpoint.OnUrl := by
    obtain ⟨-, -, hbelow⟩ := (DiscoveryConfigCollector.related_iff c d).mp h
    exact hbelow.elim (·.onUrl) fun hbelow => hbelow.onUrl.symm
  have hendpoint : (DiscoveryConfigCollector.merge c d).endpoint.OnUrl ↔ c.endpoint.OnUrl := by
    have hmerge := DiscoveryConfigCollector.merge_endpoint_source_resolved c d
    split at hmerge
    · rw [hmerge.1, hurl]
    · rw [hmerge.1]
  unfold FollowedUp
  rw [hendpoint, DiscoveryConfigCollector.merge_auth, ← hurl]
  simp only [mem_foldl_pushMethod, or_and_right, exists_or]
  exact or_or_distrib_left

theorem followedUp_run (configs : List DiscoveryServiceConfig) :
    (∃ config ∈ FirstFit.run DiscoveryConfigCollector.related DiscoveryConfigCollector.merge [] configs,
      FollowedUp config) ↔ ∃ config ∈ configs, FollowedUp config := by
  constructor
  · intro hrun
    by_contra hnone
    push Not at hnone
    obtain ⟨config, hconfig, hfollowed⟩ := hrun
    have hquiet := @FirstFit.forall_run _ DiscoveryConfigCollector.related
      DiscoveryConfigCollector.merge (¬ FollowedUp ·)
      (fun c d hrel hc hd hcd => ((followedUp_merge hrel).mp hcd).elim hc hd)
      [] configs (List.forall_mem_nil _) hnone
    exact hquiet config hconfig hfollowed
  · intro hconfigs
    exact FirstFit.exists_run (fun c d hrel => (followedUp_merge hrel).mpr) (.inr hconfigs)

end

namespace DiscoveryComposeClientStd

section
variable [UrlCrate] (client : DiscoveryComposeClientStd)

theorem followedUp_collected (services : Finset DiscoveryService)
    (outputs : List (List DiscoveryServiceConfig)) :
    (∃ config ∈ (collectOutputs false (DiscoveryConfigCollector.new services) outputs).finish,
      FollowedUp config) ↔
      ∃ config ∈ DiscoveryConfigCollector.wanted services outputs, FollowedUp config := by
  rw [finish_collectOutputs]
  exact followedUp_run _

theorem wanted_setDavRoot (services : Finset DiscoveryService)
    (rootOf : DiscoveryDavService × Url → Option Url) (outputs : List (List DiscoveryServiceConfig)) :
    DiscoveryConfigCollector.wanted services (outputs.map (·.map (client.setDavRoot rootOf))) =
      (DiscoveryConfigCollector.wanted services outputs).map (client.setDavRoot rootOf) := by
  have hservice : (fun config => (DiscoveryConfigCollector.new services).wants config.service) ∘
      client.setDavRoot rootOf =
        fun config => (DiscoveryConfigCollector.new services).wants config.service := by
    funext config
    show (DiscoveryConfigCollector.new services).wants (client.setDavRoot rootOf config).service = _
    rw [(client.setDavRoot_account rootOf config).service]
  unfold DiscoveryConfigCollector.wanted
  rw [← List.map_flatten, List.filter_map, hservice]

theorem setDavRoot_of_not_followedUp {config : DiscoveryServiceConfig} (h : ¬ FollowedUp config)
    (rootOf : DiscoveryDavService × Url → Option Url) : client.setDavRoot rootOf config = config := by
  have htarget : davRootTarget config = none := by
    rw [Option.eq_none_iff_forall_ne_some]
    intro target htarget
    obtain ⟨raw, url, hendpoint, hurl, -⟩ := (davRootTarget_eq_some.mp htarget).bare
    exact h (.inl ⟨raw, url, hendpoint, hurl⟩)
  unfold setDavRoot
  rw [htarget]
  rfl

theorem followedUp_setDavRoot {config : DiscoveryServiceConfig} (h : FollowedUp config)
    {rootOf : DiscoveryDavService × Url → Option Url} (hroots : ∀ target root,
      rootOf target = some root → ∃ url, UrlCrate.parse (UrlCrate.asStr root) = .ok url) :
    FollowedUp (client.setDavRoot rootOf config) := by
  unfold DiscoveryComposeClientStd.setDavRoot
  split
  · exact h
  · rename_i root hroot
    split
    · exact h
    · obtain ⟨target, -, hfound⟩ := Option.bind_eq_some_iff.mp hroot
      obtain ⟨url, hurl⟩ := hroots target root hfound
      exact .inl ⟨_, url, rfl, hurl⟩

theorem followedUp_unresolved {services : Finset DiscoveryService}
    {rootOf : DiscoveryDavService × Url → Option Url} {outputs : List (List DiscoveryServiceConfig)}
    (h : ∃ config ∈ DiscoveryConfigCollector.wanted services
      (outputs.map (·.map (client.setDavRoot rootOf))), FollowedUp config) :
    ∃ config ∈ DiscoveryConfigCollector.wanted services outputs, FollowedUp config := by
  rw [wanted_setDavRoot] at h
  obtain ⟨_, hmem, hfollowed⟩ := h
  obtain ⟨config, hconfig, rfl⟩ := List.mem_map.mp hmem
  by_cases h : FollowedUp config
  · exact ⟨config, hconfig, h⟩
  · rw [client.setDavRoot_of_not_followedUp h] at hfollowed
    exact absurd hfollowed h

theorem followedUp_resolved {services : Finset DiscoveryService}
    {rootOf : DiscoveryDavService × Url → Option Url} (hroots : ∀ target root,
      rootOf target = some root → ∃ url, UrlCrate.parse (UrlCrate.asStr root) = .ok url)
    {outputs : List (List DiscoveryServiceConfig)}
    (h : ∃ config ∈ DiscoveryConfigCollector.wanted services outputs, FollowedUp config) :
    ∃ config ∈ DiscoveryConfigCollector.wanted services
      (outputs.map (·.map (client.setDavRoot rootOf))), FollowedUp config := by
  rw [wanted_setDavRoot]
  obtain ⟨config, hconfig, h⟩ := h
  exact ⟨_, List.mem_map_of_mem hconfig, client.followedUp_setDavRoot h hroots⟩

theorem probeUrls_eq_nil {config : DiscoveryServiceConfig} (h : ¬ config.endpoint.OnUrl) :
    config.probeUrls = [] := by
  unfold DiscoveryServiceConfig.probeUrls
  cases hendpoint : config.endpoint with
  | tcp => split <;> rfl
  | http raw =>
    cases hurl : UrlCrate.parse raw with
    | ok url => exact absurd ⟨raw, url, hendpoint, hurl⟩ h
    | error err => split <;> simp only [hurl]

theorem followedUp_refineProbed {config : DiscoveryServiceConfig} {schemes : Option (List String)}
    (h : FollowedUp (refineProbed config schemes)) : FollowedUp config := by
  rcases h with h | ⟨issuer, url, hissuer, hurl⟩
  · rw [(refineProbed_sameButAuth config schemes).endpoint] at h
    exact .inl h
  · cases schemes with
    | none => exact .inr ⟨issuer, url, hissuer, hurl⟩
    | some schemes => exact .inr ⟨issuer, url, mem_refineAuth.mp hissuer, hurl⟩

theorem followedUp_probed {config : DiscoveryServiceConfig} (h : FollowedUp config) (o : Answers) :
    FollowedUp (probed o config) := by
  rcases h with h | ⟨issuer, url, hissuer, hurl⟩
  · refine .inl ?_
    unfold probed
    rwa [(refineProbed_sameButAuth config _).endpoint]
  · refine .inr ⟨issuer, url, ?_, hurl⟩
    unfold probed refineProbed
    split
    · exact mem_refineAuth.mpr hissuer
    · exact hissuer

omit [UrlCrate] in
theorem resolveIssuers_asked {configs : List DiscoveryServiceConfig} {issuer : String}
    (h : issuer ∈ issuersOf configs) (o : Answers) :
    .join .issuer (.issuer issuer) ∈ (resolveIssuers configs).asked o := by
  have hempty : (issuersOf configs).isEmpty ≠ true :=
    fun hempty => List.ne_nil_of_mem h (List.isEmpty_iff.mp hempty)
  unfold resolveIssuers
  simp only
  rw [if_neg hempty, Prog.asked_bind, @Compose.asked_scope o .issuer]
  exact List.mem_append_left _ (List.mem_map_of_mem (List.mem_map_of_mem h))

end

section
variable [UrlCrate] [PslCrate] [DomainCrate] [IoHttpCrate] [SerdeCrate] [DigestCrate]
variable (client : DiscoveryComposeClientStd)

def Exchanges {kind : TaskKind} (task : Task kind) : Prop :=
  ∃ q next, (client.taskBody task).interpret (Job.program client) = .ask q next

/-- A wait that ends within what the earlier ones leave of the deadline, or without the network. -/
def Bounded (deadline : Nat) (trace : Trace) : Effect → Prop
  | .recv _ _ remaining => trace.waited + remaining ≤ deadline
  | .join _ task => ¬ client.Exchanges task
  | .run job => ∀ q next, job.program client ≠ .ask q next
  | .spawn _ _ _ | .now => True

theorem Bounded.of_affords {deadline : Nat} {trace : Trace} {effect : Effect}
    (h : effect.Affords deadline trace) : client.Bounded deadline trace effect := by
  cases effect with
  | recv => exact h
  | spawn | now => trivial
  | run | join => cases h

theorem exchanges_schemes {urls : List Url} : client.Exchanges (.schemes urls) ↔ urls ≠ [] := by
  cases urls with
  | nil =>
    refine iff_of_false ?_ fun hne => hne rfl
    rintro ⟨q, next, h⟩
    cases h
  | cons url urls =>
    refine iff_of_true ?_ (List.cons_ne_nil url urls)
    have hwalk : ∃ next, (Job.auth url).program client =
        .ask (.hop .schemes 0 (HttpRequest.get url)) next := by
      show ∃ next, DiscoveryHttpWalk.programFrom .schemes 0 (HttpRequest.get url) >>= _ = .ask _ next
      rw [DiscoveryHttpWalk.programFrom]
      exact ⟨_, rfl⟩
    obtain ⟨next, hnext⟩ := hwalk
    show ∃ q next, (Job.auth url).program client >>= _ = .ask q next
    rw [hnext]
    exact ⟨_, _, rfl⟩

theorem exchanges_resource (raw : String) (url : Url) : client.Exchanges (.resource raw url) :=
  ⟨_, _, rfl⟩

theorem exchanges_issuer {issuer : String} :
    client.Exchanges (.issuer issuer) ↔ ∃ url, UrlCrate.parse issuer = .ok url := by
  constructor
  · rintro ⟨q, next, h⟩
    cases hurl : UrlCrate.parse issuer with
    | ok url => exact ⟨url, rfl⟩
    | error err =>
      simp only [taskBody, resolveIssuer, hurl] at h
      cases h
  · rintro ⟨url, hurl⟩
    unfold Exchanges
    simp only [taskBody, resolveIssuer, hurl]
    exact ⟨_, _, rfl⟩

def JoinsIdle (effect : Effect) : Prop := ∃ kind task, effect = .join kind task ∧ ¬ client.Exchanges task

variable {allowed : ∀ effect : Effect, effect.Answer → Prop} {configs : List DiscoveryServiceConfig}

theorem probe_idle (h : ∀ config ∈ configs, ¬ FollowedUp config) :
    (probe configs).Always client.JoinsIdle allowed
      fun probed => ∀ config ∈ probed, ¬ FollowedUp config := by
  refine (scope_always fun task htask => ?_).bind fun schemes _ => ?_
  · obtain ⟨config, hconfig, rfl⟩ := List.mem_map.mp htask
    have hurls : config.probeUrls = [] := probeUrls_eq_nil fun hurl => h config hconfig (.inl hurl)
    rw [hurls]
    exact ⟨.schemes, _, rfl, fun hexchanges => client.exchanges_schemes.mp hexchanges rfl⟩
  · intro config hconfig hfollowed
    obtain ⟨⟨config, schemes⟩, hmem, rfl⟩ := List.mem_map.mp hconfig
    exact h config (List.of_mem_zip hmem).1 (followedUp_refineProbed hfollowed)

theorem resolveIssuers_idle (h : ∀ config ∈ configs, ¬ FollowedUp config) :
    (resolveIssuers configs).Always client.JoinsIdle allowed fun _ => True := by
  unfold resolveIssuers
  simp only
  split
  · trivial
  · refine (scope_always fun task htask => ?_).bind fun _ _ => trivial
    obtain ⟨issuer, hmem, rfl⟩ := List.mem_map.mp htask
    obtain ⟨config, hconfig, hissuer⟩ := mem_issuersOf.mp hmem
    refine ⟨.issuer, _, rfl, fun hexchanges => ?_⟩
    obtain ⟨url, hurl⟩ := client.exchanges_issuer.mp hexchanges
    exact h config hconfig (.inr ⟨issuer, url, hissuer, hurl⟩)

theorem resolveOauth_idle (h : ∀ config ∈ configs, ¬ FollowedUp config) :
    (resolveOauth configs).Always client.JoinsIdle allowed fun _ => True := by
  have htasks : resourceTasks configs = [] := by
    rw [List.eq_nil_iff_forall_not_mem]
    intro task htask
    cases task with
    | resource raw url =>
      obtain ⟨⟨config, hconfig, hendpoint⟩, hurl⟩ := mem_resourceTasks.mp htask
      exact h config hconfig (.inl ⟨raw, url, hendpoint, hurl⟩)
  have hadd : ∀ config, addIssuers (List.lookup · []) config = config := by
    intro config
    have hnone : (httpEndpoint config).bind (List.lookup · []) =
        (none : Option DiscoveryOauthResourceMetadata) := by
      cases httpEndpoint config <;> rfl
    unfold addIssuers
    rw [hnone]
  unfold resolveOauth
  rw [htasks]
  show Prog.Always _ _ _ (resolveIssuers (configs.map (addIssuers (List.lookup · []))) >>= _)
  rw [List.map_congr_left fun config _ => hadd config, List.map_id']
  exact (client.resolveIssuers_idle h).bind fun _ _ => trivial

/-- The OAuth pass joins a thread on the network for each config that is to be followed up. -/
theorem resolveOauth_exchanges {config : DiscoveryServiceConfig} (hconfig : config ∈ configs)
    (h : FollowedUp config) (o : Answers) :
    ∃ kind task, Effect.join kind task ∈ (resolveOauth configs).asked o ∧ client.Exchanges task := by
  unfold resolveOauth
  rw [Prog.asked_bind, Prog.asked_bind, @Compose.asked_scope o .resource]
  rcases h with ⟨raw, url, hendpoint, hurl⟩ | ⟨issuer, url, hissuer, hurl⟩
  · refine ⟨.resource, .resource raw url, List.mem_append_left _ ?_, client.exchanges_resource raw url⟩
    exact List.mem_map_of_mem (mem_resourceTasks.mpr ⟨⟨config, hconfig, hendpoint⟩, hurl⟩)
  · refine ⟨.issuer, .issuer issuer, List.mem_append_right _ (List.mem_append_left _ ?_),
      client.exchanges_issuer.mpr ⟨url, hurl⟩⟩
    -- A config that names an issuer is given no other.
    have hkept : ∀ servers, config.addResourceIssuers servers = config := by
      intro servers
      have hoauth : config.auth.any DiscoveryServiceConfig.isOauth = true :=
        List.any_eq_true.mpr ⟨_, hissuer, rfl⟩
      rw [DiscoveryServiceConfig.addResourceIssuers, if_pos hoauth]
    apply resolveIssuers_asked
    rw [mem_issuersOf]
    refine ⟨_, List.mem_map_of_mem hconfig, ?_⟩
    unfold addIssuers
    split
    · rw [hkept]
      exact hissuer
    · exact hissuer

section
variable {services : Finset DiscoveryService} {resolved : List (List DiscoveryServiceConfig)}

theorem passes_idle (h : ¬ ∃ config ∈ DiscoveryConfigCollector.wanted services resolved,
    FollowedUp config) :
    (passes services resolved).Always client.JoinsIdle allowed fun _ => True := by
  rw [← followedUp_collected] at h
  have hcollected : ∀ config ∈ (collectOutputs false (DiscoveryConfigCollector.new services)
      resolved).finish, ¬ FollowedUp config := fun config hconfig hfollowed =>
    h ⟨config, hconfig, hfollowed⟩
  refine (client.probe_idle hcollected).bind fun probed hprobed => ?_
  exact (client.resolveOauth_idle hprobed).bind fun _ _ => trivial

theorem passes_exchange (h : ∃ config ∈ DiscoveryConfigCollector.wanted services resolved,
    FollowedUp config) (o : Answers) :
    ∃ kind task, Effect.join kind task ∈ (passes services resolved).asked o ∧
      client.Exchanges task := by
  rw [← followedUp_collected] at h
  obtain ⟨config, hconfig, hfollowed⟩ := h
  have hprobed : probed o config ∈ (probe (collectOutputs false
      (DiscoveryConfigCollector.new services) resolved).finish).eval o := by
    rw [eval_probe]
    exact List.mem_map_of_mem hconfig
  obtain ⟨kind, task, htask, hexchanges⟩ :=
    client.resolveOauth_exchanges hprobed (followedUp_probed hfollowed o) o
  refine ⟨kind, task, ?_, hexchanges⟩
  unfold passes
  rw [Prog.asked_bind, Prog.asked_bind]
  exact List.mem_append_right _ (List.mem_append_left _ htask)

end

end

section
variable [UrlCrate] (client : DiscoveryComposeClientStd) {o : Answers} {deadline : Nat}
variable {email : String} {services : Finset DiscoveryService} {trace : Trace}

/-- A run has passed the check, and taken a config of a wanted service that its passes follow up. -/
def FollowsUp (o : Answers) (email : String) (services : Finset DiscoveryService) (trace : Trace) :
    Prop :=
  ∃ plan, Plan.of email services = .ok plan ∧
    o (.join .check (.check plan.domain)) = some (.ok ()) ∧
    ⟨.check, .check plan.domain⟩ ∈ trace.taken ∧
    ∃ config ∈ DiscoveryConfigCollector.wanted services
      (plan.outputs (heard o (plan.tasks email) trace.taken)), FollowedUp config

omit [UrlCrate] in
theorem heard_wanted {plan : Plan} {taken taken' : List (Sigma Task)} (htaken : taken ⊆ taken')
    {config : DiscoveryServiceConfig} (h : config ∈ DiscoveryConfigCollector.wanted services
      (plan.outputs (heard o (plan.tasks email) taken))) :
    config ∈ DiscoveryConfigCollector.wanted services
      (plan.outputs (heard o (plan.tasks email) taken')) := by
  obtain ⟨hmem, hwants⟩ := List.mem_filter.mp h
  refine List.mem_filter.mpr ⟨?_, hwants⟩
  obtain ⟨configs, hconfigs, hconfig⟩ := List.mem_flatten.mp hmem
  rw [List.mem_flatten]
  rcases List.mem_append.mp hconfigs with hprovider | hreported
  · exact ⟨configs, List.mem_append_left _ hprovider, hconfig⟩
  · refine ⟨configs, List.mem_append_right _ ?_, hconfig⟩
    obtain ⟨report, hreport, rfl⟩ := List.mem_map.mp hreported
    obtain ⟨task, htask, rfl⟩ := List.mem_map.mp hreport
    by_cases hheard : ⟨.mechanism, task⟩ ∈ taken
    · rw [if_pos hheard]
      refine List.mem_map.mpr ⟨_, List.mem_map_of_mem htask, ?_⟩
      rw [if_pos (htaken hheard)]
    · rw [if_neg hheard] at hconfig
      cases hconfig

theorem FollowsUp.append (h : FollowsUp o email services trace) (new : Trace) :
    FollowsUp o email services (trace ++ new) := by
  obtain ⟨plan, hplan, hcheck, htaken, config, hconfig, hfollowed⟩ := h
  have hsub : Trace.taken trace ⊆ Trace.taken (trace ++ new) := by
    rw [Trace.taken_append]
    exact List.subset_append_left _ _
  exact ⟨plan, hplan, hcheck, hsub htaken, config, heard_wanted hsub hconfig, hfollowed⟩

theorem Proceeds.resolved_eq {plan : Plan} {resolved : List (List DiscoveryServiceConfig)}
    (h : client.Proceeds o email services plan trace resolved) :
    resolved = (plan.outputs (heard o (plan.tasks email) trace.taken)).map
      (·.map (client.setDavRoot (rootOf (o.without trace.late)))) := by
  have hreflects := reflects_late o trace
  rw [h.resolved _ hreflects, eval_resolveDavRoots, hreflects.heard h.spawned]

omit [UrlCrate] in
theorem rootOf_without {late : List (Sigma Task)} {target : DiscoveryDavService × Url} {root : Url}
    (h : rootOf (o.without late) target = some root) : rootOf o target = some root := by
  have hjoin : (if ⟨.davRoot, .davRoot target.1 target.2⟩ ∈ late then none
      else o (.join .davRoot (.davRoot target.1 target.2))).join = some root := h
  split at hjoin
  · cases hjoin
  · exact hjoin

section
variable [PslCrate] [DomainCrate] [IoHttpCrate] [SerdeCrate] [DigestCrate]

/-- As long as a run has nothing to follow up, it waits within its deadline. -/
theorem composeAllWithin_waits (email : String) (services : Finset DiscoveryService) (t : Threads) :
    (client.composeAllWithin email services deadline).Upholds (Threads.Serves o)
      (fun trace _ q => ¬ FollowsUp o email services trace → client.Bounded deadline trace q)
      (fun _ _ _ => True) [] t := by
  apply client.composeAllWithin_upholds email services t
  · exact fun _ _ _ h _ => Bounded.of_affords client h
  · exact fun _ _ _ _ _ _ => trivial
  · intro trace t' plan resolved _ _ _ hproceeds
    by_cases hfollows : FollowsUp o email services trace
    · have hpasses : (passes services resolved).Upholds (Threads.Serves o)
          (fun trace _ q => ¬ FollowsUp o email services trace → client.Bounded deadline trace q)
          (fun trace _ _ => FollowsUp o email services trace) trace t' := by
        apply Prog.Upholds.of_inv (p := passes services resolved) ?_ ?_ hfollows
        · exact fun _ _ _ _ _ _ h => h.append _
        · exact fun _ _ _ h hnot => absurd h hnot
      exact hpasses.mono (fun _ _ _ h => h) fun _ _ _ _ => trivial
    · have hquiet : ¬ ∃ config ∈ DiscoveryConfigCollector.wanted services resolved,
          FollowedUp config := by
        rw [hproceeds.resolved_eq]
        exact fun h => hfollows ⟨plan, hproceeds.planned, hproceeds.check, hproceeds.taken,
          client.followedUp_unresolved h⟩
      have hidle := @passes_idle _ _ _ _ _ _ client (fun _ _ => True) services resolved hquiet
      refine (hidle.upholds fun _ _ _ _ _ _ => trivial).mono ?_ fun _ _ _ _ => trivial
      rintro trace t' _ ⟨kind, task, rfl, hnot⟩ -
      exact hnot

theorem composeAllWithin_exchanges (hroots : ∀ target root, rootOf o target = some root →
      ∃ url, UrlCrate.parse (UrlCrate.asStr root) = .ok url)
    (email : String) (services : Finset DiscoveryService) (t : Threads) :
    (client.composeAllWithin email services deadline).Upholds (Threads.Serves o) (fun _ _ _ => True)
      (fun trace _ _ => FollowsUp o email services trace → ∃ moment ∈ trace,
        ∃ kind task, moment.question = .join kind task ∧ client.Exchanges task) [] t := by
  apply client.composeAllWithin_upholds email services t fun _ _ _ _ => trivial
  -- A run with something to follow up does not end early: its plan is valid and its check passed.
  · rintro trace t' err - - hgathered ⟨plan, hplan, hcheck, htaken, -⟩
    cases hgathered with
    | invalid hinvalid =>
      rw [hplan] at hinvalid
      cases hinvalid
    | unheard hplan' hnot =>
      obtain rfl := Except.ok.inj (hplan.symm.trans hplan')
      exact absurd htaken hnot
    | refused hplan' hrefused =>
      obtain rfl := Except.ok.inj (hplan.symm.trans hplan')
      rw [hcheck] at hrefused
      cases hrefused
  · intro trace t' plan resolved _ _ _ hproceeds
    refine (joins_upholds (@passes_joins _ _ services resolved)).mono (fun _ _ _ _ => trivial) ?_
    rintro _ t'' result ⟨-, joins, rfl, hjoins, hasked⟩ ⟨plan', hplan', -, -, hwanted⟩
    obtain rfl := Except.ok.inj (hplan'.symm.trans hproceeds.planned)
    have htaken : Trace.taken (trace ++ joins) = Trace.taken trace := by
      have hnone : Trace.taken joins = [] :=
        List.eq_nil_iff_forall_not_mem.mpr fun entry he => by cases hjoins.taken entry he
      rw [Trace.taken_append, hnone, List.append_nil]
    rw [htaken] at hwanted
    have hfound : ∀ target root, rootOf (o.without (Trace.late trace)) target = some root →
        ∃ url, UrlCrate.parse (UrlCrate.asStr root) = .ok url := by
      intro target root hroot
      apply hroots target root
      exact rootOf_without hroot
    have hresolved : ∃ config ∈ DiscoveryConfigCollector.wanted services resolved,
        FollowedUp config := by
      rw [hproceeds.resolved_eq]
      exact client.followedUp_resolved hfound hwanted
    -- The passes leave the trace of mechanisms alone and join one thread for the config.
    obtain ⟨kind, task, htask, hexchanges⟩ := client.passes_exchange hresolved o
    rw [← hasked] at htask
    obtain ⟨moment, hmoment, hquestion⟩ := List.mem_map.mp htask
    exact ⟨moment, List.mem_append_right _ hmoment, kind, task, hquestion, hexchanges⟩

/-- A run waits on the network within its deadline as long as it has nothing to follow up, and no longer:
then it joins a thread that may take any time. -/
theorem composeAllWithin_bounded (email : String) (services : Finset DiscoveryService)
    {threads threads' : Threads} {trace : Trace} {rest : Compose ComposeResult}
    (hrun : (client.composeAllWithin email services deadline).Reaches (Threads.Serves o) threads trace
      threads' rest) :
    (∀ q next, rest = Prog.ask q next → ¬ FollowsUp o email services trace →
      client.Bounded deadline trace q) ∧
    ∀ result, rest = Prog.pure result → (∀ target root, rootOf o target = some root →
        ∃ url, UrlCrate.parse (UrlCrate.asStr root) = .ok url) →
      ((∀ before moment after, trace = before ++ moment :: after →
        client.Bounded deadline before moment.question) ↔ ¬ FollowsUp o email services trace) := by
  have hwaits := @composeAllWithin_waits _ client o deadline _ _ _ _ _ email services threads
  refine ⟨?_, ?_⟩
  · rintro q next rfl hnot
    exact (hwaits.reaches hrun).1 hnot
  · rintro result rfl hroots
    constructor
    · intro hbounded hfollows
      obtain ⟨moment, hmoment, kind, task, hquestion, hexchanges⟩ :=
        (client.composeAllWithin_exchanges hroots email services threads).reaches hrun hfollows
      obtain ⟨before, after, rfl⟩ := List.append_of_mem hmoment
      have hidle := hbounded before moment after rfl
      rw [hquestion] at hidle
      exact hidle hexchanges
    · rintro hnot before moment after rfl
      obtain ⟨next, hasked⟩ := hrun.asked
      exact (hwaits.reaches hasked).1 fun hfollows => hnot (hfollows.append _)

end
end

def probesUrl : Effect → Bool
  | .join _ (.schemes (_ :: _)) => true
  | _ => false

theorem composeAllWithin_bounded_imap :
    letI := plainUrl
    letI := plainPsl
    letI := plainHttp
    letI := plainDns
    letI := plainSerde
    letI := DiscoveryPacc.vouchedCrates
    let client := DiscoveryComposeClientStd.new exampleResolver
    ∃ trace threads result, (client.composeAllWithin "user@example.org" {.imap} 10).Reaches
        (Threads.Serves (client.answers calendarNet)) ⟨0, .check, [], []⟩ trace threads
        (.pure result) ∧
      ∀ before moment after, trace = before ++ moment :: after →
        client.Bounded 10 before moment.question := by
  let _ := plainUrl
  let _ := plainPsl
  let _ := plainHttp
  let _ := plainDns
  let _ := plainSerde
  let _ := DiscoveryPacc.vouchedCrates
  let plan : Plan :=
    { providerOutput := none, localPart := "user", domain := "example.org"
      mechanisms := Plan.mechanismsFor none {.imap} }
  have hplan : Plan.of "user@example.org" {.imap} = .ok plan := by decide +kernel
  have hquiet : (calendarRun {.imap} fun _ => 0).map (fun run =>
      (DiscoveryConfigCollector.wanted {.imap} (plan.outputs (heard
        ((DiscoveryComposeClientStd.new exampleResolver).answers calendarNet)
          (plan.tasks "user@example.org") run.1.taken))).all fun config =>
            config.endpoint == .tcp "imap.example.org" 993 .tls && config.auth == [.password]) =
        some true := by
    decide +kernel
  obtain ⟨⟨trace, threads, result⟩, hplay, hconfigs⟩ := Option.map_eq_some_iff.mp hquiet
  have hrun := calendarRun_reaches hplay
  have hbounded := composeAllWithin_bounded (DiscoveryComposeClientStd.new exampleResolver)
    "user@example.org" {.imap} hrun
  refine ⟨trace, threads, result, hrun, (hbounded.2 result rfl ?_).mpr ?_⟩
  · intro target root hroot
    obtain rfl : { exampleOrigin with path := "/dav/" } = root := Option.some.inj hroot
    exact ⟨{ exampleOrigin with path := "/dav/" }, by decide +kernel⟩
  · rintro ⟨plan', hplan', -, -, config, hconfig, hfollowed⟩
    obtain rfl : plan = plan' := Except.ok.inj (hplan.symm.trans hplan')
    have hboth := List.all_eq_true.mp hconfigs config hconfig
    rw [Bool.and_eq_true, beq_iff_eq, beq_iff_eq] at hboth
    obtain ⟨hendpoint, hauth⟩ := hboth
    rcases hfollowed with ⟨raw, url, hhttp, -⟩ | ⟨issuer, url, hissuer, -⟩
    · rw [hendpoint] at hhttp
      cases hhttp
    · rw [hauth] at hissuer
      simp at hissuer

/-- The run of a client whose address has a calendar joins the probe of its URL. -/
theorem composeAllWithin_joins_probe :
    letI := plainUrl
    letI := plainPsl
    letI := plainHttp
    letI := plainDns
    letI := plainSerde
    letI := DiscoveryPacc.vouchedCrates
    let client := DiscoveryComposeClientStd.new exampleResolver
    ∃ trace threads q next, (client.composeAllWithin "user@example.org" {.caldav} 10).Reaches
        (Threads.Serves (client.answers calendarNet)) ⟨0, .check, [], []⟩ trace threads
        (.ask q next) ∧
      ¬ client.Bounded 10 trace q := by
  let _ := plainUrl
  let _ := plainPsl
  let _ := plainHttp
  let _ := plainDns
  let _ := plainSerde
  let _ := DiscoveryPacc.vouchedCrates
  have hprobed : (calendarRun {.caldav} fun _ => 0).map
      (fun run => run.1.any fun moment => probesUrl moment.question) = some true := by
    decide +kernel
  obtain ⟨⟨trace, threads, result⟩, hplay, hprobes⟩ := Option.map_eq_some_iff.mp hprobed
  obtain ⟨moment, hmoment, hprobe⟩ := List.any_eq_true.mp hprobes
  obtain ⟨before, after, rfl⟩ := List.append_of_mem hmoment
  obtain ⟨next, hasked⟩ := (calendarRun_reaches hplay).asked
  refine ⟨before, moment.before, moment.question, next, hasked, ?_⟩
  unfold probesUrl at hprobe
  split at hprobe
  · rename_i kind url urls hquestion
    rw [hquestion]
    exact fun hidle => hidle ((exchanges_schemes _).mpr (List.cons_ne_nil url urls))
  · cases hprobe

end DiscoveryComposeClientStd
end PimDiscovery
