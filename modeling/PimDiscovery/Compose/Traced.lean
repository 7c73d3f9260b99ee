import PimDiscovery.Compose.Passes
import PimDiscovery.Compose.Runners

/-! What any run of a composition leaves behind, stage by stage: the reports it reads were computed by
the tasks it started, and each pass is a function of one config built from such reports. -/

namespace PimDiscovery
open Interaction

theorem mem_of_lookup {κ β : Type} [DecidableEq κ] {entries : List (κ × β)} {key : κ} {value : β}
    (h : entries.lookup key = some value) : (key, value) ∈ entries := by
  obtain ⟨left, right, rfl, -⟩ := List.lookup_eq_some_iff.mp h
  simp

namespace DiscoveryComposeClientStd
variable [UrlCrate] [PslCrate] (client : DiscoveryComposeClientStd)
  (jobs : ∀ job : Job, job.Answer → Prop)

/-- What the coroutines of a run return, given the exchanges of that run. -/
def Overhears [DomainCrate] [IoHttpCrate] [SerdeCrate] [DigestCrate]
    (client : DiscoveryComposeClientStd) (heard : Hearing) (job : Job) (answer : job.Answer) : Prop :=
  (job.program client).Returns heard answer

def Produces {kind : TaskKind} (task : Task kind) (result : kind.Result) : Prop :=
  (client.taskBody task).Returns jobs result

def Backed : (effect : Effect) → effect.Answer → Prop
  | .run job, answer => jobs job answer
  | .join _ task, answer => ∀ result, answer = some result → client.Produces jobs task result
  | .recv _ tasks _, answer => ∀ index result, answer = some (index, result) →
    ∃ task, tasks[index]? = some task ∧ client.Produces jobs task result
  | .spawn _ _ _, _ | .now, _ => True

def Answered {kind : TaskKind} (tasks : List (Task kind)) (reports : List (Option kind.Result)) :
    Prop :=
  List.Forall₂ (fun task report => ∀ result, report = some result → client.Produces jobs task result)
    tasks reports

variable {client jobs}

theorem backed_answers {net : ∀ job : Job, job.Answer} (h : ∀ job, jobs job (net job))
    (effect : Effect) : client.Backed jobs effect (client.answers net effect) := by
  cases effect with
  | run job => exact h job
  | join kind task =>
    intro result hresult
    obtain rfl := Option.some.inj hresult
    exact Prog.returns_eval h _
  | recv => exact nofun
  | spawn | now => trivial

omit [PslCrate] in
theorem overhears_eval [DomainCrate] [IoHttpCrate] [SerdeCrate] [DigestCrate] (net : Network)
    (job : Job) :
    client.Overhears (fun q answer => answer = net q) job ((job.program client).eval net) := by
  apply Prog.returns_eval
  exact fun _ => rfl

theorem scope_backed {kind : TaskKind} (tasks : List (Task kind)) :
    (Compose.scope tasks).Always (fun _ => True) (client.Backed jobs)
      (client.Answered jobs tasks) :=
  Prog.Always.forEach fun _ _ => ⟨trivial, fun _ ha => ha⟩

theorem spawnFrom_backed {kind : TaskKind} (tasks : List (Task kind)) (index : Nat) :
    (Compose.spawnFrom index tasks).Always (fun _ => True) (client.Backed jobs) fun _ => True :=
  Prog.Always.trivial _

theorem Answered.set {kind : TaskKind} {tasks : List (Task kind)}
    {reports : List (Option kind.Result)} (h : client.Answered jobs tasks reports) {index : Nat}
    {task : Task kind} {result : kind.Result} (htask : tasks[index]? = some task)
    (hresult : client.Produces jobs task result) :
    client.Answered jobs tasks (reports.set index (some result)) := by
  unfold Answered at h ⊢
  induction h generalizing index with
  | nil => exact nomatch htask
  | cons hhead htail ih =>
    cases index with
    | zero =>
      obtain rfl : _ = task := by simpa using htask
      exact .cons (fun _ hr => Option.some.inj hr ▸ hresult) htail
    | succ index => exact .cons hhead (ih (by simpa using htask))

theorem Answered.at {kind : TaskKind} {tasks : List (Task kind)} {reports : List (Option kind.Result)}
    (h : client.Answered jobs tasks reports) {index : Nat} {result : kind.Result}
    (hreport : reports[index]? = some (some result)) :
    ∃ task, tasks[index]? = some task ∧ client.Produces jobs task result := by
  unfold Answered at h
  induction h generalizing index with
  | nil => exact nomatch hreport
  | cons hhead htail ih =>
    cases index with
    | zero => exact ⟨_, rfl, hhead result (by simpa using hreport)⟩
    | succ index => exact ih (by simpa using hreport)

theorem Answered.mem {kind : TaskKind} {tasks : List (Task kind)} {reports : List (Option kind.Result)}
    (h : client.Answered jobs tasks reports) {result : kind.Result}
    (hreport : some result ∈ reports) : ∃ task ∈ tasks, client.Produces jobs task result := by
  obtain ⟨index, hindex⟩ := List.mem_iff_getElem?.mp hreport
  obtain ⟨task, htask, hresult⟩ := h.at hindex
  exact ⟨task, List.mem_of_getElem? htask, hresult⟩

theorem receive_backed {kind : TaskKind} {tasks : List (Task kind)} (stop count : Nat)
    {reports : List (Option kind.Result)} (h : client.Answered jobs tasks reports) :
    (Compose.receive tasks stop count reports).Always (fun _ => True) (client.Backed jobs)
      (client.Answered jobs tasks) := by
  induction count generalizing reports with
  | zero => exact h
  | succ count ih =>
    refine Prog.Always.bind (.call trivial) fun now _ => ?_
    split
    · exact h
    · refine Prog.Always.bind (.call trivial) fun answer ha => ?_
      rcases answer with _ | ⟨index, result⟩
      · exact h
      · obtain ⟨task, htask, hresult⟩ := ha index result rfl
        exact ih (h.set htask hresult)

theorem collectWithin_backed {kind : TaskKind} (tasks : List (Task kind)) (deadline : Nat) :
    (Compose.collectWithin tasks deadline).Always (fun _ => True) (client.Backed jobs)
      (client.Answered jobs tasks) := by
  refine (spawnFrom_backed tasks 0).bind fun _ _ => ?_
  refine Prog.Always.bind (.call trivial) fun now _ => ?_
  apply receive_backed
  unfold Answered
  rw [List.forall₂_map_right_iff, List.forall₂_same]
  exact fun _ _ => nofun

def PlanOutputs (client : DiscoveryComposeClientStd) (jobs : ∀ job : Job, job.Answer → Prop)
    (email : String) (services : Finset DiscoveryService)
    (outputs : List (List DiscoveryServiceConfig)) : Prop :=
  ∃ plan reports, Plan.of email services = .ok plan ∧
    client.Answered jobs (plan.tasks email) reports ∧ outputs = plan.outputs reports

theorem parallelOutputs_backed (email : String) (services : Finset DiscoveryService) :
    (client.parallelOutputs email services).Always (fun _ => True) (client.Backed jobs)
      fun result => ∀ outputs, result = .ok outputs →
        client.PlanOutputs jobs email services outputs := by
  unfold parallelOutputs
  cases hplan : Plan.of email services with
  | error err => exact nofun
  | ok plan =>
    refine (Prog.Always.trivial _).bind fun checked _ => ?_
    cases checked with
    | error err => exact nofun
    | ok =>
      refine (scope_backed (plan.tasks email)).bind fun reports hreports => ?_
      intro outputs houtputs
      exact ⟨plan, reports, hplan, hreports, (Except.ok.inj houtputs).symm⟩

theorem parallelOutputsWithin_backed (email : String) (services : Finset DiscoveryService)
    (deadline : Nat) :
    (client.parallelOutputsWithin email services deadline).Always (fun _ => True)
      (client.Backed jobs) fun result => ∀ outputs, result = .ok outputs →
        client.PlanOutputs jobs email services outputs := by
  unfold parallelOutputsWithin
  cases hplan : Plan.of email services with
  | error err => exact nofun
  | ok plan =>
    refine Prog.Always.bind (.call trivial) fun started _ => ?_
    refine (Prog.Always.trivial _).bind fun checks _ => ?_
    rcases checks.getLast?.join with _ | err | _
    · exact nofun
    · exact nofun
    · refine Prog.Always.bind (.call trivial) fun now _ => ?_
      refine (collectWithin_backed (plan.tasks email) _).bind fun reports hreports => ?_
      intro outputs houtputs
      exact ⟨plan, reports, hplan, hreports, (Except.ok.inj houtputs).symm⟩

def Roots (client : DiscoveryComposeClientStd) (jobs : ∀ job : Job, job.Answer → Prop)
    (rootOf : DiscoveryDavService × Url → Option Url) : Prop :=
  ∀ target root, rootOf target = some root →
    client.Produces jobs (.davRoot target.1 target.2) (some root)

theorem resolveDavRoots_backed (outputs : List (List DiscoveryServiceConfig))
    (deadline : Option Nat) :
    (client.resolveDavRoots outputs deadline).Always (fun _ => True) (client.Backed jobs)
      fun resolved => ∃ rootOf, client.Roots jobs rootOf ∧
        resolved = outputs.map (·.map (client.setDavRoot rootOf)) := by
  have hnone : ∀ config, client.setDavRoot (fun _ => none) config = config := by
    intro config
    unfold setDavRoot
    cases davRootTarget config <;> rfl
  have hroots : ∀ reports, client.Answered jobs
      ((davTargets outputs).map fun target => Task.davRoot target.1 target.2) reports →
      client.Roots jobs fun target =>
        (((davTargets outputs).findIdx? (· == target)).bind ((reports.map (·.join))[·]?)).join := by
    intro reports hreports target root hroot
    -- Reports are matched back by position, so the report at the index is the one of the target.
    obtain ⟨index, hindex, hroot⟩ := Option.bind_eq_some_iff.mp (Option.join_eq_some_iff.mp hroot)
    rw [List.getElem?_map, Option.map_eq_some_iff] at hroot
    obtain ⟨report, hreport, hroot⟩ := hroot
    rw [Option.join_eq_some_iff] at hroot
    obtain ⟨task, htask, hproduces⟩ := hreports.at (hreport.trans (congrArg some hroot))
    obtain ⟨found, hfound, rfl⟩ := Option.map_eq_some_iff.mp (List.getElem?_map.symm.trans htask)
    have hmatch := List.of_findIdx?_eq_some hindex
    rw [hfound] at hmatch
    obtain rfl : found = target := by simpa using hmatch
    exact hproduces
  unfold resolveDavRoots
  simp only
  split
  · refine ⟨fun _ => none, fun _ _ => nofun, ?_⟩
    have hid : client.setDavRoot (fun _ => none) = id := by
      funext config
      exact hnone config
    rw [hid]
    simp
  · cases deadline with
    | none =>
      refine (scope_backed _).bind fun reports hreports => ?_
      exact ⟨_, hroots reports hreports, rfl⟩
    | some deadline =>
      refine (collectWithin_backed _ deadline).bind fun reports hreports => ?_
      exact ⟨_, hroots reports hreports, rfl⟩

def Probed (client : DiscoveryComposeClientStd) (jobs : ∀ job : Job, job.Answer → Prop) :
    List DiscoveryServiceConfig → List DiscoveryServiceConfig → Prop :=
  List.Forall₂ fun config probed => ∃ schemes, probed = refineProbed config schemes ∧
    ∀ found, schemes = some found → client.Produces jobs (.schemes config.probeUrls) (some found)

theorem probe_backed (configs : List DiscoveryServiceConfig) :
    (probe configs).Always (fun _ => True) (client.Backed jobs) (client.Probed jobs configs) := by
  unfold probe
  refine (scope_backed _).bind fun reports hreports => ?_
  unfold Answered at hreports
  unfold Probed
  rw [List.forall₂_map_left_iff] at hreports
  show List.Forall₂ _ configs _
  induction hreports with
  | nil => exact .nil
  | cons hhead _ ih =>
    refine .cons ⟨_, rfl, fun found hfound => ?_⟩ ih
    rw [Option.join_eq_some_iff] at hfound
    exact hhead _ hfound

structure Fetched (client : DiscoveryComposeClientStd) (jobs : ∀ job : Job, job.Answer → Prop)
    (resourceOf : String → Option DiscoveryOauthResourceMetadata)
    (methodsOf : String → Option (List DiscoveryAuthMethod)) : Prop where
  resource : ∀ raw metadata, resourceOf raw = some metadata → ∃ url, UrlCrate.parse raw = .ok url ∧
    client.Produces jobs (.resource raw url) (some (raw, metadata))
  issuer : ∀ issuer methods, methodsOf issuer = some methods →
    client.Produces jobs (.issuer issuer) (issuer, methods)

theorem produces_issuer {issuer : String} {result : String × List DiscoveryAuthMethod}
    (h : client.Produces jobs (.issuer issuer) result) : result.1 = issuer :=
  (client.taskBody_issuer issuer).returns h

theorem produces_resource {raw : String} {url : Url}
    {result : String × DiscoveryOauthResourceMetadata}
    (h : client.Produces jobs (.resource raw url) (some result)) : result.1 = raw :=
  (client.taskBody_resource raw url).returns h result rfl

section
variable (jobs) (issuer : Url)

/-- The metadata of an issuer: that of its OAuth well-known URL, or else of its OpenID one. -/
def Publishes (metadata : DiscoveryOauthServerMetadata) : Prop :=
  jobs (.oauthServer (DiscoveryOauthServerMetadata.wellKnownUrl issuer)) (.ok metadata) ∨
    (∃ err, jobs (.oauthServer (DiscoveryOauthServerMetadata.wellKnownUrl issuer)) (.error err)) ∧
      jobs (.oauthServer (DiscoveryOauthServerMetadata.openidWellKnownUrl issuer)) (.ok metadata)

def PublishesNone : Prop :=
  (∃ err, jobs (.oauthServer (DiscoveryOauthServerMetadata.wellKnownUrl issuer)) (.error err)) ∧
    ∃ err, jobs (.oauthServer (DiscoveryOauthServerMetadata.openidWellKnownUrl issuer)) (.error err)

end

omit [PslCrate] in
theorem oauthServer_publishes (issuer : Url) :
    (oauthServer issuer).Always (fun _ => True) jobs fun result =>
      (∀ metadata, result = some metadata → Publishes jobs issuer metadata) ∧
        (result = none → PublishesNone jobs issuer) := by
  unfold oauthServer
  refine Prog.Always.bind (.call trivial) fun first hfirst => ?_
  cases first with
  | ok metadata =>
    refine ⟨fun found hfound => ?_, nofun⟩
    obtain rfl := Option.some.inj hfound
    exact .inl hfirst
  | error err =>
    refine Prog.Always.bind (.call trivial) fun second hsecond => ?_
    cases second with
    | ok metadata =>
      refine ⟨fun found hfound => ?_, nofun⟩
      obtain rfl := Option.some.inj hfound
      exact .inr ⟨⟨err, hfirst⟩, hsecond⟩
    | error err' => exact ⟨fun _ => nofun, fun _ => ⟨⟨err, hfirst⟩, ⟨err', hsecond⟩⟩⟩

def IssuerMethods (jobs : ∀ job : Job, job.Answer → Prop) (issuer : String)
    (methods : List DiscoveryAuthMethod) : Prop :=
  (∃ url metadata, UrlCrate.parse issuer = .ok url ∧ Publishes jobs url metadata ∧
    methods = if (issuerMethods metadata).isEmpty then [.oauthIssuer issuer]
      else issuerMethods metadata) ∨
  methods = [.oauthIssuer issuer] ∧ ∀ url, UrlCrate.parse issuer = .ok url → PublishesNone jobs url

omit [PslCrate] in
theorem resolveIssuer_publishes (issuer : String) :
    (resolveIssuer issuer).Always (fun _ => True) jobs (IssuerMethods jobs issuer) := by
  unfold resolveIssuer
  cases hparse : UrlCrate.parse issuer with
  | error err =>
    refine .inr ⟨rfl, fun url hurl => ?_⟩
    rw [hparse] at hurl
    exact nomatch hurl
  | ok url =>
    refine (oauthServer_publishes url).bind fun metadata hmetadata => ?_
    cases metadata with
    | none =>
      refine .inr ⟨rfl, fun found hfound => ?_⟩
      obtain rfl : url = found := Except.ok.inj (hparse.symm.trans hfound)
      exact hmetadata.2 rfl
    | some metadata => exact .inl ⟨url, metadata, hparse, hmetadata.1 _ rfl, rfl⟩

theorem Fetched.issuer_methods {resourceOf : String → Option DiscoveryOauthResourceMetadata}
    {methodsOf : String → Option (List DiscoveryAuthMethod)}
    (h : client.Fetched jobs resourceOf methodsOf) {issuer : String}
    {methods : List DiscoveryAuthMethod} (hissuer : methodsOf issuer = some methods) :
    IssuerMethods jobs issuer methods := by
  have hbody : (client.taskBody (.issuer issuer)).Always (fun _ => True) jobs
      fun result => IssuerMethods jobs issuer result.2 :=
    (resolveIssuer_publishes issuer).bind fun methods hmethods => hmethods
  exact hbody.returns (h.issuer issuer methods hissuer)

theorem Fetched.answered {resourceOf : String → Option DiscoveryOauthResourceMetadata}
    {methodsOf : String → Option (List DiscoveryAuthMethod)}
    (h : client.Fetched jobs resourceOf methodsOf) {raw : String}
    {metadata : DiscoveryOauthResourceMetadata} (hraw : resourceOf raw = some metadata) :
    ∃ url, UrlCrate.parse raw = .ok url ∧
      jobs (.oauthResource (DiscoveryOauthResourceMetadata.wellKnownUrl url)) (.ok metadata) := by
  obtain ⟨url, hparse, hproduces⟩ := h.resource raw metadata hraw
  have hbody : (client.taskBody (.resource raw url)).Always (fun _ => True) jobs
      fun result => ∀ entry, result = some entry →
        jobs (.oauthResource (DiscoveryOauthResourceMetadata.wellKnownUrl url)) (.ok entry.2) := by
    refine (oauthResource_always trivial).bind fun fetched hfetched => ?_
    intro entry hentry
    obtain ⟨metadata, hmetadata, rfl⟩ := Option.map_eq_some_iff.mp hentry
    exact hfetched metadata hmetadata
  exact ⟨url, hparse, hbody.returns hproduces _ rfl⟩

theorem resolveOauth_backed (configs : List DiscoveryServiceConfig) :
    (resolveOauth configs).Always (fun _ => True) (client.Backed jobs) fun resolved =>
      ∃ resourceOf methodsOf, client.Fetched jobs resourceOf methodsOf ∧
        resolved = configs.map fun config =>
          bindResources resourceOf (setIssuers methodsOf (addIssuers resourceOf config)) := by
  -- What is set on a config is looked up among the joined reports, which jobs back.
  have hissuers : ∀ configs, (resolveIssuers configs).Always (fun _ => True) (client.Backed jobs)
      fun resolved => ∃ methodsOf : String → Option (List DiscoveryAuthMethod),
        (∀ issuer methods, methodsOf issuer = some methods →
          client.Produces jobs (.issuer issuer) (issuer, methods)) ∧
        resolved = configs.map (setIssuers methodsOf) := by
    intro configs
    unfold resolveIssuers
    simp only
    split
    · refine ⟨fun _ => none, fun _ _ => nofun, ?_⟩
      rw [show setIssuers (fun _ => none) = id from funext setIssuers_none, List.map_id]
    · refine (scope_backed _).bind fun joined hjoined => ?_
      refine ⟨(List.lookup · (joined.filterMap id)), fun issuer methods hlookup => ?_, rfl⟩
      have hmem := mem_of_lookup hlookup
      rw [List.mem_filterMap] at hmem
      obtain ⟨report, hreport, rfl⟩ := hmem
      obtain ⟨task, htask, hproduces⟩ := hjoined.mem hreport
      obtain ⟨named, -, rfl⟩ := List.mem_map.mp htask
      obtain rfl : issuer = named := produces_issuer hproduces
      exact hproduces
  unfold resolveOauth
  refine (scope_backed _).bind fun fetched hfetched => ?_
  refine (hissuers _).bind fun resolved hresolved => ?_
  obtain ⟨methodsOf, hmethods, rfl⟩ := hresolved
  refine ⟨(List.lookup · (fetched.filterMap (·.join))), methodsOf, ⟨fun raw metadata hlookup => ?_, hmethods⟩, ?_⟩
  · have hmem := mem_of_lookup hlookup
    rw [List.mem_filterMap] at hmem
    obtain ⟨report, hreport, hentry⟩ := hmem
    rw [Option.join_eq_some_iff] at hentry
    subst hentry
    obtain ⟨task, htask, hproduces⟩ := hfetched.mem hreport
    unfold resourceTasks at htask
    rw [List.mem_filterMap] at htask
    obtain ⟨named, -, hnamed⟩ := htask
    cases hparse : UrlCrate.parse named with
    | error err => simp [hparse] at hnamed
    | ok url =>
      simp only [hparse, Option.some.injEq] at hnamed
      subst hnamed
      obtain rfl : raw = named := produces_resource hproduces
      exact ⟨url, hparse, hproduces⟩
  · rw [List.map_map, List.map_map]
    rfl

def Finished (client : DiscoveryComposeClientStd) (jobs : ∀ job : Job, job.Answer → Prop)
    (services : Finset DiscoveryService) (first : Bool)
    (outputs : List (List DiscoveryServiceConfig)) (configs : List DiscoveryServiceConfig) : Prop :=
  ∃ rootOf probed resourceOf methodsOf, client.Roots jobs rootOf ∧
    client.Probed jobs (collectOutputs first (DiscoveryConfigCollector.new services)
      (outputs.map (·.map (client.setDavRoot rootOf)))).finish probed ∧
    client.Fetched jobs resourceOf methodsOf ∧
    configs = probed.map fun config =>
      bindResources resourceOf (setIssuers methodsOf (addIssuers resourceOf config))

theorem finished_backed (services : Finset DiscoveryService) (first : Bool)
    (outputs : List (List DiscoveryServiceConfig)) (deadline : Option Nat) :
    (client.resolveDavRoots outputs deadline >>= fun outputs =>
      probe (collectOutputs first (DiscoveryConfigCollector.new services) outputs).finish >>=
        fun configs => resolveOauth configs >>= fun configs =>
          (Prog.pure (.ok configs) : Compose ComposeResult)).Always (fun _ => True)
            (client.Backed jobs) fun result => ∀ configs, result = .ok configs →
              client.Finished jobs services first outputs configs := by
  refine (resolveDavRoots_backed outputs deadline).bind fun resolved hresolved => ?_
  obtain ⟨rootOf, hroots, rfl⟩ := hresolved
  refine (probe_backed _).bind fun probed hprobed => ?_
  refine (resolveOauth_backed probed).bind fun configs hconfigs => ?_
  obtain ⟨resourceOf, methodsOf, hfetched, rfl⟩ := hconfigs
  intro found hfound
  obtain rfl := Except.ok.inj hfound
  exact ⟨rootOf, probed, resourceOf, methodsOf, hroots, hprobed, hfetched, rfl⟩

theorem compose_backed (email : String) (services : Finset DiscoveryService) (first : Bool)
    (deadline : Option Nat) :
    (client.compose email services first deadline).Always (fun _ => True) (client.Backed jobs)
      fun result => ∀ configs, result = .ok configs → ∃ outputs,
        client.PlanOutputs jobs email services outputs ∧
          client.Finished jobs services first outputs configs := by
  unfold compose
  refine Prog.Always.bind (.call trivial) fun started _ => ?_
  cases deadline with
  | none =>
    simp only
    refine (parallelOutputs_backed email services).bind fun result hresult => ?_
    cases result with
    | error err => exact nofun
    | ok outputs =>
      refine (finished_backed services first outputs none).mono fun result hfinished => ?_
      exact fun configs hconfigs => ⟨outputs, hresult outputs rfl, hfinished configs hconfigs⟩
  | some deadline =>
    simp only
    refine (parallelOutputsWithin_backed email services deadline).bind fun result hresult => ?_
    cases result with
    | error err => exact nofun
    | ok outputs =>
      refine Prog.Always.bind (.call trivial) fun now _ => ?_
      refine (finished_backed services first outputs _).mono fun result hfinished => ?_
      exact fun configs hconfigs => ⟨outputs, hresult outputs rfl, hfinished configs hconfigs⟩

theorem composeRaw_backed (email : String) (services : Finset DiscoveryService) :
    (client.composeRaw email services).Always (fun _ => True) (client.Backed jobs)
      fun result => ∀ configs, result = .ok configs →
        ∃ outputs rootOf resourceOf methodsOf, client.PlanOutputs jobs email services outputs ∧
          client.Roots jobs rootOf ∧ client.Fetched jobs resourceOf methodsOf ∧
          configs = ((outputs.map (·.map (client.setDavRoot rootOf))).flatten.filter fun config =>
            services = ∅ || config.service ∈ services).map fun config =>
              bindResources resourceOf (setIssuers methodsOf (addIssuers resourceOf config)) := by
  unfold composeRaw
  refine (parallelOutputs_backed email services).bind fun result hresult => ?_
  cases result with
  | error err => exact nofun
  | ok outputs =>
    have hplan := hresult outputs rfl
    refine (resolveDavRoots_backed outputs none).bind fun resolved hresolved => ?_
    obtain ⟨rootOf, hroots, rfl⟩ := hresolved
    refine (resolveOauth_backed _).bind fun configs hconfigs => ?_
    obtain ⟨resourceOf, methodsOf, hfetched, rfl⟩ := hconfigs
    intro found hfound
    obtain rfl := Except.ok.inj hfound
    exact ⟨outputs, rootOf, resourceOf, methodsOf, hplan, hroots, hfetched, rfl⟩

def Reduced (client : DiscoveryComposeClientStd) (jobs : ∀ job : Job, job.Answer → Prop)
    (services : Finset DiscoveryService) (outputs : List (List DiscoveryServiceConfig))
    (configs : List DiscoveryServiceConfig) : Prop :=
  (∃ first, client.Probed jobs
    (collectOutputs first (DiscoveryConfigCollector.new services) outputs).finish configs) ∨
  configs = outputs.flatten.filter fun config => services = ∅ || config.service ∈ services

def Prepared (client : DiscoveryComposeClientStd) (jobs : ∀ job : Job, job.Answer → Prop)
    (email : String) (services : Finset DiscoveryService) (reduced : List DiscoveryServiceConfig) :
    Prop :=
  ∃ plan reports rootOf, Plan.of email services = .ok plan ∧
    client.Answered jobs (plan.tasks email) reports ∧ client.Roots jobs rootOf ∧
    client.Reduced jobs services ((plan.outputs reports).map (·.map (client.setDavRoot rootOf)))
      reduced

def Composed (client : DiscoveryComposeClientStd) (jobs : ∀ job : Job, job.Answer → Prop)
    (email : String) (services : Finset DiscoveryService) (configs : List DiscoveryServiceConfig) :
    Prop :=
  ∃ reduced resourceOf methodsOf, client.Prepared jobs email services reduced ∧
    client.Fetched jobs resourceOf methodsOf ∧
    configs = reduced.map fun config =>
      bindResources resourceOf (setIssuers methodsOf (addIssuers resourceOf config))

end DiscoveryComposeClientStd

def ConfigEntry.Composes (email : String) (services : Finset DiscoveryService) : ConfigEntry → Prop
  | .composeAll entry wanted | .composeAllWithin entry wanted _ | .composeFirst entry wanted
  | .composeRaw entry wanted => entry = email ∧ wanted = services
  | .provider _ | .isGoogle _ | .isMicrosoft _ | .autoconfig _ | .srv _ | .pacc _ | .dav _ _ | .jmap _ =>
    False

namespace DiscoveryComposeClientStd
variable [UrlCrate] [PslCrate] {client : DiscoveryComposeClientStd}
  {jobs : ∀ job : Job, job.Answer → Prop} {email : String} {services : Finset DiscoveryService}

theorem composes_backed {entry : ConfigEntry} (h : entry.Composes email services) :
    (entry.program client).Always (fun _ => True) (client.Backed jobs) fun result =>
      ∀ configs, result = .ok configs → client.Composed jobs email services configs := by
  have hcompose : ∀ first deadline, (client.compose email services first deadline).Always
      (fun _ => True) (client.Backed jobs) fun result =>
        ∀ configs, result = .ok configs → client.Composed jobs email services configs := by
    intro first deadline
    refine (compose_backed email services first deadline).mono fun result hresult configs hconfigs => ?_
    obtain ⟨outputs, ⟨plan, reports, hplan, hreports, rfl⟩, rootOf, probed, resourceOf, methodsOf,
      hroots, hprobed, hfetched, rfl⟩ := hresult configs hconfigs
    exact ⟨probed, resourceOf, methodsOf,
      ⟨plan, reports, rootOf, hplan, hreports, hroots, .inl ⟨first, hprobed⟩⟩, hfetched, rfl⟩
  cases entry with
  | composeAll | composeFirst =>
    obtain ⟨rfl, rfl⟩ := h
    exact hcompose _ none
  | composeAllWithin _ _ deadline =>
    obtain ⟨rfl, rfl⟩ := h
    exact hcompose false (some deadline)
  | composeRaw =>
    obtain ⟨rfl, rfl⟩ := h
    refine (composeRaw_backed _ _).mono fun result hresult configs hconfigs => ?_
    obtain ⟨outputs, rootOf, resourceOf, methodsOf, ⟨plan, reports, hplan, hreports, rfl⟩, hroots,
      hfetched, rfl⟩ := hresult configs hconfigs
    exact ⟨_, resourceOf, methodsOf, ⟨plan, reports, rootOf, hplan, hreports, hroots, .inr rfl⟩,
      hfetched, rfl⟩
  | provider | isGoogle | isMicrosoft | autoconfig | srv | pacc | dav | jmap => exact h.elim

omit [UrlCrate] [PslCrate] in
theorem providerOutput_eq {plan : Plan} (hplan : Plan.of email services = .ok plan)
    {output : List DiscoveryServiceConfig} (h : plan.providerOutput = some output) :
    ∃ provider : DiscoveryKnownProvider, output = provider.configs (Text.trim email) := by
  unfold Plan.of at hplan
  simp only at hplan
  split at hplan
  · exact nomatch hplan
  · obtain rfl := Except.ok.inj hplan
    obtain ⟨provider, -, rfl⟩ := Option.map_eq_some_iff.mp h
    exact ⟨provider, rfl⟩

theorem outputs_forall {P : DiscoveryServiceConfig → Prop} {plan : Plan}
    (hprovider : ∀ provider : DiscoveryKnownProvider,
      ∀ config ∈ provider.configs (Text.trim email), P config)
    (hmechanism : ∀ mechanism configs, client.Produces jobs
      (.mechanism mechanism plan.localPart plan.domain (Text.trim email)) configs →
        ∀ config ∈ configs, P config)
    (hplan : Plan.of email services = .ok plan)
    {reports : List (Option (List DiscoveryServiceConfig))}
    (hreports : client.Answered jobs (plan.tasks email) reports) :
    ∀ output ∈ plan.outputs reports, ∀ config ∈ output, P config := by
  intro output houtput config hconfig
  rcases List.mem_append.mp houtput with houtput | hmap
  · obtain ⟨provider, rfl⟩ := providerOutput_eq hplan (Option.mem_toList.mp houtput)
    exact hprovider provider config hconfig
  · obtain ⟨report, hreport, rfl⟩ := List.mem_map.mp hmap
    cases report with
    | none => exact nomatch hconfig
    | some configs =>
      obtain ⟨task, htask, hproduces⟩ := hreports.mem hreport
      obtain ⟨mechanism, -, rfl⟩ := List.mem_map.mp htask
      exact hmechanism mechanism configs hproduces config hconfig

structure Maintained (client : DiscoveryComposeClientStd) (jobs : ∀ job : Job, job.Answer → Prop)
    (P : DiscoveryServiceConfig → Prop) : Prop where
  root : ∀ config target root, davRootTarget config = some target →
    client.Produces jobs (.davRoot target.1 target.2) (some root) → P config →
      P { config with endpoint := .http (UrlCrate.asStr root), resolved := true }
  merge : ∀ c d, DiscoveryConfigCollector.related c d = true → P c → P d →
    P (DiscoveryConfigCollector.merge c d)
  probed : ∀ config schemes, client.Produces jobs (.schemes config.probeUrls) (some schemes) →
    P config → P (config.refineAuth schemes)

namespace Maintained
variable {P : DiscoveryServiceConfig → Prop} (h : client.Maintained jobs P)
include h

theorem setDavRoot {rootOf : DiscoveryDavService × Url → Option Url}
    (hroots : client.Roots jobs rootOf) {config : DiscoveryServiceConfig} (hconfig : P config) :
    P (client.setDavRoot rootOf config) := by
  unfold DiscoveryComposeClientStd.setDavRoot
  cases htarget : davRootTarget config with
  | none => exact hconfig
  | some target =>
    simp only [Option.bind_some]
    cases hroot : rootOf target with
    | none => exact hconfig
    | some root =>
      simp only
      split
      · exact hconfig
      · exact h.root config target root htarget (hroots target root hroot) hconfig

theorem collectOutputs (first : Bool) {outputs : List (List DiscoveryServiceConfig)}
    (houtputs : ∀ output ∈ outputs, ∀ config ∈ output, P config)
    {collector : DiscoveryConfigCollector} (hcollector : ∀ config ∈ collector.configs, P config) :
    ∀ config ∈ (collectOutputs first collector outputs).finish, P config :=
  forall_collectOutputs h.merge first houtputs hcollector

theorem probe {configs probed : List DiscoveryServiceConfig} (hprobed : client.Probed jobs configs probed)
    (hconfigs : ∀ config ∈ configs, P config) : ∀ config ∈ probed, P config := by
  unfold Probed at hprobed
  induction hprobed with
  | nil => exact List.forall_mem_nil _
  | cons hhead _ ih =>
    rw [List.forall_mem_cons] at hconfigs ⊢
    refine ⟨?_, ih hconfigs.2⟩
    obtain ⟨schemes, rfl, hschemes⟩ := hhead
    unfold refineProbed
    cases schemes with
    | none => exact hconfigs.1
    | some schemes => exact h.probed _ schemes (hschemes schemes rfl) hconfigs.1

theorem reduced {outputs : List (List DiscoveryServiceConfig)}
    (houtputs : ∀ output ∈ outputs, ∀ config ∈ output, P config)
    {rootOf : DiscoveryDavService × Url → Option Url} (hroots : client.Roots jobs rootOf)
    {reduced : List DiscoveryServiceConfig}
    (hreduced : client.Reduced jobs services (outputs.map (·.map (client.setDavRoot rootOf)))
      reduced) :
    ∀ config ∈ reduced, P config := by
  have hresolved : ∀ output ∈ outputs.map (·.map (client.setDavRoot rootOf)),
      ∀ config ∈ output, P config := by
    intro output houtput config hconfig
    obtain ⟨reported, hreported, rfl⟩ := List.mem_map.mp houtput
    obtain ⟨found, hfound, rfl⟩ := List.mem_map.mp hconfig
    exact h.setDavRoot hroots (houtputs reported hreported found hfound)
  obtain ⟨first, hprobed⟩ | rfl := hreduced
  · exact h.probe hprobed (h.collectOutputs first hresolved (List.forall_mem_nil _))
  · intro config hconfig
    obtain ⟨output, houtput, hconfig⟩ := List.mem_flatten.mp (List.mem_filter.mp hconfig).1
    exact hresolved output houtput config hconfig

end Maintained
end DiscoveryComposeClientStd
end PimDiscovery
