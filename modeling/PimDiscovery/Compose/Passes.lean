import PimDiscovery.Compose.Client

/-! The passes over the configs, on fixed answers: each is a function of one config, applied to all,
that leaves the config's service and account alone. -/

namespace PimDiscovery
open Interaction

theorem mem_foldl_of_step {α : Type} {step : List α → α → List α} {a : α}
    (hstep : ∀ acc x, a ∈ step acc x ↔ a ∈ acc ∨ a = x) {acc xs : List α} :
    a ∈ xs.foldl step acc ↔ a ∈ acc ∨ a ∈ xs := by
  induction xs generalizing acc with
  | nil => simp
  | cons x xs ih => rw [List.foldl_cons, ih, hstep, List.mem_cons, or_assoc]

theorem findIdx?_bind_map {α β : Type} [BEq α] [LawfulBEq α] (f : α → Option β) {xs : List α} {x : α}
    (h : x ∈ xs) : ((xs.findIdx? (· == x)).bind ((xs.map f)[·]?)).join = f x := by
  induction xs with
  | nil => exact nomatch h
  | cons y xs ih =>
    rw [List.findIdx?_cons]
    by_cases hy : y = x
    · simp [hy]
    · have hx : x ∈ xs := by simpa [Ne.symm hy] using h
      rw [← ih hx]
      cases xs.findIdx? (· == x) <;> simp [hy]

theorem lookup_filterMap {κ β : Type} [DecidableEq κ] {f : κ → Option (κ × β)}
    (h : ∀ x y, f x = some y → y.1 = x) {xs : List κ} {x : κ} (hx : x ∈ xs) :
    (xs.filterMap f).lookup x = (f x).map (·.2) := by
  have hnone : ∀ ys : List κ, f x = none → (ys.filterMap f).lookup x = none := by
    intro ys hfx
    rw [List.lookup_eq_none_iff]
    intro entry hentry
    obtain ⟨y, -, hy⟩ := List.mem_filterMap.mp hentry
    rw [h y entry hy, bne_iff_ne]
    rintro rfl
    rw [hfx] at hy
    exact nomatch hy
  cases hfx : f x with
  | none => exact hnone xs hfx
  | some y =>
    induction xs with
    | nil => exact nomatch hx
    | cons z xs ih =>
      by_cases hz : z = x
      · rw [hz, List.filterMap_cons_some hfx, List.lookup_cons, h x y hfx]
        simp
      · have hx : x ∈ xs := by simpa [Ne.symm hz] using hx
        rw [← ih hx]
        cases hfz : f z with
        | none => rw [List.filterMap_cons_none hfz]
        | some w =>
          have hw : (x == w.1) = false := by
            rw [h z w hfz, beq_eq_false_iff_ne]
            exact Ne.symm hz
          rw [List.filterMap_cons_some hfz, List.lookup_cons, hw]

theorem mem_btreeSet {strings : List String} {s : String} : s ∈ btreeSet strings ↔ s ∈ strings := by
  unfold btreeSet
  rw [List.mem_mergeSort, List.mem_dedup]

abbrev Answers : Type := ∀ effect : Effect, effect.Answer

@[simp] theorem Compose.eval_ask (o : Answers) (effect : Effect) :
    (Compose.ask effect).eval o = o effect := rfl

@[simp] theorem Compose.eval_inline (o : Answers) {α : Type} (work : Work α) :
    (Compose.inline work).eval o = work.eval fun job => o (.run job) :=
  Prog.eval_interpret o work

@[simp] theorem Compose.eval_scope (o : Answers) {kind : TaskKind} (tasks : List (Task kind)) :
    (Compose.scope tasks).eval o = tasks.map fun task => o (.join kind task) := by
  unfold Compose.scope
  rw [Prog.eval_forEach]
  rfl

theorem Compose.asked_scope (o : Answers) {kind : TaskKind} (tasks : List (Task kind)) :
    (Compose.scope tasks).asked o = tasks.map (Effect.join kind) := by
  unfold Compose.scope
  rw [Prog.asked_forEach]
  exact List.map_eq_flatMap.symm

def Effect.Joins (kinds : List TaskKind) (effect : Effect) : Prop :=
  ∃ kind task, kind ∈ kinds ∧ effect = .join kind task

structure SameAccount (c d : DiscoveryServiceConfig) : Prop where
  service : c.service = d.service
  username : c.username = d.username

structure SameButAuth (c d : DiscoveryServiceConfig) : Prop extends SameAccount c d where
  endpoint : c.endpoint = d.endpoint
  source : c.source = d.source
  resolved : c.resolved = d.resolved

theorem SameButAuth.of_auth (config : DiscoveryServiceConfig) (auth : List DiscoveryAuthMethod) :
    SameButAuth { config with auth } config := ⟨⟨rfl, rfl⟩, rfl, rfl, rfl⟩

theorem SameButAuth.trans {b c d : DiscoveryServiceConfig} (h : SameButAuth b c)
    (h' : SameButAuth c d) : SameButAuth b d :=
  ⟨⟨h.service.trans h'.service, h.username.trans h'.username⟩, h.endpoint.trans h'.endpoint,
    h.source.trans h'.source, h.resolved.trans h'.resolved⟩

namespace DiscoveryComposeClientStd
variable [UrlCrate] (self : DiscoveryComposeClientStd)

section
variable [PslCrate]

/-- A thread hands over what its task may compute, whatever its coroutines return. -/
def Possible : (effect : Effect) → effect.Answer → Prop
  | .join _ task, answer => ∀ result, answer = some result →
    (self.taskBody task).Returns (fun _ _ => True) result
  | .recv _ tasks _, answer => ∀ index result, answer = some (index, result) →
    ∃ task, tasks[index]? = some task ∧ (self.taskBody task).Returns (fun _ _ => True) result
  | .run _, _ | .spawn _ _ _, _ | .now, _ => True

def Reports (o : Answers) : Prop := ∀ effect, self.Possible effect (o effect)

/-- The answers of threads that all finish, their coroutines returning what `net` says. -/
def answers (net : ∀ job : Job, job.Answer) : Answers
  | .run job => net job
  | .join _ task => some ((self.taskBody task).eval net)
  | .spawn _ _ _ => ()
  | .recv _ _ _ => none
  | .now => 0

theorem reports_answers (net : ∀ job : Job, job.Answer) : self.Reports (self.answers net) := by
  intro effect
  cases effect with
  | join kind task =>
    intro result hresult
    obtain rfl := Option.some.inj hresult
    exact Prog.returns_eval (fun _ => trivial) _
  | recv => exact nofun
  | run | spawn | now => trivial

end

def rootOf (o : Answers) (target : DiscoveryDavService × Url) : Option Url :=
  (o (.join .davRoot (.davRoot target.1 target.2))).join

def schemesOf (o : Answers) (config : DiscoveryServiceConfig) : Option (List String) :=
  (o (.join .schemes (.schemes config.probeUrls))).join

def methodsOf (o : Answers) (issuer : String) : Option (List DiscoveryAuthMethod) :=
  (o (.join .issuer (.issuer issuer))).map (·.2)

def resourceOf (o : Answers) (raw : String) : Option DiscoveryOauthResourceMetadata :=
  match UrlCrate.parse raw with
  | .ok url => (o (.join .resource (.resource raw url))).join.map (·.2)
  | .error _ => none

def withOauth (o : Answers) (config : DiscoveryServiceConfig) : DiscoveryServiceConfig :=
  bindResources (resourceOf o) (setIssuers (methodsOf o) (addIssuers (resourceOf o) config))

def probed (o : Answers) (config : DiscoveryServiceConfig) : DiscoveryServiceConfig :=
  refineProbed config (schemesOf o config)

theorem setDavRoot_account (f : DiscoveryDavService × Url → Option Url)
    (config : DiscoveryServiceConfig) : SameAccount (self.setDavRoot f config) config := by
  unfold setDavRoot
  split
  · exact ⟨rfl, rfl⟩
  · split <;> exact ⟨rfl, rfl⟩

omit [UrlCrate] in
theorem refineProbed_sameButAuth (config : DiscoveryServiceConfig)
    (schemes : Option (List String)) : SameButAuth (refineProbed config schemes) config := by
  unfold refineProbed
  split
  · unfold DiscoveryServiceConfig.refineAuth
    simp only
    split <;> exact .of_auth _ _
  · exact .of_auth _ _

theorem addIssuers_sameButAuth (f : String → Option DiscoveryOauthResourceMetadata)
    (config : DiscoveryServiceConfig) : SameButAuth (addIssuers f config) config := by
  unfold addIssuers
  split
  · unfold DiscoveryServiceConfig.addResourceIssuers
    split <;> exact .of_auth _ _
  · exact .of_auth _ _

theorem bindResources_sameButAuth (f : String → Option DiscoveryOauthResourceMetadata)
    (config : DiscoveryServiceConfig) : SameButAuth (bindResources f config) config := by
  unfold bindResources
  split <;> exact .of_auth _ _

omit [UrlCrate] in
theorem setIssuers_sameButAuth (f : String → Option (List DiscoveryAuthMethod))
    (config : DiscoveryServiceConfig) : SameButAuth (setIssuers f config) config := .of_auth _ _

theorem withOauth_sameButAuth (o : Answers) (config : DiscoveryServiceConfig) :
    SameButAuth (withOauth o config) config := by
  have hadd := addIssuers_sameButAuth (resourceOf o) config
  have hset := setIssuers_sameButAuth (methodsOf o) (addIssuers (resourceOf o) config)
  exact (bindResources_sameButAuth _ _).trans (hset.trans hadd)

theorem setDavRoot_congr {f g : DiscoveryDavService × Url → Option Url}
    {config : DiscoveryServiceConfig} (h : ∀ target, davRootTarget config = some target →
      f target = g target) : self.setDavRoot f config = self.setDavRoot g config := by
  unfold setDavRoot
  cases ht : davRootTarget config with
  | none => rfl
  | some target => rw [Option.bind_some, Option.bind_some, h target ht]

theorem mem_davTargets {outputs : List (List DiscoveryServiceConfig)}
    {target : DiscoveryDavService × Url} :
    target ∈ davTargets outputs ↔ ∃ config ∈ outputs.flatten, davRootTarget config = some target := by
  have hstep : ∀ (targets : List (DiscoveryDavService × Url)) found,
      target ∈ (if targets.contains found then targets else targets ++ [found]) ↔
        target ∈ targets ∨ target = found := by
    intro targets found
    split
    · rename_i hcontains
      refine ⟨.inl, fun h => h.elim id ?_⟩
      rintro rfl
      exact List.contains_iff_mem.mp hcontains
    · rw [List.mem_append, List.mem_singleton]
  unfold davTargets
  rw [mem_foldl_of_step hstep, List.mem_filterMap]
  simp only [List.not_mem_nil, false_or]

theorem eval_resolveDavRoots (o : Answers) (outputs : List (List DiscoveryServiceConfig)) :
    (self.resolveDavRoots outputs none).eval o = outputs.map (·.map (self.setDavRoot (rootOf o))) := by
  unfold resolveDavRoots
  by_cases hempty : (davTargets outputs).isEmpty = true
  · simp only [hempty, if_true, Prog.return_eq, Prog.eval_pure]
    have hnil := List.isEmpty_iff.mp hempty
    have hid : ∀ configs ∈ outputs, configs.map (self.setDavRoot (rootOf o)) = configs := by
      intro configs hconfigs
      refine (List.map_congr_left fun config hconfig => ?_).trans (List.map_id configs)
      have htarget : davRootTarget config = none := by
        cases ht : davRootTarget config with
        | none => rfl
        | some target =>
          have hmem := mem_davTargets.mpr ⟨config, List.mem_flatten.mpr ⟨_, hconfigs, hconfig⟩, ht⟩
          rw [hnil] at hmem
          exact nomatch hmem
      simp [setDavRoot, htarget]
    exact (List.map_id outputs).symm.trans (List.map_congr_left fun c hc => (hid c hc).symm)
  · simp only [hempty, Bool.false_eq_true, if_false, Prog.eval_bind, Prog.return_eq, Prog.eval_pure,
      @Compose.eval_scope o .davRoot, List.map_map]
    refine List.map_congr_left fun configs hconfigs => List.map_congr_left fun config hconfig => ?_
    refine self.setDavRoot_congr fun target ht => ?_
    apply findIdx?_bind_map
    exact mem_davTargets.mpr ⟨config, List.mem_flatten.mpr ⟨_, hconfigs, hconfig⟩, ht⟩

theorem addIssuers_congr {f g : String → Option DiscoveryOauthResourceMetadata}
    {config : DiscoveryServiceConfig} (h : ∀ raw, httpEndpoint config = some raw → f raw = g raw) :
    addIssuers f config = addIssuers g config := by
  unfold addIssuers
  cases hraw : httpEndpoint config with
  | none => rfl
  | some raw => rw [Option.bind_some, Option.bind_some, h raw hraw]

theorem bindResources_congr {f g : String → Option DiscoveryOauthResourceMetadata}
    {config : DiscoveryServiceConfig} (h : ∀ raw, httpEndpoint config = some raw → f raw = g raw) :
    bindResources f config = bindResources g config := by
  unfold bindResources
  cases hraw : httpEndpoint config with
  | none => rfl
  | some raw => rw [Option.bind_some, Option.bind_some, h raw hraw]

theorem eval_probe (o : Answers) (configs : List DiscoveryServiceConfig) :
    (probe configs).eval o = configs.map (probed o) := by
  unfold probe
  simp only [Prog.eval_bind, Prog.return_eq, Prog.eval_pure, @Compose.eval_scope o .schemes,
    List.map_map]
  induction configs with
  | nil => rfl
  | cons config configs ih =>
    simp only [List.map_cons, List.zip_cons_cons, ih]
    rfl

omit [UrlCrate] in
theorem setIssuers_congr {f g : String → Option (List DiscoveryAuthMethod)}
    {config : DiscoveryServiceConfig} (h : ∀ issuer, .oauthIssuer issuer ∈ config.auth →
      f issuer = g issuer) : setIssuers f config = setIssuers g config := by
  have hmethod : ∀ method ∈ config.auth, resolveMethod f method = resolveMethod g method := by
    intro method hmethod
    cases method with
    | oauthIssuer issuer => simp only [resolveMethod, h issuer hmethod]
    | _ => rfl
  unfold setIssuers
  rw [List.flatMap_congr hmethod]

omit [UrlCrate] in
theorem setIssuers_none (config : DiscoveryServiceConfig) : setIssuers (fun _ => none) config = config := by
  have hmethod : resolveMethod (fun _ => none) = fun method => [method] := by
    funext method
    cases method <;> rfl
  unfold setIssuers
  rw [hmethod, List.flatMap_singleton']

omit [UrlCrate] in
theorem mem_issuersOf {configs : List DiscoveryServiceConfig} {issuer : String} :
    issuer ∈ issuersOf configs ↔ ∃ config ∈ configs, .oauthIssuer issuer ∈ config.auth := by
  unfold issuersOf
  rw [mem_btreeSet, List.mem_filterMap]
  constructor
  · rintro ⟨method, hmethod, hissuer⟩
    obtain ⟨config, hconfig, hmethod⟩ := List.mem_flatMap.mp hmethod
    cases method with
    | oauthIssuer => exact ⟨config, hconfig, Option.some.inj hissuer ▸ hmethod⟩
    | _ => exact nomatch hissuer
  · rintro ⟨config, hconfig, hmethod⟩
    exact ⟨_, List.mem_flatMap.mpr ⟨config, hconfig, hmethod⟩, rfl⟩

omit [UrlCrate] in
theorem httpEndpoint_eq_some {config : DiscoveryServiceConfig} {raw : String} :
    httpEndpoint config = some raw ↔ config.endpoint = .http raw := by
  unfold httpEndpoint
  cases config.endpoint <;> simp

theorem mem_resourceTasks {configs : List DiscoveryServiceConfig} {raw : String} {url : Url} :
    .resource raw url ∈ resourceTasks configs ↔
      (∃ config ∈ configs, config.endpoint = .http raw) ∧ UrlCrate.parse raw = .ok url := by
  have hraw : ∀ raw, raw ∈ btreeSet (configs.filterMap httpEndpoint) ↔
      ∃ config ∈ configs, config.endpoint = .http raw := by
    intro raw
    simp only [mem_btreeSet, List.mem_filterMap, httpEndpoint_eq_some]
  unfold resourceTasks
  rw [List.mem_filterMap]
  constructor
  · rintro ⟨found, hfound, htask⟩
    cases hurl : UrlCrate.parse found with
    | error err => simp [hurl] at htask
    | ok parsed =>
      obtain ⟨rfl, rfl⟩ : found = raw ∧ parsed = url := by simpa [hurl] using htask
      exact ⟨(hraw found).mp hfound, hurl⟩
  · rintro ⟨hconfig, hurl⟩
    refine ⟨raw, (hraw raw).mpr hconfig, ?_⟩
    rw [hurl]

section
variable [PslCrate] {self}

theorem taskBody_issuer {allowed : ∀ job : Job, job.Answer → Prop} (issuer : String) :
    (self.taskBody (.issuer issuer)).Always (fun _ => True) allowed
      fun result => result.1 = issuer :=
  (Prog.Always.trivial (resolveIssuer issuer)).bind fun _ _ => rfl

theorem taskBody_resource {allowed : ∀ job : Job, job.Answer → Prop} (raw : String) (url : Url) :
    (self.taskBody (.resource raw url)).Always (fun _ => True) allowed
      fun result => ∀ entry, result = some entry → entry.1 = raw := by
  refine (Prog.Always.trivial (oauthResource url)).bind fun metadata _ => ?_
  intro entry hentry
  obtain ⟨found, -, rfl⟩ := Option.map_eq_some_iff.mp hentry
  rfl

theorem Reports.issuer {o : Answers} (h : self.Reports o) {issuer : String}
    {result : String × List DiscoveryAuthMethod}
    (hr : o (.join .issuer (.issuer issuer)) = some result) : result.1 = issuer :=
  (self.taskBody_issuer issuer).returns (h (.join .issuer _) _ hr)

theorem Reports.resource {o : Answers} (h : self.Reports o) {raw : String} {url : Url}
    {result : String × DiscoveryOauthResourceMetadata}
    (hr : o (.join .resource (.resource raw url)) = some (some result)) : result.1 = raw :=
  (self.taskBody_resource raw url).returns (h (.join .resource _) _ hr) result rfl

theorem eval_resolveIssuers {o : Answers} (h : self.Reports o)
    (configs : List DiscoveryServiceConfig) :
    (resolveIssuers configs).eval o = configs.map (setIssuers (methodsOf o)) := by
  unfold resolveIssuers
  by_cases hempty : (issuersOf configs).isEmpty = true
  · simp only [hempty, if_true, Prog.return_eq, Prog.eval_pure]
    have hnil := List.isEmpty_iff.mp hempty
    refine (List.map_id configs).symm.trans (List.map_congr_left fun config hconfig => ?_)
    rw [id, ← setIssuers_none config]
    conv => rhs; rw [setIssuers_none config]
    refine setIssuers_congr fun issuer hissuer => ?_
    have hmem : issuer ∈ issuersOf configs := mem_issuersOf.mpr ⟨config, hconfig, hissuer⟩
    rw [hnil] at hmem
    exact nomatch hmem
  · simp only [hempty, Bool.false_eq_true, if_false, Prog.eval_bind, Prog.return_eq, Prog.eval_pure,
      @Compose.eval_scope o .issuer, List.map_map, List.filterMap_map]
    refine List.map_congr_left fun config hconfig => setIssuers_congr fun issuer hissuer => ?_
    have hkeyed : ∀ issuer result, o (.join .issuer (.issuer issuer)) = some result →
        result.1 = issuer := fun _ _ hr => h.issuer hr
    exact lookup_filterMap hkeyed (mem_issuersOf.mpr ⟨config, hconfig, hissuer⟩)

theorem lookup_resources {o : Answers} (h : self.Reports o) {configs : List DiscoveryServiceConfig}
    {raw : String} (hraw : raw ∈ configs.filterMap httpEndpoint) :
    (((resourceTasks configs).map fun task => o (.join .resource task)).filterMap (·.join)).lookup
      raw = resourceOf o raw := by
  have hfetched : ((resourceTasks configs).map fun task => o (.join .resource task)).filterMap
      (·.join) = (btreeSet (configs.filterMap httpEndpoint)).filterMap fun raw =>
        match UrlCrate.parse raw with
        | .ok url => (o (.join .resource (.resource raw url))).join
        | .error _ => none := by
    unfold resourceTasks
    rw [List.filterMap_map, List.filterMap_filterMap]
    refine List.filterMap_congr fun raw _ => ?_
    cases UrlCrate.parse raw <;> rfl
  rw [hfetched, lookup_filterMap _ (mem_btreeSet.mpr hraw), resourceOf]
  · cases UrlCrate.parse raw <;> rfl
  · intro raw result hresult
    cases hparse : UrlCrate.parse raw with
    | error err => simp [hparse] at hresult
    | ok url =>
      simp only [hparse] at hresult
      exact h.resource (Option.join_eq_some_iff.mp hresult)

theorem eval_resolveOauth {o : Answers} (h : self.Reports o)
    (configs : List DiscoveryServiceConfig) :
    (resolveOauth configs).eval o = configs.map (withOauth o) := by
  have hlookup : ∀ config ∈ configs, ∀ raw, httpEndpoint config = some raw →
      (((resourceTasks configs).map fun task => o (.join .resource task)).filterMap
        (·.join)).lookup raw = resourceOf o raw := fun config hconfig raw hraw =>
    lookup_resources h (List.mem_filterMap.mpr ⟨config, hconfig, hraw⟩)
  unfold resolveOauth
  simp only [Prog.eval_bind, Prog.return_eq, Prog.eval_pure, @Compose.eval_scope o .resource,
    eval_resolveIssuers h, List.map_map]
  refine List.map_congr_left fun config hconfig => ?_
  have hadd : addIssuers (List.lookup · (((resourceTasks configs).map fun task =>
      o (.join .resource task)).filterMap (·.join))) config = addIssuers (resourceOf o) config :=
    addIssuers_congr (hlookup config hconfig)
  simp only [Function.comp_apply, hadd]
  refine bindResources_congr fun raw hraw => hlookup config hconfig raw ?_
  have hsame : SameButAuth (setIssuers (methodsOf o) (addIssuers (resourceOf o) config)) config :=
    (setIssuers_sameButAuth _ _).trans (addIssuers_sameButAuth _ _)
  unfold httpEndpoint at hraw ⊢
  rwa [hsame.endpoint] at hraw

end

/-! What the reduction keeps of the outputs. -/

theorem collectOutputs_all (collector : DiscoveryConfigCollector)
    (outputs : List (List DiscoveryServiceConfig)) :
    collectOutputs false collector outputs = outputs.foldl DiscoveryConfigCollector.collect collector := by
  induction outputs generalizing collector with
  | nil => rfl
  | cons configs outputs ih => exact ih (collector.collect configs)

theorem finish_collectOutputs (services : Finset DiscoveryService)
    (outputs : List (List DiscoveryServiceConfig)) :
    (collectOutputs false (DiscoveryConfigCollector.new services) outputs).finish =
      FirstFit.run DiscoveryConfigCollector.related DiscoveryConfigCollector.merge []
        (DiscoveryConfigCollector.wanted services outputs) := by
  rw [collectOutputs_all]
  exact DiscoveryConfigCollector.finish_collects services outputs

theorem forall_collectOutputs {P : DiscoveryServiceConfig → Prop}
    (hmerge : ∀ c d, DiscoveryConfigCollector.related c d = true → P c → P d →
      P (DiscoveryConfigCollector.merge c d))
    (first : Bool) {outputs : List (List DiscoveryServiceConfig)}
    (houtputs : ∀ output ∈ outputs, ∀ config ∈ output, P config)
    {collector : DiscoveryConfigCollector} (hcollector : ∀ config ∈ collector.configs, P config) :
    ∀ config ∈ (collectOutputs first collector outputs).finish, P config := by
  induction outputs generalizing collector with
  | nil => exact hcollector
  | cons configs outputs ih =>
    rw [List.forall_mem_cons] at houtputs
    have hcollect : ∀ config ∈ (collector.collect configs).configs, P config := by
      rw [DiscoveryConfigCollector.collect_eq]
      refine FirstFit.forall_run hmerge hcollector fun config hconfig => ?_
      exact houtputs.1 config (List.mem_filter.mp hconfig).1
    unfold DiscoveryComposeClientStd.collectOutputs
    simp only
    split
    · exact hcollect
    · exact ih houtputs.2 hcollect

theorem eval_compose (o : Answers) (email : String) (services : Finset DiscoveryService)
    (first : Bool) :
    (self.compose email services first none).eval o =
      ((self.parallelOutputs email services).eval o).map fun outputs =>
        (resolveOauth ((probe (collectOutputs first (DiscoveryConfigCollector.new services)
          ((self.resolveDavRoots outputs none).eval o)).finish).eval o)).eval o := by
  unfold compose
  simp only [Prog.eval_bind]
  cases (self.parallelOutputs email services).eval o with
  | error err => rfl
  | ok outputs => simp only [Prog.eval_bind, Prog.return_eq, Prog.eval_pure, Except.map]

/-! The passes over the reduced configs ask for nothing but joins. -/

section
variable {allowed : ∀ effect : Effect, effect.Answer → Prop} {kinds : List TaskKind}

omit [UrlCrate] in
theorem scope_always {asks : Effect → Prop} {kind : TaskKind} {tasks : List (Task kind)}
    (h : ∀ task ∈ tasks, asks (.join kind task)) :
    (Compose.scope tasks).Always asks allowed fun _ => True := by
  have hjoins : (Compose.scope tasks).Always asks allowed (List.Forall₂ (fun _ _ => True) tasks) :=
    Prog.Always.forEach fun task htask => ⟨h task htask, fun _ _ => trivial⟩
  exact hjoins.mono fun _ _ => trivial

omit [UrlCrate] in
theorem scope_joins {kind : TaskKind} (hkind : kind ∈ kinds) (tasks : List (Task kind)) :
    (Compose.scope tasks).Always (Effect.Joins kinds) allowed fun _ => True :=
  scope_always fun task _ => ⟨kind, task, hkind, rfl⟩

theorem probe_joins (configs : List DiscoveryServiceConfig) (hkind : .schemes ∈ kinds) :
    (probe configs).Always (Effect.Joins kinds) allowed fun _ => True :=
  (scope_joins hkind _).bind fun _ _ => trivial

theorem resolveOauth_joins (configs : List DiscoveryServiceConfig) (hissuer : .issuer ∈ kinds)
    (hresource : .resource ∈ kinds) :
    (resolveOauth configs).Always (Effect.Joins kinds) allowed fun _ => True := by
  have hissuers : ∀ configs, (resolveIssuers configs).Always (Effect.Joins kinds) allowed
      fun _ => True := by
    intro configs
    unfold resolveIssuers
    simp only
    split
    · trivial
    · exact (scope_joins hissuer _).bind fun _ _ => trivial
  refine (scope_joins hresource _).bind fun fetched _ => ?_
  exact (hissuers _).bind fun _ _ => trivial

end

end DiscoveryComposeClientStd
end PimDiscovery
