import PimDiscovery.Compose.Resolved
import PimDiscovery.Coroutines.Redrafted

/-! Compositions over servers that draft their JSON anew: what can be reported of the ones can be reported of
the others, in any order of the threads and whatever of them is late. -/

namespace PimDiscovery
open Interaction Serde

def Job.Told (job : Job) : Prop := ∀ a b, job.Alike a b → a = b

def Effect.Alike : (effect : Effect) → effect.Answer → effect.Answer → Prop
  | .run job, a, b => job.Alike a b
  | .join _ _, a, b => a = b
  | .spawn _ _ _, a, b => a = b
  | .recv _ _ _, a, b => a = b
  | .now, a, b => a = b

def Effect.Told (effect : Effect) : Prop := ∀ a b, effect.Alike a b → a = b

namespace DiscoveryComposeClientStd
variable [UrlCrate] (client : DiscoveryComposeClientStd)

theorem autoconfigures_told (email : String) :
    client.Autoconfigures Job.Told (fun _ _ => True) (fun _ => True) email where
  mx _ := fun _ _ h => h
  cname _ := fun _ _ h => h
  mailconf _ := fun _ _ h => h
  built _ _ _ _ := fun _ _ h => h
  followed _ _ _ _ := fun _ _ h => h
  document _ _ _ _ := fun _ _ => trivial

/-- No mechanism fetches OAuth metadata. -/
theorem runMechanism_told [PslCrate] (mechanism : Mechanism) (localPart domain email : String) :
    (client.runMechanism mechanism localPart domain email).Always Job.Told (fun _ _ => True)
      (Reported fun _ => True) := by
  have hmail := client.autoconfigures_told email
  cases mechanism with
  | mx => exact runMx_always (fun _ _ h => h) fun _ _ _ => trivial
  | pacc => exact runPacc_always (fun _ _ h => h) fun _ _ _ _ => trivial
  | ispMain => exact hmail.runIspMain localPart domain
  | ispFallback => exact hmail.runIspFallback domain
  | mailconf => exact hmail.runMailconf domain
  | ispdb => exact hmail.runIspdb domain
  | mxAutoconfig => exact hmail.runMxAutoconfig domain
  | srv => exact runSrv_always (fun _ _ h => h) fun _ _ _ _ => trivial
  | caldav | carddav => exact runDav_always (fun _ _ h => h) fun _ _ _ _ => trivial
  | jmap => exact runJmap_always (fun _ _ h => h) fun _ _ _ _ => trivial

omit [UrlCrate] in
theorem checkResolver_told (input : String) :
    (client.checkResolver input).Always Job.Told (fun _ _ => True) fun _ => True := by
  unfold checkResolver
  split
  · trivial
  · refine Prog.Always.bind (.call fun _ _ h => h) fun answer _ => ?_
    cases answer with
    | error err => trivial
    | ok rcode =>
      simp only
      split <;> trivial

omit [UrlCrate] in
theorem detectProvider_told (email : String) :
    (detectProvider email).Always Job.Told (fun _ _ => True) fun _ => True := by
  unfold detectProvider
  split
  · trivial
  · exact providerFromMx_always fun _ _ h => h

omit [UrlCrate] in
theorem probeSchemes_told (urls : List Url) :
    (probeSchemes urls).Always Job.Told (fun _ _ => True) fun _ => True := by
  induction urls with
  | nil => trivial
  | cons url urls ih =>
    refine Prog.Always.bind (.call fun _ _ h => h) fun answer _ => ?_
    cases answer with
    | error err => exact ih
    | ok schemes =>
      simp only
      split
      · trivial
      · exact ih

omit [UrlCrate] in
theorem toOption_inj {ε ρ : Type} {a b : Except ε ρ} (h : a.toOption = b.toOption) :
    a = b ∨ ∃ err err', a = .error err ∧ b = .error err' := by
  cases a with
  | error err =>
    cases b with
    | error err' => exact .inr ⟨err, err', rfl, rfl⟩
    | ok metadata => cases h
  | ok metadata =>
    cases b with
    | error err' => cases h
    | ok metadata' =>
      obtain rfl := Option.some.inj h
      exact .inl rfl

theorem oauthServer_respects (issuer : Url) : (oauthServer issuer).Respects Job.Alike := by
  constructor
  · intro a b h
    obtain rfl | ⟨err, err', rfl, rfl⟩ := toOption_inj h <;> rfl
  · rintro (err | metadata)
    · constructor
      · intro a b h
        obtain rfl | ⟨err, err', rfl, rfl⟩ := toOption_inj h <;> rfl
      · rintro (err | metadata) <;> exact True.intro
    · exact True.intro

theorem oauthResource_respects (resource : Url) : (oauthResource resource).Respects Job.Alike := by
  constructor
  · intro a b h
    obtain rfl | ⟨err, err', rfl, rfl⟩ := toOption_inj h <;> rfl
  · rintro (err | metadata) <;> exact True.intro

theorem resolveIssuer_respects (issuer : String) : (resolveIssuer issuer).Respects Job.Alike := by
  unfold resolveIssuer
  split
  · trivial
  · refine (oauthServer_respects _).bind fun metadata => ?_
    cases metadata <;> trivial

theorem taskBody_respects [PslCrate] {kind : TaskKind} (task : Task kind) :
    (client.taskBody task).Respects Job.Alike := by
  have htold : ∀ {α : Type} {work : Work α} {post : α → Prop},
      work.Always Job.Told (fun _ _ => True) post → work.Respects Job.Alike :=
    fun h => Prog.respects_of_always (fun _ hjob => hjob) h
  cases task with
  | check domain => exact htold (client.checkResolver_told domain)
  | mechanism mechanism localPart domain email =>
    exact htold (client.runMechanism_told mechanism localPart domain email)
  | davRoot service origin =>
    have hprobe : (probeDavRoot service origin).Always Job.Told (fun _ _ => True) fun _ => True := by
      refine Prog.Always.bind (.call fun _ _ h => h) fun answer _ => ?_
      cases answer <;> trivial
    exact htold hprobe
  | schemes urls => exact htold (probeSchemes_told urls)
  | issuer issuer => exact (resolveIssuer_respects issuer).bind fun _ => trivial
  | resource raw url => exact (oauthResource_respects url).bind fun _ => trivial

theorem backed_alike [PslCrate] {jobs jobs' : ∀ job : Job, job.Answer → Prop}
    (h : ∀ job answer, jobs job answer → ∃ answer', jobs' job answer' ∧ job.Alike answer answer')
    (effect : Effect) (answer : effect.Answer) (ha : client.Backed jobs effect answer) :
    ∃ answer', client.Backed jobs' effect answer' ∧ effect.Alike answer answer' := by
  have hproduces : ∀ {kind : TaskKind} {task : Task kind} {result : kind.Result},
      client.Produces jobs task result → client.Produces jobs' task result :=
    fun {_ task _} hresult => (client.taskBody_respects task).returns h hresult
  cases effect with
  | run job => exact h job answer ha
  | join kind task => exact ⟨answer, fun result hresult => hproduces (ha result hresult), rfl⟩
  | recv kind tasks remaining =>
    refine ⟨answer, fun index result hresult => ?_, rfl⟩
    obtain ⟨task, htask, hproduced⟩ := ha index result hresult
    exact ⟨task, htask, hproduces hproduced⟩
  | spawn | now => exact ⟨answer, trivial, rfl⟩

/-! Metadata is fetched on threads only. -/

section
variable {allowed : ∀ effect : Effect, effect.Answer → Prop}

omit [UrlCrate]

theorem inline_told {α : Type} {post : α → Prop} {work : Work α}
    (h : work.Always Job.Told (fun _ _ => True) post) :
    (Compose.inline work).Always Effect.Told (fun _ _ => True) post :=
  h.interpret fun _ hjob => ⟨hjob, fun _ _ => trivial⟩

theorem joins_told {kinds : List TaskKind} {α : Type} {program : Compose α} {post : α → Prop}
    (h : program.Always (Effect.Joins kinds) (fun _ _ => True) post) :
    program.Always Effect.Told (fun _ _ => True) fun _ => True := by
  have hasks : ∀ effect, Effect.Joins kinds effect → effect.Told := by
    rintro effect ⟨kind, task, -, rfl⟩
    exact fun _ _ h => h
  exact (h.weaken hasks).mono fun _ _ => trivial

theorem collectWithin_told {kind : TaskKind} (tasks : List (Task kind)) (deadline : Nat) :
    (Compose.collectWithin tasks deadline).Always Effect.Told (fun _ _ => True) fun _ => True := by
  have hspawn : ∀ (left : List (Task kind)) index, (Compose.spawnFrom index left).Always Effect.Told
      (fun _ _ => True) fun _ => True := by
    intro left
    induction left with
    | nil => exact fun _ => trivial
    | cons task left ih => exact fun index => ⟨fun _ _ h => h, fun _ _ => ih _⟩
  have hreceive : ∀ stop count results, (Compose.receive tasks stop count results).Always Effect.Told
      (fun _ _ => True) fun _ => True := by
    intro stop count
    induction count with
    | zero => exact fun _ => trivial
    | succ count ih =>
      intro results
      refine Prog.Always.bind (.call fun _ _ h => h) fun now _ => ?_
      split
      · trivial
      · refine Prog.Always.bind (.call fun _ _ h => h) fun answer _ => ?_
        rcases answer with _ | ⟨index, value⟩
        · trivial
        · exact ih _
  refine (hspawn tasks 0).bind fun _ _ => ?_
  exact Prog.Always.bind (.call fun _ _ h => h) fun now _ => hreceive _ _ _

end

omit [UrlCrate] in
theorem parallelOutputs_told (email : String) (services : Finset DiscoveryService) :
    (client.parallelOutputs email services).Always Effect.Told (fun _ _ => True) fun _ => True := by
  unfold parallelOutputs
  split
  · trivial
  · refine (inline_told (client.checkResolver_told _)).bind fun checked _ => ?_
    cases checked with
    | error err => trivial
    | ok => exact (joins_told (scope_joins (List.mem_singleton_self _) _)).bind fun _ _ => trivial

omit [UrlCrate] in
theorem parallelOutputsWithin_told (email : String) (services : Finset DiscoveryService)
    (deadline : Nat) : (client.parallelOutputsWithin email services deadline).Always Effect.Told
      (fun _ _ => True) fun _ => True := by
  unfold parallelOutputsWithin
  split
  · trivial
  · refine Prog.Always.bind (.call fun _ _ h => h) fun started _ => ?_
    refine (collectWithin_told _ _).bind fun checks _ => ?_
    split
    · trivial
    · trivial
    · refine Prog.Always.bind (.call fun _ _ h => h) fun now _ => ?_
      exact (collectWithin_told _ _).bind fun _ _ => trivial

theorem resolveDavRoots_told (outputs : List (List DiscoveryServiceConfig)) (deadline : Option Nat) :
    (client.resolveDavRoots outputs deadline).Always Effect.Told (fun _ _ => True) fun _ => True := by
  unfold resolveDavRoots
  simp only
  split
  · trivial
  · cases deadline with
    | none => exact (joins_told (scope_joins (List.mem_singleton_self _) _)).bind fun _ _ => trivial
    | some deadline => exact (collectWithin_told _ _).bind fun _ _ => trivial

theorem resolveOauth_told (configs : List DiscoveryServiceConfig) :
    (resolveOauth configs).Always Effect.Told (fun _ _ => True) fun _ => True :=
  @joins_told [.issuer, .resource] _ _ _ (resolveOauth_joins configs (by decide) (by decide))

theorem compose_told (email : String) (services : Finset DiscoveryService) (first : Bool)
    (deadline : Option Nat) : (client.compose email services first deadline).Always Effect.Told
      (fun _ _ => True) fun _ => True := by
  unfold compose
  refine Prog.Always.bind (.call fun _ _ h => h) fun started _ => ?_
  have hpasses : ∀ outputs left, (client.resolveDavRoots outputs left >>= fun outputs =>
      probe (collectOutputs first (DiscoveryConfigCollector.new services) outputs).finish >>= fun configs =>
        resolveOauth configs >>= fun configs => pure (Except.ok configs : ComposeResult)).Always
          Effect.Told (fun _ _ => True) fun _ => True := by
    intro outputs left
    refine (client.resolveDavRoots_told outputs left).bind fun outputs _ => ?_
    refine (joins_told (probe_joins _ (List.mem_singleton_self _))).bind fun configs _ => ?_
    exact (resolveOauth_told configs).bind fun _ _ => trivial
  cases deadline with
  | none =>
    refine (client.parallelOutputs_told email services).bind fun result _ => ?_
    cases result with
    | error err => trivial
    | ok outputs => exact hpasses outputs none
  | some deadline =>
    refine (client.parallelOutputsWithin_told email services deadline).bind fun result _ => ?_
    cases result with
    | error err => trivial
    | ok outputs =>
      exact Prog.Always.bind (.call fun _ _ h => h) fun now _ => hpasses outputs _

theorem composeRaw_told (email : String) (services : Finset DiscoveryService) :
    (client.composeRaw email services).Always Effect.Told (fun _ _ => True) fun _ => True := by
  unfold composeRaw
  refine (client.parallelOutputs_told email services).bind fun result _ => ?_
  cases result with
  | error err => trivial
  | ok outputs =>
    refine (client.resolveDavRoots_told outputs none).bind fun outputs _ => ?_
    exact (resolveOauth_told _).bind fun _ _ => trivial

omit [UrlCrate] in
theorem single_told {post : List DiscoveryServiceConfig → Prop} {work : Work (List DiscoveryServiceConfig)}
    (h : work.Always Job.Told (fun _ _ => True) post) :
    (Compose.single work).Always Effect.Told (fun _ _ => True) fun _ => True :=
  (inline_told h).bind fun _ _ => trivial

theorem autoconfig_told [PslCrate] (email : String) :
    (client.autoconfig email).Always Job.Told (fun _ _ => True) fun _ => True := by
  have hmail := client.autoconfigures_told email
  refine (hmail.runIspMain _ _).bind fun main _ => ?_
  refine (hmail.runIspFallback _).bind fun fallback _ => ?_
  refine (hmail.runIspdb _).bind fun ispdb _ => ?_
  refine (hmail.runMailconf _).bind fun mailconf _ => ?_
  exact (hmail.runMxAutoconfig _).bind fun mx _ => trivial

/-- No entry point tells alike answers apart. -/
theorem entry_respects [PslCrate] (entry : ConfigEntry) :
    (entry.program client).Respects Effect.Alike := by
  have htold : (entry.program client).Always Effect.Told (fun _ _ => True) fun _ => True := by
    cases entry with
    | composeAll email services => exact client.compose_told email services false none
    | composeAllWithin email services deadline =>
      exact client.compose_told email services false (some deadline)
    | composeFirst email services => exact client.compose_told email services true none
    | composeRaw email services => exact client.composeRaw_told email services
    | provider email | isGoogle email | isMicrosoft email =>
      refine @single_told (fun _ => True) _ ((detectProvider_told email).bind fun provider _ => ?_)
      rcases provider with _ | _ | _ <;> trivial
    | autoconfig email => exact single_told (client.autoconfig_told email)
    | srv input => exact single_told (client.runMechanism_told .srv "" (domainPart input) "")
    | pacc input => exact single_told (client.runMechanism_told .pacc "" (domainPart input) "")
    | dav input service =>
      cases service with
      | caldav => exact single_told (client.runMechanism_told .caldav "" (domainPart input) "")
      | carddav => exact single_told (client.runMechanism_told .carddav "" (domainPart input) "")
    | jmap input => exact single_told (client.runMechanism_told .jmap "" (domainPart input) "")
  exact Prog.respects_of_always (fun _ heffect => heffect) htold

/-- What can be reported of some servers can be reported of servers that draft their JSON documents anew:
reorder the members, leave out or add ones that are not known, and change the bodies that are not decoded. -/
theorem composes_redrafted [PslCrate] [DomainCrate] [IoHttpCrate] [SerdeCrate] [DigestCrate]
    [HeaderChallenges] {writes : Bytes → JsonValue → Prop} (hjson : JsonTexts writes)
    (entry : ConfigEntry) {heard heard' : Hearing}
    (hsame : ∀ q a, heard q a → ∃ a', heard' q a' ∧ q.Redrafted writes a a') {result : ComposeResult}
    (h : (entry.program client).Returns (client.Backed (client.Overhears heard)) result) :
    (entry.program client).Returns (client.Backed (client.Overhears heard')) result :=
  (client.entry_respects entry).returns
    (client.backed_alike fun job _ => job.returns_redrafted hjson client hsame) h

end DiscoveryComposeClientStd

/-! A server that drafts its session and its resource metadata in two ways. -/

def plainSessionJson : String :=
  "\x7b\"capabilities\":\x7b\"urn:ietf:params:jmap:core\":\x7b\x7d\x7d,\"apiUrl\":\"/api\"\x7d"

def namedSessionJson : String :=
  "\x7b\"username\":\"user\",\"apiUrl\":\"/api\"," ++
    "\"capabilities\":\x7b\"urn:ietf:params:jmap:core\":\x7b\x7d\x7d\x7d"

def plainResourceJson : String :=
  "\x7b\"resource\":\"https://example.org/\"," ++
    "\"authorization_servers\":[\"https://auth.example.org/\"]\x7d"

def signedResourceJson : String :=
  "\x7b\"signed_metadata\":\"e30\",\"authorization_servers\":[\"https://auth.example.org/\"]," ++
    "\"resource\":\"https://example.org/\"\x7d"

def authServerJson : String :=
  "\x7b\"issuer\":\"https://auth.example.org/\"," ++
    "\"authorization_endpoint\":\"https://auth.example.org/authorize\"," ++
    "\"token_endpoint\":\"https://auth.example.org/token\"\x7d"

def sessionEntries : List (String × JsonValue) :=
  [("capabilities", .object [(jmapCore, .object [])]), ("apiUrl", .string "/api")]

def resourceEntries : List (String × JsonValue) :=
  [("resource", .string "https://example.org/"),
    ("authorization_servers", .array [.string "https://auth.example.org/"])]

def parseDrafts (body : Bytes) : Except String JsonValue :=
  if body = Text.bytes plainSessionJson then .ok (.object sessionEntries)
  else if body = Text.bytes namedSessionJson then
    .ok (.object (("username", .string "user") :: sessionEntries.reverse))
  else if body = Text.bytes plainResourceJson then .ok (.object resourceEntries)
  else if body = Text.bytes signedResourceJson then
    .ok (.object (("signed_metadata", .string "e30") :: resourceEntries.reverse))
  else if body = Text.bytes authServerJson then
    .ok (.object
      [("issuer", .string "https://auth.example.org/"),
        ("authorization_endpoint", .string "https://auth.example.org/authorize"),
        ("token_endpoint", .string "https://auth.example.org/token")])
  else .error "expected value"

def draftReply (resource : String) (request : HttpRequest) : HttpSendEnd :=
  if request = oauthRequest request.url then .response
    { status := 200, headers := []
      body := Text.bytes
        (if request.url.host = some "auth.example.org" then authServerJson else resource) }
  else .response { status := 404, headers := [], body := Text.bytes resource }

def draftNetwork (session resource : String) : Network
  | .dns _ _ _ => .ok [0, 1, 129, 128, 0, 0, 0, 0, 0, 0, 0, 0]
  | .hop _ _ _ => .ok
      { redirectUrl := none, response := { status := 200, headers := [], body := Text.bytes session } }
  | .send request => draftReply resource request

theorem draftNetwork_redrafted (q : Exchange) :
    q.Redrafted (fun body value => parseDrafts body = .ok value)
      (draftNetwork plainSessionJson plainResourceJson q)
      (draftNetwork namedSessionJson signedResourceJson q) := by
  have hsession : RedraftedBody (fun body value => parseDrafts body = .ok value) isSessionMember
      (Text.bytes plainSessionJson) (Text.bytes namedSessionJson) := by
    refine .inr ⟨sessionEntries, ("username", .string "user") :: sessionEntries.reverse, ?_, ?_,
      .reversed (by decide) (by decide) (.string "user")⟩
    · exact if_pos rfl
    · exact (if_neg (by decide +kernel)).trans (if_pos rfl)
  have hresource : RedraftedBody (fun body value => parseDrafts body = .ok value) isMetadataMember
      (Text.bytes plainResourceJson) (Text.bytes signedResourceJson) := by
    refine .inr ⟨resourceEntries, ("signed_metadata", .string "e30") :: resourceEntries.reverse, ?_, ?_,
      .reversed (by decide) (by decide) (.string "e30")⟩
    · exact (if_neg (by decide +kernel)).trans ((if_neg (by decide +kernel)).trans (if_pos rfl))
    · exact (if_neg (by decide +kernel)).trans ((if_neg (by decide +kernel)).trans
        ((if_neg (by decide +kernel)).trans (if_pos rfl)))
  cases q with
  | dns qtype name resolver => rfl
  | hop walk hops request => exact .inr ⟨_, _, rfl, rfl, rfl, rfl, rfl, fun _ => hsession⟩
  | send request =>
    show Exchange.Redrafted _ (.send request) (draftReply _ request) (draftReply _ request)
    unfold draftReply
    by_cases hrequest : request = oauthRequest request.url
    · rw [if_pos hrequest, if_pos hrequest]
      refine .inr (.inl ⟨_, _, rfl, rfl, rfl, rfl, fun _ => .inr ⟨⟨_, hrequest⟩, ?_⟩⟩)
      by_cases hhost : request.url.host = some "auth.example.org"
      · rw [if_pos hhost, if_pos hhost]
        exact .inl rfl
      · rw [if_neg hhost, if_neg hhost]
        exact hresource
    · rw [if_neg hrequest, if_neg hrequest]
      refine .inr (.inl ⟨_, _, rfl, rfl, rfl, rfl, fun hsuccess => ?_⟩)
      cases hsuccess

namespace DiscoveryComposeClientStd

theorem composes_redrafted_signed :
    letI := plainUrl
    letI := plainPsl
    letI := plainDns
    letI := plainHttp
    letI := valueSerde parseDrafts
    letI := DiscoveryPacc.vouchedCrates
    let client := DiscoveryComposeClientStd.new exampleResolver
    let net := draftNetwork namedSessionJson signedResourceJson
    let grant : DiscoveryAuthMethod := .oauthAuthorizationCodeGrant "https://auth.example.org/authorize"
      "https://auth.example.org/token" none (some "https://example.org/") []
    (client.composeAll "user@example.org" {.jmap}).Returns
      (client.Backed (client.Overhears fun q answer => answer = net q)) (.ok
        [{ service := .jmap, endpoint := .http "https://example.org/.well-known/jmap", username := none
           auth := [grant], source := .jmap, resolved := false }]) := by
  let _ := plainUrl
  let _ := plainPsl
  let _ := plainDns
  let _ := plainHttp
  let _ := valueSerde parseDrafts
  let _ := DiscoveryPacc.vouchedCrates
  let client := DiscoveryComposeClientStd.new exampleResolver
  let net := draftNetwork plainSessionJson plainResourceJson
  let o := client.answers fun job => (job.program client).eval net
  have _ : HeaderChallenges := ⟨fun _ _ => rfl⟩
  have heval : (client.composeAll "user@example.org" {.jmap}).eval o = .ok
      [{ service := .jmap, endpoint := .http "https://example.org/.well-known/jmap", username := none
         auth := [.oauthAuthorizationCodeGrant "https://auth.example.org/authorize"
           "https://auth.example.org/token" none (some "https://example.org/") []]
         source := .jmap, resolved := false }] := by
    rw [eval_composeAll (reports_answers client _)]
    decide +kernel
  have hrun : (client.composeAll "user@example.org" {.jmap}).Returns
      (client.Backed (client.Overhears fun q answer => answer = net q)) (.ok
        [{ service := .jmap, endpoint := .http "https://example.org/.well-known/jmap", username := none
           auth := [.oauthAuthorizationCodeGrant "https://auth.example.org/authorize"
             "https://auth.example.org/token" none (some "https://example.org/") []]
           source := .jmap, resolved := false }]) := by
    rw [← heval]
    exact Prog.returns_eval (backed_answers (overhears_eval net)) _
  have hsame : ∀ (q : Exchange) (a : q.Answer), a = net q → ∃ a',
      a' = draftNetwork namedSessionJson signedResourceJson q ∧
        q.Redrafted (fun body value => parseDrafts body = .ok value) a a' := by
    rintro q _ rfl
    exact ⟨_, rfl, draftNetwork_redrafted q⟩
  exact client.composes_redrafted (valueSerde_jsonTexts parseDrafts)
    (.composeAll "user@example.org" {DiscoveryService.jmap}) hsame hrun

end DiscoveryComposeClientStd
end PimDiscovery
