import PimDiscovery.Autoconfig.Addressed
import PimDiscovery.Compose.First
import PimDiscovery.Compose.MxAutoconfig
import PimDiscovery.Interaction.Paired

/-! Who learns the mailbox: two addresses at one domain are discovered alike, but for the queries of
autoconfig URLs. -/

namespace PimDiscovery
open Interaction

def Url.SameButQuery (url url' : Url) : Prop :=
  { url with query := none, fragment := none } = { url' with query := none, fragment := none }

def QueriesApart [UrlCrate] : Prop :=
  ∀ {start text text' : String} {url : Url}, UrlCrate.parse (start ++ "?" ++ text) = .ok url →
    ∃ url', UrlCrate.parse (start ++ "?" ++ text') = .ok url' ∧ url.SameButQuery url'

def Job.SameButMailbox (job job' : Job) : Prop :=
  job = job' ∨ ∃ url url' : Url, job = .isp url ∧ job' = .isp url' ∧ url.SameButQuery url'

structure SameService (c d : DiscoveryServiceConfig) : Prop where
  service : c.service = d.service
  username : c.username.isSome = d.username.isSome
  auth : c.auth = d.auth
  source : c.source = d.source
  resolved : c.resolved = d.resolved

theorem SameService.refl (c : DiscoveryServiceConfig) : SameService c c := ⟨rfl, rfl, rfl, rfl, rfl⟩

abbrev SameServices : List DiscoveryServiceConfig → List DiscoveryServiceConfig → Prop :=
  List.Forall₂ SameService

theorem SameServices.refl (configs : List DiscoveryServiceConfig) : SameServices configs configs :=
  List.forall₂_same.mpr fun c _ => .refl c

theorem SameServices.isEmpty {cs ds : List DiscoveryServiceConfig} (h : SameServices cs ds) :
    cs.isEmpty = ds.isEmpty := by
  cases h <;> rfl

theorem Job.SameButMailbox.refl (job : Job) : job.SameButMailbox job := .inl rfl

theorem DiscoveryKnownProvider.configs_same (provider : DiscoveryKnownProvider)
    (email email' : String) : SameServices (provider.configs email) (provider.configs email') := by
  have hconfig : ∀ service endpoint endpoint' auth,
      SameService (providerConfig provider email service endpoint auth)
        (providerConfig provider email' service endpoint' auth) :=
    fun _ _ _ _ => ⟨rfl, rfl, rfl, rfl, rfl⟩
  cases provider with
  | google =>
    exact .cons (hconfig ..) <| .cons (hconfig ..) <| .cons (hconfig ..) <| .cons (hconfig ..) <|
      .cons (hconfig ..) <| .cons (hconfig ..) <| .cons (hconfig ..) <| .cons (hconfig ..) .nil
  | microsoft =>
    exact .cons (hconfig ..) <| .cons (hconfig ..) <| .cons (hconfig ..) <| .cons (hconfig ..) <|
      .cons (hconfig ..) <| .cons (hconfig ..) .nil

section
variable [UrlCrate]

theorem DiscoveryServiceConfig.ofAutoconfigServer_same (config : DiscoveryAutoconfig)
    (email email' : String) (source : DiscoveryConfigSource) (server : DiscoveryServer) :
    Option.Rel (fun c d => SameService c d ∧ c.isSecure = d.isSecure)
      (ofAutoconfigServer config email source server)
      (ofAutoconfigServer config email' source server) := by
  unfold ofAutoconfigServer
  cases server.hostname with
  | none => exact .none
  | some hostname =>
    simp only
    split
    · exact .none
    · have husername : (server.username.map (substitute · email)).isSome =
          (server.username.map (substitute · email')).isSome := by
        rw [Option.isSome_map, Option.isSome_map]
      refine .some ⟨⟨rfl, husername, rfl, rfl, rfl⟩, ?_⟩
      simp only [isSecure]

theorem DiscoveryComposeClientStd.keepSecure_same (client : DiscoveryComposeClientStd)
    {cs ds : List DiscoveryServiceConfig}
    (h : List.Forall₂ (fun c d => SameService c d ∧ c.isSecure = d.isSecure) cs ds) :
    SameServices (client.keepSecure cs) (client.keepSecure ds) := by
  unfold keepSecure
  split
  · have hsecure : ∀ c d, SameService c d ∧ c.isSecure = d.isSecure →
        (c.isSecure = true ↔ d.isSecure = true) := fun c d hcd => by rw [hcd.2]
    exact (List.rel_filter hsecure h).imp fun c d hcd => hcd.1
  · exact h.imp fun c d hcd => hcd.1

theorem DiscoveryServiceConfig.fromAutoconfig_same (client : DiscoveryComposeClientStd)
    (config : DiscoveryAutoconfig) (email email' : String) (source : DiscoveryConfigSource) :
    SameServices (client.keepSecure (fromAutoconfig config email source))
      (client.keepSecure (fromAutoconfig config email' source)) := by
  apply client.keepSecure_same
  refine List.rel_filterMap (R := Eq) (fun server server' hserver => ?_) (List.forall₂_eq_eq_eq ▸ rfl)
  obtain rfl := hserver
  exact ofAutoconfigServer_same config email email' source server

def SameUrls : Except String Url → Except String Url → Prop
  | .ok url, .ok url' => url.SameButQuery url'
  | .error _, .error _ => True
  | _, _ => False

namespace DiscoveryIsp

theorem mainUrl_same (hurls : QueriesApart) (localPart localPart' domain : String) (secure : Bool) :
    SameUrls (mainUrl localPart domain secure) (mainUrl localPart' domain secure) := by
  have htext : ∀ localPart, mainUrl localPart domain secure =
      UrlCrate.parse ((httpScheme secure ++ "://autoconfig." ++ Text.trimMatches domain '.' ++
        "/mail/config-v1.1.xml") ++ "?" ++
        ("emailaddress=" ++ localPart ++ "@" ++ Text.trimMatches domain '.')) := by
    intro localPart
    unfold mainUrl
    have hmark : "/mail/config-v1.1.xml?emailaddress=" =
        "/mail/config-v1.1.xml" ++ "?" ++ "emailaddress=" := by decide +kernel
    simp only [hmark, String.append_assoc]
  rw [htext, htext]
  cases hmain : UrlCrate.parse ((httpScheme secure ++ "://autoconfig." ++ Text.trimMatches domain '.' ++
      "/mail/config-v1.1.xml") ++ "?" ++
      ("emailaddress=" ++ localPart ++ "@" ++ Text.trimMatches domain '.')) with
  | ok url =>
    obtain ⟨url', hurl', hsame⟩ := hurls hmain
    rw [hurl']
    exact hsame
  | error err =>
    cases hmain' : UrlCrate.parse ((httpScheme secure ++ "://autoconfig." ++
        Text.trimMatches domain '.' ++ "/mail/config-v1.1.xml") ++ "?" ++
        ("emailaddress=" ++ localPart' ++ "@" ++ Text.trimMatches domain '.')) with
    | error err' => trivial
    | ok url' =>
      obtain ⟨url, hurl, -⟩ := hurls hmain'
      rw [hmain] at hurl
      cases hurl

theorem hostUrl_same (email email' host : String) (secure : Bool) :
    SameUrls (hostUrl email host secure) (hostUrl email' host secure) := by
  unfold hostUrl
  simp only
  cases UrlCrate.parse (httpScheme secure ++ "://" ++ Text.trimMatches host '.' ++
      "/mail/config-v1.1.xml") with
  | error err => trivial
  | ok url => rfl

omit [UrlCrate] in
theorem same_of_eq {url url' : Except String Url} (h : url = url') : SameUrls url url' := by
  obtain rfl := h
  cases url with
  | error err => trivial
  | ok url => rfl

end DiscoveryIsp

/-- An autoconfig server gives its document whatever the query is. -/
def IgnoresQueries (net : ∀ job : Job, job.Answer) : Prop :=
  ∀ url url' : Url, url.SameButQuery url' → net (.isp url) = net (.isp url')

abbrev RunAlike (net : ∀ job : Job, job.Answer) (work work' : Work (List DiscoveryServiceConfig)) :
    Prop :=
  work.Paired net Job.SameButMailbox SameServices work'

omit [UrlCrate] in
theorem RunAlike.refl (net : ∀ job : Job, job.Answer) (work : Work (List DiscoveryServiceConfig)) :
    RunAlike net work work := by
  refine (Prog.Paired.refl Job.SameButMailbox.refl work).mono ?_
  rintro configs _ rfl
  exact .refl configs

namespace DiscoveryComposeClientStd
variable (client : DiscoveryComposeClientStd) {net : ∀ job : Job, job.Answer}
  (hnet : IgnoresQueries net) (email email' : String)

section
include hnet

theorem runIsp_same {url url' : Url} (h : url.SameButQuery url') (source : DiscoveryConfigSource) :
    RunAlike net (client.runIsp url email source) (client.runIsp url' email' source) := by
  have hfetch : Prog.Paired net Job.SameButMailbox (fun a b : IspResult => a = b)
      (Work.run (.isp url)) (Work.run (.isp url')) :=
    .call (.inr ⟨url, url', rfl, rfl, h⟩) (hnet url url' h)
  refine hfetch.bind ?_
  rintro (err | config) _ rfl
  · exact .pure .nil
  · exact .pure (DiscoveryServiceConfig.fromAutoconfig_same client config email email' source)

theorem runIspAt_same {url url' : Except String Url} (h : SameUrls url url')
    (source : DiscoveryConfigSource) :
    RunAlike net (client.runIspAt url email source) (client.runIspAt url' email' source) := by
  rcases url with err | url <;> rcases url' with err' | url'
  · exact .pure .nil
  · exact h.elim
  · exact h.elim
  · exact client.runIsp_same hnet email email' h source

theorem runIspAlias_same (host : String) (source : DiscoveryConfigSource) :
    RunAlike net (client.runIspAlias host email source)
      (client.runIspAlias host email' source) := by
  refine (Prog.Paired.refl Job.SameButMailbox.refl (Work.run (.cname host))).bind ?_
  rintro (err | _ | target) _ rfl
  · exact .pure .nil
  · exact .pure .nil
  · exact client.runIspAt_same hnet email email' (DiscoveryIsp.hostUrl_same email email' target true)
      source

theorem runIspMain_same (hurls : QueriesApart) (localPart localPart' domain : String) :
    RunAlike net (client.runIspMain localPart domain email)
      (client.runIspMain localPart' domain email') := by
  have hmain := DiscoveryIsp.mainUrl_same hurls localPart localPart' domain true
  refine (client.runIspAt_same hnet email email' hmain .ispMain).bind fun configs configs' hsame => ?_
  rw [hsame.isEmpty]
  split
  · exact client.runIspAlias_same hnet email email' _ .ispMain
  · exact .pure hsame

theorem runMailconf_same (domain : String) :
    RunAlike net (client.runMailconf domain email) (client.runMailconf domain email') := by
  refine (Prog.Paired.refl Job.SameButMailbox.refl (Work.run (.mailconf domain))).bind ?_
  rintro (err | url) _ rfl
  · exact .pure .nil
  · simp only
    split
    · exact .pure .nil
    · exact client.runIsp_same hnet email email' rfl .mailconf

theorem tryBases_same (bases : List String) :
    RunAlike net (client.tryBases email bases) (client.tryBases email' bases) := by
  induction bases with
  | nil => exact .pure .nil
  | cons base bases ih =>
    unfold tryBases
    have hhost := DiscoveryIsp.hostUrl_same email email' ("autoconfig." ++ base) true
    refine (client.runIspAt_same hnet email email' hhost .mx).bind fun configs configs' hmain => ?_
    rw [hmain.isEmpty]
    split
    · exact .pure hmain
    refine (client.runIspAlias_same hnet email email' _ .mx).bind fun configs configs' halias => ?_
    rw [halias.isEmpty]
    split
    · exact .pure halias
    have hdb := DiscoveryIsp.same_of_eq (Eq.refl (DiscoveryIsp.dbUrl base true))
    refine (client.runIspAt_same hnet email email' hdb .mx).bind fun configs configs' hispdb => ?_
    rw [hispdb.isEmpty]
    split
    · exact .pure hispdb
    · exact ih

variable [PslCrate]

theorem runMxAutoconfig_same (domain : String) :
    RunAlike net (client.runMxAutoconfig domain email) (client.runMxAutoconfig domain email') := by
  refine (Prog.Paired.refl Job.SameButMailbox.refl (Work.run (.mx domain))).bind ?_
  rintro (err | records) _ rfl
  · exact .pure .nil
  · exact client.tryBases_same hnet email email' (mxBases domain records)

theorem runMechanism_same (hurls : QueriesApart) (mechanism : Mechanism)
    (localPart localPart' domain : String) :
    RunAlike net (client.runMechanism mechanism localPart domain email)
      (client.runMechanism mechanism localPart' domain email') := by
  cases mechanism with
  | mx =>
    refine (Prog.Paired.refl Job.SameButMailbox.refl (providerFromMx domain)).bind ?_
    rintro (_ | provider) _ rfl
    · exact .pure .nil
    · exact .pure (provider.configs_same email email')
  | ispMain => exact client.runIspMain_same hnet email email' hurls localPart localPart' domain
  | ispFallback =>
    exact client.runIspAt_same hnet email email' (DiscoveryIsp.same_of_eq rfl) .ispFallback
  | mailconf => exact client.runMailconf_same hnet email email' domain
  | ispdb => exact client.runIspAt_same hnet email email' (DiscoveryIsp.same_of_eq rfl) .ispdb
  | mxAutoconfig => exact client.runMxAutoconfig_same hnet email email' domain
  | pacc | srv | caldav | carddav | jmap => exact .refl net _

end

omit [UrlCrate] in
theorem plan_eq {services : Finset DiscoveryService} {plan : Plan}
    (h : Plan.of email services = .ok plan) :
    plan.providerOutput =
        (DiscoveryKnownProvider.fromDomain plan.domain).map (·.configs (Text.trim email)) ∧
      plan.mechanisms =
        Plan.mechanismsFor (DiscoveryKnownProvider.fromDomain plan.domain) services := by
  unfold Plan.of at h
  simp only at h
  split at h
  · cases h
  · obtain rfl := Except.ok.inj h
    exact ⟨rfl, rfl⟩

/-- Two mailboxes of a domain are discovered alike: each mechanism runs the same jobs for both, but for the
queries of autoconfig URLs, and reports the same services. So no resolver and no other server is told the
mailbox by a mechanism. -/
theorem mailboxes_alike [PslCrate] (hurls : QueriesApart) {services : Finset DiscoveryService}
    {plan plan' : Plan} (hplan : Plan.of email services = .ok plan)
    (hplan' : Plan.of email' services = .ok plan') (hdomain : plan.domain = plan'.domain)
    (hnet : IgnoresQueries net) :
    List.Forall₂ (fun task task' => List.Forall₂ Job.SameButMailbox
        ((client.taskBody task).asked net) ((client.taskBody task').asked net))
        (plan.tasks email) (plan'.tasks email') ∧
      List.Forall₂ SameServices (planOutputs (client.answers net) plan email)
        (planOutputs (client.answers net) plan' email') := by
  obtain ⟨hprovider, hmechanisms⟩ := plan_eq email hplan
  obtain ⟨hprovider', hmechanisms'⟩ := plan_eq email' hplan'
  rw [← hdomain] at hprovider' hmechanisms'
  have hrun : ∀ mechanism, RunAlike net
      (client.taskBody (.mechanism mechanism plan.localPart plan.domain (Text.trim email)))
      (client.taskBody (.mechanism mechanism plan'.localPart plan'.domain (Text.trim email'))) := by
    intro mechanism
    rw [← hdomain]
    exact client.runMechanism_same hnet (Text.trim email) (Text.trim email') hurls mechanism
      plan.localPart plan'.localPart plan.domain
  unfold planOutputs Plan.outputs Plan.tasks
  rw [hmechanisms, hmechanisms', List.forall₂_map_left_iff, List.forall₂_map_right_iff,
    List.forall₂_same]
  constructor
  · intro mechanism _
    exact (hrun mechanism).asked
  · apply List.rel_append
    · rw [hprovider, hprovider']
      cases DiscoveryKnownProvider.fromDomain plan.domain with
      | none => exact .nil
      | some provider => exact .cons (provider.configs_same _ _) .nil
    · simp only [List.map_map, List.forall₂_map_left_iff, List.forall₂_map_right_iff]
      rw [List.forall₂_same]
      intro mechanism _
      exact (hrun mechanism).eval

end DiscoveryComposeClientStd
end

theorem formUrl_queriesApart : @QueriesApart formUrl := by
  let _ := formUrl
  intro start text text' url hparse
  -- Whatever comes last, the first mark stays where it is.
  have hmem : '?' ∈ (start ++ "?").toList := by simp
  obtain ⟨first, rest, hchars, hfirst⟩ := List.eq_append_cons_of_mem hmem
  have hsplit : ∀ text, Text.splitOnce (start ++ "?" ++ text) '?' =
      some (String.ofList first, String.ofList rest ++ text) := by
    intro text
    have hstart : start ++ "?" ++ text =
        String.ofList first ++ String.singleton '?' ++ (String.ofList rest ++ text) := by
      apply String.toList_injective
      rw [String.toList_append, hchars]
      simp
    rw [hstart]
    exact Text.splitOnce_append (by rwa [String.toList_ofList]) _
  simp only [UrlCrate.parse, hsplit] at hparse ⊢
  cases hstart : PlainUrl.parse (String.ofList first) with
  | error err =>
    rw [hstart] at hparse
    cases hparse
  | ok parsed =>
    rw [hstart] at hparse
    cases hparse
    exact ⟨_, rfl, rfl⟩

theorem mxNet_ignoresQueries : IgnoresQueries mxNet := by
  intro url url' hsame
  have hdocument : ({ url with query := none, fragment := none } : Url) =
      { url' with query := none, fragment := none } := hsame
  have hhost : url.host = url'.host := (Url.mk.inj hdocument).2.2.2.1
  simp only [mxNet, hhost]

def examplePlan (localPart : String) : Plan where
  providerOutput := none
  localPart := localPart
  domain := "example.org"
  mechanisms := Plan.mechanismsFor none {.imap}

theorem mailboxes_alike_mx :
    letI := formUrl
    letI := plainPsl
    let client := DiscoveryComposeClientStd.new exampleResolver
    List.Forall₂ (fun task task' => List.Forall₂ Job.SameButMailbox
        ((client.taskBody task).asked mxNet) ((client.taskBody task').asked mxNet))
        ((examplePlan "alice").tasks "alice@example.org")
        ((examplePlan "bob").tasks "bob@example.org") ∧
      List.Forall₂ SameServices
        (DiscoveryComposeClientStd.planOutputs (client.answers mxNet) (examplePlan "alice")
          "alice@example.org")
        (DiscoveryComposeClientStd.planOutputs (client.answers mxNet) (examplePlan "bob")
          "bob@example.org") := by
  let _ := formUrl
  let _ := plainPsl
  have halice : Plan.of "alice@example.org" {.imap} = .ok (examplePlan "alice") := by decide +kernel
  have hbob : Plan.of "bob@example.org" {.imap} = .ok (examplePlan "bob") := by decide +kernel
  exact DiscoveryComposeClientStd.mailboxes_alike (.new exampleResolver) _ _ formUrl_queriesApart
    halice hbob rfl mxNet_ignoresQueries

end PimDiscovery
