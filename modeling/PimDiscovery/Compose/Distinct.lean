import Mathlib.Data.List.Pairwise
import PimDiscovery.Compose.Guarded
import PimDiscovery.Compose.OauthPass
import PimDiscovery.Compose.Resolved

/-! Which compositions list a method twice: those that read a repeated scheme off a JMAP session or an
authentication probe, and those that give a config two issuers of a common grant. -/

namespace PimDiscovery
open Interaction

namespace DiscoveryComposeClientStd
open DiscoveryServiceConfig

/-- A method of a config before its OAuth pass: a grant carries a scope of its own and is not bound, and
an issuer is the given one. -/
def Early (named : Option String) : DiscoveryAuthMethod → Prop
  | .password | .bearer => True
  | .oauthAuthorizationCodeGrant _ _ scope resource scopes
  | .oauthDeviceAuthorizationGrant _ _ scope resource scopes =>
    scope ≠ none ∧ resource = none ∧ scopes = []
  | .oauthIssuer issuer => named = some issuer

structure Distinct (named : Option String) (config : DiscoveryServiceConfig) : Prop where
  nodup : config.auth.Nodup
  early : ∀ method ∈ config.auth, Early named method

theorem Early.of_plain {named : Option String} {method : DiscoveryAuthMethod}
    (h : isOauth method = false) : Early named method := by
  cases method with
  | password | bearer => trivial
  | oauthAuthorizationCodeGrant | oauthDeviceAuthorizationGrant | oauthIssuer => exact nomatch h

theorem Early.weaken {named : Option String} {method : DiscoveryAuthMethod}
    (h : Early none method) : Early named method := by
  cases method with
  | oauthIssuer => exact nomatch h
  | password | bearer => trivial
  | oauthAuthorizationCodeGrant | oauthDeviceAuthorizationGrant => exact h

theorem Distinct.weaken {named : Option String} {config : DiscoveryServiceConfig}
    (h : Distinct none config) : Distinct named config :=
  ⟨h.nodup, fun method hmethod => (h.early method hmethod).weaken⟩

theorem Distinct.congr {named : Option String} {c d : DiscoveryServiceConfig} (h : Distinct named c)
    (hauth : d.auth = c.auth) : Distinct named d := by
  refine ⟨?_, ?_⟩
  · rw [hauth]
    exact h.nodup
  · rw [hauth]
    exact h.early

theorem refineAuth_distinct {named : Option String} {config : DiscoveryServiceConfig}
    (h : Distinct named config) {schemes : List String} (hschemes : (schemeMethods schemes).Nodup) :
    Distinct named (config.refineAuth schemes) := by
  by_cases hnil : schemeMethods schemes = []
  · rwa [refineAuth_of_eq_nil config hnil]
  · rw [refineAuth_of_ne_nil config hnil]
    refine ⟨?_, fun method hmethod => ?_⟩
    · rw [List.nodup_append']
      refine ⟨hschemes, nodup_eraseDups _, fun method hscheme hoauth => ?_⟩
      rw [mem_oauthMethods, schemeMethods_plain hscheme] at hoauth
      cases hoauth.2
    · rcases List.mem_append.mp hmethod with hscheme | hoauth
      · exact .of_plain (schemeMethods_plain hscheme)
      · exact h.early method (mem_oauthMethods.mp hoauth).1

theorem merge_distinct [UrlCrate] {named : Option String} {c d : DiscoveryServiceConfig}
    (hc : Distinct named c) (hd : Distinct named d) :
    Distinct named (DiscoveryConfigCollector.merge c d) := by
  have hauth := DiscoveryConfigCollector.merge_auth c d
  refine ⟨?_, fun method hmethod => ?_⟩
  · rw [hauth]
    exact foldl_pushMethod_nodup hc.nodup _
  · rw [hauth, mem_foldl_pushMethod] at hmethod
    exact hmethod.elim (hc.early method) (hd.early method)

/-! What the conversions give. -/

theorem fromAutoconfig_distinct (config : DiscoveryAutoconfig) (email : String)
    (source : DiscoveryConfigSource) :
    Reported (Distinct none) (DiscoveryServiceConfig.fromAutoconfig config email source) := by
  intro c hc
  obtain ⟨server, -, -, -, hauth⟩ := mem_fromAutoconfig hc
  refine ⟨?_, fun method hmethod => ?_⟩
  · rw [hauth]
    exact foldl_pushMethod_nodup List.nodup_nil _
  · rw [hauth, mem_foldl_pushMethod] at hmethod
    obtain ⟨kind, -, hkind⟩ := List.mem_filterMap.mp (hmethod.resolve_left List.not_mem_nil)
    cases kind with
    | oAuth2 =>
      obtain ⟨oauth, -, rfl⟩ := Option.map_eq_some_iff.mp hkind
      exact ⟨nofun, rfl, rfl⟩
    | passwordCleartext | passwordEncrypted => exact Option.some.inj hkind ▸ trivial
    | _ => exact nomatch hkind

theorem fromSrv_distinct (report : DiscoverySrvReport) :
    Reported (Distinct none) (DiscoveryServiceConfig.fromSrv report) := by
  intro c hc
  obtain ⟨-, -, -, hauth, -⟩ := mem_fromSrv hc
  refine ⟨?_, ?_⟩
  · rw [hauth]
    exact List.nodup_singleton _
  · rw [hauth, List.forall_mem_singleton]
    trivial

theorem provider_distinct (provider : DiscoveryKnownProvider) (email : String) :
    Reported (Distinct none) (provider.configs email) := by
  intro c hc
  cases provider with
  | google =>
    simp only [DiscoveryKnownProvider.configs, googleConfigs, List.mem_cons, List.not_mem_nil,
      or_false] at hc
    obtain rfl | rfl | rfl | rfl | rfl | rfl | rfl | rfl := hc <;>
      exact ⟨by simp [providerConfig, googleOauth], by simp [providerConfig, googleOauth, Early]⟩
  | microsoft =>
    simp only [DiscoveryKnownProvider.configs, microsoftConfigs, List.mem_cons, List.not_mem_nil,
      or_false] at hc
    obtain rfl | rfl | rfl | rfl | rfl | rfl := hc <;>
      exact ⟨by simp [providerConfig, microsoftAuth], by simp [providerConfig, microsoftAuth, Early]⟩

theorem fromPacc_distinct (config : DiscoveryPaccConfig) :
    Reported (Distinct (config.authentication.oauthPublic.map (·.issuer)))
      (DiscoveryServiceConfig.fromPacc config) := by
  intro c hc
  obtain ⟨-, -, hauth⟩ := mem_fromPacc hc
  refine ⟨?_, fun method hmethod => ?_⟩
  · rw [hauth]
    cases config.authentication.oauthPublic <;> split <;> simp
  · rw [hauth] at hmethod
    cases hoauth : config.authentication.oauthPublic with
    | none =>
      rw [hoauth] at hmethod
      split at hmethod
      · exact List.mem_singleton.mp hmethod ▸ trivial
      · exact nomatch hmethod
    | some oauth =>
      rw [hoauth] at hmethod
      rcases List.mem_append.mp hmethod with hmethod | hmethod
      · exact List.mem_singleton.mp hmethod ▸ rfl
      · split at hmethod
        · exact List.mem_singleton.mp hmethod ▸ trivial
        · exact nomatch hmethod

/-- No JMAP session and no authentication probe of a run names `basic` twice, or `bearer`. -/
structure Unrepeated (jobs : ∀ job : Job, job.Answer → Prop) : Prop where
  session : ∀ domain session, jobs (.jmap domain) (.ok session) →
    (schemeMethods session.authSchemes).Nodup
  probe : ∀ url schemes, jobs (.auth url) (.ok schemes) → (schemeMethods schemes).Nodup

section
variable [UrlCrate] {client : DiscoveryComposeClientStd} {jobs : ∀ job : Job, job.Answer → Prop}
  (h : Unrepeated jobs)
include h

omit [UrlCrate] in
theorem Unrepeated.probeSchemes (urls : List Url) :
    (probeSchemes urls).Always (fun _ => True) jobs fun result =>
      ∀ schemes, result = some schemes → (schemeMethods schemes).Nodup := by
  induction urls with
  | nil => exact fun _ => nofun
  | cons url urls ih =>
    refine Prog.Always.bind (.call trivial) fun answer hanswer => ?_
    cases answer with
    | error err => exact ih
    | ok found =>
      simp only
      split
      · intro schemes hschemes
        obtain rfl := Option.some.inj hschemes
        exact h.probe url _ hanswer
      · exact ih

variable [PslCrate]

theorem Unrepeated.mechanism (mechanism : Mechanism) (localPart domain email : String) :
    (client.runMechanism mechanism localPart domain email).Always (fun _ => True) jobs fun configs =>
      ∃ named, (mechanism ≠ .pacc → named = none) ∧ Reported (Distinct named) configs := by
  have hnone : ∀ {work : Work (List DiscoveryServiceConfig)} {mechanism : Mechanism},
      work.Always (fun _ => True) jobs (Reported (Distinct none)) →
      work.Always (fun _ => True) jobs fun configs =>
        ∃ named, (mechanism ≠ .pacc → named = none) ∧ Reported (Distinct named) configs :=
    fun hwork => hwork.mono fun _ hconfigs => ⟨none, fun _ => rfl, hconfigs⟩
  have hauto : client.Autoconfigures (fun _ => True) jobs (Distinct none) email :=
    -- The autoconfig runners repeat no method, whatever they are answered.
    { mx := fun _ => trivial, cname := fun _ => trivial, mailconf := fun _ => trivial
      built := fun _ _ _ _ => trivial, followed := fun _ _ _ _ => trivial
      document := fun url document _ source =>
        client.keepSecure_reported (fromAutoconfig_distinct document email source) }
  have hdav : ∀ service, (client.runDav domain service).Always (fun _ => True) jobs
      (Reported (Distinct none)) := by
    intro service
    refine runDav_always trivial fun root _ => client.keepSecure_reported fun config hconfig => ?_
    obtain rfl := List.mem_singleton.mp hconfig
    exact ⟨List.nodup_singleton _, List.forall_mem_singleton.mpr trivial⟩
  cases mechanism with
  | mx => exact hnone (runMx_always trivial fun provider => provider_distinct provider email)
  | pacc =>
    refine Prog.Always.bind (.call trivial) fun answer _ => ?_
    cases answer with
    | error err => exact ⟨none, fun _ => rfl, .nil⟩
    | ok document =>
      -- Only a PACC document names an issuer of its own.
      refine ⟨_, fun hne => absurd rfl hne, client.keepSecure_reported (fromPacc_distinct document)⟩
  | ispMain => exact hnone (hauto.runIspMain _ _)
  | ispFallback => exact hnone (hauto.runIspFallback _)
  | mailconf => exact hnone (hauto.runMailconf _)
  | ispdb => exact hnone (hauto.runIspdb _)
  | mxAutoconfig => exact hnone (hauto.runMxAutoconfig _)
  | srv => exact hnone (runSrv_always trivial fun report _ => fromSrv_distinct report)
  | caldav => exact hnone (hdav .caldav)
  | carddav => exact hnone (hdav .carddav)
  | jmap =>
    refine hnone (runJmap_always trivial fun session hsession => ?_)
    refine client.keepSecure_reported fun config hconfig => ?_
    obtain rfl := List.mem_singleton.mp hconfig
    exact ⟨h.session domain session hsession, fun method hmethod =>
      .of_plain (schemeMethods_plain hmethod)⟩

theorem Unrepeated.maintained (named : Option String) : client.Maintained jobs (Distinct named) where
  root _ _ _ _ _ hconfig := hconfig.congr rfl
  merge _ _ _ hc hd := merge_distinct hc hd
  probed config schemes hproduces hconfig :=
    refineAuth_distinct hconfig ((h.probeSchemes config.probeUrls).returns hproduces schemes rfl)

/-- The reports of one fan-out name one issuer at most: the plan has one place for PACC. -/
theorem Unrepeated.reports {localPart domain email : String} {mechanisms : List Mechanism}
    (hmechanisms : mechanisms.Nodup) {reports : List (Option (List DiscoveryServiceConfig))}
    (hreports : client.Answered jobs
      (mechanisms.map fun mechanism => Task.mechanism mechanism localPart domain email) reports) :
    ∃ named, (.pacc ∉ mechanisms → named = none) ∧
      ∀ report ∈ reports, Reported (Distinct named) (report.getD []) := by
  unfold Answered at hreports
  rw [List.forall₂_map_left_iff] at hreports
  induction hreports with
  | nil => exact ⟨none, fun _ => rfl, List.forall_mem_nil _⟩
  | cons hhead htail ih =>
    rename_i mechanism report mechanisms reports
    obtain ⟨hnew, hmechanisms⟩ := List.nodup_cons.mp hmechanisms
    obtain ⟨rest, hrest, hreports⟩ := ih hmechanisms
    have hfirst : ∃ named, (mechanism ≠ .pacc → named = none) ∧
        Reported (Distinct named) (report.getD []) := by
      cases report with
      | none => exact ⟨none, fun _ => rfl, .nil⟩
      | some configs =>
        exact (h.mechanism mechanism localPart domain email).returns (hhead configs rfl)
    obtain ⟨named, hnamed, hreport⟩ := hfirst
    by_cases hpacc : mechanism = .pacc
    · have hrest : rest = none := hrest (hpacc ▸ hnew)
      refine ⟨named, fun hout => absurd (by simp [hpacc]) hout, List.forall_mem_cons.mpr ⟨hreport, ?_⟩⟩
      intro report hmem config hconfig
      exact (hrest ▸ hreports report hmem config hconfig).weaken
    · have hnamed : named = none := hnamed hpacc
      refine ⟨rest, fun hout => hrest fun hmem => hout (by simp [hmem]),
        List.forall_mem_cons.mpr ⟨?_, hreports⟩⟩
      intro config hconfig
      exact (hnamed ▸ hreport config hconfig).weaken

/-- Before its OAuth pass, a composition lists no method twice, and names one issuer at most. -/
theorem Unrepeated.prepared {email : String} {services : Finset DiscoveryService}
    {reduced : List DiscoveryServiceConfig} (hprepared : client.Prepared jobs email services reduced) :
    ∃ named, ∀ config ∈ reduced, Distinct named config := by
  obtain ⟨plan, reports, rootOf, hplan, hreports, hroots, hreduced⟩ := hprepared
  obtain ⟨named, -, hreported⟩ := h.reports (Plan.mechanisms_nodup hplan) hreports
  refine ⟨named, (h.maintained named).reduced ?_ hroots hreduced⟩
  intro output houtput config hconfig
  rcases List.mem_append.mp houtput with houtput | houtput
  · obtain ⟨provider, rfl⟩ := providerOutput_eq hplan (Option.mem_toList.mp houtput)
    exact (provider_distinct provider _ config hconfig).weaken
  · obtain ⟨report, hreport, rfl⟩ := List.mem_map.mp houtput
    exact hreported report hreport config hconfig

end

/-! The OAuth pass. -/

def Fresh : DiscoveryAuthMethod → Prop
  | .oauthAuthorizationCodeGrant _ _ scope _ _ | .oauthDeviceAuthorizationGrant _ _ scope _ _ =>
    scope = none
  | .password | .bearer | .oauthIssuer _ => False

theorem Early.not_fresh {named : Option String} {method : DiscoveryAuthMethod}
    (h : Early named method) : ¬ Fresh method := by
  cases method with
  | password | bearer | oauthIssuer => exact id
  | oauthAuthorizationCodeGrant | oauthDeviceAuthorizationGrant => exact h.1

section
variable [UrlCrate]

theorem issuerMethods_fresh (metadata : DiscoveryOauthServerMetadata) :
    ∀ method ∈ issuerMethods metadata, Fresh method := by
  unfold issuerMethods
  intro method hmethod
  rcases List.mem_append.mp hmethod with hmethod | hmethod
  · split at hmethod
    · exact List.mem_singleton.mp hmethod ▸ rfl
    · exact nomatch hmethod
  · split at hmethod
    · exact List.mem_singleton.mp hmethod ▸ rfl
    · exact nomatch hmethod

def bindTo (resource : Option DiscoveryOauthResourceMetadata) (method : DiscoveryAuthMethod) :
    DiscoveryAuthMethod :=
  match resource with
  | some resource => bindResource (UrlCrate.asStr resource.resource) resource.scopesSupported method
  | none => method

theorem bindTo_issuer (resource : Option DiscoveryOauthResourceMetadata) (issuer : String) :
    bindTo resource (.oauthIssuer issuer) = .oauthIssuer issuer := by
  cases resource <;> rfl

theorem fresh_bindTo (resource : Option DiscoveryOauthResourceMetadata)
    (method : DiscoveryAuthMethod) : Fresh (bindTo resource method) ↔ Fresh method := by
  cases resource <;> cases method <;> exact Iff.rfl

theorem bindTo_early {named : Option String} {resource : Option DiscoveryOauthResourceMetadata}
    {a b : DiscoveryAuthMethod} (ha : Early named a) (hb : Early named b)
    (h : bindTo resource a = bindTo resource b) : a = b := by
  cases resource with
  | none => exact h
  | some resource =>
    cases a <;> cases b <;> simp_all [bindTo, bindResource, Early]

def serverMethods (serverOf : String → Option DiscoveryOauthServerMetadata) (issuer : String) :
    Option (List DiscoveryAuthMethod) :=
  (serverOf issuer).map issuerMethods

variable {resource : Option DiscoveryOauthResourceMetadata}
  {serverOf : String → Option DiscoveryOauthServerMetadata}

def settled (resource : Option DiscoveryOauthResourceMetadata)
    (serverOf : String → Option DiscoveryOauthServerMetadata) (method : DiscoveryAuthMethod) :
    List DiscoveryAuthMethod :=
  (resolveMethod (serverMethods serverOf) method).map (bindTo resource)

theorem oauthAuth_settled (auth : List DiscoveryAuthMethod) :
    oauthAuth resource (serverMethods serverOf) auth =
      (namedAuth resource auth).flatMap (settled resource serverOf) := by
  have hmap : ∀ methods : List DiscoveryAuthMethod, methods.flatMap (settled resource serverOf) =
      (methods.flatMap (resolveMethod (serverMethods serverOf))).map (bindTo resource) := by
    intro methods
    rw [List.map_flatMap]
    rfl
  rw [hmap]
  cases resource with
  | none => exact (List.map_id _).symm
  | some resource => rfl

theorem settled_of_ne {method : DiscoveryAuthMethod} (h : ∀ issuer, method ≠ .oauthIssuer issuer) :
    settled resource serverOf method = [bindTo resource method] := by
  cases method with
  | oauthIssuer issuer => exact absurd rfl (h issuer)
  | _ => rfl

theorem mem_settled_issuer {issuer : String} {found : DiscoveryAuthMethod}
    (h : found ∈ settled resource serverOf (.oauthIssuer issuer)) :
    (found = .oauthIssuer issuer ∧ serverOf issuer = none) ∨
      Fresh found ∧ ∃ metadata, serverOf issuer = some metadata ∧
        found ∈ (issuerMethods metadata).map (bindTo resource) := by
  unfold settled resolveMethod serverMethods at h
  simp only at h
  cases hserver : serverOf issuer with
  | none =>
    rw [hserver] at h
    refine .inl ⟨?_, rfl⟩
    have hbare := List.mem_singleton.mp h
    rw [hbare, bindTo_issuer]
  | some metadata =>
    rw [hserver] at h
    refine .inr ⟨?_, metadata, rfl, h⟩
    obtain ⟨method, hmethod, rfl⟩ := List.mem_map.mp h
    exact (fresh_bindTo resource method).mpr (issuerMethods_fresh metadata method hmethod)

theorem settled_nodup (method : DiscoveryAuthMethod) : (settled resource serverOf method).Nodup := by
  cases method with
  | oauthIssuer issuer =>
    unfold settled resolveMethod serverMethods
    simp only
    cases serverOf issuer with
    | none => exact List.nodup_singleton _
    | some metadata =>
      simp only [Option.map_some]
      unfold issuerMethods
      cases resource <;> split <;> split <;> simp [bindTo, bindResource]
  | _ => exact List.nodup_singleton _

/-- A config without OAuth is given two authorization servers, by the metadata of its endpoint, whose
metadata give a common grant. -/
def Overlaps (resource : DiscoveryOauthResourceMetadata)
    (serverOf : String → Option DiscoveryOauthServerMetadata) (auth : List DiscoveryAuthMethod) :
    Prop :=
  auth.any isOauth = false ∧ ∃ s ∈ resource.authorizationServers, ∃ t ∈ resource.authorizationServers,
    UrlCrate.asStr s ≠ UrlCrate.asStr t ∧ ∃ m n, serverOf (UrlCrate.asStr s) = some m ∧
      serverOf (UrlCrate.asStr t) = some n ∧ ∃ grant ∈ (issuerMethods m).map (bindTo (some resource)),
        grant ∈ (issuerMethods n).map (bindTo (some resource))

theorem namedAuth_nodup {auth : List DiscoveryAuthMethod} (h : auth.Nodup) :
    (namedAuth resource auth).Nodup := by
  cases resource with
  | none => exact h
  | some resource =>
    let config : DiscoveryServiceConfig :=
      { service := .jmap, endpoint := .http "", username := none, auth, source := .jmap
        resolved := false }
    rw [← addResourceIssuers_auth config resource]
    unfold addResourceIssuers
    split
    · exact h
    · rw [← List.foldl_map (f := DiscoveryAuthMethod.oauthIssuer) (g := pushMethod)]
      exact foldl_pushMethod_nodup h _

theorem issuer_mem_namedAuth {named : Option String} {auth : List DiscoveryAuthMethod}
    (hearly : ∀ method ∈ auth, Early named method) {issuer : String}
    (h : .oauthIssuer issuer ∈ namedAuth resource auth) :
    (auth.any isOauth = true ∧ named = some issuer) ∨ auth.any isOauth = false ∧
      ∃ metadata, resource = some metadata ∧
        ∃ server ∈ metadata.authorizationServers, issuer = UrlCrate.asStr server := by
  have hown : .oauthIssuer issuer ∈ auth → auth.any isOauth = true ∧ named = some issuer :=
    fun hmem => ⟨List.any_eq_true.mpr ⟨_, hmem, rfl⟩, hearly _ hmem⟩
  unfold namedAuth at h
  cases resource with
  | none => exact .inl (hown h)
  | some metadata =>
    simp only at h
    cases hany : auth.any isOauth with
    | true =>
      rw [hany] at h
      exact .inl ⟨rfl, (hown h).2⟩
    | false =>
      simp only [hany, Bool.false_eq_true, if_false] at h
      rcases List.mem_append.mp h with hmem | hmem
      · rw [(hown hmem).1] at hany
        exact nomatch hany
      · obtain ⟨server, hserver, hissuer⟩ := mem_namedIssuers.mp hmem
        exact .inr ⟨rfl, metadata, rfl, server, hserver, DiscoveryAuthMethod.oauthIssuer.inj hissuer⟩

theorem mem_namedAuth {named : Option String} {auth : List DiscoveryAuthMethod}
    (hearly : ∀ method ∈ auth, Early named method) {method : DiscoveryAuthMethod}
    (h : method ∈ namedAuth resource auth) :
    (∃ issuer, method = .oauthIssuer issuer) ∨
      (∀ issuer, method ≠ .oauthIssuer issuer) ∧ Early named method := by
  by_cases hissuer : ∃ issuer, method = .oauthIssuer issuer
  · exact .inl hissuer
  · refine .inr ⟨fun issuer heq => hissuer ⟨issuer, heq⟩, ?_⟩
    unfold namedAuth at h
    cases resource with
    | none => exact hearly method h
    | some metadata =>
      simp only at h
      split at h
      · exact hearly method h
      · rcases List.mem_append.mp h with hmem | hmem
        · exact hearly method hmem
        · obtain ⟨server, -, rfl⟩ := mem_namedIssuers.mp hmem
          exact absurd ⟨_, rfl⟩ hissuer

/-- The pass lists a method twice exactly when two servers it names have a common grant. -/
theorem oauthAuth_nodup_iff {named : Option String} {auth : List DiscoveryAuthMethod}
    (hnodup : auth.Nodup) (hearly : ∀ method ∈ auth, Early named method) :
    (oauthAuth resource (serverMethods serverOf) auth).Nodup ↔
      ∀ metadata, resource = some metadata → ¬ Overlaps metadata serverOf auth := by
  -- A method that names no issuer settles to itself, and no issuer grants it.
  have hdisjoint : ∀ {a b}, a ∈ namedAuth resource auth → (∀ issuer, a ≠ .oauthIssuer issuer) ∧
      Early named a → b ∈ namedAuth resource auth → a ≠ b →
      List.Disjoint (settled resource serverOf a) (settled resource serverOf b) := by
    intro a b _ ⟨hissuer, ha⟩ hb hne found hfound hfound'
    rw [settled_of_ne hissuer, List.mem_singleton] at hfound
    subst hfound
    rcases mem_namedAuth hearly hb with ⟨issuer, rfl⟩ | ⟨hissuer', hb⟩
    · rcases mem_settled_issuer hfound' with ⟨hfound, -⟩ | ⟨hfresh, -⟩
      · rw [← bindTo_issuer resource issuer] at hfound
        cases resource <;> cases a <;> simp_all [bindTo, bindResource]
      · exact ha.not_fresh ((fresh_bindTo resource a).mp hfresh)
    · rw [settled_of_ne hissuer', List.mem_singleton] at hfound'
      exact hne (bindTo_early ha hb hfound')
  rw [oauthAuth_settled, List.nodup_flatMap]
  constructor
  · rintro ⟨-, hpairwise⟩ metadata rfl ⟨hany, s, hs, t, ht, hne, m, n, hm, hn, grant, hgrant, hgrant'⟩
    have hmem : ∀ server ∈ metadata.authorizationServers,
        .oauthIssuer (UrlCrate.asStr server) ∈ namedAuth (some metadata) auth := by
      intro server hserver
      simp only [namedAuth, hany, Bool.false_eq_true, if_false]
      exact List.mem_append_right _ (mem_namedIssuers.mpr ⟨server, hserver, rfl⟩)
    have hgiven : ∀ {server metadata' found}, serverOf (UrlCrate.asStr server) = some metadata' →
        found ∈ (issuerMethods metadata').map (bindTo (some metadata)) →
        found ∈ settled (some metadata) serverOf (.oauthIssuer (UrlCrate.asStr server)) := by
      intro server metadata' found hserver hfound
      simpa only [settled, resolveMethod, serverMethods, hserver, Option.map_some] using hfound
    have hsymm : Std.Symm (Function.onFun List.Disjoint (settled (some metadata) serverOf)) :=
      ⟨fun _ _ h => h.symm⟩
    -- Two servers that share a grant put it twice: the list has no repetition only without.
    refine hpairwise.forall (hmem s hs) (hmem t ht) (fun heq => ?_) (hgiven hm hgrant)
      (hgiven hn hgrant')
    exact hne (DiscoveryAuthMethod.oauthIssuer.inj heq)
  · intro hoverlaps
    refine ⟨fun method _ => settled_nodup method, ?_⟩
    apply (namedAuth_nodup hnodup).pairwise_of_forall_ne
    intro a ha b hb hne
    rcases mem_namedAuth hearly ha with ⟨i, rfl⟩ | hplain
    · rcases mem_namedAuth hearly hb with ⟨j, rfl⟩ | hplain
      · have hij : i ≠ j := fun heq => hne (congrArg _ heq)
        intro found hfound hfound'
        -- Two issuers that settle to one method both grant it; the resource then names both.
        rcases mem_settled_issuer hfound with ⟨rfl, -⟩ | ⟨hfresh, m, hm, hgrant⟩
        · rcases mem_settled_issuer hfound' with ⟨heq, -⟩ | ⟨hfresh, -⟩
          · exact hne heq
          · exact hfresh
        · rcases mem_settled_issuer hfound' with ⟨rfl, -⟩ | ⟨-, n, hn, hgrant'⟩
          · exact hfresh
          · rcases issuer_mem_namedAuth hearly ha with ⟨hany, hi⟩ | ⟨hany, metadata, hmetadata, s, hs, rfl⟩
            · rcases issuer_mem_namedAuth hearly hb with ⟨-, hj⟩ | ⟨hnone, -⟩
              · exact hij (Option.some.inj (hi.symm.trans hj))
              · rw [hany] at hnone
                cases hnone
            · rcases issuer_mem_namedAuth hearly hb with ⟨hsome, -⟩ | ⟨-, metadata', hmetadata', t, ht, rfl⟩
              · rw [hany] at hsome
                cases hsome
              · subst hmetadata
                obtain rfl := Option.some.inj hmetadata'
                exact hoverlaps metadata rfl
                  ⟨hany, s, hs, t, ht, hij, m, n, hm, hn, found, hgrant, hgrant'⟩
      · exact (hdisjoint hb hplain ha (Ne.symm hne)).symm
    · exact hdisjoint ha hplain hb hne

end

section
variable [UrlCrate] [PslCrate] {client : DiscoveryComposeClientStd}
  {jobs : ∀ job : Job, job.Answer → Prop}

omit [UrlCrate] [PslCrate] in
theorem resolveMethod_issuer (methodsOf : String → Option (List DiscoveryAuthMethod))
    (issuer : String) :
    resolveMethod methodsOf (.oauthIssuer issuer) = (methodsOf issuer).getD [.oauthIssuer issuer] := by
  rw [resolveMethod]
  cases methodsOf issuer <;> rfl

theorem Fetched.servers {resourceOf : String → Option DiscoveryOauthResourceMetadata}
    {methodsOf : String → Option (List DiscoveryAuthMethod)}
    (h : client.Fetched jobs resourceOf methodsOf) : ∃ serverOf,
      (∀ issuer metadata, serverOf issuer = some metadata →
        ∃ url, UrlCrate.parse issuer = .ok url ∧ Publishes jobs url metadata) ∧
      resolveMethod methodsOf = resolveMethod (serverMethods serverOf) := by
  have hserver : ∀ issuer, ∃ server : Option DiscoveryOauthServerMetadata,
      (∀ metadata, server = some metadata →
        ∃ url, UrlCrate.parse issuer = .ok url ∧ Publishes jobs url metadata) ∧
      (methodsOf issuer).getD [.oauthIssuer issuer] =
        (server.map issuerMethods).getD [.oauthIssuer issuer] := by
    intro issuer
    cases hmethods : methodsOf issuer with
    | none => exact ⟨none, fun _ => nofun, rfl⟩
    | some methods =>
      obtain ⟨url, metadata, hparse, hpublishes, rfl⟩ | ⟨rfl, -⟩ := h.issuer_methods hmethods
      · cases hempty : (issuerMethods metadata).isEmpty with
        | true => exact ⟨none, fun _ => nofun, rfl⟩
        | false =>
          refine ⟨some metadata, fun found hfound => ?_, rfl⟩
          obtain rfl := Option.some.inj hfound
          exact ⟨url, hparse, hpublishes⟩
      · exact ⟨none, fun _ => nofun, rfl⟩
  choose serverOf hpublishes hmethods using hserver
  refine ⟨serverOf, hpublishes, ?_⟩
  funext method
  cases method with
  | oauthIssuer issuer =>
    rw [resolveMethod_issuer, resolveMethod_issuer]
    exact hmethods issuer
  | _ => rfl

/-- In a run whose JMAP sessions and authentication probes repeat no scheme, the configs before the
OAuth pass list no method twice, and those after it none exactly when the pass gives no config two
servers of a common grant. -/
theorem composes_nodup_iff {email : String} {services : Finset DiscoveryService} {entry : ConfigEntry}
    (hentry : entry.Composes email services) (hjobs : Unrepeated jobs)
    {configs : List DiscoveryServiceConfig}
    (hrun : (entry.program client).Returns (client.Backed jobs) (.ok configs)) :
    ∃ reduced resourceOf serverOf, client.Prepared jobs email services reduced ∧
      (∀ raw metadata, resourceOf raw = some metadata → ∃ url, UrlCrate.parse raw = .ok url ∧
        jobs (.oauthResource (DiscoveryOauthResourceMetadata.wellKnownUrl url)) (.ok metadata)) ∧
      (∀ issuer metadata, serverOf issuer = some metadata → ∃ url, UrlCrate.parse issuer = .ok url ∧
        Publishes jobs url metadata) ∧
      configs = reduced.map (fun config =>
        { config with
          auth := oauthAuth ((httpEndpoint config).bind resourceOf) (serverMethods serverOf)
            config.auth }) ∧
      (∀ config ∈ reduced, config.auth.Nodup) ∧
      ((∀ config ∈ configs, config.auth.Nodup) ↔ ∀ config ∈ reduced, ∀ metadata,
        (httpEndpoint config).bind resourceOf = some metadata →
          ¬ Overlaps metadata serverOf config.auth) := by
  obtain ⟨reduced, resourceOf, methodsOf, hprepared, hfetched, rfl⟩ :=
    (composes_backed hentry).returns hrun configs rfl
  obtain ⟨named, hdistinct⟩ := hjobs.prepared hprepared
  obtain ⟨serverOf, hservers, hmethods⟩ := hfetched.servers
  have hpass : ∀ config, bindResources resourceOf (setIssuers methodsOf (addIssuers resourceOf config)) =
      { config with
        auth := oauthAuth ((httpEndpoint config).bind resourceOf) (serverMethods serverOf)
          config.auth } := by
    intro config
    rw [passes_eq]
    simp only [oauthAuth, hmethods]
  have hconfigs := List.map_congr_left (l := reduced) fun config _ => hpass config
  refine ⟨reduced, resourceOf, serverOf, hprepared, fun _ _ => hfetched.answered, hservers, hconfigs,
    fun config hconfig => (hdistinct config hconfig).nodup, ?_⟩
  rw [hconfigs, List.forall_mem_map]
  refine forall_congr' fun config => forall_congr' fun hconfig => ?_
  exact oauthAuth_nodup_iff (hdistinct config hconfig).nodup (hdistinct config hconfig).early

end

theorem composes_nodup_iff_caldav :
    letI := plainUrl
    letI := plainPsl
    let client := DiscoveryComposeClientStd.new exampleResolver
    ∃ reduced, client.Prepared (fun job answer => answer = calendarNet job) "user@example.org"
        {.caldav} reduced ∧ reduced ≠ [] ∧ ∀ config ∈ reduced, config.auth.Nodup := by
  let _ := plainUrl
  let _ := plainPsl
  let client := DiscoveryComposeClientStd.new exampleResolver
  let configs : List DiscoveryServiceConfig :=
    [{ service := .caldav, endpoint := .http "https://example.org/dav/", username := none
       auth := [.password], source := .pacc, resolved := true }]
  have heval : (client.composeAll "user@example.org" {.caldav}).eval (client.answers calendarNet) =
      .ok configs := by
    rw [eval_composeAll (reports_answers client _)]
    decide +kernel
  have hrun : (client.composeAll "user@example.org" {.caldav}).Returns
      (client.Backed fun job answer => answer = calendarNet job) (.ok configs) := by
    rw [← heval]
    apply Prog.returns_eval
    apply backed_answers
    exact fun job => rfl
  have hjobs : Unrepeated fun job answer => answer = calendarNet job := by
    refine ⟨fun domain session => nofun, fun url schemes hschemes => ?_⟩
    rw [Except.ok.inj hschemes]
    decide
  have hentry : (ConfigEntry.composeAll "user@example.org" {.caldav}).Composes
      "user@example.org" {.caldav} := ⟨rfl, rfl⟩
  obtain ⟨reduced, resourceOf, serverOf, hprepared, -, -, hconfigs, hnodup, -⟩ :=
    composes_nodup_iff hentry hjobs hrun
  refine ⟨reduced, hprepared, ?_, hnodup⟩
  rintro rfl
  exact nomatch hconfigs

end DiscoveryComposeClientStd

def repeatingNetwork : Network
  | .dns _ _ _ => .ok [0, 1, 129, 128, 0, 0, 0, 0, 0, 0, 0, 0]
  | .hop _ _ _ => .ok
      { redirectUrl := none
        response :=
          { status := 401
            headers := [("www-authenticate", "Basic realm=\"mail\""),
              ("www-authenticate", "Basic realm=\"files\"")]
            body := [] } }
  | .send _ => .failed "unexpected EOF"

namespace DiscoveryComposeClientStd

/-- Two challenges of one scheme put the password into the config twice. -/
theorem composeAll_repeats_password :
    letI := plainUrl
    letI := plainPsl
    letI := plainDns
    letI := plainHttp
    letI := plainSerde
    letI := DiscoveryPacc.vouchedCrates
    let client := DiscoveryComposeClientStd.new exampleResolver
    let config : DiscoveryServiceConfig :=
      { service := .jmap, endpoint := .http "https://example.org/.well-known/jmap"
        username := none, auth := [.password, .password], source := .jmap, resolved := false }
    (client.composeAll "user@example.org" {.jmap}).Returns
        (client.Backed (client.Overhears fun q answer => answer = repeatingNetwork q)) (.ok [config]) ∧
      ¬ config.auth.Nodup := by
  let _ := plainUrl
  let _ := plainPsl
  let _ := plainDns
  let _ := plainHttp
  let _ := plainSerde
  let _ := DiscoveryPacc.vouchedCrates
  let client := DiscoveryComposeClientStd.new exampleResolver
  let o := client.answers fun job => (job.program client).eval repeatingNetwork
  have heval : (client.composeAll "user@example.org" {.jmap}).eval o = .ok
      [{ service := .jmap, endpoint := .http "https://example.org/.well-known/jmap"
         username := none, auth := [.password, .password], source := .jmap, resolved := false }] := by
    rw [eval_composeAll (reports_answers client _)]
    decide +kernel
  refine ⟨?_, by decide⟩
  show (client.composeAll "user@example.org" {.jmap}).Returns _ (.ok _)
  rw [← heval]
  exact Prog.returns_eval (backed_answers (overhears_eval repeatingNetwork)) _

end DiscoveryComposeClientStd
end PimDiscovery
