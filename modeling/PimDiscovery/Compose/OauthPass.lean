import PimDiscovery.Compose.Merged
import PimDiscovery.Compose.Restricted

/-! The OAuth pass: what it makes of the methods of one config, given the metadata of its endpoint and
what each issuer resolves to. -/

namespace PimDiscovery
open Interaction

namespace DiscoveryComposeClientStd
open DiscoveryServiceConfig

def isGrant : DiscoveryAuthMethod → Bool
  | .oauthAuthorizationCodeGrant .. | .oauthDeviceAuthorizationGrant .. => true
  | _ => false

theorem isOauth_of_isGrant {method : DiscoveryAuthMethod} (h : isGrant method = true) :
    isOauth method = true := by
  cases method with
  | password | bearer | oauthIssuer => exact nomatch h
  | oauthAuthorizationCodeGrant | oauthDeviceAuthorizationGrant => rfl

def Resolves (methodsOf : String → Option (List DiscoveryAuthMethod)) : Prop :=
  ∀ issuer methods, methodsOf issuer = some methods →
    methods = [.oauthIssuer issuer] ∨ methods ≠ [] ∧ ∀ method ∈ methods, isGrant method = true

section
variable [UrlCrate]

def namedIssuers (metadata : DiscoveryOauthResourceMetadata) : List DiscoveryAuthMethod :=
  ((metadata.authorizationServers.map UrlCrate.asStr).map .oauthIssuer).eraseDups

def namedAuth (metadata : Option DiscoveryOauthResourceMetadata) (auth : List DiscoveryAuthMethod) :
    List DiscoveryAuthMethod :=
  match metadata with
  | some metadata => if auth.any isOauth then auth else auth ++ namedIssuers metadata
  | none => auth

/-- The methods after the pass, from those before, the metadata of the endpoint and the issuers. -/
def oauthAuth (metadata : Option DiscoveryOauthResourceMetadata)
    (methodsOf : String → Option (List DiscoveryAuthMethod)) (auth : List DiscoveryAuthMethod) :
    List DiscoveryAuthMethod :=
  let resolved := (namedAuth metadata auth).flatMap (resolveMethod methodsOf)
  match metadata with
  | some metadata =>
    resolved.map (bindResource (UrlCrate.asStr metadata.resource) metadata.scopesSupported)
  | none => resolved

theorem oauthAuth_some (metadata : DiscoveryOauthResourceMetadata)
    (methodsOf : String → Option (List DiscoveryAuthMethod)) (auth : List DiscoveryAuthMethod) :
    oauthAuth (some metadata) methodsOf auth =
      ((namedAuth (some metadata) auth).flatMap (resolveMethod methodsOf)).map
        (bindResource (UrlCrate.asStr metadata.resource) metadata.scopesSupported) := rfl

theorem addResourceIssuers_auth (config : DiscoveryServiceConfig)
    (metadata : DiscoveryOauthResourceMetadata) :
    (config.addResourceIssuers (metadata.authorizationServers.map UrlCrate.asStr)).auth =
      namedAuth (some metadata) config.auth := by
  unfold addResourceIssuers namedAuth
  by_cases h : config.auth.any isOauth = true
  · simp [h]
  · have hnew : ((metadata.authorizationServers.map UrlCrate.asStr).map
        DiscoveryAuthMethod.oauthIssuer).filter (· ∉ config.auth) =
          (metadata.authorizationServers.map UrlCrate.asStr).map .oauthIssuer := by
      rw [List.filter_eq_self]
      intro method hmethod
      obtain ⟨server, -, rfl⟩ := List.mem_map.mp hmethod
      rw [decide_eq_true_eq]
      intro hmem
      exact h (List.any_eq_true.mpr ⟨_, hmem, rfl⟩)
    simp only [h, Bool.false_eq_true, if_false]
    rw [← List.foldl_map (f := DiscoveryAuthMethod.oauthIssuer) (g := pushMethod),
      DiscoveryConfigCollector.foldl_pushMethod, hnew, namedIssuers]

/-- The three passes over one config act on its methods alone. -/
theorem passes_eq (resourceOf : String → Option DiscoveryOauthResourceMetadata)
    (methodsOf : String → Option (List DiscoveryAuthMethod)) (config : DiscoveryServiceConfig) :
    bindResources resourceOf (setIssuers methodsOf (addIssuers resourceOf config)) =
      { config with
        auth := oauthAuth ((httpEndpoint config).bind resourceOf) methodsOf config.auth } := by
  have hraw : httpEndpoint (setIssuers methodsOf (addIssuers resourceOf config)) =
      httpEndpoint config := by
    have hsame := (setIssuers_sameButAuth methodsOf (addIssuers resourceOf config)).trans
      (addIssuers_sameButAuth resourceOf config)
    rw [httpEndpoint, httpEndpoint, hsame.endpoint]
  rw [bindResources, hraw, addIssuers]
  cases (httpEndpoint config).bind resourceOf with
  | none => rfl
  | some metadata =>
    have hnamed := addResourceIssuers_auth config metadata
    simp only [oauthAuth, ← hnamed]
    unfold addResourceIssuers
    split <;> rfl

end

theorem isOauth_bindResource (resource : String) (scopes : List String)
    (method : DiscoveryAuthMethod) : isOauth (bindResource resource scopes method) = isOauth method := by
  cases method <;> rfl

theorem bindResource_plain {resource : String} {scopes : List String} {method : DiscoveryAuthMethod}
    (h : isOauth method = false) : bindResource resource scopes method = method := by
  cases method with
  | password | bearer => rfl
  | oauthAuthorizationCodeGrant | oauthDeviceAuthorizationGrant | oauthIssuer => exact nomatch h

theorem bindResource_idem (resource : String) (scopes : List String) (method : DiscoveryAuthMethod) :
    bindResource resource scopes (bindResource resource scopes method) =
      bindResource resource scopes method := by
  cases method with
  | password | bearer | oauthIssuer => rfl
  | oauthAuthorizationCodeGrant | oauthDeviceAuthorizationGrant =>
    simp only [bindResource]
    split <;> rfl

theorem resolveMethod_plain {methodsOf : String → Option (List DiscoveryAuthMethod)}
    {method : DiscoveryAuthMethod} (h : isOauth method = false) :
    resolveMethod methodsOf method = [method] := by
  cases method with
  | oauthIssuer => exact nomatch h
  | _ => rfl

theorem flatMap_settled {methodsOf : String → Option (List DiscoveryAuthMethod)}
    {auth : List DiscoveryAuthMethod}
    (h : ∀ method ∈ auth, resolveMethod methodsOf method = [method]) :
    auth.flatMap (resolveMethod methodsOf) = auth := by
  rw [List.flatMap_congr h, List.flatMap_singleton']

theorem bindResource_settled {methodsOf : String → Option (List DiscoveryAuthMethod)}
    {resource : String} {scopes : List String} {method : DiscoveryAuthMethod}
    (h : resolveMethod methodsOf method = [method]) :
    resolveMethod methodsOf (bindResource resource scopes method) =
      [bindResource resource scopes method] := by
  cases method with
  | oauthIssuer => exact h
  | _ => rfl

section
variable {methodsOf : String → Option (List DiscoveryAuthMethod)} (hresolves : Resolves methodsOf)
include hresolves

theorem resolveMethod_oauth {method : DiscoveryAuthMethod} (h : isOauth method = true) :
    resolveMethod methodsOf method ≠ [] ∧
      ∀ found ∈ resolveMethod methodsOf method, isOauth found = true := by
  cases method with
  | password | bearer => exact nomatch h
  | oauthAuthorizationCodeGrant | oauthDeviceAuthorizationGrant =>
    exact ⟨List.cons_ne_nil _ _, List.forall_mem_singleton.mpr rfl⟩
  | oauthIssuer issuer =>
    rw [resolveMethod]
    cases hissuer : methodsOf issuer with
    | none => exact ⟨List.cons_ne_nil _ _, List.forall_mem_singleton.mpr rfl⟩
    | some methods =>
      rcases hresolves issuer methods hissuer with rfl | ⟨hne, hgrants⟩
      · exact ⟨List.cons_ne_nil _ _, List.forall_mem_singleton.mpr rfl⟩
      · exact ⟨hne, fun method hmethod => isOauth_of_isGrant (hgrants method hmethod)⟩

/-- What a method resolved to resolves to itself. -/
theorem resolveMethod_settled {method found : DiscoveryAuthMethod}
    (h : found ∈ resolveMethod methodsOf method) : resolveMethod methodsOf found = [found] := by
  cases method with
  | password | bearer | oauthAuthorizationCodeGrant | oauthDeviceAuthorizationGrant =>
    obtain rfl := List.mem_singleton.mp h
    rfl
  | oauthIssuer issuer =>
    rw [resolveMethod] at h
    cases hissuer : methodsOf issuer with
    | none =>
      rw [hissuer] at h
      obtain rfl := List.mem_singleton.mp h
      rw [resolveMethod, hissuer]
    | some methods =>
      rw [hissuer] at h
      rcases hresolves issuer methods hissuer with rfl | ⟨-, hgrants⟩
      · obtain rfl := List.mem_singleton.mp h
        rw [resolveMethod, hissuer]
      · have hgrant := hgrants found h
        cases found with
        | password | bearer | oauthIssuer => cases hgrant
        | oauthAuthorizationCodeGrant | oauthDeviceAuthorizationGrant => rfl

theorem any_isOauth_flatMap (auth : List DiscoveryAuthMethod) :
    (auth.flatMap (resolveMethod methodsOf)).any isOauth = auth.any isOauth := by
  rw [Bool.eq_iff_iff, List.any_eq_true, List.any_eq_true]
  constructor
  · rintro ⟨found, hfound, hoauth⟩
    obtain ⟨method, hmethod, hfound⟩ := List.mem_flatMap.mp hfound
    refine ⟨method, hmethod, ?_⟩
    by_contra hplain
    rw [resolveMethod_plain (Bool.eq_false_iff.mpr hplain)] at hfound
    obtain rfl := List.mem_singleton.mp hfound
    exact hplain hoauth
  · rintro ⟨method, hmethod, hoauth⟩
    obtain ⟨hne, hall⟩ := resolveMethod_oauth hresolves hoauth
    obtain ⟨found, hfound⟩ := List.exists_mem_of_ne_nil _ hne
    exact ⟨found, List.mem_flatMap.mpr ⟨method, hmethod, hfound⟩, hall found hfound⟩

theorem filter_plain_flatMap (auth : List DiscoveryAuthMethod) :
    (auth.flatMap (resolveMethod methodsOf)).filter (!isOauth ·) = auth.filter (!isOauth ·) := by
  induction auth with
  | nil => rfl
  | cons method auth ih =>
    rw [List.flatMap_cons, List.filter_append, ih]
    cases h : isOauth method with
    | false => simp [resolveMethod_plain h, h]
    | true =>
      have hnone : (resolveMethod methodsOf method).filter (!isOauth ·) = [] := by
        rw [List.filter_eq_nil_iff]
        intro found hfound
        simp [(resolveMethod_oauth hresolves h).2 found hfound]
      rw [hnone, List.nil_append, List.filter_cons_of_neg (by simp [h])]

end

section
variable [UrlCrate] {methodsOf : String → Option (List DiscoveryAuthMethod)}

theorem mem_namedIssuers {metadata : DiscoveryOauthResourceMetadata} {method : DiscoveryAuthMethod} :
    method ∈ namedIssuers metadata ↔
      ∃ server ∈ metadata.authorizationServers, method = .oauthIssuer (UrlCrate.asStr server) := by
  unfold namedIssuers
  rw [List.mem_eraseDups, List.map_map, List.mem_map]
  constructor
  · rintro ⟨server, hserver, rfl⟩
    exact ⟨server, hserver, rfl⟩
  · rintro ⟨server, hserver, rfl⟩
    exact ⟨server, hserver, rfl⟩

theorem oauthAuth_plain (hresolves : Resolves methodsOf)
    (metadata : Option DiscoveryOauthResourceMetadata) (auth : List DiscoveryAuthMethod) :
    (oauthAuth metadata methodsOf auth).filter (!isOauth ·) = auth.filter (!isOauth ·) := by
  have hnamed : (namedAuth metadata auth).filter (!isOauth ·) = auth.filter (!isOauth ·) := by
    unfold namedAuth
    cases metadata with
    | none => rfl
    | some metadata =>
      have hnone : (namedIssuers metadata).filter (!isOauth ·) = [] := by
        rw [List.filter_eq_nil_iff]
        intro method hmethod
        obtain ⟨server, -, rfl⟩ := mem_namedIssuers.mp hmethod
        simp [isOauth]
      simp only
      split
      · rfl
      · rw [List.filter_append, hnone, List.append_nil]
  unfold oauthAuth
  cases metadata with
  | none => exact (filter_plain_flatMap hresolves _).trans hnamed
  | some metadata =>
    -- Binding the resource turns no method into a plain one, and leaves the plain ones alone.
    have hbound : ∀ methods : List DiscoveryAuthMethod, (methods.map
        (bindResource (UrlCrate.asStr metadata.resource) metadata.scopesSupported)).filter
          (!isOauth ·) = methods.filter (!isOauth ·) := by
      intro methods
      rw [List.filter_map]
      have hpred : (fun method => !isOauth method) ∘ bindResource (UrlCrate.asStr metadata.resource)
          metadata.scopesSupported = fun method => !isOauth method := by
        funext method
        rw [Function.comp_apply, isOauth_bindResource]
      rw [hpred]
      refine (List.map_congr_left fun method hmethod => ?_).trans (List.map_id _)
      have hplain := (List.mem_filter.mp hmethod).2
      exact bindResource_plain (by simpa using hplain)
    simp only
    rw [hbound, filter_plain_flatMap hresolves, hnamed]

omit [UrlCrate] in
theorem any_isOauth_map (resource : String) (scopes : List String)
    (methods : List DiscoveryAuthMethod) :
    (methods.map (bindResource resource scopes)).any isOauth = methods.any isOauth := by
  rw [List.any_map]
  congr 1
  funext method
  exact isOauth_bindResource resource scopes method

theorem namedAuth_oauthAuth (hresolves : Resolves methodsOf)
    (metadata : DiscoveryOauthResourceMetadata) (auth : List DiscoveryAuthMethod) :
    namedAuth (some metadata) (oauthAuth (some metadata) methodsOf auth) =
      oauthAuth (some metadata) methodsOf auth := by
  have hany : (oauthAuth (some metadata) methodsOf auth).any isOauth =
      (namedAuth (some metadata) auth).any isOauth := by
    rw [oauthAuth_some, any_isOauth_map, any_isOauth_flatMap hresolves]
  cases h : (oauthAuth (some metadata) methodsOf auth).any isOauth with
  | true => simp [namedAuth, h]
  | false =>
    rw [h] at hany
    have hplain : auth.any isOauth = false := by
      cases hauth : auth.any isOauth with
      | false => rfl
      | true =>
        rw [namedAuth, if_pos hauth, hauth] at hany
        exact hany.symm
    have hnone : namedIssuers metadata = [] := by
      simp only [namedAuth, hplain, Bool.false_eq_true, if_false, List.any_append,
        Bool.false_or] at hany
      rw [List.eq_nil_iff_forall_not_mem]
      intro method hmethod
      obtain ⟨server, -, rfl⟩ := mem_namedIssuers.mp hmethod
      exact absurd (List.any_eq_false.mp hany.symm _ hmethod) (by simp [isOauth])
    simp [namedAuth, h, hnone]

theorem oauthAuth_idem (hresolves : Resolves methodsOf)
    (metadata : Option DiscoveryOauthResourceMetadata) (auth : List DiscoveryAuthMethod) :
    oauthAuth metadata methodsOf (oauthAuth metadata methodsOf auth) =
      oauthAuth metadata methodsOf auth := by
  have hsettled : ∀ method ∈ (namedAuth metadata auth).flatMap (resolveMethod methodsOf),
      resolveMethod methodsOf method = [method] := by
    intro method hmethod
    obtain ⟨source, -, hmethod⟩ := List.mem_flatMap.mp hmethod
    exact resolveMethod_settled hresolves hmethod
  cases metadata with
  | none => exact flatMap_settled hsettled
  | some metadata =>
    have hmapped : ∀ method ∈ oauthAuth (some metadata) methodsOf auth,
        resolveMethod methodsOf method = [method] := by
      intro method hmethod
      obtain ⟨source, hsource, rfl⟩ := List.mem_map.mp hmethod
      exact bindResource_settled (hsettled source hsource)
    have hnamed := namedAuth_oauthAuth hresolves metadata auth
    have hbound : ∀ method ∈ oauthAuth (some metadata) methodsOf auth, bindResource
        (UrlCrate.asStr metadata.resource) metadata.scopesSupported method = method := by
      intro method hmethod
      obtain ⟨source, -, rfl⟩ := List.mem_map.mp hmethod
      exact bindResource_idem _ _ source
    rw [oauthAuth_some metadata methodsOf (oauthAuth _ _ _), hnamed, flatMap_settled hmapped]
    exact (List.map_congr_left hbound).trans (List.map_id _)

theorem issuerMethods_grants (metadata : DiscoveryOauthServerMetadata) :
    ∀ method ∈ issuerMethods metadata, isGrant method = true := by
  unfold issuerMethods
  rw [List.forall_mem_append]
  refine ⟨?_, ?_⟩
  · split
    · exact List.forall_mem_singleton.mpr rfl
    · exact List.forall_mem_nil _
  · split
    · exact List.forall_mem_singleton.mpr rfl
    · exact List.forall_mem_nil _

theorem resolveIssuer_always (issuer : String) :
    (resolveIssuer issuer).Always (fun _ => True) (fun _ _ => True) fun methods =>
      methods = [.oauthIssuer issuer] ∨
        methods ≠ [] ∧ ∀ method ∈ methods, isGrant method = true := by
  unfold resolveIssuer
  cases UrlCrate.parse issuer with
  | error err => exact .inl rfl
  | ok url =>
    refine (Prog.Always.trivial (oauthServer url)).bind fun metadata _ => ?_
    cases metadata with
    | none => exact .inl rfl
    | some metadata =>
      cases h : (issuerMethods metadata).isEmpty with
      | true =>
        simp only [h, if_true]
        exact .inl rfl
      | false =>
        simp only [h, Bool.false_eq_true, if_false]
        refine .inr ⟨?_, issuerMethods_grants metadata⟩
        rw [← List.isEmpty_eq_false_iff, h]

end

section
variable [UrlCrate] [PslCrate] {client : DiscoveryComposeClientStd}

theorem Reports.resolves {o : Answers} (h : client.Reports o) : Resolves (methodsOf o) := by
  intro issuer methods hmethods
  obtain ⟨result, hresult, rfl⟩ := Option.map_eq_some_iff.mp hmethods
  have hbody : (client.taskBody (.issuer issuer)).Always (fun _ => True) (fun _ _ => True)
      fun result => result.2 = [.oauthIssuer issuer] ∨
        result.2 ≠ [] ∧ ∀ method ∈ result.2, isGrant method = true :=
    (resolveIssuer_always issuer).bind fun methods hmethods => hmethods
  exact hbody.returns (h (.join .issuer (.issuer issuer)) result hresult)

/-- The OAuth pass, on fixed answers of the metadata servers: each config is kept but for its methods,
which follow from its own and from the metadata of its endpoint and of its issuers; passwords and
bearer tokens keep their order, and a second pass changes nothing. -/
theorem resolveOauth_complete (client : DiscoveryComposeClientStd) {o : Answers}
    (ho : client.Reports o) (configs : List DiscoveryServiceConfig) :
    (resolveOauth configs).eval o = configs.map (fun config =>
      { config with
        auth := oauthAuth ((httpEndpoint config).bind (resourceOf o)) (methodsOf o) config.auth }) ∧
    Resolves (methodsOf o) ∧
    (∀ config ∈ configs,
      (oauthAuth ((httpEndpoint config).bind (resourceOf o)) (methodsOf o) config.auth).filter
        (!isOauth ·) = config.auth.filter (!isOauth ·)) ∧
    (resolveOauth ((resolveOauth configs).eval o)).eval o = (resolveOauth configs).eval o := by
  have heval : ∀ configs, (resolveOauth configs).eval o = configs.map fun config =>
      { config with
        auth := oauthAuth ((httpEndpoint config).bind (resourceOf o)) (methodsOf o)
          config.auth } := by
    intro configs
    rw [eval_resolveOauth ho]
    apply List.map_congr_left
    intro config _
    exact passes_eq (resourceOf o) (methodsOf o) config
  refine ⟨heval configs, ho.resolves, ?_, ?_⟩
  · intro config _
    exact oauthAuth_plain ho.resolves _ _
  · rw [heval configs, heval, List.map_map]
    apply List.map_congr_left
    intro config _
    have hidem := oauthAuth_idem ho.resolves ((httpEndpoint config).bind (resourceOf o)) config.auth
    exact congrArg (fun auth => { config with auth }) hidem

end

def exampleServer : DiscoveryOauthServerMetadata where
  issuer := exampleOrigin
  authorizationEndpoint := some { exampleOrigin with path := "/authorize" }
  tokenEndpoint := some { exampleOrigin with path := "/token" }
  scopesSupported := ["openid"]
  deviceAuthorizationEndpoint := none

def oauthNet : ∀ job : Job, job.Answer
  | .oauthServer _ => .ok exampleServer
  | .oauthResource _ => .ok
      { resource := exampleOrigin, authorizationServers := [exampleOrigin]
        scopesSupported := ["mail"] }
  | job => silentNet job

theorem resolveOauth_complete_jmap :
    letI := plainUrl
    letI := plainPsl
    let o := (DiscoveryComposeClientStd.new exampleResolver).answers oauthNet
    (resolveOauth [DiscoveryServiceConfig.fromJmap "https://example.org/jmap" ["basic"]]).eval o =
      [{ DiscoveryServiceConfig.fromJmap "https://example.org/jmap" ["basic"] with
          auth := [.password, .oauthAuthorizationCodeGrant "https://example.org/authorize"
            "https://example.org/token" none (some "https://example.org/") ["mail"]] }] := by
  let _ := plainUrl
  let _ := plainPsl
  refine (resolveOauth_complete (DiscoveryComposeClientStd.new exampleResolver)
    (reports_answers _ oauthNet) [.fromJmap "https://example.org/jmap" ["basic"]]).1.trans ?_
  decide +kernel

end DiscoveryComposeClientStd
end PimDiscovery
