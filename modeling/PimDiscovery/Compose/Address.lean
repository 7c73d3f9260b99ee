import PimDiscovery.Compose.Client

/-! How an input is read as an address: by the plan of a composition, and by the entry points that run
one mechanism. -/

namespace PimDiscovery
open Interaction

/-- What the runners of the mechanisms are given of an address. -/
structure Address where
  localPart : String
  domain : String
  email : String
  deriving DecidableEq, Repr

namespace Address

def ofPlan (plan : Plan) (input : String) : Address :=
  ⟨plan.localPart, plan.domain, Text.trim input⟩

def ofInput (input : String) : Address :=
  ⟨((Text.splitOnce input '@').map (·.1)).getD "", domainPart input, input⟩

def run [UrlCrate] [PslCrate] (self : Address) (client : DiscoveryComposeClientStd)
    (mechanism : Mechanism) : Work (List DiscoveryServiceConfig) :=
  client.runMechanism mechanism self.localPart self.domain self.email

end Address

structure DiscoveryComposeClientStd.Enters [UrlCrate] [PslCrate] (client : DiscoveryComposeClientStd)
    (input : String) (address : Address) : Prop where
  autoconfig : client.autoconfig input = do
    let main ← address.run client .ispMain
    let fallback ← address.run client .ispFallback
    let ispdb ← address.run client .ispdb
    let mailconf ← address.run client .mailconf
    let mx ← address.run client .mxAutoconfig
    pure (main ++ fallback ++ ispdb ++ mailconf ++ mx)
  provider : DiscoveryComposeClientStd.provider input =
    match DiscoveryKnownProvider.fromDomain address.domain with
    | some provider => pure (provider.configs address.email)
    | none => address.run client .mx
  srv : DiscoveryComposeClientStd.srv input = address.run client .srv
  pacc : client.pacc input = address.run client .pacc
  caldav : client.dav input .caldav = address.run client .caldav
  carddav : client.dav input .carddav = address.run client .carddav
  jmap : client.jmap input = address.run client .jmap

/-- A plan hands over the address that the single mechanisms read, and names a provider when they do. -/
structure Plan.ReadAlike (plan : Plan) (input : String) : Prop where
  address : Address.ofPlan plan input = Address.ofInput input
  provider : plan.providerOutput.isSome ↔
    ∃ provider, DiscoveryComposeClientStd.detectProvider input = Prog.pure (some provider)

def Plan.CheckedAlike (plan : Plan) (input : String) : Prop :=
  ∀ client : DiscoveryComposeClientStd,
    client.checkResolver plan.domain = client.checkResolver input

theorem enters_ofInput [UrlCrate] [PslCrate] (client : DiscoveryComposeClientStd) (input : String) :
    client.Enters input (Address.ofInput input) where
  autoconfig := rfl
  provider := by
    show _ = match DiscoveryKnownProvider.fromDomain (domainPart input) with
      | some provider => pure (provider.configs input)
      | none => DiscoveryComposeClientStd.runMx (domainPart input) input
    unfold DiscoveryComposeClientStd.provider DiscoveryComposeClientStd.detectProvider
    cases DiscoveryKnownProvider.fromDomain (domainPart input) <;> rfl
  srv := rfl
  pacc := rfl
  caldav := rfl
  carddav := rfl
  jmap := rfl

/-! The domain of an address, by the plan and by `domain_part`. -/

theorem mem_toAsciiLowercase_at {s : String} :
    '@' ∈ (Text.toAsciiLowercase s).toList ↔ '@' ∈ s.toList := by
  rw [Text.toAsciiLowercase, String.toList_ofList, List.mem_map]
  constructor
  · rintro ⟨c, hc, hlower⟩
    rwa [← (Text.toLower_eq_iff (by decide)).mp hlower]
  · exact fun h => ⟨'@', h, (Text.toLower_eq_iff (by decide)).mpr rfl⟩

/-- Without the trim of `normalize_domain`, a domain is read alike when there is nothing to trim. -/
theorem normalizeDomain_untrimmed {domain : String} :
    Text.toAsciiLowercase (Text.trimMatches domain '.') = normalizeDomain domain ↔
      Text.trim domain = domain := by
  constructor
  · intro h
    have hkept : ∀ s : String, (Text.trimMatches s '.').toList.countP Text.isWhitespace =
        s.toList.countP Text.isWhitespace := by
      intro s
      rw [Text.trimMatches, String.toList_ofList]
      apply Text.countP_trimBy
      intro c hc
      rw [beq_eq_false_iff_ne]
      rintro rfl
      revert hc
      decide
    have hcount := congrArg (fun s : String => s.toList.countP Text.isWhitespace) h
    simp only [normalizeDomain, Text.countP_toAsciiLowercase Text.isWhitespace_toLower, hkept] at hcount
    rw [Text.trim_eq_self_iff, Text.trimBy_eq_self_iff, hcount, Text.trim, String.toList_ofList]
  · intro h
    rw [normalizeDomain, h]

theorem length_normalizeDomain_le (domain : String) :
    (normalizeDomain domain).toList.length ≤ domain.toList.length := by
  unfold normalizeDomain Text.toAsciiLowercase Text.trimMatches Text.trim
  simp only [String.toList_ofList, List.length_map]
  exact (Text.trimBy_sublist _ _).length_le.trans (Text.trimBy_sublist _ _).length_le

theorem domainPart_eq_self_iff {domain : String} :
    domainPart domain = domain ↔ '@' ∉ domain.toList ∧ normalizeDomain domain = domain := by
  unfold domainPart
  cases hsplit : Text.splitOnce domain '@' with
  | none => simp [Text.splitOnce_eq_none.mp hsplit]
  | some parts =>
    obtain ⟨before, after⟩ := parts
    have hchars := Text.splitOnce_eq_some hsplit
    have hat : '@' ∈ domain.toList := by
      rw [hchars]
      exact List.mem_append_right _ (List.mem_cons_self ..)
    refine ⟨fun h => ?_, fun h => absurd hat h.1⟩
    have hlength := length_normalizeDomain_le after
    rw [Option.map_some, Option.getD_some] at h
    rw [h, hchars, List.length_append, List.length_cons] at hlength
    omega

theorem domainPart_planned {domain : String} :
    domainPart (Text.toAsciiLowercase (Text.trimMatches domain '.')) =
        Text.toAsciiLowercase (Text.trimMatches domain '.') ↔
      '@' ∉ domain.toList ∧
        Text.trim (Text.trimMatches domain '.') = Text.trimMatches domain '.' := by
  have hat : '@' ∈ (Text.trimMatches domain '.').toList ↔ '@' ∈ domain.toList := by
    rw [Text.trimMatches, String.toList_ofList]
    exact Text.mem_trimBy (by decide)
  rw [domainPart_eq_self_iff, mem_toAsciiLowercase_at, hat]
  refine and_congr_right fun _ => ?_
  have hsame : Text.toAsciiLowercase (Text.trimMatches (Text.toAsciiLowercase
      (Text.trimMatches domain '.')) '.') =
        Text.toAsciiLowercase (Text.trimMatches domain '.') := by
    rw [Text.trimMatches_toAsciiLowercase _ (by decide), Text.trimMatches_trimMatches,
      Text.toAsciiLowercase_toAsciiLowercase]
  rw [← Text.trim_toAsciiLowercase_eq_self, ← normalizeDomain_untrimmed, hsame, eq_comm]

theorem checkResolver_alike_iff {domain domain' : String} :
    (∀ client : DiscoveryComposeClientStd,
      client.checkResolver domain = client.checkResolver domain') ↔
        domainPart domain = domainPart domain' := by
  constructor
  · intro h
    have hquestion : ∀ {α : Type} {q q' : Job} {f : q.Answer → Work α} {f' : q'.Answer → Work α},
        (Work.run q >>= f) = (Work.run q' >>= f') → q = q' := fun h => (Prog.ask.inj h).1
    have hprograms := h (.new exampleResolver)
    simp only [DiscoveryComposeClientStd.checkResolver, DiscoveryComposeClientStd.new,
      Bool.false_and, Bool.false_eq_true, if_false] at hprograms
    exact Job.check.inj (hquestion hprograms)
  · intro h client
    unfold DiscoveryComposeClientStd.checkResolver
    dsimp only [Job.Answer]
    rw [h]
    congr 2
    funext answer
    cases answer <;> rfl

theorem detectProvider_eq_pure {input : String} {provider : DiscoveryKnownProvider} :
    DiscoveryComposeClientStd.detectProvider input = Prog.pure (some provider) ↔
      DiscoveryKnownProvider.fromDomain (domainPart input) = some provider := by
  unfold DiscoveryComposeClientStd.detectProvider
  cases DiscoveryKnownProvider.fromDomain (domainPart input) with
  | some found =>
    refine ⟨fun h => Prog.pure.inj h, fun h => ?_⟩
    rw [h]
    rfl
  | none => constructor <;> intro h <;> cases h

section
variable {input localPart domain : String} {services : Finset DiscoveryService} {plan : Plan}

theorem plan_ofInput (services : Finset DiscoveryService)
    (hinput : Text.splitOnce input '@' = some (localPart, domain)) :
    ∃ plan, Plan.of input services = .ok plan := by
  have hat : '@' ∈ input.toList := by
    rw [Text.splitOnce_eq_some hinput]
    exact List.mem_append_right _ (List.mem_cons_self ..)
  have htrim : '@' ∈ (Text.trim input).toList := by
    rw [Text.trim, String.toList_ofList]
    exact (Text.mem_trimBy (by decide)).mpr hat
  unfold Plan.of
  cases hsplit : Text.splitOnce (Text.trim input) '@' with
  | none => exact absurd htrim (Text.splitOnce_eq_none.mp hsplit)
  | some parts => simp only [hsplit, Except.ok.injEq, exists_eq']

theorem plan_reads (hplan : Plan.of input services = .ok plan) (htrim : Text.trim input = input)
    (hinput : Text.splitOnce input '@' = some (localPart, domain)) :
    plan.localPart = localPart ∧
      plan.domain = Text.toAsciiLowercase (Text.trimMatches domain '.') := by
  unfold Plan.of at hplan
  simp only [htrim, hinput, Except.ok.injEq] at hplan
  rw [← hplan]
  exact ⟨rfl, rfl⟩

theorem plan_runs (hplan : Plan.of input services = .ok plan) :
    plan.providerOutput =
        (DiscoveryKnownProvider.fromDomain plan.domain).map (·.configs (Text.trim input)) ∧
      plan.mechanisms =
        Plan.mechanismsFor (DiscoveryKnownProvider.fromDomain plan.domain) services := by
  unfold Plan.of at hplan
  simp only at hplan
  split at hplan
  · cases hplan
  · rw [← Except.ok.inj hplan]
    exact ⟨rfl, rfl⟩

theorem ofInput_domain (hinput : Text.splitOnce input '@' = some (localPart, domain)) :
    (Address.ofInput input).domain = normalizeDomain domain := by
  show domainPart input = _
  rw [domainPart, hinput]
  rfl

theorem readAlike_iff (hplan : Plan.of input services = .ok plan)
    (hinput : Text.splitOnce input '@' = some (localPart, domain)) :
    plan.ReadAlike input ↔ Text.trim input = input ∧ Text.trim domain = domain := by
  constructor
  · rintro ⟨haddress, -⟩
    have htrim : Text.trim input = input := congrArg Address.email haddress
    obtain ⟨-, hdomain⟩ := plan_reads hplan htrim hinput
    have hsame : plan.domain = (Address.ofInput input).domain := congrArg Address.domain haddress
    rw [hdomain, ofInput_domain hinput] at hsame
    exact ⟨htrim, normalizeDomain_untrimmed.mp hsame⟩
  · rintro ⟨htrim, hblank⟩
    obtain ⟨hlocal, hdomain⟩ := plan_reads hplan htrim hinput
    have hsame : plan.domain = (Address.ofInput input).domain := by
      rw [hdomain, ofInput_domain hinput]
      exact normalizeDomain_untrimmed.mpr hblank
    refine ⟨?_, ?_⟩
    · rw [Address.ofPlan, hlocal, hsame, htrim, Address.ofInput, hinput]
      rfl
    · rw [(plan_runs hplan).1, Option.isSome_map, hsame, Option.isSome_iff_exists]
      exact exists_congr fun provider => detectProvider_eq_pure.symm

theorem checkedAlike_iff (hplan : Plan.of input services = .ok plan)
    (hinput : Text.splitOnce input '@' = some (localPart, domain)) (halike : plan.ReadAlike input) :
    plan.CheckedAlike input ↔ '@' ∉ domain.toList ∧
      Text.trim (Text.trimMatches domain '.') = Text.trimMatches domain '.' := by
  obtain ⟨-, hdomain⟩ := plan_reads hplan ((readAlike_iff hplan hinput).mp halike).1 hinput
  have hsame : plan.domain = domainPart input := congrArg Address.domain halike.address
  rw [Plan.CheckedAlike, checkResolver_alike_iff, ← hsame, hdomain, domainPart_planned]

end

/-- An address is read alike by a composition and by the single mechanisms exactly when nothing is to be
trimmed around it or around the part after its first `@`; its check too, when that part has no other
`@` and nothing to be trimmed within its outer dots. -/
theorem reads_address_alike_iff [UrlCrate] [PslCrate] (client : DiscoveryComposeClientStd)
    (services : Finset DiscoveryService) {input localPart domain : String}
    (hinput : Text.splitOnce input '@' = some (localPart, domain)) :
    ∃ plan, Plan.of input services = .ok plan ∧
      (∀ task ∈ plan.tasks input, ∃ mechanism ∈ plan.mechanisms,
        client.taskBody task = (Address.ofPlan plan input).run client mechanism) ∧
      client.Enters input (Address.ofInput input) ∧
      (plan.ReadAlike input ↔ Text.trim input = input ∧ Text.trim domain = domain) ∧
      (plan.ReadAlike input ∧ plan.CheckedAlike input ↔
        (Text.trim input = input ∧ Text.trim domain = domain) ∧ '@' ∉ domain.toList ∧
          Text.trim (Text.trimMatches domain '.') = Text.trimMatches domain '.') := by
  obtain ⟨plan, hplan⟩ := plan_ofInput services hinput
  have hread := readAlike_iff hplan hinput
  refine ⟨plan, hplan, fun task htask => ?_, enters_ofInput client input, hread, ?_⟩
  · obtain ⟨mechanism, hmechanism, rfl⟩ := List.mem_map.mp htask
    exact ⟨mechanism, hmechanism, rfl⟩
  · rw [← hread]
    exact and_congr_right fun halike => checkedAlike_iff hplan hinput halike

theorem reads_address_alike_gmail :
    letI := plainUrl
    letI := plainPsl
    let client := DiscoveryComposeClientStd.new exampleResolver
    ∃ plan, Plan.of "user@gmail.com" ∅ = .ok plan ∧ plan.ReadAlike "user@gmail.com" ∧
      plan.CheckedAlike "user@gmail.com" ∧
      client.Enters "user@gmail.com" (Address.ofInput "user@gmail.com") := by
  let _ := plainUrl
  let _ := plainPsl
  have hinput : Text.splitOnce "user@gmail.com" '@' = some ("user", "gmail.com") := by decide
  obtain ⟨plan, hplan, -, henters, -, halike⟩ := reads_address_alike_iff
    (DiscoveryComposeClientStd.new exampleResolver) ∅ hinput
  obtain ⟨hread, hchecked⟩ := halike.mpr (by decide)
  exact ⟨plan, hplan, hread, hchecked, henters⟩

/-- After a blank behind the `@`, a single mechanism still knows the provider, and a plan does not. -/
theorem blank_domain_not_read_alike :
    ∃ plan, Plan.of "user@ gmail.com" ∅ = .ok plan ∧ plan.providerOutput = none ∧
      DiscoveryComposeClientStd.detectProvider "user@ gmail.com" = Prog.pure (some .google) ∧
      ¬ plan.ReadAlike "user@ gmail.com" ∧
      Address.ofPlan plan "user@ gmail.com" = ⟨"user", " gmail.com", "user@ gmail.com"⟩ ∧
      Address.ofInput "user@ gmail.com" = ⟨"user", "gmail.com", "user@ gmail.com"⟩ := by
  have hinput : Text.splitOnce "user@ gmail.com" '@' = some ("user", " gmail.com") := by decide
  obtain ⟨plan, hplan⟩ := plan_ofInput ∅ hinput
  obtain ⟨hlocal, hdomain⟩ := plan_reads hplan (by decide) hinput
  have hblank : plan.domain = " gmail.com" := by
    rw [hdomain]
    decide
  refine ⟨plan, hplan, ?_, detectProvider_eq_pure.mpr (by decide +kernel), ?_, ?_, by decide⟩
  · rw [(plan_runs hplan).1, hblank, show DiscoveryKnownProvider.fromDomain " gmail.com" = none by
      decide +kernel]
    rfl
  · rw [readAlike_iff hplan hinput]
    decide
  · rw [Address.ofPlan, hlocal, hblank]
    decide

end PimDiscovery
