import PimDiscovery.Compose.Address
import PimDiscovery.Compose.First

/-! The raw composition is the sum of its parts: what the entry points of the single mechanisms report of
an address, one after the other, each config passed on by the passes. -/

namespace PimDiscovery
open Interaction

namespace DiscoveryComposeClientStd
variable [UrlCrate] [PslCrate] (client : DiscoveryComposeClientStd) (net : ∀ job : Job, job.Answer)
  (input : String)

def reportAt (mechanism : Mechanism) : List DiscoveryServiceConfig :=
  ((Address.ofInput input).run client mechanism).eval net

omit [PslCrate] in
def passed (o : Answers) (config : DiscoveryServiceConfig) : DiscoveryServiceConfig :=
  withOauth o (client.setDavRoot (rootOf o) config)

omit [PslCrate] in
theorem passed_service (o : Answers) (config : DiscoveryServiceConfig) :
    (client.passed o config).service = config.service :=
  (withOauth_sameButAuth o _).service.trans (client.setDavRoot_account (rootOf o) config).service

/-- The autoconfig locations in the order of a plan. -/
def located : List DiscoveryServiceConfig :=
  [Mechanism.ispMain, .ispFallback, .mailconf, .ispdb, .mxAutoconfig].flatMap (client.reportAt net input)

/-- The single entry points one after the other, in the order of a plan. -/
def summed : List DiscoveryServiceConfig :=
  (DiscoveryComposeClientStd.provider input).eval net ++ (client.pacc input).eval net ++
    client.located net input ++ (DiscoveryComposeClientStd.srv input).eval net ++
    (client.dav input .caldav).eval net ++ (client.dav input .carddav).eval net ++
    (client.jmap input).eval net

variable {client net input}

/-- The locations of a plan are those of `autoconfig`, which asks for two of them the other way round. -/
theorem located_perm : (client.located net input).Perm ((client.autoconfig input).eval net) := by
  have hautoconfig : (client.autoconfig input).eval net =
      client.reportAt net input .ispMain ++ client.reportAt net input .ispFallback ++
        client.reportAt net input .ispdb ++ client.reportAt net input .mailconf ++
        client.reportAt net input .mxAutoconfig := by
    rw [(enters_ofInput client input).autoconfig]
    simp only [Prog.eval_bind]
    rfl
  have hswap : (client.reportAt net input .mailconf ++ client.reportAt net input .ispdb ++
      client.reportAt net input .mxAutoconfig).Perm (client.reportAt net input .ispdb ++
        client.reportAt net input .mailconf ++ client.reportAt net input .mxAutoconfig) :=
    List.perm_append_comm.append_right _
  rw [hautoconfig, located]
  simp only [List.flatMap_cons, List.flatMap_nil, List.append_nil, List.append_assoc] at hswap ⊢
  exact (hswap.append_left _).append_left _

variable (client) in
/-- The provider of an address is found by its domain or by its MX records, and a plan runs the second
only without the first. -/
theorem provider_eval : (DiscoveryComposeClientStd.provider input).eval net =
    ((DiscoveryKnownProvider.fromDomain (domainPart input)).map (·.configs input)).toList.flatten ++
      (if (DiscoveryKnownProvider.fromDomain (domainPart input)).isNone then [Mechanism.mx] else
        []).flatMap (client.reportAt net input) := by
  have hprovider := congrArg (Prog.eval net) (enters_ofInput client input).provider
  have hdomain : (Address.ofInput input).domain = domainPart input := rfl
  rw [hprovider, hdomain]
  cases DiscoveryKnownProvider.fromDomain (domainPart input) with
  | none => simp [reportAt]
  | some provider => simp [Address.ofInput]

theorem planOutputs_summed {plan : Plan} (hplan : Plan.of input ∅ = .ok plan)
    (halike : plan.ReadAlike input) :
    (planOutputs (client.answers net) plan input).flatten = client.summed net input := by
  obtain ⟨hprovider, hmechanisms⟩ := plan_runs hplan
  have hemail : Text.trim input = input := congrArg Address.email halike.address
  have hdomain : plan.domain = domainPart input := congrArg Address.domain halike.address
  have htasks : (plan.tasks input).map (fun task => (client.answers net (.join .mechanism task)).getD [])
      = plan.mechanisms.map (client.reportAt net input) := by
    rw [Plan.tasks, List.map_map]
    refine List.map_congr_left fun mechanism _ => ?_
    show ((Address.ofPlan plan input).run client mechanism).eval net = _
    rw [halike.address]
    rfl
  have hall : Plan.mechanismsFor (DiscoveryKnownProvider.fromDomain (domainPart input)) ∅ =
      (if (DiscoveryKnownProvider.fromDomain (domainPart input)).isNone then [.mx] else []) ++
        [.pacc, .ispMain, .ispFallback, .mailconf, .ispdb, .mxAutoconfig, .srv, .caldav, .carddav,
          .jmap] := by
    cases DiscoveryKnownProvider.fromDomain (domainPart input) <;> rfl
  have hentries := enters_ofInput client input
  unfold planOutputs Plan.outputs summed located
  rw [List.map_map, Function.comp_def, htasks, hprovider, hmechanisms, hemail, hdomain, hall,
    provider_eval client, hentries.pacc, hentries.srv, hentries.caldav, hentries.carddav,
    hentries.jmap]
  simp only [List.flatten_append, ← List.flatMap_def, List.flatMap_append, List.flatMap_cons,
    List.flatMap_nil, List.append_nil, List.append_assoc]
  rfl

variable (client net) in
theorem eval_composeRaw_all {localPart domain : String} (services : Finset DiscoveryService)
    (hinput : Text.splitOnce input '@' = some (localPart, domain)) (htrim : Text.trim input = input)
    (hdomain : Text.trim domain = domain) :
    (client.composeRaw input services).eval (client.answers net) =
      ((client.checkResolver (domainPart input)).eval net).map fun _ =>
        ((client.summed net input).map (client.passed (client.answers net))).filter fun config =>
          (DiscoveryConfigCollector.new services).wants config.service := by
  have hreports := client.reports_answers net
  obtain ⟨plan, hplan⟩ := plan_ofInput ∅ hinput
  have halike : plan.ReadAlike input := (readAlike_iff hplan hinput).mpr ⟨htrim, hdomain⟩
  have hchecked : plan.domain = domainPart input := congrArg Address.domain halike.address
  have hall : (client.parallelOutputs input ∅).eval (client.answers net) =
      ((client.checkResolver (domainPart input)).eval net).map fun _ =>
        planOutputs (client.answers net) plan input := by
    have hrun : (fun job => client.answers net (.run job)) = net := rfl
    rw [eval_parallelOutputs, hplan, ← hchecked]
    simp only [hrun]
    cases (client.checkResolver plan.domain).eval net <;> rfl
  have hwanted := fun (f : DiscoveryServiceConfig → DiscoveryServiceConfig)
      (hf : ∀ c, (f c).service = c.service) configs =>
    map_filter_service hf (DiscoveryConfigCollector.new services).wants configs
  have hroot : ∀ c, (client.setDavRoot (rootOf (client.answers net)) c).service = c.service := fun c =>
    (client.setDavRoot_account _ c).service
  rw [eval_composeRaw hreports, ← planOutputs_summed hplan halike]
  obtain ⟨err, herr, herr'⟩ | ⟨outputs, all, houtputs, hsome, heq⟩ :=
    parallelOutputs_restricted hreports input services
  · rw [herr]
    rw [hall] at herr'
    cases hcheck : (client.checkResolver (domainPart input)).eval net with
    | ok =>
      rw [hcheck] at herr'
      cases herr'
    | error err' =>
      rw [hcheck] at herr'
      obtain rfl := Except.error.inj herr'
      rfl
  · rw [hall] at hsome
    cases hcheck : (client.checkResolver (domainPart input)).eval net with
    | error err =>
      rw [hcheck] at hsome
      cases hsome
    | ok =>
      rw [hcheck] at hsome
      obtain rfl := Except.ok.inj hsome
      simp only [houtputs, Except.map, hwanted _ hroot, heq, hwanted _ (client.passed_service _)]
      rw [List.map_map]
      rfl

variable (client net) in
/-- For an address without blanks around it or around its domain, the raw composition is what the single
entry points report, all of `autoconfig` included, each config passed on on its own. -/
theorem composeRaw_summed {localPart domain : String} (services : Finset DiscoveryService)
    (hinput : Text.splitOnce input '@' = some (localPart, domain)) (htrim : Text.trim input = input)
    (hdomain : Text.trim domain = domain) :
    (client.located net input).Perm ((client.autoconfig input).eval net) ∧
    (client.composeRaw input services).eval (client.answers net) =
      ((client.checkResolver (domainPart input)).eval net).map fun _ =>
        ((client.summed net input).map (client.passed (client.answers net))).filter fun config =>
          (DiscoveryConfigCollector.new services).wants config.service :=
  ⟨located_perm, eval_composeRaw_all client net services hinput htrim hdomain⟩

omit [UrlCrate] [PslCrate] in
theorem composeRaw_summed_calendar :
    letI := plainUrl
    letI := plainPsl
    let client := DiscoveryComposeClientStd.new exampleResolver
    (client.summed calendarNet "user@example.org").length = 2 ∧
      (client.composeRaw "user@example.org" {.caldav}).eval (client.answers calendarNet) =
        .ok (((client.summed calendarNet "user@example.org").map
          (client.passed (client.answers calendarNet))).filter fun config =>
            (DiscoveryConfigCollector.new {.caldav}).wants config.service) := by
  let _ := plainUrl
  let _ := plainPsl
  let client := DiscoveryComposeClientStd.new exampleResolver
  have hcheck : (client.checkResolver (domainPart "user@example.org")).eval calendarNet = .ok () := by
    decide +kernel
  have hsummed := (composeRaw_summed client calendarNet {.caldav}
    (show Text.splitOnce "user@example.org" '@' = some ("user", "example.org") by decide)
    (by decide) (by decide)).2
  rw [hcheck] at hsummed
  exact ⟨by decide +kernel, hsummed⟩

end DiscoveryComposeClientStd
end PimDiscovery
