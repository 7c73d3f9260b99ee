import PimDiscovery.Compose.Address
import PimDiscovery.Compose.First
import PimDiscovery.Compose.Tagged

/-! `email first`: the mechanisms of mail one after the other, up to the first that gives a config, and
how their order compares with the one of a plan. -/

namespace PimDiscovery
open Interaction

namespace Cli

def emailServices : List DiscoveryService :=
  [.imap, .pop3, .smtp, .jmap, .managesieve, .gmail, .msgraph]

def only (configs : List DiscoveryServiceConfig) (services : List DiscoveryService) :
    List DiscoveryServiceConfig :=
  configs.filter fun config => services.contains config.service

def whenEmpty (configs : List DiscoveryServiceConfig) (mechanism : Work (List DiscoveryServiceConfig)) :
    Work (List DiscoveryServiceConfig) :=
  if configs.isEmpty then do pure (only (← mechanism) emailServices) else pure configs

def firstEmail [UrlCrate] [PslCrate] (client : DiscoveryComposeClientStd) (email : String) :
    Work (List DiscoveryServiceConfig) := do
  let configs := only (← DiscoveryComposeClientStd.provider email) emailServices
  let configs ← whenEmpty configs (client.autoconfig email)
  let configs ← whenEmpty configs (client.pacc email)
  let configs ← whenEmpty configs (DiscoveryComposeClientStd.srv email)
  whenEmpty configs (client.jmap email)

end Cli

inductive EmailFamily where
  | provider | autoconfig | pacc | srv | jmap
  deriving DecidableEq, Repr

def Mechanism.family : Mechanism → Option EmailFamily
  | mx => some .provider
  | pacc => some .pacc
  | ispMain | ispFallback | mailconf | ispdb | mxAutoconfig => some .autoconfig
  | srv => some .srv
  | jmap => some .jmap
  | caldav | carddav => none

section
variable [UrlCrate] [PslCrate] (client : DiscoveryComposeClientStd) (net : ∀ job : Job, job.Answer)
  (input : String)

def EmailFamily.work : EmailFamily → Work (List DiscoveryServiceConfig)
  | provider => DiscoveryComposeClientStd.provider input
  | autoconfig => client.autoconfig input
  | pacc => client.pacc input
  | srv => DiscoveryComposeClientStd.srv input
  | jmap => client.jmap input

def EmailFamily.output (family : EmailFamily) : List DiscoveryServiceConfig :=
  (family.work client input).eval net

def Mechanism.output (mechanism : Mechanism) : List DiscoveryServiceConfig :=
  ((Address.ofInput input).run client mechanism).eval net

def OffersEmail (configs : List DiscoveryServiceConfig) : Bool :=
  !(Cli.only configs Cli.emailServices).isEmpty

/-- The outputs of the mechanisms for mail in the order of a plan, each with its family. -/
def ranked : List (EmailFamily × List DiscoveryServiceConfig) :=
  let provider := DiscoveryKnownProvider.fromDomain (domainPart input)
  (provider.map fun provider => (EmailFamily.provider, provider.configs input)).toList ++
    (Plan.mechanismsFor provider Cli.emailServices.toFinset).filterMap fun mechanism =>
      mechanism.family.map fun family => (family, mechanism.output client net input)

def bestRanked (entries : List (EmailFamily × List DiscoveryServiceConfig)) :
    List DiscoveryServiceConfig :=
  (entries.find? fun entry => OffersEmail entry.2).elim [] fun entry =>
    Cli.only (entry.1.output client net input) Cli.emailServices

/-- One priority order for mail: `autoconfig` concatenates its locations as a plan ranks them, and
`email first` gives the configs of the family of the best ranked mechanism with an email config. -/
structure OnePriority : Prop where
  concatenates : EmailFamily.autoconfig.output client net input =
    ((ranked client net input).filter (·.1 = .autoconfig)).flatMap (·.2)
  first : (Cli.firstEmail client input).eval net =
    bestRanked client net input (ranked client net input)

end

section
variable [UrlCrate] [PslCrate] {client : DiscoveryComposeClientStd}
  {net : ∀ job : Job, job.Answer} {input : String}

omit [UrlCrate] [PslCrate] in
theorem wants_email (service : DiscoveryService) :
    (DiscoveryConfigCollector.new Cli.emailServices.toFinset).wants service =
      Cli.emailServices.contains service := by
  have hnonempty : Cli.emailServices.toFinset.Nonempty := ⟨.imap, by decide⟩
  rw [DiscoveryConfigCollector.wants_iff hnonempty, List.contains_eq_mem]
  simp only [List.mem_toFinset]

omit [UrlCrate] [PslCrate] in
theorem holdsWanted_email (configs : List DiscoveryServiceConfig) :
    holdsWanted Cli.emailServices.toFinset configs = OffersEmail configs := by
  unfold holdsWanted OffersEmail Cli.only
  simp only [wants_email]
  rw [Bool.eq_iff_iff, List.any_eq_true]
  simp [List.filter_eq_nil_iff]

omit [UrlCrate] [PslCrate] in
theorem mechanismsFor_email (provider : Option DiscoveryKnownProvider) :
    Plan.mechanismsFor provider Cli.emailServices.toFinset =
      (if provider.isNone then [.mx] else []) ++ [.pacc, .ispMain, .ispFallback, .mailconf, .ispdb,
        .mxAutoconfig, .srv, .jmap] := by
  unfold Plan.mechanismsFor
  simp only [wants_email]
  cases provider <;> rfl

theorem ranked_eq : ranked client net input =
    (EmailFamily.provider, EmailFamily.provider.output client net input) ::
    (.pacc, EmailFamily.pacc.output client net input) ::
    ([Mechanism.ispMain, .ispFallback, .mailconf, .ispdb, .mxAutoconfig].map fun mechanism =>
      (EmailFamily.autoconfig, mechanism.output client net input)) ++
    [(.srv, EmailFamily.srv.output client net input),
      (.jmap, EmailFamily.jmap.output client net input)] := by
  have hprovider := congrArg (Prog.eval net) (enters_ofInput client input).provider
  have hdomain : (Address.ofInput input).domain = domainPart input := rfl
  rw [hdomain] at hprovider
  simp only [ranked, mechanismsFor_email]
  cases hfound : DiscoveryKnownProvider.fromDomain (domainPart input) with
  | none =>
    rw [hfound] at hprovider
    have hmx : EmailFamily.provider.output client net input =
        Mechanism.mx.output client net input := hprovider
    rw [hmx]
    rfl
  | some provider =>
    rw [hfound] at hprovider
    have hrule : EmailFamily.provider.output client net input = provider.configs input := hprovider
    rw [hrule]
    rfl

def EmailFamily.planned : List EmailFamily := [.provider, .pacc, .autoconfig, .srv, .jmap]

def EmailFamily.chained : List EmailFamily := [.provider, .autoconfig, .pacc, .srv, .jmap]

def firstOffer (outputs : List (List DiscoveryServiceConfig)) : List DiscoveryServiceConfig :=
  (outputs.find? OffersEmail).elim [] (Cli.only · Cli.emailServices)

omit [UrlCrate] [PslCrate] in
theorem firstOffer_cons (output : List DiscoveryServiceConfig)
    (outputs : List (List DiscoveryServiceConfig)) :
    firstOffer (output :: outputs) =
      if OffersEmail output then Cli.only output Cli.emailServices else firstOffer outputs := by
  unfold firstOffer
  rw [List.find?_cons]
  cases OffersEmail output <;> rfl

omit [UrlCrate] [PslCrate] in
theorem eval_whenEmpty (configs : List DiscoveryServiceConfig)
    (mechanism : Work (List DiscoveryServiceConfig)) :
    (Cli.whenEmpty configs mechanism).eval net =
      if configs.isEmpty then Cli.only (mechanism.eval net) Cli.emailServices else configs := by
  unfold Cli.whenEmpty
  split
  · exact Prog.eval_bind ..
  · rfl

omit [UrlCrate] [PslCrate] in
theorem foldl_chain (configs : List DiscoveryServiceConfig)
    (outputs : List (List DiscoveryServiceConfig)) :
    outputs.foldl (fun configs output =>
        if configs.isEmpty then Cli.only output Cli.emailServices else configs) configs =
      if configs.isEmpty then firstOffer outputs else configs := by
  induction outputs generalizing configs with
  | nil =>
    split
    · rename_i hempty
      exact List.isEmpty_iff.mp hempty
    · rfl
  | cons output outputs ih =>
    rw [List.foldl_cons, ih, firstOffer_cons, OffersEmail]
    by_cases hempty : configs.isEmpty = true
    · cases hfound : (Cli.only output Cli.emailServices).isEmpty <;> simp [hempty, hfound]
    · simp only [hempty, if_false, Bool.false_eq_true]

theorem eval_firstEmail : (Cli.firstEmail client input).eval net =
    firstOffer (EmailFamily.chained.map (EmailFamily.output client net input)) := by
  have hchain := foldl_chain
    (Cli.only (EmailFamily.provider.output client net input) Cli.emailServices)
    ([EmailFamily.autoconfig, .pacc, .srv, .jmap].map (EmailFamily.output client net input))
  have hfirst : firstOffer (EmailFamily.chained.map (EmailFamily.output client net input)) =
      if (Cli.only (EmailFamily.provider.output client net input) Cli.emailServices).isEmpty then
        firstOffer ([EmailFamily.autoconfig, .pacc, .srv, .jmap].map
          (EmailFamily.output client net input))
      else Cli.only (EmailFamily.provider.output client net input) Cli.emailServices := by
    rw [EmailFamily.chained, List.map_cons, firstOffer_cons, OffersEmail]
    cases (Cli.only (EmailFamily.provider.output client net input) Cli.emailServices).isEmpty <;> rfl
  rw [hfirst, ← hchain]
  unfold Cli.firstEmail
  simp only [Prog.eval_bind, eval_whenEmpty]
  rfl

/-! What a plan ranks first. -/

theorem autoconfig_output : EmailFamily.autoconfig.output client net input =
    Mechanism.ispMain.output client net input ++ Mechanism.ispFallback.output client net input ++
      Mechanism.ispdb.output client net input ++ Mechanism.mailconf.output client net input ++
      Mechanism.mxAutoconfig.output client net input := by
  unfold EmailFamily.output EmailFamily.work
  rw [(enters_ofInput client input).autoconfig]
  simp only [Prog.eval_bind]
  rfl

omit [UrlCrate] [PslCrate] in
theorem offersEmail_append (configs configs' : List DiscoveryServiceConfig) :
    OffersEmail (configs ++ configs') = (OffersEmail configs || OffersEmail configs') := by
  unfold OffersEmail Cli.only
  rw [List.filter_append]
  cases List.filter (fun config => Cli.emailServices.contains config.service) configs <;> rfl

theorem bestRanked_cons (entry : EmailFamily × List DiscoveryServiceConfig)
    (entries : List (EmailFamily × List DiscoveryServiceConfig)) :
    bestRanked client net input (entry :: entries) =
      if OffersEmail entry.2 then Cli.only (entry.1.output client net input) Cli.emailServices
      else bestRanked client net input entries := by
  unfold bestRanked
  rw [List.find?_cons]
  cases OffersEmail entry.2 <;> rfl

theorem bestRanked_block (family : EmailFamily) (mechanisms : List Mechanism)
    (entries : List (EmailFamily × List DiscoveryServiceConfig)) :
    bestRanked client net input
        ((mechanisms.map fun mechanism => (family, mechanism.output client net input)) ++ entries) =
      if mechanisms.any fun mechanism => OffersEmail (mechanism.output client net input) then
        Cli.only (family.output client net input) Cli.emailServices
      else bestRanked client net input entries := by
  induction mechanisms with
  | nil => rfl
  | cons mechanism mechanisms ih =>
    rw [List.map_cons, List.cons_append, bestRanked_cons, ih, List.any_cons]
    cases OffersEmail (mechanism.output client net input) <;> simp

theorem bestRanked_ranked : bestRanked client net input (ranked client net input) =
    firstOffer (EmailFamily.planned.map (EmailFamily.output client net input)) := by
  have hautoconfig : OffersEmail (EmailFamily.autoconfig.output client net input) =
      [Mechanism.ispMain, .ispFallback, .mailconf, .ispdb, .mxAutoconfig].any fun mechanism =>
        OffersEmail (mechanism.output client net input) := by
    simp only [autoconfig_output, offersEmail_append, List.any_cons, List.any_nil, Bool.or_false]
    ac_rfl
  rw [ranked_eq, List.cons_append, List.cons_append, bestRanked_cons, bestRanked_cons,
    bestRanked_block, ← hautoconfig, bestRanked_cons, bestRanked_cons]
  simp only [EmailFamily.planned, List.map_cons, List.map_nil, firstOffer_cons]
  rfl

/-! Where the orders differ. -/

theorem mem_output {mechanism : Mechanism} {config : DiscoveryServiceConfig}
    (h : config ∈ mechanism.output client net input) : mechanism.tags config.source = true :=
  (client.runMechanism_tags mechanism _ _ _).returns (Prog.returns_eval (fun _ => trivial) _) config h

omit [UrlCrate] [PslCrate] in
theorem append_comm_iff {configs configs' : List DiscoveryServiceConfig}
    (h : ∀ config ∈ configs, config ∉ configs') :
    configs ++ configs' = configs' ++ configs ↔ configs = [] ∨ configs' = [] := by
  constructor
  · intro heq
    cases configs with
    | nil => exact .inl rfl
    | cons config configs =>
      cases configs' with
      | nil => exact .inr rfl
      | cons config' configs' =>
        have hhead : config = config' := (List.cons.inj heq).1
        exact absurd (hhead ▸ List.mem_cons_self ..) (h config (List.mem_cons_self ..))
  · rintro (rfl | rfl) <;> simp

theorem concatenates_iff : EmailFamily.autoconfig.output client net input =
      ((ranked client net input).filter (·.1 = .autoconfig)).flatMap (·.2) ↔
    Mechanism.ispdb.output client net input = [] ∨ Mechanism.mailconf.output client net input = [] := by
  have hdisjoint : ∀ config ∈ Mechanism.ispdb.output client net input,
      config ∉ Mechanism.mailconf.output client net input := by
    intro config hispdb hmailconf
    have hispdb := mem_output hispdb
    have hmailconf := mem_output hmailconf
    cases hsource : config.source <;> simp [Mechanism.tags, hsource] at hispdb hmailconf
  have hranked : ((ranked client net input).filter (·.1 = .autoconfig)).flatMap (·.2) =
      Mechanism.ispMain.output client net input ++ Mechanism.ispFallback.output client net input ++
        (Mechanism.mailconf.output client net input ++ Mechanism.ispdb.output client net input) ++
        Mechanism.mxAutoconfig.output client net input := by
    rw [ranked_eq]
    simp
  have hautoconfig : EmailFamily.autoconfig.output client net input =
      Mechanism.ispMain.output client net input ++ Mechanism.ispFallback.output client net input ++
        (Mechanism.ispdb.output client net input ++ Mechanism.mailconf.output client net input) ++
        Mechanism.mxAutoconfig.output client net input := by
    rw [autoconfig_output]
    simp only [List.append_assoc]
  rw [hranked, hautoconfig, List.append_left_inj, List.append_right_inj, append_comm_iff hdisjoint]

theorem pacc_not_mem_autoconfig {config : DiscoveryServiceConfig}
    (hpacc : config ∈ EmailFamily.pacc.output client net input) :
    config ∉ EmailFamily.autoconfig.output client net input := by
  have hsource : Mechanism.pacc.tags config.source = true := mem_output hpacc
  intro hautoconfig
  simp only [autoconfig_output, List.mem_append] at hautoconfig
  obtain (((hmem | hmem) | hmem) | hmem) | hmem := hautoconfig <;>
  · have hother := mem_output hmem
    cases htag : config.source <;> simp [Mechanism.tags, htag] at hsource hother

omit [UrlCrate] [PslCrate] in
theorem offersEmail_iff {configs : List DiscoveryServiceConfig} :
    OffersEmail configs = true ↔ Cli.only configs Cli.emailServices ≠ [] := by
  rw [OffersEmail, Bool.not_eq_true', ← Bool.not_eq_true, List.isEmpty_iff]

theorem first_iff :
    (Cli.firstEmail client input).eval net = bestRanked client net input (ranked client net input) ↔
      ¬ (OffersEmail (EmailFamily.provider.output client net input) = false ∧
        OffersEmail (EmailFamily.pacc.output client net input) = true ∧
        OffersEmail (EmailFamily.autoconfig.output client net input) = true) := by
  rw [eval_firstEmail, bestRanked_ranked]
  simp only [EmailFamily.chained, EmailFamily.planned, List.map_cons, firstOffer_cons]
  cases hprovider : OffersEmail (EmailFamily.provider.output client net input) with
  | true => simp
  | false =>
    cases hpacc : OffersEmail (EmailFamily.pacc.output client net input) with
    | false => simp
    | true =>
      cases hautoconfig : OffersEmail (EmailFamily.autoconfig.output client net input) with
      | false => simp
      | true =>
        simp only [Bool.false_eq_true, if_true, if_false, and_self, not_true_eq_false, iff_false]
        intro heq
        obtain ⟨config, hconfig⟩ := List.exists_mem_of_ne_nil _ (offersEmail_iff.mp hpacc)
        have hboth := hconfig
        rw [← heq] at hboth
        exact pacc_not_mem_autoconfig (List.mem_filter.mp hconfig).1 (List.mem_filter.mp hboth).1

theorem planOutputs_ranked {plan : Plan}
    (hplan : Plan.of input Cli.emailServices.toFinset = .ok plan) (halike : plan.ReadAlike input) :
    DiscoveryComposeClientStd.planOutputs (client.answers net) plan input =
      (ranked client net input).map (·.2) := by
  obtain ⟨hprovider, hmechanisms⟩ := plan_runs hplan
  have hemail : Text.trim input = input := congrArg Address.email halike.address
  have hdomain : plan.domain = domainPart input := congrArg Address.domain halike.address
  have htasks : (plan.tasks input).map (fun task => (client.answers net (.join .mechanism task)).getD [])
      = plan.mechanisms.map (Mechanism.output client net input) := by
    rw [Plan.tasks, List.map_map]
    refine List.map_congr_left fun mechanism _ => ?_
    show ((Address.ofPlan plan input).run client mechanism).eval net = _
    rw [halike.address]
    rfl
  have hlabels : ∀ mechanisms : List Mechanism, (∀ mechanism ∈ mechanisms, mechanism.family ≠ none) →
      (mechanisms.filterMap fun mechanism => mechanism.family.map fun family =>
        (family, mechanism.output client net input)).map (·.2) =
          mechanisms.map (Mechanism.output client net input) := by
    intro mechanisms hfamilies
    rw [List.map_filterMap, ← List.filterMap_eq_map]
    refine List.filterMap_congr fun mechanism hmechanism => ?_
    obtain ⟨family, hfamily⟩ := Option.ne_none_iff_exists'.mp (hfamilies mechanism hmechanism)
    rw [hfamily]
    rfl
  unfold DiscoveryComposeClientStd.planOutputs Plan.outputs ranked
  rw [List.map_map, Function.comp_def, htasks, hprovider, hmechanisms, hemail, hdomain,
    List.map_append, hlabels]
  · cases DiscoveryKnownProvider.fromDomain (domainPart input) <;> rfl
  · rw [mechanismsFor_email]
    cases (DiscoveryKnownProvider.fromDomain (domainPart input)).isNone <;> decide

def firstKept (client : DiscoveryComposeClientStd) (o : Answers)
    (entries : List (EmailFamily × List DiscoveryServiceConfig)) : DiscoveryConfigCollector :=
  (entries.find? fun entry => OffersEmail entry.2).elim (.new Cli.emailServices.toFinset)
    fun entry => (DiscoveryConfigCollector.new Cli.emailServices.toFinset).collect
      (entry.2.map (client.setDavRoot (DiscoveryComposeClientStd.rootOf o)))

/-- The result of `compose_first` is that of the best ranked entry alone. -/
theorem composeFirst_ranked {plan : Plan}
    (hplan : Plan.of input Cli.emailServices.toFinset = .ok plan) (halike : plan.ReadAlike input) :
    (client.composeFirst input Cli.emailServices.toFinset).eval (client.answers net) =
      ((client.checkResolver plan.domain).eval net).map fun _ =>
        (DiscoveryComposeClientStd.resolveOauth
          ((firstKept client (client.answers net) (ranked client net input)).finish.map
            (DiscoveryComposeClientStd.probed (client.answers net)))).eval (client.answers net) := by
  have houtputs : plan.outputs ((plan.tasks input).map fun task =>
      client.answers net (.join .mechanism task)) = (ranked client net input).map (·.2) :=
    planOutputs_ranked hplan halike
  have hkept : DiscoveryComposeClientStd.collectOutputs true (.new Cli.emailServices.toFinset)
      (((ranked client net input).map (·.2)).map
        (·.map (client.setDavRoot (DiscoveryComposeClientStd.rootOf (client.answers net))))) =
      firstKept client (client.answers net) (ranked client net input) := by
    have hoffers : ∀ configs : List DiscoveryServiceConfig, holdsWanted Cli.emailServices.toFinset
        (configs.map (client.setDavRoot (DiscoveryComposeClientStd.rootOf (client.answers net)))) =
          OffersEmail configs := by
      intro configs
      rw [DiscoveryComposeClientStd.setDavRoot_wanted, holdsWanted_email]
    rw [DiscoveryComposeClientStd.collectOutputs_first, List.map_map, List.find?_map, firstKept]
    simp only [Function.comp_def, hoffers]
    cases (ranked client net input).find? fun entry => OffersEmail entry.2 <;> rfl
  have hrun : (fun job => client.answers net (.run job)) = net := rfl
  rw [DiscoveryComposeClientStd.eval_composeFirst, DiscoveryComposeClientStd.eval_parallelOutputs,
    hplan]
  simp only [hrun, houtputs]
  cases (client.checkResolver plan.domain).eval net with
  | error err => rfl
  | ok => simp only [hkept, Except.map]

/-- Mail has one priority order exactly when the ISPDB or the mailconf target has nothing to say, and not
both a PACC document and an autoconfig location give an email config while no provider is known. Where
the address is read alike, the best ranked is what `compose_first` keeps. -/
theorem one_priority_iff (client : DiscoveryComposeClientStd) (net : ∀ job : Job, job.Answer)
    (input : String) :
    (OnePriority client net input ↔
      (Mechanism.ispdb.output client net input = [] ∨
        Mechanism.mailconf.output client net input = []) ∧
      ¬ (OffersEmail (EmailFamily.provider.output client net input) = false ∧
        OffersEmail (EmailFamily.pacc.output client net input) = true ∧
        OffersEmail (EmailFamily.autoconfig.output client net input) = true)) ∧
    ∀ plan, Plan.of input Cli.emailServices.toFinset = .ok plan → plan.ReadAlike input →
      (client.composeFirst input Cli.emailServices.toFinset).eval (client.answers net) =
        ((client.checkResolver plan.domain).eval net).map fun _ =>
          (DiscoveryComposeClientStd.resolveOauth
            ((firstKept client (client.answers net) (ranked client net input)).finish.map
              (DiscoveryComposeClientStd.probed (client.answers net)))).eval (client.answers net) := by
  refine ⟨?_, fun plan hplan halike => composeFirst_ranked hplan halike⟩
  rw [← concatenates_iff, ← first_iff]
  exact ⟨fun h => ⟨h.concatenates, h.first⟩, fun h => ⟨h.1, h.2⟩⟩

end

/-- A domain with every document: one for the ISPDB and the ISP alike, a mailconf target, and PACC. -/
def crowdedNet : ∀ job : Job, job.Answer
  | .isp _ => .ok
      { version := "1.1"
        emailProvider :=
          { id := "example.org", domain := ["example.org"], displayName := none
            displayShortName := none
            incomingServer :=
              [{ type := .imap, hostname := some "imap.example.org", port := some 993
                 socketType := some .tls, username := none, authentication := [.passwordCleartext]
                 pop3 := none }]
            outgoingServer := [], documentation := [] }
        oauth2 := none }
  | .mailconf _ => .ok exampleOrigin
  | .pacc _ => .ok
      { protocols :=
          { jmap := none, caldav := none, carddav := none, webdav := none
            imap := some { host := "imap.example.org" }, pop3 := none, smtp := none
            managesieve := none }
        authentication := { oauthPublic := none, password := some true } }
  | job => DiscoveryComposeClientStd.silentNet job

theorem one_priority_calendar :
    letI := plainUrl
    letI := plainPsl
    OnePriority (.new exampleResolver) DiscoveryComposeClientStd.calendarNet "user@example.org" := by
  let _ := plainUrl
  let _ := plainPsl
  refine (one_priority_iff (.new exampleResolver) DiscoveryComposeClientStd.calendarNet
    "user@example.org").1.mpr ⟨.inl ?_, ?_⟩ <;> decide +kernel

/-- Where all speak, `autoconfig` has the ISPDB before the mailconf target, and `email first` gives the
autoconfig locations though PACC ranks better. -/
theorem crowded_not_one_priority :
    letI := plainUrl
    letI := plainPsl
    let client := DiscoveryComposeClientStd.new exampleResolver
    ((EmailFamily.autoconfig.output client crowdedNet "user@example.org").map (·.source) =
        [.ispMain, .ispFallback, .ispdb, .mailconf]) ∧
      ((Cli.firstEmail client "user@example.org").eval crowdedNet).map (·.source) =
        [.ispMain, .ispFallback, .ispdb, .mailconf] ∧
      (bestRanked client crowdedNet "user@example.org"
        (ranked client crowdedNet "user@example.org")).map (·.source) = [.pacc] ∧
      ¬ OnePriority client crowdedNet "user@example.org" := by
  let _ := plainUrl
  let _ := plainPsl
  have hfirst : ((Cli.firstEmail (.new exampleResolver) "user@example.org").eval crowdedNet).map
      (·.source) = [.ispMain, .ispFallback, .ispdb, .mailconf] := by
    decide +kernel
  have hbest : (bestRanked (.new exampleResolver) crowdedNet "user@example.org"
      (ranked (.new exampleResolver) crowdedNet "user@example.org")).map (·.source) = [.pacc] := by
    decide +kernel
  refine ⟨by decide +kernel, hfirst, hbest, fun h => ?_⟩
  rw [h.first, hbest] at hfirst
  cases hfirst

end PimDiscovery
