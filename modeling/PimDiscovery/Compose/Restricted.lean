import PimDiscovery.Compose.Passes
import PimDiscovery.Compose.Runners

/-! Restricting the services: what the plan leaves out offers none of the wanted services, and every
pass commutes with the filter. -/

namespace PimDiscovery
open Interaction

def Mechanism.Offers (mechanism : Mechanism) (service : DiscoveryService) : Prop :=
  match mechanism with
  | mx | pacc => True
  | ispMain | ispFallback | mailconf | ispdb | mxAutoconfig => service ∈ [.imap, .pop3, .smtp]
  | srv => service ∈ [.imap, .smtp]
  | caldav => service = .caldav
  | carddav => service = .carddav
  | jmap => service = .jmap

def Mechanism.relevant (services : Finset DiscoveryService) (mechanism : Mechanism) : Bool :=
  let wants service := (DiscoveryConfigCollector.new services).wants service
  match mechanism with
  | mx | pacc => true
  | ispMain | ispFallback | mailconf | ispdb | mxAutoconfig => wants .imap || wants .pop3 || wants .smtp
  | srv => wants .imap || wants .smtp
  | caldav => wants .caldav
  | carddav => wants .carddav
  | jmap => wants .jmap

theorem DiscoveryConfigCollector.wants_empty (service : DiscoveryService) :
    (new ∅).wants service = true := by
  simp [wants, new]

theorem DiscoveryConfigCollector.wants_iff {services : Finset DiscoveryService}
    (h : services.Nonempty) (service : DiscoveryService) :
    (new services).wants service = decide (service ∈ services) := by
  have hne := h.ne_empty
  simp only [wants, new, hne, decide_false, Bool.false_or]
  rfl

theorem Plan.mechanismsFor_eq (provider : Option DiscoveryKnownProvider)
    (services : Finset DiscoveryService) :
    mechanismsFor provider services =
      (mechanismsFor provider ∅).filter (Mechanism.relevant services) := by
  have hblock : ∀ (c : Bool) (ms : List Mechanism), (∀ m ∈ ms, m.relevant services = c) →
      (if c then ms else []) = ms.filter (Mechanism.relevant services) := by
    intro c ms hms
    cases c with
    | true => exact (List.filter_eq_self.mpr hms).symm
    | false => exact (List.filter_eq_nil_iff.mpr fun m hm => by simp [hms m hm]).symm
  unfold mechanismsFor
  simp only [DiscoveryConfigCollector.wants_empty, Bool.or_true, if_true, List.filter_append]
  congr 1
  · congr 1
    · congr 1
      · congr 1
        · congr 1
          · congr 1
            · split <;> rfl
          · exact hblock _ _ (by simp [Mechanism.relevant])
        · exact hblock _ _ (by simp [Mechanism.relevant])
      · exact hblock _ _ (by simp [Mechanism.relevant])
    · exact hblock _ _ (by simp [Mechanism.relevant])
  · exact hblock _ _ (by simp [Mechanism.relevant])

theorem Plan.mechanismsFor_nodup (provider : Option DiscoveryKnownProvider)
    (services : Finset DiscoveryService) : (mechanismsFor provider services).Nodup := by
  rw [mechanismsFor_eq]
  apply List.Nodup.filter
  rcases provider with _ | _ | _ <;> decide

theorem Plan.mechanisms_nodup {email : String} {services : Finset DiscoveryService} {plan : Plan}
    (h : Plan.of email services = .ok plan) : plan.mechanisms.Nodup := by
  unfold Plan.of at h
  simp only at h
  split at h
  · cases h
  · obtain rfl := Except.ok.inj h
    exact mechanismsFor_nodup _ services

def Plan.restrict (plan : Plan) (services : Finset DiscoveryService) : Plan :=
  { plan with mechanisms := plan.mechanisms.filter (Mechanism.relevant services) }

theorem Plan.of_eq (email : String) (services : Finset DiscoveryService) :
    Plan.of email services = (Plan.of email ∅).map (·.restrict services) := by
  unfold Plan.of
  cases hsplit : Text.splitOnce (Text.trim email) '@' with
  | none => simp only [hsplit, Except.map]
  | some parts => simp only [hsplit, Except.map, restrict, mechanismsFor_eq _ services]

theorem Mechanism.not_wanted {services : Finset DiscoveryService} {mechanism : Mechanism}
    (h : mechanism.relevant services = false) {service : DiscoveryService}
    (hs : mechanism.Offers service) :
    (DiscoveryConfigCollector.new services).wants service = false := by
  cases mechanism with
  | mx | pacc => exact nomatch h
  | ispMain | ispFallback | mailconf | ispdb | mxAutoconfig =>
    simp only [relevant, Bool.or_eq_false_iff] at h
    simp only [Offers, List.mem_cons, List.not_mem_nil, or_false] at hs
    rcases hs with rfl | rfl | rfl
    · exact h.1.1
    · exact h.1.2
    · exact h.2
  | srv =>
    simp only [relevant, Bool.or_eq_false_iff] at h
    simp only [Offers, List.mem_cons, List.not_mem_nil, or_false] at hs
    rcases hs with rfl | rfl
    · exact h.1
    · exact h.2
  | caldav | carddav | jmap =>
    obtain rfl := hs
    exact h

theorem fromAutoconfig_offers (config : DiscoveryAutoconfig) (email : String)
    (source : DiscoveryConfigSource) :
    Reported (fun c => c.service ∈ [.imap, .pop3, .smtp])
      (DiscoveryServiceConfig.fromAutoconfig config email source) := by
  intro c hc
  obtain ⟨server, hservice, -⟩ := DiscoveryServiceConfig.mem_fromAutoconfig hc
  exact hservice

theorem fromSrv_offers (report : DiscoverySrvReport) :
    Reported (fun c => c.service ∈ [.imap, .smtp]) (DiscoveryServiceConfig.fromSrv report) :=
  fun _ hc => (DiscoveryServiceConfig.mem_fromSrv hc).1

namespace DiscoveryComposeClientStd

section
variable [UrlCrate] (client : DiscoveryComposeClientStd)

theorem keepSecure_reported {post : DiscoveryServiceConfig → Prop}
    {configs : List DiscoveryServiceConfig} (h : Reported post configs) :
    Reported post (client.keepSecure configs) := by
  unfold keepSecure
  split
  · exact fun config hconfig => h config (List.mem_filter.mp hconfig).1
  · exact h

theorem autoconfigures_mail (email : String) :
    client.Autoconfigures (fun _ => True) (fun _ _ => True)
      (fun c => c.service ∈ [.imap, .pop3, .smtp]) email where
  mx _ := trivial
  cname _ := trivial
  mailconf _ := trivial
  built _ _ _ _ := trivial
  followed _ _ _ _ := trivial
  document _ config _ source :=
    client.keepSecure_reported (fromAutoconfig_offers config email source)

variable [PslCrate]

theorem runMechanism_offers (mechanism : Mechanism) (localPart domain email : String) :
    (client.runMechanism mechanism localPart domain email).Always (fun _ => True) (fun _ _ => True)
      (Reported fun c => mechanism.Offers c.service) := by
  have hmail := client.autoconfigures_mail email
  have hone : ∀ {service : DiscoveryService} {c : DiscoveryServiceConfig}, c.service = service →
      Reported (fun c => c.service = service) (client.keepSecure [c]) := by
    intro service c hc
    refine client.keepSecure_reported fun d hd => ?_
    rw [List.mem_singleton.mp hd, hc]
  cases mechanism with
  | mx => exact runMx_always trivial fun _ _ _ => trivial
  | pacc => exact runPacc_always trivial fun _ _ _ _ => trivial
  | ispMain => exact hmail.runIspMain localPart domain
  | ispFallback => exact hmail.runIspFallback domain
  | mailconf => exact hmail.runMailconf domain
  | ispdb => exact hmail.runIspdb domain
  | mxAutoconfig => exact hmail.runMxAutoconfig domain
  | srv => exact runSrv_always trivial fun report _ => fromSrv_offers report
  | caldav => exact runDav_always trivial fun _ _ => hone rfl
  | carddav => exact runDav_always trivial fun _ _ => hone rfl
  | jmap => exact runJmap_always trivial fun _ _ => hone rfl

variable {client}

/-- What a mechanism reports, as far as the plan is concerned: a panic counts as nothing. -/
def reportOf (o : Answers) (plan : Plan) (email : String) (mechanism : Mechanism) :
    List DiscoveryServiceConfig :=
  (o (.join .mechanism (.mechanism mechanism plan.localPart plan.domain (Text.trim email)))).getD []

theorem Reports.mechanism {o : Answers} (h : client.Reports o) (plan : Plan) (email : String)
    (mechanism : Mechanism) :
    Reported (fun c => mechanism.Offers c.service) (reportOf o plan email mechanism) := by
  unfold reportOf
  cases hr : o (.join .mechanism
      (.mechanism mechanism plan.localPart plan.domain (Text.trim email))) with
  | none => exact .nil
  | some configs => exact (client.runMechanism_offers mechanism _ _ _).returns (h (.join .mechanism _) _ hr)

theorem outputs_filter {o : Answers} (h : client.Reports o) (all : Plan) (email : String)
    (services : Finset DiscoveryService) :
    ((all.restrict services).outputs (((all.restrict services).tasks email).map fun task =>
        o (.join .mechanism task))).flatten.filter
        (fun c => (DiscoveryConfigCollector.new services).wants c.service) =
      (all.outputs ((all.tasks email).map fun task => o (.join .mechanism task))).flatten.filter
        (fun c => (DiscoveryConfigCollector.new services).wants c.service) := by
  have hdropped : ∀ mechanisms : List Mechanism,
      (((mechanisms.filter (Mechanism.relevant services)).map (reportOf o all email)).flatten).filter
          (fun c => (DiscoveryConfigCollector.new services).wants c.service) =
        ((mechanisms.map (reportOf o all email)).flatten).filter
          (fun c => (DiscoveryConfigCollector.new services).wants c.service) := by
    intro mechanisms
    induction mechanisms with
    | nil => rfl
    | cons mechanism mechanisms ih =>
      rw [List.map_cons, List.flatten_cons, List.filter_append, ← ih]
      by_cases hm : mechanism.relevant services = true
      · rw [List.filter_cons_of_pos hm, List.map_cons, List.flatten_cons, List.filter_append]
      -- A dropped mechanism reports nothing that is wanted.
      · have hnone : (reportOf o all email mechanism).filter
            (fun c => (DiscoveryConfigCollector.new services).wants c.service) = [] := by
          rw [List.filter_eq_nil_iff]
          intro config hconfig
          have hoffers := h.mechanism all email mechanism config hconfig
          rw [Mechanism.not_wanted (Bool.eq_false_iff.mpr hm) hoffers]
          exact Bool.false_ne_true
        rw [List.filter_cons_of_neg hm, hnone, List.nil_append]
  have hreports : ∀ plan : Plan, plan.outputs ((plan.tasks email).map fun task =>
      o (.join .mechanism task)) =
        plan.providerOutput.toList ++ plan.mechanisms.map (reportOf o plan email) := by
    intro plan
    simp only [Plan.outputs, Plan.tasks, List.map_map]
    rfl
  rw [hreports, hreports, List.flatten_append, List.flatten_append, List.filter_append,
    List.filter_append, ← hdropped]
  rfl

omit [UrlCrate] [PslCrate] in
theorem eval_parallelOutputs (o : Answers) (email : String) (services : Finset DiscoveryService) :
    (client.parallelOutputs email services).eval o =
      match Plan.of email services with
      | .error err => .error err
      | .ok plan =>
        match (client.checkResolver plan.domain).eval fun job => o (.run job) with
        | .error err => .error err
        | .ok () => .ok (plan.outputs ((plan.tasks email).map fun task => o (.join .mechanism task))) := by
  unfold parallelOutputs
  cases Plan.of email services with
  | error err => rfl
  | ok plan =>
    simp only [Prog.eval_bind, Compose.eval_inline]
    cases (client.checkResolver plan.domain).eval fun job => o (.run job) with
    | error err => rfl
    | ok =>
      simp only [Prog.eval_bind, @Compose.eval_scope o .mechanism]
      rfl

theorem eval_composeRaw {o : Answers} (h : client.Reports o) (email : String)
    (services : Finset DiscoveryService) :
    (client.composeRaw email services).eval o =
      ((client.parallelOutputs email services).eval o).map fun outputs =>
        ((outputs.flatten.map (client.setDavRoot (rootOf o))).filter fun c =>
          (DiscoveryConfigCollector.new services).wants c.service).map (withOauth o) := by
  unfold composeRaw
  rw [Prog.eval_bind]
  cases (client.parallelOutputs email services).eval o with
  | error err => rfl
  | ok outputs =>
    simp only [Prog.eval_bind, eval_resolveDavRoots, eval_resolveOauth h, Prog.return_eq,
      Prog.eval_pure, Except.map, List.map_flatten]
    rfl

theorem eval_composeAll {o : Answers} (h : client.Reports o) (email : String)
    (services : Finset DiscoveryService) :
    (client.composeAll email services).eval o =
      ((client.parallelOutputs email services).eval o).map fun outputs =>
        ((FirstFit.run DiscoveryConfigCollector.related DiscoveryConfigCollector.merge []
          ((outputs.flatten.map (client.setDavRoot (rootOf o))).filter fun c =>
            (DiscoveryConfigCollector.new services).wants c.service)).map (probed o)).map
              (withOauth o) := by
  have hfinish := fun outputs : List (List DiscoveryServiceConfig) => finish_collectOutputs services
    (outputs.map (·.map (client.setDavRoot (rootOf o))))
  simp only [DiscoveryConfigCollector.wanted, ← List.map_flatten] at hfinish
  unfold composeAll
  rw [eval_compose]
  simp only [eval_resolveDavRoots, eval_probe, eval_resolveOauth h, hfinish]

/-- The two fan-outs fail alike, or report the same configs of the wanted services. -/
theorem parallelOutputs_restricted {o : Answers} (h : client.Reports o) (email : String)
    (services : Finset DiscoveryService) :
    (∃ err, (client.parallelOutputs email services).eval o = .error err ∧
      (client.parallelOutputs email ∅).eval o = .error err) ∨
    ∃ outputs all, (client.parallelOutputs email services).eval o = .ok outputs ∧
      (client.parallelOutputs email ∅).eval o = .ok all ∧
      outputs.flatten.filter (fun c => (DiscoveryConfigCollector.new services).wants c.service) =
        all.flatten.filter (fun c => (DiscoveryConfigCollector.new services).wants c.service) := by
  rw [eval_parallelOutputs, eval_parallelOutputs, Plan.of_eq]
  cases Plan.of email ∅ with
  | error err => exact .inl ⟨err, rfl, rfl⟩
  | ok all =>
    have hdomain : (all.restrict services).domain = all.domain := rfl
    simp only [Except.map, hdomain]
    cases (client.checkResolver all.domain).eval fun job => o (.run job) with
    | error err => exact .inl ⟨err, rfl, rfl⟩
    | ok => exact .inr ⟨_, _, rfl, rfl, outputs_filter h all email services⟩

omit [UrlCrate] [PslCrate] in
theorem map_filter_service {f : DiscoveryServiceConfig → DiscoveryServiceConfig}
    (hf : ∀ c, (f c).service = c.service) (p : DiscoveryService → Bool)
    (configs : List DiscoveryServiceConfig) :
    (configs.map f).filter (fun c => p c.service) = (configs.filter fun c => p c.service).map f := by
  rw [List.filter_map]
  congr 1
  refine List.filter_congr fun c _ => ?_
  rw [Function.comp_apply, hf]

/-- A run for some services gives what the run for all gives, filtered; what its plan leaves out can
report nothing of these services. -/
theorem restricting_commutes (client : DiscoveryComposeClientStd) (email : String)
    {services : Finset DiscoveryService} (hservices : services.Nonempty) {o : Answers}
    (ho : client.Reports o) :
    (client.composeRaw email services).eval o =
      ((client.composeRaw email ∅).eval o).map (·.filter fun c => c.service ∈ services) ∧
    (client.composeAll email services).eval o =
      ((client.composeAll email ∅).eval o).map (·.filter fun c => c.service ∈ services) ∧
    ∀ plan all, Plan.of email services = .ok plan → Plan.of email ∅ = .ok all →
      ∀ mechanism ∈ all.mechanisms, mechanism ∉ plan.mechanisms → ∀ configs,
        (client.runMechanism mechanism all.localPart all.domain (Text.trim email)).Returns
          (fun _ _ => True) configs →
        ∀ c ∈ configs, c.service ∉ services := by
  have hwants := DiscoveryConfigCollector.wants_iff hservices
  have hroot : ∀ c, (client.setDavRoot (rootOf o) c).service = c.service := fun c =>
    (client.setDavRoot_account (rootOf o) c).service
  have hprobed : ∀ c, (probed o c).service = c.service := fun c =>
    (refineProbed_sameButAuth c _).service
  have hoauth : ∀ c, (withOauth o c).service = c.service := fun c => (withOauth_sameButAuth o c).service
  have hall : ∀ configs : List DiscoveryServiceConfig, configs.filter
      (fun c => (DiscoveryConfigCollector.new ∅).wants c.service) = configs := fun configs =>
    List.filter_eq_self.mpr fun c _ => DiscoveryConfigCollector.wants_empty c.service
  have hfilter := fun (f : DiscoveryServiceConfig → DiscoveryServiceConfig)
      (hf : ∀ c, (f c).service = c.service) configs =>
    map_filter_service hf (DiscoveryConfigCollector.new services).wants configs
  simp only [← hwants]
  refine ⟨?_, ?_, ?_⟩
  · rw [eval_composeRaw ho, eval_composeRaw ho]
    obtain ⟨err, herr, herr'⟩ | ⟨outputs, all, houtputs, hall', heq⟩ :=
      parallelOutputs_restricted ho email services
    · rw [herr, herr']
      rfl
    · rw [houtputs, hall']
      simp only [Except.map, hall, hfilter _ hroot, hfilter _ hoauth, heq]
  · rw [eval_composeAll ho, eval_composeAll ho]
    obtain ⟨err, herr, herr'⟩ | ⟨outputs, all, houtputs, hall', heq⟩ :=
      parallelOutputs_restricted ho email services
    · rw [herr, herr']
      rfl
    -- Only configs of one service are ever merged, so slots can be dropped by service.
    · have hrelated : ∀ s t, DiscoveryConfigCollector.related s t = true →
          (DiscoveryConfigCollector.new services).wants s.service =
            (DiscoveryConfigCollector.new services).wants t.service :=
        fun s t h => by rw [((DiscoveryConfigCollector.related_iff s t).mp h).1]
      have hmerged : ∀ s t, (DiscoveryConfigCollector.new services).wants
          (DiscoveryConfigCollector.merge s t).service =
            (DiscoveryConfigCollector.new services).wants s.service :=
        fun s t => by rw [DiscoveryConfigCollector.merge_service]
      have hrun := FirstFit.run_filter hrelated hmerged []
      rw [houtputs, hall']
      simp only [Except.map, hall, hfilter _ hroot, hfilter _ hprobed, hfilter _ hoauth, heq,
        ← hrun, List.filter_nil]
  · intro plan all hplan hall mechanism hmem hleft configs hreturns c hc
    rw [Plan.of_eq, hall] at hplan
    obtain rfl := Except.ok.inj hplan
    -- A mechanism that was left out serves none of the services.
    have hrelevant : mechanism.relevant services = false := by
      by_contra hne
      exact hleft (List.mem_filter.mpr ⟨hmem, by simpa using hne⟩)
    have hoffers := (client.runMechanism_offers mechanism _ _ _).returns hreturns c hc
    have hnot := Mechanism.not_wanted hrelevant hoffers
    rw [hwants, decide_eq_false_iff_not] at hnot
    exact hnot

end

def silentNet : ∀ job : Job, job.Answer
  | .check _ => .ok 0
  | .mx _ => .ok []
  | .srv _ => .ok DiscoverySrv.emptyReport
  | .cname _ => .ok none
  | .mailconf _ => .error .noMailconfRecord
  | .pacc _ => .error .noValidTxtRecord
  | .isp _ => .error .utf8
  | .dav _ _ | .jmap _ => .error (.wellKnown "unexpected EOF")
  | .wellKnown _ _ | .auth _ => .error "unexpected EOF"
  | .oauthServer _ | .oauthResource _ => .error (.status 404)

def calendarNet : ∀ job : Job, job.Answer
  | .pacc _ => .ok
      { protocols :=
          { jmap := none, caldav := some { url := "https://dav.example.org" }, carddav := none
            webdav := none, imap := some { host := "imap.example.org" }, pop3 := none, smtp := none
            managesieve := none }
        authentication := { oauthPublic := none, password := some true } }
  | .wellKnown _ _ => .ok (some { exampleOrigin with path := "/dav/" })
  | .auth _ => .ok ["basic"]
  | job => silentNet job

theorem restricting_commutes_caldav :
    letI := plainUrl
    letI := plainPsl
    let client := DiscoveryComposeClientStd.new exampleResolver
    let o := client.answers calendarNet
    (client.composeRaw "user@example.org" {.caldav}).eval o = .ok
      [{ service := .caldav, endpoint := .http "https://example.org/dav/", username := none,
          auth := [.password], source := .pacc, resolved := true }] := by
  let _ := plainUrl
  let _ := plainPsl
  have hcommutes := restricting_commutes (DiscoveryComposeClientStd.new exampleResolver)
    "user@example.org" (Finset.singleton_nonempty .caldav)
    (reports_answers (DiscoveryComposeClientStd.new exampleResolver) calendarNet)
  apply hcommutes.1.trans
  decide +kernel

end DiscoveryComposeClientStd
end PimDiscovery
