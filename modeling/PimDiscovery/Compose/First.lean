import PimDiscovery.Compose.Restricted

/-! Composing the first output alone: the mechanisms behind the first that offers a wanted service say
nothing in the result. -/

namespace PimDiscovery
open Interaction

def holdsWanted (services : Finset DiscoveryService) (output : List DiscoveryServiceConfig) : Bool :=
  output.any fun config => (DiscoveryConfigCollector.new services).wants config.service

namespace DiscoveryConfigCollector
variable [UrlCrate] {services : Finset DiscoveryService}

omit [UrlCrate] in
theorem filter_unwanted {output : List DiscoveryServiceConfig} :
    output.filter (fun config => (new services).wants config.service) = [] ↔
      holdsWanted services output = false := by
  rw [List.filter_eq_nil_iff, holdsWanted, List.any_eq_false]

theorem collect_unwanted {output : List DiscoveryServiceConfig}
    (h : holdsWanted services output = false) : (new services).collect output = new services := by
  rw [collect_eq, filter_unwanted.mpr h]
  rfl

theorem collect_isEmpty (output : List DiscoveryServiceConfig) :
    ((new services).collect output).isEmpty = !holdsWanted services output := by
  have hnil : ((new services).collect output).configs = [] ↔ holdsWanted services output = false := by
    rw [collect_eq, ← filter_unwanted]
    simp only [FirstFit.run_eq_nil_iff, new, true_and]
  rw [isEmpty, Bool.eq_iff_iff, List.isEmpty_iff, hnil, Bool.not_eq_true']

end DiscoveryConfigCollector

namespace DiscoveryComposeClientStd
variable [UrlCrate]

theorem collectOutputs_first (services : Finset DiscoveryService)
    (outputs : List (List DiscoveryServiceConfig)) :
    collectOutputs true (DiscoveryConfigCollector.new services) outputs =
      match outputs.find? (holdsWanted services) with
      | some output => (DiscoveryConfigCollector.new services).collect output
      | none => DiscoveryConfigCollector.new services := by
  induction outputs with
  | nil => rfl
  | cons output outputs ih =>
    rw [collectOutputs, DiscoveryConfigCollector.collect_isEmpty, Bool.not_not, Bool.true_and]
    cases h : holdsWanted services output with
    | true => rw [if_pos rfl, List.find?_cons_of_pos h]
    | false =>
      rw [if_neg Bool.false_ne_true, List.find?_cons_of_neg (by simp [h]),
        DiscoveryConfigCollector.collect_unwanted h]
      exact ih

theorem collectOutputs_first_empty (services : Finset DiscoveryService)
    (outputs : List (List DiscoveryServiceConfig)) :
    (collectOutputs true (DiscoveryConfigCollector.new services) outputs).finish = [] ↔
      ∀ output ∈ outputs, holdsWanted services output = false := by
  rw [collectOutputs_first]
  cases h : outputs.find? (holdsWanted services) with
  | none =>
    refine iff_of_true rfl fun output houtput => ?_
    simpa using List.find?_eq_none.mp h output houtput
  | some output =>
    have hwanted : holdsWanted services output = true := List.find?_some h
    refine iff_of_false (fun hnil => ?_) fun hall => ?_
    · have hempty : ((DiscoveryConfigCollector.new services).collect output).isEmpty = true :=
        List.isEmpty_iff.mpr hnil
      rw [DiscoveryConfigCollector.collect_isEmpty, hwanted] at hempty
      exact Bool.false_ne_true hempty
    · rw [hall output (List.mem_of_find?_eq_some h)] at hwanted
      exact Bool.false_ne_true hwanted

def NoMechanism (effect : Effect) : Prop := ∀ task, effect ≠ .join .mechanism task

variable (client : DiscoveryComposeClientStd)

def planOutputs (o : Answers) (plan : Plan) (email : String) : List (List DiscoveryServiceConfig) :=
  plan.outputs ((plan.tasks email).map fun task => o (.join .mechanism task))

theorem eval_composeFirst (o : Answers) (email : String) (services : Finset DiscoveryService) :
    (client.composeFirst email services).eval o =
      match (client.parallelOutputs email services).eval o with
      | .error err => .error err
      | .ok outputs => .ok ((resolveOauth
          ((collectOutputs true (DiscoveryConfigCollector.new services)
            (outputs.map (·.map (client.setDavRoot (rootOf o))))).finish.map (probed o))).eval o) := by
  unfold composeFirst
  rw [eval_compose]
  cases (client.parallelOutputs email services).eval o with
  | error err => rfl
  | ok outputs => simp only [Except.map, eval_resolveDavRoots, eval_probe]

theorem setDavRoot_wanted (rootOf : DiscoveryDavService × Url → Option Url)
    (services : Finset DiscoveryService) (output : List DiscoveryServiceConfig) :
    holdsWanted services (output.map (client.setDavRoot rootOf)) = holdsWanted services output := by
  unfold holdsWanted
  rw [List.any_map]
  congr 1
  funext config
  rw [Function.comp_apply, (client.setDavRoot_account rootOf config).service]

theorem collectOutputs_prefix {services : Finset DiscoveryService}
    {outputs outputs' : List (List DiscoveryServiceConfig)} {k : Nat}
    (hstart : outputs.take k = outputs'.take k)
    (hwanted : ∃ output ∈ outputs.take k, holdsWanted services output = true) :
    collectOutputs true (DiscoveryConfigCollector.new services) outputs =
      collectOutputs true (DiscoveryConfigCollector.new services) outputs' := by
  obtain ⟨output, houtput, hholds⟩ := hwanted
  have hfind : ∀ xs : List (List DiscoveryServiceConfig), output ∈ xs.take k →
      xs.find? (holdsWanted services) = (xs.take k).find? (holdsWanted services) := by
    intro xs hmem
    have hsome : ((xs.take k).find? (holdsWanted services)).isSome = true :=
      List.find?_isSome.mpr ⟨output, hmem, hholds⟩
    conv => lhs; rw [← List.take_append_drop k xs]
    rw [List.find?_append, Option.or_of_isSome hsome]
  rw [collectOutputs_first, collectOutputs_first, hfind outputs houtput,
    hfind outputs' (hstart ▸ houtput), hstart]

/-- Composing with the best mechanism alone: the reduction is the one of the first output that holds a
wanted config, and what comes behind that output says nothing in the result. -/
theorem composeFirst_best (email : String) (services : Finset DiscoveryService) :
    (∀ outputs : List (List DiscoveryServiceConfig),
      (collectOutputs true (DiscoveryConfigCollector.new services) outputs =
        match outputs.find? (holdsWanted services) with
        | some output => (DiscoveryConfigCollector.new services).collect output
        | none => DiscoveryConfigCollector.new services) ∧
      ((collectOutputs true (DiscoveryConfigCollector.new services) outputs).finish = [] ↔
        ∀ output ∈ outputs, holdsWanted services output = false)) ∧
    ∀ (plan : Plan) (k : Nat) (o o' : Answers), Plan.of email services = .ok plan →
      (∀ effect, NoMechanism effect → o effect = o' effect) →
      (planOutputs o plan email).take k = (planOutputs o' plan email).take k →
      (∃ output ∈ (planOutputs o plan email).take k, holdsWanted services output = true) →
      (client.composeFirst email services).eval o = (client.composeFirst email services).eval o' := by
  refine ⟨fun outputs => ⟨collectOutputs_first services outputs,
    collectOutputs_first_empty services outputs⟩, ?_⟩
  intro plan k o o' hplan hsame hstart hwanted
  -- The two runs can only differ in the outputs of mechanisms after the `k`-th.
  have hrun : (fun job => o (.run job)) = fun job => o' (.run job) := by
    funext job
    exact hsame _ fun task => by simp
  have hroot : rootOf o = rootOf o' := by
    funext target
    exact congrArg Option.join (hsame _ fun task => by simp)
  have hprobed : probed o = probed o' := by
    funext config
    have hschemes : schemesOf o config = schemesOf o' config :=
      congrArg Option.join (hsame _ fun task => by simp)
    rw [probed, probed, hschemes]
  have hoauth : ∀ configs, (resolveOauth configs).eval o = (resolveOauth configs).eval o' := by
    intro configs
    have hjoins : (resolveOauth configs).Always (Effect.Joins [.issuer, .resource])
        (fun _ _ => True) fun _ => True := resolveOauth_joins configs (by simp) (by simp)
    apply hjoins.eval_congr (fun _ => trivial)
    rintro _ ⟨kind, task, hkind, rfl⟩
    apply hsame
    intro mechanism hjoin
    obtain ⟨rfl, -⟩ := Effect.join.inj hjoin
    exact absurd hkind (by decide)
  rw [eval_composeFirst, eval_composeFirst, eval_parallelOutputs, eval_parallelOutputs, hplan, hrun]
  simp only
  cases (client.checkResolver plan.domain).eval fun job => o' (.run job) with
  | error err => rfl
  | ok =>
    simp only
    rw [hroot, hprobed, hoauth]
    -- The collector stops within the first `k` outputs.
    have hreduced : collectOutputs true (DiscoveryConfigCollector.new services)
        ((planOutputs o plan email).map (·.map (client.setDavRoot (rootOf o')))) =
      collectOutputs true (DiscoveryConfigCollector.new services)
        ((planOutputs o' plan email).map (·.map (client.setDavRoot (rootOf o')))) := by
      apply collectOutputs_prefix (k := k)
      · rw [← List.map_take, hstart, List.map_take]
      · obtain ⟨output, houtput, hholds⟩ := hwanted
        rw [← List.map_take]
        exact ⟨_, List.mem_map.mpr ⟨output, houtput, rfl⟩, by rwa [setDavRoot_wanted]⟩
    unfold planOutputs at hreduced
    rw [hreduced]

def withSrvReport (o : Answers) : Answers
  | .join .mechanism (.mechanism .srv _ _ _) => some
      [{ service := .imap, endpoint := .tcp "mail.example.org" 143 .starttls, username := none,
         auth := [.password], source := .srv, resolved := false }]
  | effect => o effect

omit [UrlCrate] in
theorem withSrvReport_eq (o : Answers) (effect : Effect) (h : NoMechanism effect) :
    o effect = withSrvReport o effect := by
  cases effect with
  | join kind task =>
    cases task with
    | mechanism mechanism localPart domain email => exact absurd rfl (h _)
    | check | davRoot | schemes | issuer | resource => rfl
  | run | spawn | recv | now => rfl

omit [UrlCrate] in
theorem composeFirst_best_pacc :
    letI := plainUrl
    letI := plainPsl
    let client := DiscoveryComposeClientStd.new exampleResolver
    let o := client.answers calendarNet
    (client.composeFirst "user@example.org" {.imap}).eval o =
      (client.composeFirst "user@example.org" {.imap}).eval (withSrvReport o) := by
  let _ := plainUrl
  let _ := plainPsl
  let client := DiscoveryComposeClientStd.new exampleResolver
  have hplan : Plan.of "user@example.org" {.imap} = .ok
      { providerOutput := none, localPart := "user", domain := "example.org"
        mechanisms := Plan.mechanismsFor none {.imap} } := by
    decide +kernel
  exact (composeFirst_best client "user@example.org" {.imap}).2 _ 2 (client.answers calendarNet)
    (withSrvReport (client.answers calendarNet)) hplan (withSrvReport_eq _) (by decide +kernel)
    (by decide +kernel)

end DiscoveryComposeClientStd
end PimDiscovery
