import PimDiscovery.Compose.Restricted
import PimDiscovery.Compose.Supervised

/-! A secure-only client returns encrypted endpoints, and loses no STARTTLS one on the way. -/

namespace PimDiscovery
open Interaction

section
variable [UrlCrate]

theorem DiscoveryEndpoint.below_tcp {e f : DiscoveryEndpoint} (h : Below e f) {host : String}
    {port : UInt16} {security : DiscoverySecurity}
    (ht : e = .tcp host port security ∨ f = .tcp host port security) : e = f := by
  rcases h with h | h
  · obtain rfl | ⟨a, b, u, rfl, rfl, -, -⟩ := (equivalent_iff e f).mp h
    · rfl
    · rcases ht with ht | ht <;> exact nomatch ht
  · obtain ⟨a, b, p, ha, hb, -⟩ := (subdomainOf_iff e f).mp h
    rcases ht with rfl | rfl
    · exact nomatch ha
    · exact nomatch hb

def KeepsTcp (slot : DiscoveryServiceConfig) (inputs : List DiscoveryServiceConfig) : Prop :=
  ∀ m ∈ inputs, SameAccount m slot ∧
    ∀ host port security, m.endpoint = .tcp host port security → slot.endpoint = m.endpoint

theorem KeepsTcp.merge {s x : DiscoveryServiceConfig} {ms : List DiscoveryServiceConfig}
    (h : KeepsTcp s ms) (hrel : DiscoveryConfigCollector.related s x = true) :
    KeepsTcp (DiscoveryConfigCollector.merge s x) (ms ++ [x]) := by
  obtain ⟨hservice, husername, hbelow⟩ := (DiscoveryConfigCollector.related_iff s x).mp hrel
  have hsame : ∀ host port security, s.endpoint = .tcp host port security ∨
      x.endpoint = .tcp host port security → s.endpoint = x.endpoint := by
    intro host port security ht
    rcases hbelow with hb | hb
    · exact DiscoveryEndpoint.below_tcp hb ht
    · exact (DiscoveryEndpoint.below_tcp hb ht.symm).symm
  have hmerged : s.endpoint = x.endpoint →
      (DiscoveryConfigCollector.merge s x).endpoint = s.endpoint := by
    intro heq
    have hm := DiscoveryConfigCollector.merge_endpoint_source_resolved s x
    split at hm
    · exact hm.1.trans heq.symm
    · exact hm.1
  intro m hm
  rcases List.mem_append.mp hm with hm | hm
  · obtain ⟨haccount, htcp⟩ := h m hm
    refine ⟨⟨by simp [haccount.service], by simp [haccount.username]⟩, ?_⟩
    intro host port security ht
    have hs := htcp host port security ht
    rw [← hs]
    exact hmerged (hsame host port security (.inl (hs.trans ht)))
  · rw [List.mem_singleton.mp hm]
    refine ⟨⟨by simp [hservice], by simp [husername]⟩, ?_⟩
    intro host port security ht
    have heq := hsame host port security (.inr ht)
    exact (hmerged heq).trans heq

theorem exists_keepsTcp {configs : List DiscoveryServiceConfig} {config : DiscoveryServiceConfig}
    (h : config ∈ configs) :
    ∃ slot ∈ FirstFit.run DiscoveryConfigCollector.related DiscoveryConfigCollector.merge [] configs,
      SameAccount config slot ∧ ∀ host port security,
        config.endpoint = .tcp host port security → slot.endpoint = config.endpoint := by
  have hsingle : ∀ x, KeepsTcp x [x] := by
    intro x m hm
    rw [List.mem_singleton.mp hm]
    exact ⟨⟨rfl, rfl⟩, fun _ _ _ _ => rfl⟩
  have hgrouped := FirstFit.grouped_run hsingle (fun _ _ _ hs hrel => hs.merge hrel) configs
  obtain ⟨j, hj, hinput, hslot⟩ := hgrouped.exists_slot h
  exact ⟨_, List.getElem_mem hj, hslot config hinput⟩

end

namespace DiscoveryComposeClientStd

def Kept (config : DiscoveryServiceConfig) (configs : List DiscoveryServiceConfig) : Prop :=
  ∃ kept ∈ configs, SameAccount kept config ∧ kept.endpoint = config.endpoint

section
variable [UrlCrate] [PslCrate] {client : DiscoveryComposeClientStd}

theorem supervised_possible (hurls : HttpsUrls) (hsecure : client.secureOnly = true) :
    Supervised (fun _ => True) client.Possible (fun _ => True) := by
  have hsources : Sources (fun _ => True) (fun _ _ => True) (fun _ => True) :=
    { named := fun _ _ => trivial
      isp := fun _ _ => trivial
      auth := fun _ _ => trivial
      wellKnown := fun _ _ _ => trivial
      oauthServer := fun _ _ _ _ => ⟨trivial, trivial⟩
      oauthResource := fun _ _ => trivial
      pacc := fun _ _ _ _ _ => trivial
      resource := fun _ _ _ _ _ => trivial }
  constructor
  · exact hsources
  · exact fun _ _ _ => trivial
  · exact fun _ _ _ _ => trivial
  · exact fun _ _ _ => trivial
  · trivial
  · intro kind task result ht hpossible
    exact (hsources.taskBody hsecure hurls ht).returns (hpossible result rfl)
  · intro kind tasks remaining index result ht hpossible
    obtain ⟨task, hindex, hreturns⟩ := hpossible index result rfl
    have hmem := List.mem_of_getElem? hindex
    exact ⟨task, hmem, (hsources.taskBody hsecure hurls (ht task hmem)).returns hreturns⟩

theorem kept_tcp {o : Answers} (ho : client.Reports o) {email : String}
    {services : Finset DiscoveryService} {outputs : List (List DiscoveryServiceConfig)}
    (houtputs : (client.parallelOutputs email services).eval o = .ok outputs)
    {config : DiscoveryServiceConfig} (hconfig : config ∈ outputs.flatten)
    (hwanted : (DiscoveryConfigCollector.new services).wants config.service = true) {host : String}
    {port : UInt16} {security : DiscoverySecurity} (ht : config.endpoint = .tcp host port security) :
    (∃ configs, (client.composeRaw email services).eval o = .ok configs ∧ Kept config configs) ∧
    ∃ configs, (client.composeAll email services).eval o = .ok configs ∧ Kept config configs := by
  have hroot : client.setDavRoot (rootOf o) config = config := by
    have htarget : davRootTarget config = none := by
      unfold davRootTarget
      simp only [ht]
      split
      · rfl
      · split <;> rfl
    unfold setDavRoot
    rw [htarget]
    rfl
  have hmem : config ∈ (outputs.flatten.map (client.setDavRoot (rootOf o))).filter fun c =>
      (DiscoveryConfigCollector.new services).wants c.service :=
    List.mem_filter.mpr ⟨List.mem_map.mpr ⟨config, hconfig, hroot⟩, hwanted⟩
  rw [eval_composeRaw ho, eval_composeAll ho, houtputs]
  refine ⟨⟨_, rfl, _, List.mem_map.mpr ⟨config, hmem, rfl⟩, ?_⟩, ⟨_, rfl, ?_⟩⟩
  · have hoauth := withOauth_sameButAuth o config
    exact ⟨hoauth.toSameAccount, hoauth.endpoint⟩
  · obtain ⟨slot, hslot, haccount, htcp⟩ := exists_keepsTcp hmem
    have hprobed := refineProbed_sameButAuth slot (schemesOf o slot)
    have hoauth := (withOauth_sameButAuth o (probed o slot)).trans hprobed
    refine ⟨_, List.mem_map.mpr ⟨_, List.mem_map.mpr ⟨slot, hslot, rfl⟩, rfl⟩, ?_, ?_⟩
    · exact ⟨hoauth.service.trans haccount.service.symm, hoauth.username.trans haccount.username.symm⟩
    · exact hoauth.endpoint.trans (htcp host port security ht)

/-- Whatever the coroutines, threads and clock answer, a secure-only client returns encrypted
endpoints only; its filter drops what is not encrypted, STARTTLS is, and a STARTTLS endpoint that a
mechanism reports is composed. -/
theorem returns_encrypted (hurls : HttpsUrls) (client : DiscoveryComposeClientStd)
    (hsecure : client.secureOnly = true) :
    (∀ (entry : ConfigEntry) configs, (entry.program client).Returns client.Possible (.ok configs) →
      ∀ c ∈ configs, c.isSecure = true) ∧
    (∀ configs, client.keepSecure configs = configs.filter (·.isSecure)) ∧
    (∀ (c : DiscoveryServiceConfig) host port, c.endpoint = .tcp host port .starttls →
      c.isSecure = true) ∧
    ∀ o, client.Reports o → ∀ email services outputs,
      (client.parallelOutputs email services).eval o = .ok outputs → ∀ c ∈ outputs.flatten,
        (DiscoveryConfigCollector.new services).wants c.service = true → ∀ host port,
          c.endpoint = .tcp host port .starttls →
          (∃ configs, (client.composeRaw email services).eval o = .ok configs ∧ Kept c configs) ∧
          ∃ configs, (client.composeAll email services).eval o = .ok configs ∧ Kept c configs := by
  refine ⟨fun entry configs hreturns => ?_, fun configs => ?_, fun c host port hc => ?_, ?_⟩
  · have hentry := (supervised_possible hurls hsecure).entry hurls hsecure entry
    exact hentry.returns hreturns configs rfl
  · unfold keepSecure
    rw [if_pos hsecure]
  · exact (isSecure_tcp hc).mpr nofun
  · intro o ho email services outputs houtputs c hc hwanted host port ht
    exact kept_tcp ho houtputs hc hwanted ht

end

def mailNet : ∀ job : Job, job.Answer
  | .srv _ => .ok
      { DiscoverySrv.emptyReport with
        imap := some { host := "imap.example.org", port := 143, priority := 0, weight := 1 } }
  | job => silentNet job

def mailConfig : DiscoveryServiceConfig :=
  { service := .imap, endpoint := .tcp "imap.example.org" 143 .starttls, username := none,
    auth := [.password], source := .srv, resolved := false }

theorem returns_starttls :
    letI := plainUrl
    letI := plainPsl
    let client := (DiscoveryComposeClientStd.new exampleResolver).withSecureOnly true
    ∃ configs, (client.composeAll "user@example.org" {.imap}).eval (client.answers mailNet) =
      .ok configs ∧ Kept mailConfig configs ∧ ∀ c ∈ configs, c.isSecure = true := by
  let _ := plainUrl
  let _ := plainPsl
  let client := (DiscoveryComposeClientStd.new exampleResolver).withSecureOnly true
  have hreports := reports_answers client mailNet
  obtain ⟨hsecure, -, -, hkept⟩ := returns_encrypted plainUrl_https client rfl
  have houtputs : (client.parallelOutputs "user@example.org" {.imap}).eval (client.answers mailNet) =
      .ok [[], [], [], [], [], [], [], [mailConfig]] := by
    decide +kernel
  obtain ⟨-, configs, hconfigs, hmem⟩ := hkept _ hreports "user@example.org" {.imap} _ houtputs
    mailConfig (by simp) rfl "imap.example.org" 143 rfl
  refine ⟨configs, hconfigs, hmem, hsecure (.composeAll "user@example.org" {.imap}) configs ?_⟩
  rw [← hconfigs]
  exact Prog.returns_eval hreports _

end DiscoveryComposeClientStd
end PimDiscovery
