import PimDiscovery.Compose.First
import PimDiscovery.Compose.Merged

/-! The entry points side by side: composing everything, composing with the best mechanism alone and
listing what was found say the same of an address, in more or fewer configs. -/

namespace PimDiscovery
open Interaction

variable [UrlCrate]

/-- The same account, at an endpoint that is as good: resolved where the other is, and the other's own or
a parent of it where they are resolved alike. -/
structure NoWorse (c d : DiscoveryServiceConfig) : Prop extends SameAccount c d where
  resolved : d.resolved = true → c.resolved = true
  endpoint : d.resolved = c.resolved → DiscoveryEndpoint.Below d.endpoint c.endpoint

namespace NoWorse
variable {b c d : DiscoveryServiceConfig}

theorem of_sameButAuth (h : SameButAuth c d) : NoWorse c d where
  toSameAccount := h.toSameAccount
  resolved := fun hr => h.resolved.trans hr
  endpoint := fun _ => h.endpoint ▸ .refl _

theorem trans (h : NoWorse b c) (h' : NoWorse c d) : NoWorse b d where
  service := h.service.trans h'.service
  username := h.username.trans h'.username
  resolved := fun hr => h.resolved (h'.resolved hr)
  endpoint := by
    intro heq
    -- The one between them is resolved as they are.
    have hdc : d.resolved = c.resolved := by
      cases hd : d.resolved with
      | true => exact (h'.resolved hd).symm
      | false =>
        cases hc : c.resolved with
        | false => rfl
        | true =>
          have hb := h.resolved hc
          rw [← heq, hd] at hb
          cases hb
    exact (h'.endpoint hdc).trans (h.endpoint (hdc.symm.trans heq))

end NoWorse

omit [UrlCrate] in
theorem SameButAuth.symm {c d : DiscoveryServiceConfig} (h : SameButAuth c d) : SameButAuth d c :=
  ⟨⟨h.service.symm, h.username.symm⟩, h.endpoint.symm, h.source.symm, h.resolved.symm⟩

namespace DiscoveryConfigCollector
variable {s x : DiscoveryServiceConfig}

theorem merge_noWorse (h : related s x = true) : NoWorse (merge s x) s ∧ NoWorse (merge s x) x := by
  obtain ⟨hservice, husername, -⟩ := (related_iff s x).mp h
  obtain ⟨hresolved, hs, hx⟩ := merge_resolved_below h
  refine ⟨⟨⟨merge_service s x, merge_username s x⟩, fun hr => ?_, hs⟩,
    ⟨⟨(merge_service s x).trans hservice, (merge_username s x).trans husername⟩, fun hr => ?_, hx⟩⟩
  · rw [hresolved, hr, Bool.true_or]
  · rw [hresolved, hr, Bool.or_true]

theorem merge_sameButAuth (h : related s x = true) :
    SameButAuth (merge s x) s ∨ SameButAuth (merge s x) x := by
  obtain ⟨hservice, husername, -⟩ := (related_iff s x).mp h
  have hm := merge_endpoint_source_resolved s x
  by_cases ht : takesOver s x = true
  · rw [if_pos ht] at hm
    exact .inr ⟨⟨(merge_service s x).trans hservice, (merge_username s x).trans husername⟩,
      hm.1, hm.2.1, hm.2.2⟩
  · rw [if_neg ht] at hm
    exact .inl ⟨⟨merge_service s x, merge_username s x⟩, hm.1, hm.2.1, hm.2.2⟩

theorem run_length_le (configs : List DiscoveryServiceConfig) :
    (FirstFit.run related merge [] configs).length ≤ configs.length := by
  have hcount : (FirstFit.run related merge [] configs).countP (fun _ => true) ≤
      [].countP (fun _ : DiscoveryServiceConfig => true) + configs.countP fun _ => true :=
    FirstFit.countP_run_le (fun _ _ _ => .inl rfl) [] configs
  simpa using hcount

theorem run_kept (configs : List DiscoveryServiceConfig) :
    ∀ slot ∈ FirstFit.run related merge [] configs, ∃ config ∈ configs, SameButAuth slot config := by
  apply FirstFit.forall_run
  · rintro s x hrel ⟨c, hc, hsc⟩ ⟨d, hd, hxd⟩
    rcases merge_sameButAuth hrel with hm | hm
    · exact ⟨c, hc, hm.trans hsc⟩
    · exact ⟨d, hd, hm.trans hxd⟩
  · simp
  · exact fun config hconfig => ⟨config, hconfig, ⟨⟨rfl, rfl⟩, rfl, rfl, rfl⟩⟩

theorem run_represents {configs : List DiscoveryServiceConfig} {config : DiscoveryServiceConfig}
    (h : config ∈ configs) : ∃ slot ∈ FirstFit.run related merge [] configs, NoWorse slot config := by
  apply FirstFit.exists_run
  · rintro s x hrel (hs | hx)
    · exact (merge_noWorse hrel).1.trans hs
    · exact (merge_noWorse hrel).2.trans hx
  · exact .inr ⟨config, h, .of_sameButAuth ⟨⟨rfl, rfl⟩, rfl, rfl, rfl⟩⟩

theorem run_start (start rest : List DiscoveryServiceConfig) {i : Nat} {slot : DiscoveryServiceConfig}
    (h : (FirstFit.run related merge [] start)[i]? = some slot) :
    ∃ slot', (FirstFit.run related merge [] (start ++ rest))[i]? = some slot' ∧ NoWorse slot' slot := by
  rw [FirstFit.run, List.foldl_append]
  refine FirstFit.getElem?_run (R := fun s t => NoWorse t s) ?_ ?_ ?_ h rest
  · exact fun s => .of_sameButAuth ⟨⟨rfl, rfl⟩, rfl, rfl, rfl⟩
  · exact fun hst htu => htu.trans hst
  · exact fun s x hrel => (merge_noWorse hrel).1

/-- What the reduction that stops at the first output reads is a start of what the other one reads, and
nothing only if the other one reads nothing. -/
theorem wanted_start (services : Finset DiscoveryService) (outputs : List (List DiscoveryServiceConfig)) :
    ∃ start rest, wanted services outputs = start ++ rest ∧ (start = [] → rest = []) ∧
      (DiscoveryComposeClientStd.collectOutputs true (new services) outputs).finish =
        FirstFit.run related merge [] start := by
  rw [DiscoveryComposeClientStd.collectOutputs_first]
  cases h : outputs.find? (holdsWanted services) with
  | none =>
    refine ⟨[], [], ?_, fun _ => rfl, rfl⟩
    rw [wanted, List.append_nil, List.filter_flatten, List.flatten_eq_nil_iff]
    simp only [List.mem_map, forall_exists_index, and_imp, forall_apply_eq_imp_iff₂]
    intro output houtput
    have hnone := List.find?_eq_none.mp h output houtput
    exact filter_unwanted.mpr (by simpa using hnone)
  | some output =>
    obtain ⟨hholds, pre, post, rfl, hpre⟩ := List.find?_eq_some_iff_append.mp h
    have hnil : (pre.flatten.filter fun config => (new services).wants config.service) = [] := by
      rw [List.filter_flatten, List.flatten_eq_nil_iff]
      simp only [List.mem_map, forall_exists_index, and_imp, forall_apply_eq_imp_iff₂]
      intro unwanted hmem
      exact filter_unwanted.mpr (by simpa using hpre unwanted hmem)
    refine ⟨output.filter fun config => (new services).wants config.service,
      post.flatten.filter fun config => (new services).wants config.service, ?_, ?_,
      by simp only [collect_eq]; rfl⟩
    · rw [wanted, List.flatten_append, List.flatten_cons, List.filter_append, List.filter_append, hnil,
        List.nil_append]
    · intro hstart
      have hnot := filter_unwanted.mp hstart
      rw [hholds] at hnot
      cases hnot

end DiscoveryConfigCollector

namespace DiscoveryComposeClientStd
variable (client : DiscoveryComposeClientStd)

def finished (o : Answers) (config : DiscoveryServiceConfig) : DiscoveryServiceConfig :=
  withOauth o (probed o config)

theorem finished_sameButAuth (o : Answers) (config : DiscoveryServiceConfig) :
    SameButAuth (finished o config) config :=
  (withOauth_sameButAuth o _).trans (refineProbed_sameButAuth config _)

theorem eval_entries [PslCrate] {o : Answers} (h : client.Reports o) (email : String)
    (services : Finset DiscoveryService) :
    (∃ err, (client.composeRaw email services).eval o = .error err ∧
      (client.composeAll email services).eval o = .error err ∧
      (client.composeFirst email services).eval o = .error err) ∨
    ∃ start rest, (start = [] → rest = []) ∧
      (client.composeRaw email services).eval o = .ok ((start ++ rest).map (withOauth o)) ∧
      (client.composeAll email services).eval o = .ok ((FirstFit.run DiscoveryConfigCollector.related
        DiscoveryConfigCollector.merge [] (start ++ rest)).map (finished o)) ∧
      (client.composeFirst email services).eval o = .ok ((FirstFit.run DiscoveryConfigCollector.related
        DiscoveryConfigCollector.merge [] start).map (finished o)) := by
  rw [eval_composeRaw h, eval_composeAll h, eval_composeFirst]
  cases (client.parallelOutputs email services).eval o with
  | error err => exact .inl ⟨err, rfl, rfl, rfl⟩
  | ok outputs =>
    obtain ⟨start, rest, hwanted, hnil, hfirst⟩ := DiscoveryConfigCollector.wanted_start services
      (outputs.map (·.map (client.setDavRoot (rootOf o))))
    rw [DiscoveryConfigCollector.wanted, ← List.map_flatten] at hwanted
    refine .inr ⟨start, rest, hnil, ?_, ?_, ?_⟩
    · simp only [Except.map, hwanted]
    · simp only [Except.map, hwanted, List.map_map]
      rfl
    · simp only [hfirst, eval_resolveOauth h, List.map_map]
      rfl

/-- On the same answers the entry points fail alike, or agree on the address: all configs together come
from none but raw ones and stand for each of them, and each config of the best mechanism is stood for at
its own position. -/
theorem composes_agree [PslCrate] {o : Answers} (h : client.Reports o) (email : String)
    (services : Finset DiscoveryService) :
    (∃ err, (client.composeRaw email services).eval o = .error err ∧
      (client.composeAll email services).eval o = .error err ∧
      (client.composeFirst email services).eval o = .error err) ∨
    ∃ raws alls firsts : List DiscoveryServiceConfig, (client.composeRaw email services).eval o = .ok raws ∧
      (client.composeAll email services).eval o = .ok alls ∧
      (client.composeFirst email services).eval o = .ok firsts ∧
      (firsts = [] ↔ raws = []) ∧ alls.length ≤ raws.length ∧
      (∀ config ∈ alls ++ firsts, ∃ raw ∈ raws, SameButAuth config raw) ∧
      (∀ raw ∈ raws, ∃ config ∈ alls, NoWorse config raw) ∧
      ∀ (i : Nat) best, firsts[i]? = some best → ∃ config, alls[i]? = some config ∧ NoWorse config best := by
  obtain herr | ⟨start, rest, hnil, hraw, hall, hfirst⟩ := eval_entries client h email services
  · exact .inl herr
  refine .inr ⟨_, _, _, hraw, hall, hfirst, ?_, ?_, ?_, ?_, ?_⟩
  · rw [List.map_eq_nil_iff, List.map_eq_nil_iff, FirstFit.run_eq_nil_iff, List.append_eq_nil_iff]
    exact ⟨fun hs => ⟨hs.2, hnil hs.2⟩, fun hs => ⟨rfl, hs.1⟩⟩
  · rw [List.length_map, List.length_map]
    exact DiscoveryConfigCollector.run_length_le _
  · intro config hconfig
    obtain ⟨slot, hslot, rfl⟩ : ∃ slot, (∃ raw ∈ start ++ rest, SameButAuth slot raw) ∧
        finished o slot = config := by
      rw [← List.map_append, List.mem_map] at hconfig
      obtain ⟨slot, hslot, rfl⟩ := hconfig
      refine ⟨slot, ?_, rfl⟩
      rcases List.mem_append.mp hslot with hslot | hslot
      · exact DiscoveryConfigCollector.run_kept _ slot hslot
      · obtain ⟨raw, hmem, hsame⟩ := DiscoveryConfigCollector.run_kept _ slot hslot
        exact ⟨raw, List.mem_append_left rest hmem, hsame⟩
    obtain ⟨raw, hmem, hsame⟩ := hslot
    refine ⟨withOauth o raw, List.mem_map_of_mem hmem, ?_⟩
    exact ((finished_sameButAuth o slot).trans hsame).trans (withOauth_sameButAuth o raw).symm
  · intro config hconfig
    obtain ⟨raw, hmem, rfl⟩ := List.mem_map.mp hconfig
    obtain ⟨slot, hslot, hbest⟩ := DiscoveryConfigCollector.run_represents hmem
    refine ⟨finished o slot, List.mem_map_of_mem hslot, ?_⟩
    have hslot := NoWorse.of_sameButAuth (finished_sameButAuth o slot)
    exact (hslot.trans hbest).trans (.of_sameButAuth (withOauth_sameButAuth o raw).symm)
  · intro i config hconfig
    rw [List.getElem?_map, Option.map_eq_some_iff] at hconfig
    obtain ⟨slot, hslot, rfl⟩ := hconfig
    obtain ⟨slot', hslot', hbest⟩ := DiscoveryConfigCollector.run_start start rest hslot
    refine ⟨finished o slot', by rw [List.getElem?_map, hslot', Option.map_some], ?_⟩
    have hfinished := NoWorse.of_sameButAuth (finished_sameButAuth o slot')
    exact (hfinished.trans hbest).trans (.of_sameButAuth (finished_sameButAuth o slot).symm)

def recordedNet : ∀ job : Job, job.Answer
  | .srv _ => .ok { DiscoverySrv.emptyReport with
      imaps := some { host := "imap.example.org", port := 993, priority := 0, weight := 1 } }
  | job => calendarNet job

omit [UrlCrate] in
theorem composes_agree_recorded :
    letI := plainUrl
    letI := plainPsl
    let client := DiscoveryComposeClientStd.new exampleResolver
    let o := client.answers recordedNet
    ∃ raws alls : List DiscoveryServiceConfig,
      (client.composeRaw "user@example.org" ∅).eval o = .ok raws ∧
      (client.composeAll "user@example.org" ∅).eval o = .ok alls ∧ raws.length = 3 ∧
      alls.length = 2 ∧ ∀ raw ∈ raws, ∃ config ∈ alls, NoWorse config raw := by
  let _ := plainUrl
  let _ := plainPsl
  let client := DiscoveryComposeClientStd.new exampleResolver
  have hraw : ((client.composeRaw "user@example.org" ∅).eval (client.answers recordedNet)).map
      List.length = .ok 3 := by decide +kernel
  have hall : ((client.composeAll "user@example.org" ∅).eval (client.answers recordedNet)).map
      List.length = .ok 2 := by decide +kernel
  obtain ⟨err, herr, -⟩ | ⟨raws, alls, firsts, hraws, halls, -, -, -, -, hstands, -⟩ := composes_agree client
    (reports_answers client recordedNet) "user@example.org" ∅
  · rw [herr] at hraw
    cases hraw
  · rw [hraws] at hraw
    rw [halls] at hall
    exact ⟨raws, alls, hraws, halls, Except.ok.inj hraw, Except.ok.inj hall, hstands⟩

end DiscoveryComposeClientStd
end PimDiscovery
