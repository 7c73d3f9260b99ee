import PimDiscovery.Compose.Collect

/-! What whole runs of the collector keep: which configs share a slot, what a slot holds of them,
and when the slots stay apart. -/

namespace PimDiscovery
namespace DiscoveryConfigCollector
variable [UrlCrate]

def Deduplicated (configs : List DiscoveryServiceConfig) : Prop :=
  configs.Pairwise fun c d => related c d = false

instance (configs : List DiscoveryServiceConfig) : Decidable (Deduplicated configs) :=
  inferInstanceAs (Decidable (List.Pairwise _ configs))

/-- A wanted config that takes over the first slot it is related to is related to no later slot. -/
def KeepsApart (self : DiscoveryConfigCollector) (config : DiscoveryServiceConfig) : Prop :=
  self.wants config.service = true →
    ∀ pre s post, self.configs = pre ++ s :: post → (∀ t ∈ pre, related t config = false) →
      related s config = true → takesOver s config = true → ∀ t ∈ post, related t config = false

def AllKeepApart (self : DiscoveryConfigCollector) : List DiscoveryServiceConfig → Prop
  | [] => True
  | config :: configs => self.KeepsApart config ∧ (self.collectOne config).AllKeepApart configs

theorem merge_related_of_takesOver {s x : DiscoveryServiceConfig} (hs : related s x = true)
    (h : takesOver s x = true) (t : DiscoveryServiceConfig) :
    related (merge s x) t = related t x := by
  have hm := merge_endpoint_source_resolved s x
  rw [if_pos h] at hm
  obtain ⟨hserv, huser, -⟩ := (related_iff s x).mp hs
  have hx : related (merge s x) t = related x t :=
    related_congr (by simp [hserv]) (by simp [huser]) hm.1
  rw [hx, related_comm]

theorem merge_related_of_not_takesOver {s x : DiscoveryServiceConfig}
    (h : ¬ takesOver s x = true) (t : DiscoveryServiceConfig) :
    related (merge s x) t = related s t := by
  have hm := merge_endpoint_source_resolved s x
  rw [if_neg h] at hm
  exact related_congr (merge_service s x) (merge_username s x) hm.1

theorem deduplicated_collectOne_iff {self : DiscoveryConfigCollector}
    (h : Deduplicated self.configs) (config : DiscoveryServiceConfig) :
    Deduplicated (self.collectOne config).configs ↔ self.KeepsApart config := by
  rw [collectOne_eq, KeepsApart]
  by_cases hw : self.wants config.service = true
  · rw [if_pos hw, Deduplicated, FirstFit.pairwise_absorb_iff related_comm h]
    simp only [hw, forall_const]
    refine forall₄_congr fun pre s post he => forall₂_congr fun hpre hs => ?_
    have hd := h
    rw [Deduplicated, he] at hd
    simp only [List.pairwise_append, List.pairwise_cons, List.mem_cons] at hd
    constructor
    · intro hm hto t ht
      rw [← merge_related_of_takesOver hs hto]
      exact hm t (by simp [ht])
    · intro hk t ht
      by_cases hto : takesOver s config = true
      · rw [merge_related_of_takesOver hs hto]
        rcases List.mem_append.mp ht with ht | ht
        · exact hpre t ht
        · exact hk hto t ht
      · rw [merge_related_of_not_takesOver hto]
        rcases List.mem_append.mp ht with ht | ht
        · rw [related_comm]
          exact hd.2.2 t ht s (.inl rfl)
        · exact hd.2.1.1 t ht
  · rw [if_neg hw]
    exact ⟨fun _ hw' => absurd hw' hw, fun _ => h⟩

theorem deduplicated_prefixes_iff {self : DiscoveryConfigCollector}
    (h : Deduplicated self.configs) (xs : List DiscoveryServiceConfig) :
    (∀ ys, ys <+: xs → Deduplicated (self.collect ys).configs) ↔ self.AllKeepApart xs := by
  induction xs generalizing self with
  | nil =>
    refine ⟨fun _ => trivial, fun _ ys hys => ?_⟩
    rw [List.prefix_nil.mp hys]
    exact h
  | cons x xs ih =>
    rw [AllKeepApart, ← deduplicated_collectOne_iff h]
    constructor
    · intro hall
      have hx : Deduplicated (self.collectOne x).configs := hall [x] ⟨xs, rfl⟩
      exact ⟨hx, (ih hx).mp fun ys hys => hall (x :: ys) (List.cons_prefix_cons.mpr ⟨rfl, hys⟩)⟩
    · rintro ⟨hx, hrest⟩ ys hys
      cases ys with
      | nil => exact h
      | cons y ys =>
        obtain ⟨rfl, htail⟩ := List.cons_prefix_cons.mp hys
        exact (ih hx).mpr hrest ys htail

/-- The collector's lists are deduplicated, after every part of a run, exactly when every config
of the run keeps the slots apart. -/
theorem deduplicated_iff (services : Finset DiscoveryService)
    (calls : List (List DiscoveryServiceConfig)) :
    (∀ begun : List (List DiscoveryServiceConfig), begun.flatten <+: calls.flatten →
      Deduplicated (collects services begun).finish) ↔
    (new services).AllKeepApart calls.flatten := by
  rw [← deduplicated_prefixes_iff (show Deduplicated (new services).configs from .nil)]
  constructor
  · intro h ys hys
    simpa [collects, foldl_collect, finish] using h [ys] (by simpa using hys)
  · intro h begun hb
    rw [collects, foldl_collect]
    exact h _ hb

omit [UrlCrate] in
/-- Two sibling hosts, then their parent: the parent takes over the first and is above the second. -/
theorem siblings_then_parent :
    letI := plainUrl
    ¬ Deduplicated (collects ∅ [["https://a.x.com/", "https://b.x.com/", "https://x.com/"].map
      fun url => { DiscoveryServiceConfig.fromDav .carddav url with resolved := false }]).finish := by
  decide +kernel

/-- The methods of some configs: the first one's list, then each later new one once. -/
def mergedAuth : List DiscoveryServiceConfig → List DiscoveryAuthMethod
  | [] => []
  | m :: ms => m.auth ++ ((ms.flatMap (·.auth)).filter (· ∉ m.auth)).eraseDups

omit [UrlCrate] in
theorem mem_pushMethod {auth : List DiscoveryAuthMethod} {method m : DiscoveryAuthMethod} :
    m ∈ pushMethod auth method ↔ m ∈ auth ∨ m = method := by
  unfold pushMethod
  split
  · rename_i hcontains
    refine ⟨.inl, fun hm => hm.elim id ?_⟩
    rintro rfl
    exact List.contains_iff_mem.mp hcontains
  · rw [List.mem_append, List.mem_singleton]

omit [UrlCrate] in
theorem foldl_append_new {α : Type} [DecidableEq α] (acc items : List α) :
    items.foldl (fun acc item => if acc.contains item then acc else acc ++ [item]) acc =
      acc ++ (items.filter (· ∉ acc)).eraseDups := by
  induction items generalizing acc with
  | nil => simp
  | cons m items ih =>
    rw [List.foldl_cons, ih]
    by_cases h : m ∈ acc
    · simp [h]
    · have hf : items.filter (· ∉ acc ++ [m]) =
          (items.filter (· ∉ acc)).filter fun b => !b == m := by
        rw [List.filter_filter]
        refine List.filter_congr fun b _ => ?_
        by_cases hb : b = m <;> simp [hb]
      rw [if_neg (by simpa using h), hf, List.filter_cons_of_pos (by simpa using h),
        List.eraseDups_cons]
      simp

omit [UrlCrate] in
theorem foldl_pushMethod (acc methods : List DiscoveryAuthMethod) :
    methods.foldl pushMethod acc = acc ++ (methods.filter (· ∉ acc)).eraseDups :=
  foldl_append_new acc methods

structure Merged (slot : DiscoveryServiceConfig) (inputs : List DiscoveryServiceConfig) : Prop where
  account : ∀ m ∈ inputs, m.service = slot.service ∧ m.username = slot.username
  auth : slot.auth = mergedAuth inputs
  origin : ∃ m ∈ inputs, slot.endpoint = m.endpoint ∧ slot.source = m.source ∧
    slot.resolved = m.resolved
  resolved : slot.resolved = inputs.any (·.resolved)
  below : ∀ m ∈ inputs, m.resolved = slot.resolved →
    DiscoveryEndpoint.Below m.endpoint slot.endpoint

theorem Merged.single (x : DiscoveryServiceConfig) : Merged x [x] where
  account := by simp
  auth := by simp [mergedAuth]
  origin := ⟨x, by simp, rfl, rfl, rfl⟩
  resolved := by simp
  below := by simpa using DiscoveryEndpoint.Below.refl x.endpoint

omit [UrlCrate] in
theorem mergedAuth_concat (ms : List DiscoveryServiceConfig) (hms : ms ≠ [])
    (x : DiscoveryServiceConfig) :
    mergedAuth (ms ++ [x]) = x.auth.foldl pushMethod (mergedAuth ms) := by
  cases ms with
  | nil => exact absurd rfl hms
  | cons m ms =>
    simp only [List.cons_append, mergedAuth, List.flatMap_append, ← foldl_pushMethod,
      List.foldl_append, List.flatMap_singleton]

/-- A merge puts the resolved flag up, never down, and the endpoint up within one flag. -/
theorem merge_resolved_below {s x : DiscoveryServiceConfig} (h : related s x = true) :
    (merge s x).resolved = (s.resolved || x.resolved) ∧
      (s.resolved = (merge s x).resolved →
        DiscoveryEndpoint.Below s.endpoint (merge s x).endpoint) ∧
      (x.resolved = (merge s x).resolved →
        DiscoveryEndpoint.Below x.endpoint (merge s x).endpoint) := by
  have hm := merge_endpoint_source_resolved s x
  obtain ⟨-, -, hrel⟩ := (related_iff s x).mp h
  by_cases ht : takesOver s x = true
  · rw [if_pos ht] at hm
    rw [hm.1, hm.2.2]
    refine ⟨?_, fun hr => ?_, fun _ => .refl _⟩
    · revert ht
      unfold takesOver
      cases s.resolved <;> cases x.resolved <;> simp
    · exact .inr (by simpa [takesOver, hr] using ht)
  · rw [if_neg ht] at hm
    rw [hm.1, hm.2.2]
    refine ⟨?_, fun _ => .refl _, fun hr => ?_⟩
    · revert ht
      unfold takesOver
      cases s.resolved <;> cases x.resolved <;> simp
    · have hs : ¬ s.endpoint.subdomainOf x.endpoint = true := by simpa [takesOver, hr] using ht
      rcases hrel with (he | he) | he
      · exact .inl (DiscoveryEndpoint.equivalent_symm he)
      · exact absurd he hs
      · exact he

theorem Merged.merge {s : DiscoveryServiceConfig} {ms : List DiscoveryServiceConfig}
    {x : DiscoveryServiceConfig} (h : Merged s ms) (hrel : related s x = true) :
    Merged (merge s x) (ms ++ [x]) := by
  obtain ⟨hserv, huser, -⟩ := (related_iff s x).mp hrel
  obtain ⟨hres, hs, hx⟩ := merge_resolved_below hrel
  obtain ⟨m₀, hm₀, horigin⟩ := h.origin
  constructor
  · intro m hm
    rw [merge_service, merge_username]
    rcases List.mem_append.mp hm with hm | hm
    · exact h.account m hm
    · rw [List.mem_singleton.mp hm]
      exact ⟨hserv.symm, huser.symm⟩
  · rw [merge_auth, h.auth, mergedAuth_concat ms (List.ne_nil_of_mem hm₀)]
  · have hm := merge_endpoint_source_resolved s x
    by_cases ht : takesOver s x = true
    · rw [if_pos ht] at hm
      exact ⟨x, by simp, hm⟩
    · rw [if_neg ht] at hm
      refine ⟨m₀, by simp [hm₀], hm.1.trans horigin.1, hm.2.1.trans horigin.2.1, ?_⟩
      exact hm.2.2.trans horigin.2.2
  · rw [hres, h.resolved]
    simp
  · intro m hm hr
    rcases List.mem_append.mp hm with hm | hm
    -- An input flagged like the merged config was flagged like its slot before.
    · have hms : m.resolved = s.resolved := by
        by_contra hne
        have hmf : m.resolved = true → s.resolved = true := fun hmt => by
          rw [h.resolved, List.any_eq_true]
          exact ⟨m, hm, hmt⟩
        rw [hres] at hr
        revert hr hmf hne
        cases m.resolved <;> cases s.resolved <;> simp
      exact (h.below m hm hms).trans (hs (hms.symm.trans hr))
    · obtain rfl := List.mem_singleton.mp hm
      exact hx hr

theorem grouped_collects (services : Finset DiscoveryService)
    (calls : List (List DiscoveryServiceConfig)) :
    FirstFit.Grouped Merged (collects services calls).finish (wanted services calls)
      (slots services calls) := by
  rw [finish_collects]
  exact FirstFit.grouped_run Merged.single (fun _ _ _ h hrel => h.merge hrel) _

/-- The order of the inputs decides neither a slot's endpoint, up to equivalence, nor its flag. -/
theorem Merged.unique {s t : DiscoveryServiceConfig} {ms ns : List DiscoveryServiceConfig}
    (hs : Merged s ms) (ht : Merged t ns) (h : ∀ m, m ∈ ms ↔ m ∈ ns) :
    s.endpoint.equivalent t.endpoint = true ∧ s.resolved = t.resolved := by
  have hr : s.resolved = t.resolved := by
    rw [hs.resolved, ht.resolved, Bool.eq_iff_iff, List.any_eq_true, List.any_eq_true]
    simp only [h]
  obtain ⟨m, hm, hme, -, hmr⟩ := hs.origin
  obtain ⟨n, hn, hne, -, hnr⟩ := ht.origin
  refine ⟨DiscoveryEndpoint.Below.antisymm ?_ ?_, hr⟩
  · rw [hme]
    exact ht.below m ((h m).mp hm) (hmr.symm.trans hr)
  · rw [hne]
    exact hs.below n ((h n).mpr hn) (hnr.symm.trans hr.symm)

theorem two_collected (services : Finset DiscoveryService) {c d : DiscoveryServiceConfig}
    (h : related c d = true) (hw : (new services).wants c.service = true)
    {calls : List (List DiscoveryServiceConfig)} (hc : calls.flatten = [c, d]) :
    ∃ s, (collects services calls).finish = [s] ∧ Merged s [c, d] := by
  have hd : (new services).wants d.service = true := ((related_iff c d).mp h).1 ▸ hw
  refine ⟨merge c d, ?_, (Merged.single c).merge h⟩
  rw [finish_collects, wanted, hc]
  simp [hw, hd, FirstFit.run, FirstFit.absorb, h]

/-- The collector loses, invents and mixes nothing: the wanted inputs are spread over the slots,
and each slot is made of its own inputs only. -/
theorem collects_partition (services : Finset DiscoveryService)
    (calls : List (List DiscoveryServiceConfig)) :
    let configs := (collects services calls).finish
    let inputs := wanted services calls
    let ps := slots services calls
    ps.length = inputs.length ∧ (∀ p ∈ ps, p < configs.length) ∧
      (∀ j k, j < k → k < configs.length → ps.idxOf j < ps.idxOf k) ∧
      ∀ (j : Nat) (h : j < configs.length),
        FirstFit.inputsOf inputs ps j ≠ [] ∧
        (∀ m ∈ FirstFit.inputsOf inputs ps j,
          m.service = configs[j].service ∧ m.username = configs[j].username) ∧
        configs[j].auth = mergedAuth (FirstFit.inputsOf inputs ps j) ∧
        ∃ m ∈ FirstFit.inputsOf inputs ps j, configs[j].endpoint = m.endpoint ∧
          configs[j].source = m.source ∧ configs[j].resolved = m.resolved := by
  have hg := grouped_collects services calls
  refine ⟨hg.length_eq, hg.bound, hg.first, fun j h => ?_⟩
  have hm := hg.slot j h
  exact ⟨hg.nonempty j h, hm.account, hm.auth, hm.origin⟩

/-- A slot is resolved when an input of it is, and holds the top endpoint of its inputs of that
kind; two related configs give one such slot in either order. -/
theorem collects_best (services : Finset DiscoveryService) :
    (∀ (calls : List (List DiscoveryServiceConfig)) (j : Nat)
      (h : j < (collects services calls).finish.length),
      let slot := (collects services calls).finish[j]
      let inputs := FirstFit.inputsOf (wanted services calls) (slots services calls) j
      slot.resolved = inputs.any (·.resolved) ∧
        ∀ m ∈ inputs, m.resolved = slot.resolved →
          m.endpoint.equivalent slot.endpoint = true ∨
            m.endpoint.subdomainOf slot.endpoint = true) ∧
    ∀ (c d : DiscoveryServiceConfig) (calls calls' : List (List DiscoveryServiceConfig)),
      related c d = true → calls.flatten = [c, d] → calls'.flatten = [d, c] →
      if (new services).wants c.service then
        ∃ s t, (collects services calls).finish = [s] ∧ (collects services calls').finish = [t] ∧
          s.endpoint.equivalent t.endpoint = true ∧ s.resolved = t.resolved
      else (collects services calls).finish = [] ∧ (collects services calls').finish = [] := by
  refine ⟨fun calls j h => ?_, fun c d calls calls' hr hc hc' => ?_⟩
  · have hm := (grouped_collects services calls).slot j h
    exact ⟨hm.resolved, hm.below⟩
  · have hd : d.service = c.service := ((related_iff c d).mp hr).1.symm
    split
    · rename_i hw
      obtain ⟨s, hs, hms⟩ := two_collected services hr hw hc
      obtain ⟨t, ht, hmt⟩ := two_collected services (related_comm c d ▸ hr) (hd ▸ hw) hc'
      exact ⟨s, t, hs, ht, hms.unique hmt (by simp [or_comm])⟩
    · rename_i hw
      simp [finish_collects, wanted, hc, hc', hw, hd, FirstFit.run]

end DiscoveryConfigCollector
end PimDiscovery
