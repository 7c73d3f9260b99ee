import PimDiscovery.Compose.Endpoint
import PimDiscovery.Grouping.FirstFit
import PimDiscovery.PlainUrl
import Mathlib.Data.Finset.Basic

/-! The collector: configs of the requested services, merged where they reach one service. -/

namespace PimDiscovery

structure DiscoveryConfigCollector where
  services : Finset DiscoveryService
  configs : List DiscoveryServiceConfig
  deriving DecidableEq

namespace DiscoveryConfigCollector
variable [UrlCrate]

def new (services : Finset DiscoveryService) : DiscoveryConfigCollector := { services, configs := [] }

def wants (self : DiscoveryConfigCollector) (service : DiscoveryService) : Bool :=
  self.services = ∅ || service ∈ self.services

/-- The test by which `collect` finds the config an input merges into. -/
def related (c config : DiscoveryServiceConfig) : Bool :=
  c.service == config.service && c.username == config.username &&
    (c.endpoint.equivalent config.endpoint || c.endpoint.subdomainOf config.endpoint ||
      config.endpoint.subdomainOf c.endpoint)

def takesOver (existing config : DiscoveryServiceConfig) : Bool :=
  if existing.resolved != config.resolved then config.resolved
  else existing.endpoint.subdomainOf config.endpoint

def merge (existing config : DiscoveryServiceConfig) : DiscoveryServiceConfig :=
  let existing :=
    if takesOver existing config then
      { existing with
        endpoint := config.endpoint, source := config.source, resolved := config.resolved }
    else if config.resolved && existing.endpoint.equivalent config.endpoint then
      { existing with resolved := true }
    else existing
  { existing with auth := config.auth.foldl pushMethod existing.auth }

def collectOne (self : DiscoveryConfigCollector) (config : DiscoveryServiceConfig) :
    DiscoveryConfigCollector :=
  if !self.wants config.service then self
  else
    match self.configs.findIdx? (related · config) with
    | some i => { self with configs := self.configs.modify i (merge · config) }
    | none => { self with configs := self.configs ++ [config] }

def collect (self : DiscoveryConfigCollector) (configs : List DiscoveryServiceConfig) :
    DiscoveryConfigCollector :=
  configs.foldl collectOne self

def isEmpty (self : DiscoveryConfigCollector) : Bool := self.configs.isEmpty

def finish (self : DiscoveryConfigCollector) : List DiscoveryServiceConfig := self.configs

def collects (services : Finset DiscoveryService) (calls : List (List DiscoveryServiceConfig)) :
    DiscoveryConfigCollector :=
  calls.foldl collect (new services)

def wanted (services : Finset DiscoveryService) (calls : List (List DiscoveryServiceConfig)) :
    List DiscoveryServiceConfig :=
  calls.flatten.filter fun config => (new services).wants config.service

def slots (services : Finset DiscoveryService) (calls : List (List DiscoveryServiceConfig)) :
    List Nat :=
  FirstFit.placements related merge [] (wanted services calls)

theorem collectOne_eq (self : DiscoveryConfigCollector) (config : DiscoveryServiceConfig) :
    self.collectOne config =
      if self.wants config.service then
        { self with configs := FirstFit.absorb related merge self.configs config }
      else self := by
  unfold collectOne FirstFit.absorb
  by_cases h : self.wants config.service
  · cases hi : self.configs.findIdx? (related · config) <;> simp [h]
  · simp [h]

theorem collect_eq (self : DiscoveryConfigCollector) (configs : List DiscoveryServiceConfig) :
    self.collect configs =
      { self with
        configs := FirstFit.run related merge self.configs
          (configs.filter fun config => self.wants config.service) } := by
  induction configs generalizing self with
  | nil => rfl
  | cons config configs ih =>
    rw [collect, List.foldl_cons, collectOne_eq]
    by_cases h : self.wants config.service
    · rw [if_pos h, List.filter_cons, if_pos h]
      exact ih _
    · rw [if_neg h, List.filter_cons, if_neg h]
      exact ih _

theorem foldl_collect (self : DiscoveryConfigCollector)
    (calls : List (List DiscoveryServiceConfig)) :
    calls.foldl collect self = self.collect calls.flatten := by
  induction calls generalizing self with
  | nil => rfl
  | cons configs calls ih =>
    rw [List.foldl_cons, ih, List.flatten_cons]
    simp only [collect, List.foldl_append]

/-- A collector is first-fit grouping of the wanted inputs. -/
theorem finish_collects (services : Finset DiscoveryService)
    (calls : List (List DiscoveryServiceConfig)) :
    (collects services calls).finish = FirstFit.run related merge [] (wanted services calls) := by
  rw [collects, foldl_collect, collect_eq]
  rfl

theorem related_iff (c d : DiscoveryServiceConfig) :
    related c d = true ↔ c.service = d.service ∧ c.username = d.username ∧
      (DiscoveryEndpoint.Below c.endpoint d.endpoint ∨
        DiscoveryEndpoint.Below d.endpoint c.endpoint) := by
  simp only [related, Bool.and_eq_true, Bool.or_eq_true, beq_iff_eq, DiscoveryEndpoint.Below]
  constructor
  · rintro ⟨⟨hs, hu⟩, (he | he) | he⟩
    · exact ⟨hs, hu, .inl (.inl he)⟩
    · exact ⟨hs, hu, .inl (.inr he)⟩
    · exact ⟨hs, hu, .inr (.inr he)⟩
  · rintro ⟨hs, hu, (he | he) | (he | he)⟩
    · exact ⟨⟨hs, hu⟩, .inl (.inl he)⟩
    · exact ⟨⟨hs, hu⟩, .inl (.inr he)⟩
    · exact ⟨⟨hs, hu⟩, .inl (.inl (DiscoveryEndpoint.equivalent_symm he))⟩
    · exact ⟨⟨hs, hu⟩, .inr he⟩

theorem related_comm (c d : DiscoveryServiceConfig) : related c d = related d c := by
  rw [Bool.eq_iff_iff, related_iff, related_iff]
  constructor <;>
  · rintro ⟨hs, hu, he⟩
    exact ⟨hs.symm, hu.symm, he.symm⟩

theorem related_congr {c c' d : DiscoveryServiceConfig} (hs : c.service = c'.service)
    (hu : c.username = c'.username) (he : c.endpoint = c'.endpoint) :
    related c d = related c' d := by
  simp only [related, hs, hu, he]

@[simp] theorem merge_service (c d : DiscoveryServiceConfig) : (merge c d).service = c.service := by
  unfold merge
  split <;> [rfl; split <;> rfl]

@[simp] theorem merge_username (c d : DiscoveryServiceConfig) : (merge c d).username = c.username := by
  unfold merge
  split <;> [rfl; split <;> rfl]

@[simp] theorem merge_auth (c d : DiscoveryServiceConfig) :
    (merge c d).auth = d.auth.foldl pushMethod c.auth := by
  unfold merge
  split <;> [rfl; split <;> rfl]

/-- The endpoint, source and resolved flag move together: the branch that sets the flag alone
finds it set. -/
theorem merge_endpoint_source_resolved (c d : DiscoveryServiceConfig) :
    if takesOver c d then
      (merge c d).endpoint = d.endpoint ∧ (merge c d).source = d.source ∧
        (merge c d).resolved = d.resolved
    else
      (merge c d).endpoint = c.endpoint ∧ (merge c d).source = c.source ∧
        (merge c d).resolved = c.resolved := by
  unfold merge
  by_cases ht : takesOver c d = true
  · simp [ht]
  · simp only [ht, Bool.false_eq_true, if_false]
    split
    · rename_i hr
      obtain ⟨hd, -⟩ := Bool.and_eq_true_iff.mp hr
      cases hc : c.resolved with
      | true => exact ⟨rfl, rfl, rfl⟩
      | false => exact absurd (show takesOver c d = true by simp [takesOver, hc, hd]) ht
    · exact ⟨rfl, rfl, rfl⟩

end DiscoveryConfigCollector
end PimDiscovery
