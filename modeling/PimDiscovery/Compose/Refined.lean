import Mathlib.Data.List.Pairwise
import PimDiscovery.Compose.Merged

/-! Refining the methods of a config by the schemes that its endpoint advertises. -/

namespace PimDiscovery

theorem pushMethod_nodup {auth : List DiscoveryAuthMethod} (h : auth.Nodup)
    (method : DiscoveryAuthMethod) : (pushMethod auth method).Nodup := by
  unfold pushMethod
  split
  · exact h
  · rename_i hnew
    rw [List.nodup_append']
    refine ⟨h, List.nodup_singleton _, ?_⟩
    rw [List.disjoint_singleton]
    exact fun hmem => hnew (List.contains_iff_mem.mpr hmem)

theorem foldl_pushMethod_nodup {auth : List DiscoveryAuthMethod} (h : auth.Nodup)
    (methods : List DiscoveryAuthMethod) : (methods.foldl pushMethod auth).Nodup := by
  induction methods generalizing auth with
  | nil => exact h
  | cons method methods ih => exact ih (pushMethod_nodup h method)

theorem nodup_eraseDups (methods : List DiscoveryAuthMethod) : methods.eraseDups.Nodup := by
  have h := foldl_pushMethod_nodup List.nodup_nil methods
  rw [DiscoveryConfigCollector.foldl_pushMethod] at h
  simpa using h

theorem eraseDups_of_nodup {methods : List DiscoveryAuthMethod} (h : methods.Nodup) :
    methods.eraseDups = methods := by
  induction methods with
  | nil => rfl
  | cons method methods ih =>
    obtain ⟨hnew, hrest⟩ := List.nodup_cons.mp h
    have hothers : methods.filter (fun m => !m == method) = methods := by
      rw [List.filter_eq_self]
      intro m hm
      simpa using fun heq : m = method => hnew (heq ▸ hm)
    rw [List.eraseDups_cons, hothers, ih hrest]

theorem mem_schemeMethods {schemes : List String} {method : DiscoveryAuthMethod} :
    method ∈ schemeMethods schemes ↔
      method = .password ∧ "basic" ∈ schemes ∨ method = .bearer ∧ "bearer" ∈ schemes := by
  rw [schemeMethods, List.mem_filterMap]
  constructor
  · rintro ⟨scheme, hscheme, hmethod⟩
    split at hmethod
    · exact .inl ⟨(Option.some.inj hmethod).symm, hscheme⟩
    · exact .inr ⟨(Option.some.inj hmethod).symm, hscheme⟩
    · cases hmethod
  · rintro (⟨rfl, hscheme⟩ | ⟨rfl, hscheme⟩)
    · exact ⟨"basic", hscheme, rfl⟩
    · exact ⟨"bearer", hscheme, rfl⟩

theorem schemeMethods_eq_nil {schemes : List String} :
    schemeMethods schemes = [] ↔ "basic" ∉ schemes ∧ "bearer" ∉ schemes := by
  rw [List.eq_nil_iff_forall_not_mem]
  constructor
  · intro h
    exact ⟨fun hbasic => h .password (mem_schemeMethods.mpr (.inl ⟨rfl, hbasic⟩)),
      fun hbearer => h .bearer (mem_schemeMethods.mpr (.inr ⟨rfl, hbearer⟩))⟩
  · rintro ⟨hbasic, hbearer⟩ method hmethod
    rcases mem_schemeMethods.mp hmethod with ⟨-, h⟩ | ⟨-, h⟩
    · exact hbasic h
    · exact hbearer h

namespace DiscoveryServiceConfig

/-- A scheme stands for a method that is probed, never for one that tells how to get a token. -/
theorem schemeMethods_plain {schemes : List String} {method : DiscoveryAuthMethod}
    (h : method ∈ schemeMethods schemes) : isOauth method = false := by
  rcases mem_schemeMethods.mp h with ⟨rfl, -⟩ | ⟨rfl, -⟩ <;> rfl

def oauthMethods (self : DiscoveryServiceConfig) : List DiscoveryAuthMethod :=
  (self.auth.filter isOauth).eraseDups

theorem mem_oauthMethods {self : DiscoveryServiceConfig} {method : DiscoveryAuthMethod} :
    method ∈ self.oauthMethods ↔ method ∈ self.auth ∧ isOauth method = true := by
  rw [oauthMethods, List.mem_eraseDups, List.mem_filter]

variable (config : DiscoveryServiceConfig)

theorem refineAuth_of_eq_nil {schemes : List String} (h : schemeMethods schemes = []) :
    config.refineAuth schemes = config := by
  simp only [refineAuth, h, List.isEmpty_nil, if_true]

theorem refineAuth_of_ne_nil {schemes : List String} (h : schemeMethods schemes ≠ []) :
    config.refineAuth schemes =
      { config with auth := schemeMethods schemes ++ config.oauthMethods } := by
  have hnot : ∀ method ∈ config.auth.filter isOauth, method ∉ schemeMethods schemes := by
    intro method hmethod hscheme
    have hoauth := (List.mem_filter.mp hmethod).2
    rw [schemeMethods_plain hscheme] at hoauth
    cases hoauth
  have hfold : config.auth.foldl (fun auth method =>
      if isOauth method then pushMethod auth method else auth) (schemeMethods schemes) =
        schemeMethods schemes ++ config.oauthMethods := by
    rw [← List.foldl_filter, DiscoveryConfigCollector.foldl_pushMethod, List.filter_eq_self.mpr]
    · rfl
    · simpa using hnot
  simp only [refineAuth]
  rw [if_neg (by simpa using h)]
  refine congrArg (fun auth => { config with auth := auth }) (Eq.trans ?_ hfold)
  apply List.foldl_ext
  intro auth method _
  cases method <;> rfl

theorem oauthMethods_refineAuth {schemes : List String} (h : schemeMethods schemes ≠ []) :
    (config.refineAuth schemes).oauthMethods = config.oauthMethods := by
  have hplain : (schemeMethods schemes).filter isOauth = [] := by
    rw [List.filter_eq_nil_iff]
    intro method hmethod
    simp [schemeMethods_plain hmethod]
  have hoauth : config.oauthMethods.filter isOauth = config.oauthMethods :=
    List.filter_eq_self.mpr fun method hmethod => (mem_oauthMethods.mp hmethod).2
  rw [refineAuth_of_ne_nil config h, oauthMethods, List.filter_append, hplain, hoauth,
    List.nil_append]
  exact eraseDups_of_nodup (nodup_eraseDups _)

/-- The last schemes that name a method settle the probed ones, and the OAuth methods stay. -/
theorem refineAuth_last_writer_wins (first second : List String) :
    ("basic" ∉ first ∧ "bearer" ∉ first → config.refineAuth first = config) ∧
    ("basic" ∈ first ∨ "bearer" ∈ first →
      config.refineAuth first =
        { config with auth := schemeMethods first ++ (config.auth.filter isOauth).eraseDups } ∧
      (∀ method, isOauth method = true →
        (method ∈ (config.refineAuth first).auth ↔ method ∈ config.auth)) ∧
      (.password ∈ (config.refineAuth first).auth ↔ "basic" ∈ first) ∧
      (.bearer ∈ (config.refineAuth first).auth ↔ "bearer" ∈ first)) ∧
    ("basic" ∈ second ∨ "bearer" ∈ second →
      (config.refineAuth first).refineAuth second = config.refineAuth second) := by
  have hnamed : ∀ {schemes : List String}, "basic" ∈ schemes ∨ "bearer" ∈ schemes →
      schemeMethods schemes ≠ [] := by
    intro schemes h hnil
    obtain ⟨hbasic, hbearer⟩ := schemeMethods_eq_nil.mp hnil
    exact h.elim hbasic hbearer
  refine ⟨fun h => refineAuth_of_eq_nil config (schemeMethods_eq_nil.mpr h), fun h => ?_, fun h => ?_⟩
  · have hrefined := refineAuth_of_ne_nil config (hnamed h)
    refine ⟨hrefined, fun method hoauth => ?_, ?_, ?_⟩
    · rw [hrefined, List.mem_append, mem_oauthMethods, or_iff_right, and_iff_left hoauth]
      intro hmethod
      rw [schemeMethods_plain hmethod] at hoauth
      cases hoauth
    · simp [hrefined, mem_schemeMethods, mem_oauthMethods, isOauth]
    · simp [hrefined, mem_schemeMethods, mem_oauthMethods, isOauth]
  · by_cases hfirst : schemeMethods first = []
    · rw [refineAuth_of_eq_nil config hfirst]
    · rw [refineAuth_of_ne_nil _ (hnamed h), oauthMethods_refineAuth config hfirst,
        refineAuth_of_ne_nil config hfirst, refineAuth_of_ne_nil config (hnamed h)]

end DiscoveryServiceConfig
end PimDiscovery
