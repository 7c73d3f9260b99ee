import PimDiscovery.Autoconfig.Lookups
import PimDiscovery.Chains.Orbit

/-! Where following the aliases of a DNS answer ends. -/

namespace PimDiscovery
open Chains

def successor (aliases : List (String × String)) (name : String) : Option String :=
  (aliases.find? (·.1 == name)).map (·.2)

theorem successor_eq_none {aliases : List (String × String)} {name : String} :
    successor aliases name = none ↔ ∀ entry ∈ aliases, entry.1 ≠ name := by
  simp [successor]

theorem mem_owners {aliases : List (String × String)} {name : String}
    (h : successor aliases name ≠ none) : name ∈ aliases.map (·.1) := by
  rw [Ne, successor_eq_none] at h
  simpa [and_comm] using h

theorem followFrom_orbit (aliases : List (String × String)) (steps : Nat) (current : String)
    (target : Option String) :
    ∃ n last, n ≤ steps ∧ orbit (successor aliases) n current = some last ∧
      (n < steps → successor aliases last = none) ∧
      followFrom aliases steps current target = if n = 0 then target else some last := by
  induction steps generalizing current target with
  | zero => exact ⟨0, current, le_rfl, rfl, fun h => absurd h (Nat.lt_irrefl 0), rfl⟩
  | succ steps ih =>
    cases hfound : aliases.find? (·.1 == current) with
    | none =>
      refine ⟨0, current, Nat.zero_le _, rfl, fun _ => ?_, ?_⟩
      · rw [successor, hfound]
        rfl
      · rw [followFrom, hfound]
        rfl
    | some found =>
      obtain ⟨n, last, hn, horbit, hended, hfollow⟩ := ih found.2 (some found.2)
      refine ⟨n + 1, last, Nat.succ_le_succ hn, ?_, fun h => hended (by omega), ?_⟩
      · rw [orbit, successor, hfound]
        exact horbit
      · rw [followFrom, hfound, if_neg (Nat.succ_ne_zero n)]
        refine hfollow.trans ?_
        split
        · rename_i hzero
          rw [hzero] at horbit
          exact horbit
        · rfl

theorem follow_orbit (domain : String) (aliases : List (String × String)) :
    ∃ n last, n ≤ aliases.length ∧
      orbit (successor aliases) n (normalizeName domain) = some last ∧
      (n < aliases.length → successor aliases last = none) ∧
      follow domain aliases = if n = 0 then none else some last :=
  followFrom_orbit aliases aliases.length (normalizeName domain) none

theorem follow_eq_none {domain : String} {aliases : List (String × String)} :
    follow domain aliases = none ↔ successor aliases (normalizeName domain) = none := by
  obtain ⟨n, last, hn, horbit, hended, hfollow⟩ := follow_orbit domain aliases
  rw [hfollow]
  cases n with
  | zero =>
    obtain rfl := Option.some.inj horbit
    refine ⟨fun _ => ?_, fun _ => rfl⟩
    cases aliases with
    | nil => rfl
    | cons first rest => exact hended (by simp)
  | succ n =>
    refine ⟨nofun, fun hnone => ?_⟩
    rw [orbit, hnone] at horbit
    cases horbit

/-- The end of the chain is found when there is one: a step is left for each alias. -/
theorem follow_of_ended {domain last : String} {aliases : List (String × String)} {n : Nat}
    (hn : 0 < n) (h : orbit (successor aliases) n (normalizeName domain) = some last)
    (hlast : successor aliases last = none) : follow domain aliases = some last := by
  obtain ⟨m, found, hm, horbit, hended, hfollow⟩ := follow_orbit domain aliases
  have hshort : n ≤ aliases.length := by
    simpa using steps_le_length (fun name => mem_owners) h hlast
  have hfound : m = n ∧ found = last := by
    rcases Nat.lt_or_ge m aliases.length with hlt | hge
    · exact ended_unique h hlast horbit (hended hlt)
    · obtain rfl : m = n := Nat.le_antisymm (le_of_ended h hlast horbit) (by omega)
      exact ⟨rfl, Option.some.inj (horbit.symm.trans h)⟩
  obtain ⟨rfl, rfl⟩ := hfound
  rw [hfollow, if_neg (by omega)]

theorem follow_of_endless {domain : String} {aliases : List (String × String)}
    (h : ∀ n last, orbit (successor aliases) n (normalizeName domain) = some last →
      successor aliases last ≠ none) :
    ∃ last, follow domain aliases = some last ∧ OnCycle (successor aliases) last := by
  obtain ⟨n, last, hn, horbit, hended, hfollow⟩ := follow_orbit domain aliases
  have hgoes := h n last horbit
  have hall : n = aliases.length :=
    Nat.le_antisymm hn (Nat.le_of_not_lt fun hlt => hgoes (hended hlt))
  have hfirst : follow domain aliases ≠ none := by
    rw [Ne, follow_eq_none]
    exact h 0 _ rfl
  refine ⟨last, ?_, onCycle_of_length_le (fun name => mem_owners) horbit (by simp [hall]) hgoes⟩
  rw [hfollow] at hfirst ⊢
  split at hfirst
  · exact absurd rfl hfirst
  · rw [if_neg (by assumption)]

theorem followFrom_congr {aliases reordered : List (String × String)}
    (h : ∀ name, successor reordered name = successor aliases name) (steps : Nat) (current : String)
    (target : Option String) :
    followFrom reordered steps current target = followFrom aliases steps current target := by
  have hstep : ∀ (aliases : List (String × String)) steps current target,
      followFrom aliases (steps + 1) current target = ((successor aliases current).map fun next =>
        followFrom aliases steps next (some next)).getD target := by
    intro aliases steps current target
    rw [followFrom, successor]
    cases aliases.find? (·.1 == current) <;> rfl
  induction steps generalizing current target with
  | zero => rfl
  | succ steps ih => simp only [hstep, h, ih]

theorem successor_eq_some {aliases : List (String × String)} (hnodup : (aliases.map (·.1)).Nodup)
    {name target : String} : successor aliases name = some target ↔ (name, target) ∈ aliases := by
  rw [successor, Option.map_eq_some_iff]
  constructor
  · rintro ⟨entry, hfound, rfl⟩
    obtain rfl : entry.1 = name := by simpa using List.find?_some hfound
    exact List.mem_of_find?_eq_some hfound
  · intro hmem
    have hsome : (aliases.find? (·.1 == name)).isSome := by
      rw [List.find?_isSome]
      exact ⟨(name, target), hmem, beq_self_eq_true name⟩
    obtain ⟨entry, hfound⟩ := Option.isSome_iff_exists.mp hsome
    have howner : entry.1 = name := by simpa using List.find?_some hfound
    have hentry := List.inj_on_of_nodup_map hnodup (List.mem_of_find?_eq_some hfound) hmem howner
    exact ⟨entry, hfound, by rw [hentry]⟩

theorem follow_perm {domain : String} {aliases reordered : List (String × String)}
    (hperm : reordered.Perm aliases) (hnodup : (aliases.map (·.1)).Nodup) :
    follow domain reordered = follow domain aliases := by
  have hsame : ∀ name, successor reordered name = successor aliases name := by
    intro name
    apply Option.ext
    intro target
    rw [successor_eq_some hnodup, successor_eq_some ((hperm.map _).nodup_iff.mpr hnodup),
      hperm.mem_iff]
  rw [follow, follow, hperm.length_eq]
  exact followFrom_congr hsame _ _ _

/-- Following finds the last name of a chain that ends, stops on a cycle where it does not, and takes
no more steps than there are aliases. -/
theorem follow_finds_end (domain : String) (aliases : List (String × String)) :
    (follow domain aliases = none ↔ ∀ entry ∈ aliases, entry.1 ≠ normalizeName domain) ∧
    (∀ n last, 0 < n → orbit (successor aliases) n (normalizeName domain) = some last →
      (∀ entry ∈ aliases, entry.1 ≠ last) → follow domain aliases = some last) ∧
    (∀ reordered, reordered.Perm aliases → (aliases.map (·.1)).Nodup →
      follow domain reordered = follow domain aliases) ∧
    ((¬ ∃ n last, orbit (successor aliases) n (normalizeName domain) = some last ∧
        ∀ entry ∈ aliases, entry.1 ≠ last) →
      ∃ last, follow domain aliases = some last ∧ OnCycle (successor aliases) last) ∧
    ∀ last, follow domain aliases = some last → ∃ n, 0 < n ∧ n ≤ aliases.length ∧
      orbit (successor aliases) n (normalizeName domain) = some last := by
  refine ⟨follow_eq_none.trans successor_eq_none, fun n last hn h hlast => ?_,
    fun reordered => follow_perm, fun hendless => ?_, fun last hlast => ?_⟩
  · exact follow_of_ended hn h (successor_eq_none.mpr hlast)
  · apply follow_of_endless
    intro n last horbit hnone
    exact hendless ⟨n, last, horbit, successor_eq_none.mp hnone⟩
  · obtain ⟨n, found, hn, horbit, -, hfollow⟩ := follow_orbit domain aliases
    rw [hfollow] at hlast
    split at hlast
    · cases hlast
    · obtain rfl := Option.some.inj hlast
      exact ⟨n, by omega, hn, horbit⟩

end PimDiscovery
