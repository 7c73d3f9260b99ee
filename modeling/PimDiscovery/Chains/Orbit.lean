import Mathlib.Data.List.Nodup

/-! Following a partial successor function: the chain of an element, how long it can be before it ends,
and that one without an end runs into a cycle. -/

namespace Chains
variable {α : Type} {next : α → Option α} {a b c last : α} {m n : Nat}

def orbit (next : α → Option α) : Nat → α → Option α
  | 0, a => some a
  | n + 1, a => (next a).bind (orbit next n)

@[simp] theorem orbit_zero : orbit next 0 a = some a := rfl

theorem orbit_add : orbit next (m + n) a = (orbit next m a).bind (orbit next n) := by
  induction m generalizing a with
  | zero => rw [Nat.zero_add, orbit_zero, Option.bind_some]
  | succ m ih =>
    rw [Nat.succ_add, orbit, orbit]
    cases next a with
    | none => rfl
    | some b => exact ih

theorem orbit_succ (h : orbit next n a = some b) : orbit next (n + 1) a = next b := by
  rw [orbit_add, h, Option.bind_some, orbit]
  cases next b <;> rfl

theorem orbit_sub (hm : orbit next m a = some b) (hle : m ≤ n) :
    orbit next n a = orbit next (n - m) b := by
  have hadd : orbit next (m + (n - m)) a = orbit next (n - m) b := by
    rw [orbit_add, hm, Option.bind_some]
  rwa [Nat.add_sub_cancel' hle] at hadd

theorem orbit_of_le (h : orbit next n a = some b) (hle : m ≤ n) : ∃ c, orbit next m a = some c := by
  rw [← Nat.add_sub_cancel' hle, orbit_add] at h
  obtain ⟨c, hc, -⟩ := Option.bind_eq_some_iff.mp h
  exact ⟨c, hc⟩

theorem le_of_ended (hn : orbit next n a = some last) (hlast : next last = none)
    (hm : orbit next m a = some b) : m ≤ n := by
  by_contra hlt
  obtain ⟨c, hc⟩ := orbit_of_le hm (show n + 1 ≤ m by omega)
  rw [orbit_succ hn, hlast] at hc
  cases hc

theorem ended_unique (hn : orbit next n a = some last) (hlast : next last = none)
    (hm : orbit next m a = some b) (hb : next b = none) : m = n ∧ b = last := by
  obtain rfl : m = n := Nat.le_antisymm (le_of_ended hn hlast hm) (le_of_ended hm hb hn)
  exact ⟨rfl, Option.some.inj (hm.symm.trans hn)⟩

def OnCycle (next : α → Option α) (a : α) : Prop := ∃ n > 0, orbit next n a = some a

theorem orbit_of_cycle (h : orbit next m a = some a) (hn : orbit next n a = some b) :
    orbit next m b = some b := by
  have hthere : orbit next (n + m) a = orbit next m b := by
    rw [orbit_add, hn, Option.bind_some]
  have hback : orbit next (m + n) a = some b := by
    rw [orbit_add, h, Option.bind_some, hn]
  rw [← hthere, Nat.add_comm, hback]

section
variable {owners : List α} (howners : ∀ b, next b ≠ none → b ∈ owners)
include howners

/-- A chain that goes on for longer than there are elements to leave comes back to one of them. -/
theorem exists_repeat (h : orbit next n a = some b) (hlong : owners.length < n) :
    ∃ i j, i < j ∧ j ≤ n ∧ orbit next i a = orbit next j a := by
  by_contra hnone
  have hnodup : ((List.range n).map (orbit next · a)).Nodup := by
    refine List.Nodup.map_on (fun i hi j hj heq => ?_) List.nodup_range
    have hi := List.mem_range.mp hi
    have hj := List.mem_range.mp hj
    rcases Nat.lt_trichotomy i j with hlt | heq' | hlt
    · exact absurd ⟨i, j, hlt, by omega, heq⟩ hnone
    · exact heq'
    · exact absurd ⟨j, i, hlt, by omega, heq.symm⟩ hnone
  have hsubset : (List.range n).map (orbit next · a) ⊆ owners.map some := by
    intro visited hvisited
    obtain ⟨i, hi, rfl⟩ := List.mem_map.mp hvisited
    have hi := List.mem_range.mp hi
    obtain ⟨c, hc⟩ := orbit_of_le h (show i ≤ n by omega)
    obtain ⟨d, hd⟩ := orbit_of_le h (show i + 1 ≤ n by omega)
    rw [orbit_succ hc] at hd
    exact List.mem_map.mpr ⟨c, howners c (by simp [hd]), hc.symm⟩
  have hlength := hnodup.length_le_of_subset hsubset
  simp only [List.length_map, List.length_range] at hlength
  omega

theorem steps_le_length (h : orbit next n a = some last) (hlast : next last = none) :
    n ≤ owners.length := by
  by_contra hlong
  obtain ⟨i, j, hlt, hj, heq⟩ := exists_repeat howners h (by omega)
  obtain ⟨c, hc⟩ := orbit_of_le h (show i ≤ n by omega)
  have hi : orbit next (n - i) c = some last := by rwa [← orbit_sub hc (by omega)]
  have hj' : orbit next (n - j) c = some last := by rwa [← orbit_sub (heq ▸ hc) hj]
  -- From the common element the end would be at two distances.
  have hsame := (ended_unique hi hlast hj' hlast).1
  omega

theorem onCycle_of_length_le (h : orbit next n a = some b) (hlong : owners.length ≤ n)
    (hb : next b ≠ none) : OnCycle next b := by
  obtain ⟨last, hlast⟩ := Option.ne_none_iff_exists'.mp hb
  obtain ⟨i, j, hlt, hj, heq⟩ := exists_repeat howners ((orbit_succ h).trans hlast) (by omega)
  obtain ⟨c, hc⟩ := orbit_of_le h (show i ≤ n by omega)
  have hcycle : orbit next (j - i) c = some c := by
    rw [← orbit_sub hc (by omega), ← heq, hc]
  rw [orbit_sub hc (show i ≤ n by omega)] at h
  exact ⟨j - i, by omega, orbit_of_cycle hcycle h⟩

end
end Chains
