import PimDiscovery.Compose.Config

/-! The relations between endpoints that the collector merges on. -/

namespace PimDiscovery.DiscoveryEndpoint

theorem below_bytes_iff (a b : Bytes) :
    (b.length < a.length ∧ b <:+ a) ∧ a[a.length - b.length - 1]? = some '.'.toUInt8 ↔
      ∃ p, a = p ++ '.'.toUInt8 :: b := by
  constructor
  · rintro ⟨⟨hlt, q, rfl⟩, hdot⟩
    obtain rfl | ⟨p, d, rfl⟩ := q.eq_nil_or_concat
    · simp at hlt
    · rw [List.concat_eq_append] at hdot ⊢
      have hi : (p ++ [d] ++ b).length - b.length - 1 = p.length := by
        simp only [List.length_append, List.length_cons, List.length_nil]
        omega
      rw [hi] at hdot
      have hd : d = '.'.toUInt8 := by simpa using hdot
      exact ⟨p, by simp [hd]⟩
  · rintro ⟨p, rfl⟩
    have hi : (p ++ '.'.toUInt8 :: b).length - b.length - 1 = p.length := by
      simp only [List.length_append, List.length_cons]
      omega
    refine ⟨⟨?_, p ++ ['.'.toUInt8], by simp⟩, ?_⟩
    · simp only [List.length_append, List.length_cons]
      omega
    · rw [hi]
      simp

variable [UrlCrate]

def host : DiscoveryEndpoint → Option String
  | .tcp _ _ _ => none
  | .http raw =>
    match UrlCrate.parse raw with
    | .ok url => url.host
    | .error _ => none

theorem equivalent_iff (e f : DiscoveryEndpoint) :
    e.equivalent f = true ↔ e = f ∨ ∃ a b u, e = .http a ∧ f = .http b ∧
      UrlCrate.parse a = .ok u ∧ UrlCrate.parse b = .ok u := by
  unfold equivalent
  by_cases h : e = f
  · simp [h]
  · rw [if_neg h]
    cases e with
    | tcp => simp [h]
    | http a =>
      cases f with
      | tcp => simp
      | http b =>
        have hne : a ≠ b := fun hab => h (hab ▸ rfl)
        cases ha : UrlCrate.parse a with
        | error => simp [ha, hne]
        | ok u =>
          cases hb : UrlCrate.parse b with
          | error => simp [hb, hne]
          | ok v => simp [ha, hb, hne]

@[simp] theorem equivalent_refl (e : DiscoveryEndpoint) : e.equivalent e = true := by
  simp [equivalent]

theorem equivalent_symm {e f : DiscoveryEndpoint} (h : e.equivalent f = true) :
    f.equivalent e = true := by
  rw [equivalent_iff] at h ⊢
  obtain rfl | ⟨a, b, u, he, hf, ha, hb⟩ := h
  · exact .inl rfl
  · exact .inr ⟨b, a, u, hf, he, hb, ha⟩

theorem equivalent_trans {e f g : DiscoveryEndpoint} (h : e.equivalent f = true)
    (h' : f.equivalent g = true) : e.equivalent g = true := by
  rw [equivalent_iff] at h h' ⊢
  obtain rfl | ⟨a, b, u, rfl, rfl, ha, hb⟩ := h
  · exact h'
  · obtain rfl | ⟨b', c, v, hf, rfl, hb', hc⟩ := h'
    · exact .inr ⟨a, b, u, rfl, rfl, ha, hb⟩
    · obtain rfl := DiscoveryEndpoint.http.inj hf
      obtain rfl : u = v := Except.ok.inj (hb.symm.trans hb')
      exact .inr ⟨a, c, u, rfl, rfl, ha, hc⟩

theorem host_eq_of_equivalent {e f : DiscoveryEndpoint} (h : e.equivalent f = true) :
    e.host = f.host := by
  rw [equivalent_iff] at h
  obtain rfl | ⟨a, b, u, rfl, rfl, ha, hb⟩ := h
  · rfl
  · simp [host, ha, hb]

theorem subdomainOf_iff (e f : DiscoveryEndpoint) :
    e.subdomainOf f = true ↔ ∃ a b p, e.host = some a ∧ f.host = some b ∧
      Text.bytes a = p ++ '.'.toUInt8 :: Text.bytes b := by
  cases e with
  | tcp => simp [subdomainOf, host]
  | http a =>
    cases f with
    | tcp => simp [subdomainOf, host]
    | http b =>
      cases ha : UrlCrate.parse a with
      | error => simp [subdomainOf, host, ha]
      | ok u =>
        cases hb : UrlCrate.parse b with
        | error => simp [subdomainOf, host, ha, hb]
        | ok v =>
          cases hu : u.host with
          | none => simp [subdomainOf, host, ha, hb, hu]
          | some s =>
            cases hv : v.host with
            | none => simp [subdomainOf, host, ha, hb, hu, hv]
            | some t => simpa [subdomainOf, host, ha, hb, hu, hv] using below_bytes_iff _ _

/-- The same in characters: the dot is one of the first host's, not a byte inside another. -/
theorem subdomainOf_iff_text (e f : DiscoveryEndpoint) :
    e.subdomainOf f = true ↔ ∃ a b text, e.host = some a ∧ f.host = some b ∧
      a = text ++ "." ++ b := by
  rw [subdomainOf_iff]
  constructor
  · rintro ⟨a, b, p, ha, hb, hp⟩
    obtain ⟨text, htext⟩ := Text.bytes_eq_append_dot hp
    exact ⟨a, b, text, ha, hb, htext⟩
  · rintro ⟨a, b, text, ha, hb, rfl⟩
    refine ⟨_, b, Text.bytes text, ha, hb, ?_⟩
    rw [Text.bytes_append, Text.bytes_append, List.append_assoc]
    rfl

theorem subdomainOf_trans {e f g : DiscoveryEndpoint} (h : e.subdomainOf f = true)
    (h' : f.subdomainOf g = true) : e.subdomainOf g = true := by
  rw [subdomainOf_iff] at h h' ⊢
  obtain ⟨a, b, p, ha, hb, hp⟩ := h
  obtain ⟨b', c, q, hb', hc, hq⟩ := h'
  obtain rfl : b = b' := Option.some.inj (hb.symm.trans hb')
  exact ⟨a, c, p ++ '.'.toUInt8 :: q, ha, hc, by rw [hp, hq]; simp⟩

theorem subdomainOf_irrefl {e f : DiscoveryEndpoint} (h : e.host = f.host) :
    e.subdomainOf f = false := by
  by_contra hs
  obtain ⟨a, b, p, ha, hb, hp⟩ := (subdomainOf_iff e f).mp (by simpa using hs)
  obtain rfl : a = b := Option.some.inj (ha.symm.trans (h.trans hb))
  have hlen := congrArg List.length hp
  simp only [List.length_append, List.length_cons] at hlen
  omega

theorem subdomainOf_asymm {e f : DiscoveryEndpoint} (h : e.subdomainOf f = true) :
    f.subdomainOf e = false := by
  by_contra hs
  have hee := subdomainOf_trans h (by simpa using hs)
  rw [subdomainOf_irrefl rfl] at hee
  exact Bool.false_ne_true hee

theorem subdomainOf_congr {e e' f f' : DiscoveryEndpoint} (he : e.host = e'.host)
    (hf : f.host = f'.host) : e.subdomainOf f = e'.subdomainOf f' := by
  rw [Bool.eq_iff_iff, subdomainOf_iff, subdomainOf_iff, he, hf]

theorem subdomainOf_parents {e f g : DiscoveryEndpoint} (hf : e.subdomainOf f = true)
    (hg : e.subdomainOf g = true) :
    f.host = g.host ∨ f.subdomainOf g = true ∨ g.subdomainOf f = true := by
  obtain ⟨a, b, p, ha, hb, hp⟩ := (subdomainOf_iff e f).mp hf
  obtain ⟨a', c, q, ha', hc, hq⟩ := (subdomainOf_iff e g).mp hg
  obtain rfl : a = a' := Option.some.inj (ha.symm.trans ha')
  rw [hp, List.append_eq_append_iff] at hq
  -- The longer of the two has the other one behind one of its own dots.
  obtain ⟨r, -, hr⟩ | ⟨r, -, hr⟩ := hq
  · cases r with
    | nil =>
      left
      rw [hb, hc, Text.bytes_inj.mp (List.cons.inj hr).2]
    | cons byte r => exact .inr (.inl ((subdomainOf_iff f g).mpr ⟨b, c, r, hb, hc, (List.cons.inj hr).2⟩))
  · cases r with
    | nil =>
      left
      rw [hb, hc, Text.bytes_inj.mp (List.cons.inj hr).2]
    | cons byte r => exact .inr (.inr ((subdomainOf_iff g f).mpr ⟨c, b, r, hc, hb, (List.cons.inj hr).2⟩))

/-- `subdomain_of` with the arithmetic of its byte index checked: none where the subtraction would
underflow or the index leave the string. -/
def subdomainOfChecked (self other : DiscoveryEndpoint) : Option Bool :=
  match self, other with
  | .http a, .http b =>
    match UrlCrate.parse a, UrlCrate.parse b with
    | .ok a, .ok b =>
      match a.host, b.host with
      | some a, some b =>
        let a := Text.bytes a
        let b := Text.bytes b
        if decide (b.length < a.length) && b.isSuffixOf a then
          if b.length + 1 ≤ a.length then
            a[a.length - b.length - 1]?.map fun byte => byte == '.'.toUInt8
          else none
        else some false
      | _, _ => some false
    | _, _ => some false
  | _, _ => some false

theorem subdomainOfChecked_eq (e f : DiscoveryEndpoint) :
    e.subdomainOfChecked f = some (e.subdomainOf f) := by
  cases e with
  | tcp => rfl
  | http a =>
    cases f with
    | tcp => rfl
    | http b =>
      cases ha : UrlCrate.parse a with
      | error => simp [subdomainOfChecked, subdomainOf, ha]
      | ok u =>
        cases hb : UrlCrate.parse b with
        | error => simp [subdomainOfChecked, subdomainOf, ha, hb]
        | ok v =>
          cases hu : u.host with
          | none => simp [subdomainOfChecked, subdomainOf, ha, hb, hu]
          | some s =>
            cases hv : v.host with
            | none => simp [subdomainOfChecked, subdomainOf, ha, hb, hu, hv]
            | some t =>
              simp only [subdomainOfChecked, subdomainOf, ha, hb, hu, hv]
              -- The index is computed where the first host is the longer one only.
              cases hlonger : decide ((Text.bytes t).length < (Text.bytes s).length) &&
                  (Text.bytes t).isSuffixOf (Text.bytes s) with
              | false => rfl
              | true =>
                rw [Bool.and_eq_true, decide_eq_true_eq] at hlonger
                have hindex : (Text.bytes s).length - (Text.bytes t).length - 1 <
                    (Text.bytes s).length := by
                  omega
                rw [if_pos rfl, if_pos (by omega), List.getElem?_eq_getElem hindex]
                simp

/-- An endpoint equivalent to another or below it: what the other stands for once merged. -/
def Below (e f : DiscoveryEndpoint) : Prop := e.equivalent f = true ∨ e.subdomainOf f = true

theorem Below.refl (e : DiscoveryEndpoint) : Below e e := .inl (equivalent_refl e)

theorem Below.trans {e f g : DiscoveryEndpoint} (h : Below e f) (h' : Below f g) : Below e g := by
  rcases h with h | h <;> rcases h' with h' | h'
  · exact .inl (equivalent_trans h h')
  · exact .inr (subdomainOf_congr (host_eq_of_equivalent h) rfl ▸ h')
  · exact .inr (subdomainOf_congr rfl (host_eq_of_equivalent h') ▸ h)
  · exact .inr (subdomainOf_trans h h')

theorem Below.antisymm {e f : DiscoveryEndpoint} (h : Below e f) (h' : Below f e) :
    e.equivalent f = true := by
  rcases h with h | h
  · exact h
  · rcases h' with h' | h'
    · exact equivalent_symm h'
    · rw [subdomainOf_asymm h] at h'
      exact absurd h' Bool.false_ne_true

/-- What the collector's merge relies on. -/
theorem relations_well_behaved :
    Equivalence (fun e f : DiscoveryEndpoint => e.equivalent f = true) ∧
    (∀ e : DiscoveryEndpoint, e.subdomainOf e = false) ∧
    (∀ e f : DiscoveryEndpoint, e.subdomainOf f = true → f.subdomainOf e = false) ∧
    (∀ e f g : DiscoveryEndpoint, e.subdomainOf f = true → f.subdomainOf g = true →
      e.subdomainOf g = true) ∧
    (∀ e e' f f' : DiscoveryEndpoint, e.equivalent e' = true → f.equivalent f' = true →
      e.subdomainOf f = e'.subdomainOf f') ∧
    (∀ e f : DiscoveryEndpoint, e.subdomainOf f = true ↔
      ∃ a b text, e.host = some a ∧ f.host = some b ∧ a = text ++ "." ++ b) ∧
    (∀ e f g : DiscoveryEndpoint, e.subdomainOf f = true → e.subdomainOf g = true →
      f.host = g.host ∨ f.subdomainOf g = true ∨ g.subdomainOf f = true) ∧
    ∀ e f : DiscoveryEndpoint, e.subdomainOfChecked f = some (e.subdomainOf f) := by
  refine ⟨⟨equivalent_refl, equivalent_symm, equivalent_trans⟩, fun e => subdomainOf_irrefl rfl,
    fun e f => subdomainOf_asymm, fun e f g => subdomainOf_trans, fun e e' f f' he hf => ?_,
    subdomainOf_iff_text, fun e f g => subdomainOf_parents, subdomainOfChecked_eq⟩
  exact subdomainOf_congr (host_eq_of_equivalent he) (host_eq_of_equivalent hf)

end PimDiscovery.DiscoveryEndpoint
