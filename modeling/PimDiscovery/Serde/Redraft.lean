import Mathlib.Data.List.Nodup
import Mathlib.Data.List.Perm.Basic
import PimDiscovery.Serde.Members

/-! Documents drafted anew: the members of an object in another order, and members of names that are not
known added or left out, at any depth. What is read of a document by known names does not change. -/

namespace Serde
open PimDiscovery (JsonValue)
open Deserialize

/-- The same JSON but for the order of members and for members of unknown names. -/
inductive Redraft (known : String → Bool) : JsonValue → JsonValue → Prop where
  | refl (value : JsonValue) : Redraft known value value
  | symm {v v' : JsonValue} (h : Redraft known v v') : Redraft known v' v
  | trans {v v' v'' : JsonValue} (h : Redraft known v v') (h' : Redraft known v' v'') :
      Redraft known v v''
  /-- An object holds each key once. -/
  | order {entries entries' : List (String × JsonValue)} (h : entries.Perm entries')
      (hkeys : (entries.map Prod.fst).Nodup) : Redraft known (.object entries) (.object entries')
  | extra {name : String} (h : known name = false) (value : JsonValue)
      (entries : List (String × JsonValue)) :
      Redraft known (.object ((name, value) :: entries)) (.object entries)
  | member {v v' : JsonValue} (h : Redraft known v v') (name : String)
      (entries : List (String × JsonValue)) :
      Redraft known (.object ((name, v) :: entries)) (.object ((name, v') :: entries))
  | item {v v' : JsonValue} (h : Redraft known v v') (before after : List JsonValue) :
      Redraft known (.array (before ++ v :: after)) (.array (before ++ v' :: after))

variable {known : String → Bool}

theorem Redraft.reversed {entries : List (String × JsonValue)} (hkeys : (entries.map Prod.fst).Nodup)
    {name : String} (hname : known name = false) (value : JsonValue) :
    Redraft known (.object entries) (.object ((name, value) :: entries.reverse)) :=
  (order (List.reverse_perm entries).symm hkeys).trans (.symm (.extra hname value _))

/-- What does not change from one draft to the next does not change. -/
theorem Redraft.congr {β : Type} {f : JsonValue → β}
    (horder : ∀ {entries entries' : List (String × JsonValue)}, entries.Perm entries' →
      (entries.map Prod.fst).Nodup → f (.object entries) = f (.object entries'))
    (hextra : ∀ {name : String}, known name = false → ∀ value entries,
      f (.object ((name, value) :: entries)) = f (.object entries))
    (hmember : ∀ {v v' : JsonValue}, Redraft known v v' → ∀ name entries,
      f (.object ((name, v) :: entries)) = f (.object ((name, v') :: entries)))
    (hitem : ∀ {v v' : JsonValue}, Redraft known v v' → ∀ before after,
      f (.array (before ++ v :: after)) = f (.array (before ++ v' :: after)))
    {v v' : JsonValue} (h : Redraft known v v') : f v = f v' := by
  induction h with
  | refl value => rfl
  | symm _ ih => exact ih.symm
  | trans _ _ ih ih' => exact ih.trans ih'
  | order h hkeys => exact horder h hkeys
  | extra h value entries => exact hextra h value entries
  | member h name entries _ => exact hmember h name entries
  | item h before after _ => exact hitem h before after

theorem lookup_perm {entries entries' : List (String × JsonValue)} (h : entries.Perm entries')
    (hkeys : (entries.map Prod.fst).Nodup) (key : String) : entries.lookup key = entries'.lookup key := by
  induction h with
  | nil => rfl
  | cons entry h ih =>
    rw [List.map_cons, List.nodup_cons] at hkeys
    rw [List.lookup_cons, List.lookup_cons, ih hkeys.2]
  | swap entry entry' entries =>
    obtain ⟨name, value⟩ := entry
    obtain ⟨name', value'⟩ := entry'
    simp only [List.map_cons, List.nodup_cons, List.mem_cons, not_or] at hkeys
    simp only [List.lookup_cons]
    cases hfirst : key == name with
    | false => rfl
    | true =>
      have hother : (key == name') = false := by
        rw [beq_eq_false_iff_ne]
        rintro rfl
        exact hkeys.1.1 (beq_iff_eq.mp hfirst)
      rw [hother]
  | trans h _ ih ih' => exact (ih hkeys).trans (ih' ((h.map Prod.fst).nodup_iff.mp hkeys))

theorem Redraft.rel_symm {a b : Option JsonValue} (h : Option.Rel (Redraft known) a b) :
    Option.Rel (Redraft known) b a := by
  cases h with
  | some h => exact .some h.symm
  | none => exact .none

theorem Redraft.rel_trans {a b c : Option JsonValue} (h : Option.Rel (Redraft known) a b)
    (h' : Option.Rel (Redraft known) b c) : Option.Rel (Redraft known) a c := by
  cases h with
  | some h =>
    cases h' with
    | some h' => exact .some (h.trans h')
  | none =>
    cases h' with
    | none => exact .none

theorem Redraft.get {v v' : JsonValue} (h : Redraft known v v') {key : String} (hkey : known key = true) :
    Option.Rel (Redraft known) (v.get key) (v'.get key) := by
  have hrefl : ∀ value : Option JsonValue, Option.Rel (Redraft known) value value := by
    rintro (_ | value)
    · exact .none
    · exact .some (.refl value)
  induction h with
  | refl value => exact hrefl _
  | symm _ ih => exact rel_symm ih
  | trans _ _ ih ih' => exact rel_trans ih ih'
  | order h hkeys =>
    show Option.Rel _ (List.lookup key _) (List.lookup key _)
    rw [lookup_perm h hkeys]
    exact hrefl _
  | @extra name h value entries =>
    have hother : (key == name) = false := by
      rw [beq_eq_false_iff_ne]
      rintro rfl
      rw [hkey] at h
      cases h
    show Option.Rel _ (List.lookup key ((name, value) :: entries)) (List.lookup key entries)
    rw [List.lookup_cons, hother]
    exact hrefl _
  | @member v v' h name entries _ =>
    show Option.Rel _ (List.lookup key ((name, v) :: entries)) (List.lookup key ((name, v') :: entries))
    rw [List.lookup_cons, List.lookup_cons]
    cases key == name with
    | true => exact .some h
    | false => exact hrefl _
  | item => exact .none

class Tolerant (known : String → Bool) (α : Type) [Deserialize α] : Prop where
  deserialize_redraft {v v' : JsonValue} (h : Redraft known v v') :
    (deserialize v : Except Error α) = deserialize v'

theorem Tolerant.deserialize_draft {α : Type} [Serialize α] [Deserialize α] [RoundTrip α]
    [Tolerant known α] {a : α} {value : JsonValue} (h : Redraft known (Serialize.serialize a) value) :
    (deserialize value : Except Error α) = .ok a := by
  rw [← deserialize_redraft h, RoundTrip.deserialize_serialize]

theorem Redraft.scalar {α : Type} {read : JsonValue → Except Error α} {expected : String}
    (hobject : ∀ entries, read (.object entries) = .error (.invalid .map expected))
    (harray : ∀ items, read (.array items) = .error (.invalid .seq expected)) {v v' : JsonValue}
    (h : Redraft known v v') : read v = read v' :=
  h.congr (fun _ _ => (hobject _).trans (hobject _).symm) (fun _ _ _ => (hobject _).trans (hobject _).symm)
    (fun _ _ _ => (hobject _).trans (hobject _).symm) fun _ _ _ => (harray _).trans (harray _).symm

instance : Tolerant known String := ⟨fun h => h.scalar (fun _ => rfl) fun _ => rfl⟩
instance : Tolerant known Bool := ⟨fun h => h.scalar (fun _ => rfl) fun _ => rfl⟩
instance : Tolerant known UInt64 := ⟨fun h => h.scalar (fun _ => rfl) fun _ => rfl⟩

section Containers
variable {α : Type} [Deserialize α] [Tolerant known α]

instance : Tolerant known (Option α) where
  deserialize_redraft h := by
    have hsome : ∀ {v v' : JsonValue}, Redraft known v v' → v ≠ .null → v' ≠ .null →
        (deserialize v : Except Error (Option α)) = deserialize v' := by
      intro v v' h hv hv'
      rw [deserialize_option hv, deserialize_option hv', Tolerant.deserialize_redraft h]
    refine h.congr (fun h hkeys => ?_) (fun h value entries => ?_) (fun h name entries => ?_)
      fun h before after => ?_
    · exact hsome (.order h hkeys) (by simp) (by simp)
    · exact hsome (.extra h value entries) (by simp) (by simp)
    · exact hsome (.member h name entries) (by simp) (by simp)
    · exact hsome (.item h before after) (by simp) (by simp)

instance : Tolerant known (List α) where
  deserialize_redraft h := by
    refine h.congr (fun _ _ => rfl) (fun _ _ _ => rfl) (fun _ _ _ => rfl) fun {v v'} h before after => ?_
    show (before ++ v :: after).mapM deserialize = (before ++ v' :: after).mapM deserialize
    simp only [List.mapM_append, List.mapM_cons, Tolerant.deserialize_redraft h]

end Containers

section Structs
variable {α : Type} {name : String} {aliases : List String} {missing : Except Error α}
  {decode : JsonValue → Except Error α}

/-- A name that is met twice is refused in every order. -/
theorem fieldWith_perm {entries entries' : List (String × JsonValue)} (h : entries.Perm entries') :
    fieldWith entries name aliases missing decode = fieldWith entries' name aliases missing decode := by
  have hnamed : (named name aliases entries).Perm (named name aliases entries') :=
    (h.filter _).map _
  unfold fieldWith
  rcases hvalues : named name aliases entries with _ | ⟨value, _ | ⟨other, values⟩⟩
  · rw [hvalues] at hnamed
    rw [← hnamed.nil_eq]
  · rw [hvalues] at hnamed
    rw [← List.singleton_perm.mp hnamed]
  · rcases hvalues' : named name aliases entries' with _ | ⟨value', _ | ⟨other', values'⟩⟩
    · rw [hvalues, hvalues'] at hnamed
      exact absurd hnamed.length_eq (by simp)
    · rw [hvalues, hvalues'] at hnamed
      exact absurd hnamed.length_eq (by simp)
    · rfl

theorem fieldWith_extra (hname : known name = true) (haliases : ∀ a ∈ aliases, known a = true)
    {other : String} (h : known other = false) (value : JsonValue) (entries : List (String × JsonValue)) :
    fieldWith ((other, value) :: entries) name aliases missing decode =
      fieldWith entries name aliases missing decode := by
  have hother : (other == name || aliases.contains other) = false := by
    rw [Bool.or_eq_false_iff, beq_eq_false_iff_ne, ← Bool.not_eq_true, List.contains_iff_mem]
    constructor
    · rintro rfl
      rw [hname] at h
      cases h
    · intro hmem
      rw [haliases other hmem] at h
      cases h
  rw [fieldWith, named_cons, if_neg (by rw [hother]; exact Bool.false_ne_true)]
  rfl

theorem fieldWith_member {v v' : JsonValue} (h : decode v = decode v') (other : String)
    (entries : List (String × JsonValue)) :
    fieldWith ((other, v) :: entries) name aliases missing decode =
      fieldWith ((other, v') :: entries) name aliases missing decode := by
  rw [fieldWith, fieldWith, named_cons, named_cons]
  by_cases hother : (other == name || aliases.contains other) = true
  · rw [if_pos hother, if_pos hother]
    cases named name aliases entries with
    | nil => exact h
    | cons => rfl
  · rw [if_neg hother, if_neg hother]

inductive Entries (known : String → Bool) : List (String × JsonValue) → List (String × JsonValue) → Prop where
  | order {entries entries' : List (String × JsonValue)} (h : entries.Perm entries') :
      Entries known entries entries'
  | extra {name : String} (h : known name = false) (value : JsonValue)
      (entries : List (String × JsonValue)) : Entries known ((name, value) :: entries) entries
  | member {v v' : JsonValue} (h : Redraft known v v') (name : String)
      (entries : List (String × JsonValue)) : Entries known ((name, v) :: entries) ((name, v') :: entries)

theorem fieldWith_redraft (hname : known name = true) (haliases : ∀ a ∈ aliases, known a = true)
    (hdecode : ∀ {v v' : JsonValue}, Redraft known v v' → decode v = decode v')
    {entries entries' : List (String × JsonValue)} (h : Entries known entries entries') :
    fieldWith entries name aliases missing decode = fieldWith entries' name aliases missing decode := by
  cases h with
  | order h => exact fieldWith_perm h
  | extra h value entries => exact fieldWith_extra hname haliases h value _
  | member h other entries => exact fieldWith_member (hdecode h) other entries

theorem tolerant_struct [Struct α] (h : ∀ {entries entries' : List (String × JsonValue)},
    Entries known entries entries' → (Struct.read entries : Except Error α) = Struct.read entries') :
    Tolerant known α where
  deserialize_redraft hdraft := hdraft.congr (fun hperm _ => h (.order hperm))
    (fun hextra value entries => h (.extra hextra value entries))
    (fun hmember name entries => h (.member hmember name entries)) fun _ _ _ => rfl

variable [Deserialize α] [Tolerant known α]

theorem field_redraft {entries entries' : List (String × JsonValue)} (h : Entries known entries entries')
    (hname : known name = true) :
    (field entries name [] : Except Error α) = field entries' name [] :=
  fieldWith_redraft hname (by simp) Tolerant.deserialize_redraft h

theorem fieldOr_redraft {entries entries' : List (String × JsonValue)} (h : Entries known entries entries')
    (hname : known name = true) (default : α) :
    fieldOr entries name [] default = fieldOr entries' name [] default :=
  fieldWith_redraft hname (by simp) Tolerant.deserialize_redraft h

end Structs
end Serde
