import PimDiscovery.Serde.Json

/-! The members of an object by name, and those that are left out when they have no value. -/

namespace Serde
open PimDiscovery (JsonValue)
open Serialize Deserialize

variable {α : Type} {name key : String}

theorem named_cons (aliases : List String) (other : String) (value : JsonValue)
    (entries : List (String × JsonValue)) :
    named name aliases ((other, value) :: entries) =
      if other == name || aliases.contains other then value :: named name aliases entries
      else named name aliases entries := by
  rw [named, List.filter_cons]
  split <;> rfl

@[simp] theorem named_append (aliases : List String) (entries entries' : List (String × JsonValue)) :
    named name aliases (entries ++ entries') = named name aliases entries ++ named name aliases entries' := by
  simp only [named, List.filter_append, List.map_append]

section
variable [Serialize α]

def skipNone (key : String) (value : Option α) : List (String × JsonValue) :=
  value.toList.map fun a => (key, serialize a)

@[simp] theorem named_skipNone (value : Option α) :
    named name [] (skipNone key value) = if key == name then value.toList.map serialize else [] := by
  cases value with
  | none => simp [skipNone, named]
  | some a => by_cases h : key = name <;> simp [skipNone, named, h]

end

variable [Deserialize α]

def readNamed (name : String) : List JsonValue → Except Error (Option α)
  | [] => .ok none
  | [value] => deserialize value
  | _ => .error (.duplicateField name)

theorem field_option (entries : List (String × JsonValue)) :
    (field entries name [] : Except Error (Option α)) = readNamed name (named name [] entries) := by
  unfold field fieldWith readNamed
  rcases named name [] entries with _ | ⟨value, _ | ⟨other, values⟩⟩ <;> rfl

@[simp] theorem readNamed_written [Serialize α] [RoundTrip α] [NonNull α] (value : Option α) :
    (readNamed name (value.toList.map serialize) : Except Error (Option α)) = .ok value := by
  cases value with
  | none => rfl
  | some a => exact RoundTrip.deserialize_serialize (some a)

end Serde
