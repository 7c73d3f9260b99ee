import Mathlib.Data.List.Basic
import Mathlib.Logic.Basic

/-! JSON values, and the meaning of derived serialization over them: structs as objects read by
field name, enums tagged by variant name, absent options as null. -/

namespace PimDiscovery

/-- A `serde_json::Value`; an object holds each key once. -/
inductive JsonValue where
  | null
  | bool (b : Bool)
  | number (text : String)
  | string (s : String)
  | array (items : List JsonValue)
  | object (entries : List (String × JsonValue))

namespace JsonValue

def get : JsonValue → String → Option JsonValue
  | object entries, key => entries.lookup key
  | _, _ => none

def asObject : JsonValue → Option (List (String × JsonValue))
  | object entries => some entries
  | _ => none

def isString : JsonValue → Bool
  | string _ => true
  | _ => false

theorem get_eq_some {value entry : JsonValue} {key : String} (h : value.get key = some entry) :
    ∃ entries, value = object entries := by
  cases value with
  | object entries => exact ⟨entries, rfl⟩
  | _ => exact nomatch h

theorem asObject_eq_some {value : JsonValue} {entries : List (String × JsonValue)} :
    value.asObject = some entries ↔ value = object entries := by
  cases value <;> simp [asObject]

theorem isString_iff {value : JsonValue} : value.isString = true ↔ ∃ s, value = string s := by
  cases value <;> simp [isString]

end JsonValue
end PimDiscovery

namespace Serde
open PimDiscovery (JsonValue)

inductive Unexpected where
  | unit | seq | map | unitVariant
  | bool (b : Bool)
  | number (text : String)
  | str (s : String)
  deriving DecidableEq, Repr

def unexpected : JsonValue → Unexpected
  | .null => .unit
  | .bool b => .bool b
  | .number text => .number text
  | .string s => .str s
  | .array _ => .seq
  | .object _ => .map

inductive Error where
  | custom (message : String)
  /-- `invalid_type` and `invalid_value`. -/
  | invalid (met : Unexpected) (expected : String)
  | unknownVariant (variant : String)
  | missingField (field : String)
  | duplicateField (field : String)
  deriving DecidableEq, Repr

@[simp] theorem ok_bind {α β : Type} (a : α) (f : α → Except Error β) : .ok a >>= f = f a := rfl

@[simp] theorem error_bind {α β : Type} (e : Error) (f : α → Except Error β) :
    .error e >>= f = .error e := rfl

theorem bind_eq_ok {α β : Type} {x : Except Error α} {f : α → Except Error β} {b : β} :
    x >>= f = .ok b ↔ ∃ a, x = .ok a ∧ f a = .ok b := by
  cases x <;> simp

class Serialize (α : Type) where
  serialize : α → JsonValue

class Deserialize (α : Type) where
  deserialize : JsonValue → Except Error α
  /-- What a struct field of the type reads as when no entry names it. -/
  missing : String → Except Error α := fun name => .error (.missingField name)

open Serialize Deserialize

/-- Reading back what was written gives the value written. -/
class RoundTrip (α : Type) [Serialize α] [Deserialize α] : Prop where
  deserialize_serialize (a : α) : deserialize (serialize a) = .ok a

/-- No value is written as null, so an option of the type can be told from its absence. -/
class NonNull (α : Type) [Serialize α] : Prop where
  serialize_ne_null (a : α) : serialize a ≠ .null

attribute [simp] RoundTrip.deserialize_serialize

section Scalars

instance : Serialize String := ⟨.string⟩

instance : Deserialize String where
  deserialize
    | .string s => .ok s
    | value => .error (.invalid (unexpected value) "a string")

instance : RoundTrip String := ⟨fun _ => rfl⟩
instance : NonNull String := ⟨fun _ h => by cases h⟩

instance : Serialize Bool := ⟨.bool⟩

instance : Deserialize Bool where
  deserialize
    | .bool b => .ok b
    | value => .error (.invalid (unexpected value) "a boolean")

instance : RoundTrip Bool := ⟨fun _ => rfl⟩
instance : NonNull Bool := ⟨fun _ h => by cases h⟩

def natOf (text : String) : Option Nat :=
  if text.toList ≠ [] ∧ text.toList.all Char.isDigit then some (Nat.ofDigitChars 10 text.toList 0)
  else none

theorem natOf_repr (n : Nat) : natOf n.repr = some n := by
  have hdigits : n.repr.toList.all Char.isDigit := by
    rw [Nat.toList_repr, List.all_eq_true]
    intro c hc
    exact Nat.isDigit_of_mem_toDigits (by decide) (by decide) hc
  have hne : n.repr.toList ≠ [] := by
    rw [Nat.toList_repr]
    exact Nat.toDigits_ne_nil
  rw [natOf, if_pos ⟨hne, hdigits⟩, Nat.toList_repr, Nat.ofDigitChars_ten_toDigits]

def uint (expected : String) (bound : Nat) : JsonValue → Except Error Nat
  | .number text =>
    match natOf text with
    | some n => if n < bound then .ok n else .error (.invalid (.number text) expected)
    | none => .error (.invalid (.number text) expected)
  | value => .error (.invalid (unexpected value) expected)

theorem uint_repr {expected : String} {bound n : Nat} (h : n < bound) :
    uint expected bound (.number n.repr) = .ok n := by
  simp only [uint, natOf_repr, if_pos h]

instance : Serialize UInt16 := ⟨fun n => .number n.toNat.repr⟩

instance : Deserialize UInt16 where
  deserialize value := UInt16.ofNat <$> uint "u16" UInt16.size value

instance : RoundTrip UInt16 where
  deserialize_serialize n := by
    show UInt16.ofNat <$> uint "u16" UInt16.size (.number n.toNat.repr) = .ok n
    rw [uint_repr n.toNat_lt_size, Except.map_ok, UInt16.ofNat_toNat]

instance : NonNull UInt16 := ⟨fun _ h => by cases h⟩

instance : Serialize UInt64 := ⟨fun n => .number n.toNat.repr⟩

instance : Deserialize UInt64 where
  deserialize value := UInt64.ofNat <$> uint "u64" UInt64.size value

instance : RoundTrip UInt64 where
  deserialize_serialize n := by
    show UInt64.ofNat <$> uint "u64" UInt64.size (.number n.toNat.repr) = .ok n
    rw [uint_repr n.toNat_lt_size, Except.map_ok, UInt64.ofNat_toNat]

instance : NonNull UInt64 := ⟨fun _ h => by cases h⟩

end Scalars

section Containers
variable {α : Type} [Deserialize α]

instance : Deserialize (Option α) where
  deserialize
    | .null => .ok none
    | value => some <$> deserialize value
  missing _ := .ok none

theorem deserialize_option {value : JsonValue} (h : value ≠ .null) :
    (deserialize value : Except Error (Option α)) = some <$> deserialize value := by
  cases value with
  | null => exact absurd rfl h
  | _ => rfl

instance : Deserialize (List α) where
  deserialize
    | .array items => items.mapM deserialize
    | value => .error (.invalid (unexpected value) "a sequence")

theorem deserialize_cons_error {item : JsonValue} {items : List JsonValue} {e : Error}
    (h : (deserialize item : Except Error α) = .error e) :
    (deserialize (.array (item :: items)) : Except Error (List α)) = .error e := by
  show List.mapM deserialize (item :: items) = .error e
  rw [List.mapM_cons, h]
  rfl

variable [Serialize α]

instance : Serialize (Option α) where
  serialize
    | none => .null
    | some a => serialize a

instance [RoundTrip α] [NonNull α] : RoundTrip (Option α) where
  deserialize_serialize a := by
    cases a with
    | none => rfl
    | some a =>
      show (deserialize (serialize a) : Except Error (Option α)) = .ok (some a)
      rw [deserialize_option (NonNull.serialize_ne_null a), RoundTrip.deserialize_serialize,
        Except.map_ok]

instance : Serialize (List α) := ⟨fun xs => .array (xs.map serialize)⟩

instance [RoundTrip α] : RoundTrip (List α) where
  deserialize_serialize xs := by
    show (xs.map serialize).mapM deserialize = .ok xs
    induction xs with
    | nil => rfl
    | cons x xs ih =>
      rw [List.map_cons, List.mapM_cons, RoundTrip.deserialize_serialize, ih]
      rfl

instance : NonNull (List α) := ⟨fun _ h => by cases h⟩

end Containers

section Structs

def entriesOf (expected : String) : JsonValue → Except Error (List (String × JsonValue))
  | .object entries => .ok entries
  | value => .error (.invalid (unexpected value) expected)

/-- The values held under a field's name or one of its aliases. -/
def named (name : String) (aliases : List String) (entries : List (String × JsonValue)) :
    List JsonValue :=
  (entries.filter fun e => e.1 == name || aliases.contains e.1).map Prod.snd

/-- A struct field: the one value named for it, or `missing` when there is none. -/
def fieldWith {α : Type} (entries : List (String × JsonValue)) (name : String)
    (aliases : List String) (missing : Except Error α) (decode : JsonValue → Except Error α) :
    Except Error α :=
  match named name aliases entries with
  | [] => missing
  | [value] => decode value
  | _ => .error (.duplicateField name)

variable {α : Type} [Deserialize α]

def field (entries : List (String × JsonValue)) (name : String) (aliases : List String) :
    Except Error α :=
  fieldWith entries name aliases (missing name) deserialize

def fieldOr (entries : List (String × JsonValue)) (name : String) (aliases : List String)
    (default : α) : Except Error α :=
  fieldWith entries name aliases (.ok default) deserialize

/-- A struct: the entries it is written as, and how it is read from entries. -/
class Struct (α : Type) where
  expected : String
  write : α → List (String × JsonValue)
  read : List (String × JsonValue) → Except Error α

class LawfulStruct (α : Type) [Struct α] : Prop where
  read_write (a : α) : Struct.read (Struct.write a) = .ok a

instance {α : Type} [Struct α] : Serialize α := ⟨fun a => .object (Struct.write a)⟩

instance {α : Type} [Struct α] : Deserialize α where
  deserialize value := entriesOf (Struct.expected α) value >>= Struct.read

theorem deserialize_serialize_struct {α : Type} [Struct α] (a : α) :
    (deserialize (serialize a) : Except Error α) = Struct.read (Struct.write a) := rfl

instance {α : Type} [Struct α] [LawfulStruct α] : RoundTrip α := ⟨LawfulStruct.read_write⟩
instance {α : Type} [Struct α] : NonNull α := ⟨fun _ h => by cases h⟩

end Structs

section Enums

/-- The tag of an externally tagged enum, and what stands under it. -/
def variantOf : JsonValue → Except Error (String × Option JsonValue)
  | .string tag => .ok (tag, none)
  | .object [(tag, payload)] => .ok (tag, some payload)
  | .object _ => .error (.invalid .map "map with a single key")
  | value => .error (.invalid (unexpected value) "string or map")

def unitVariant {α : Type} (a : α) : Option JsonValue → Except Error α
  | none | some .null => .ok a
  | some value => .error (.invalid (unexpected value) "unit")

def newtypeVariant {α β : Type} [Deserialize β] (variant : β → α) :
    Option JsonValue → Except Error α
  | some value => variant <$> deserialize value
  | none => .error (.invalid .unitVariant "newtype variant")

def structVariant {α : Type} (expected : String)
    (read : List (String × JsonValue) → Except Error α) : Option JsonValue → Except Error α
  | some value => entriesOf expected value >>= read
  | none => .error (.invalid .unitVariant "struct variant")

/-- A value under its tag; a unit variant is the bare tag. -/
def tagged : String × Option JsonValue → JsonValue
  | (tag, none) => .string tag
  | (tag, some payload) => .object [(tag, payload)]

theorem variantOf_tagged (variant : String × Option JsonValue) :
    variantOf (tagged variant) = .ok variant := by
  obtain ⟨tag, _ | payload⟩ := variant <;> rfl

class Enum (α : Type) where
  write : α → String × Option JsonValue
  read : String × Option JsonValue → Except Error α

class LawfulEnum (α : Type) [Enum α] : Prop where
  read_write (a : α) : Enum.read (Enum.write a) = .ok a

section
variable {α : Type} [Enum α]

instance : Serialize α := ⟨fun a => tagged (Enum.write a)⟩
instance : Deserialize α where
  deserialize value := variantOf value >>= Enum.read

theorem deserialize_serialize_enum (a : α) :
    (deserialize (serialize a) : Except Error α) = Enum.read (Enum.write a) := by
  show variantOf (tagged (Enum.write a)) >>= Enum.read = _
  rw [variantOf_tagged, ok_bind]

instance [LawfulEnum α] : RoundTrip α where
  deserialize_serialize a := by rw [deserialize_serialize_enum, LawfulEnum.read_write]

instance : NonNull α where
  serialize_ne_null a := by
    show tagged (Enum.write a) ≠ .null
    obtain ⟨tag, _ | payload⟩ := Enum.write a <;> (intro h; cases h)

end

class UnitEnum (α : Type) where
  name : α → String
  variants : List (String × α)
  lookup_name (a : α) : variants.lookup (name a) = some a

variable {α : Type} [UnitEnum α]

def unitOf (variant : String × Option JsonValue) : Except Error α :=
  match UnitEnum.variants.lookup variant.1 with
  | some a => unitVariant a variant.2
  | none => .error (.unknownVariant variant.1)

instance : Enum α where
  write a := (UnitEnum.name a, none)
  read := unitOf

instance : LawfulEnum α where
  read_write a := by
    show unitOf (UnitEnum.name a, none) = .ok a
    simp only [unitOf, UnitEnum.lookup_name, unitVariant]

end Enums
end Serde
