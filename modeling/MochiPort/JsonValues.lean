import Mathlib.Data.List.Basic

/-- A number of a JSON text: an integer of 64 bits, or the bits of a double. -/
inductive JsonNumber where
  | int (value : Int)
  | float (bits : UInt64)
  deriving DecidableEq

inductive JsonValue where
  | null
  | bool (value : Bool)
  | number (value : JsonNumber)
  | string (value : String)
  | array (values : List JsonValue)
  | object (fields : List (String × JsonValue))

namespace JsonValue

mutual

def same : JsonValue → JsonValue → Bool
  | .null, .null => true
  | .bool a, .bool b => a == b
  | .number a, .number b => a == b
  | .string a, .string b => a == b
  | .array as, .array bs => sameValues as bs
  | .object as, .object bs => sameFields as bs
  | _, _ => false

def sameValues : List JsonValue → List JsonValue → Bool
  | [], [] => true
  | a :: as, b :: bs => same a b && sameValues as bs
  | _, _ => false

def sameFields : List (String × JsonValue) → List (String × JsonValue) → Bool
  | [], [] => true
  | (k, a) :: as, (l, b) :: bs => k == l && same a b && sameFields as bs
  | _, _ => false

end

mutual

theorem same_iff : ∀ a b : JsonValue, same a b = true ↔ a = b
  | .null, b => by cases b <;> simp [same]
  | .bool a, b => by cases b <;> simp [same]
  | .number a, b => by cases b <;> simp [same]
  | .string a, b => by cases b <;> simp [same]
  | .array as, b => by
    cases b with
    | array bs => simp [same, sameValues_iff as bs]
    | _ => simp [same]
  | .object as, b => by
    cases b with
    | object bs => simp [same, sameFields_iff as bs]
    | _ => simp [same]

theorem sameValues_iff : ∀ as bs : List JsonValue, sameValues as bs = true ↔ as = bs
  | [], bs => by cases bs <;> simp [sameValues]
  | a :: as, bs => by
    cases bs with
    | nil => simp [sameValues]
    | cons b bs => simp [sameValues, same_iff a b, sameValues_iff as bs]

theorem sameFields_iff : ∀ as bs : List (String × JsonValue), sameFields as bs = true ↔ as = bs
  | [], bs => by cases bs <;> simp [sameFields]
  | (k, a) :: as, bs => by
    cases bs with
    | nil => simp [sameFields]
    | cons b bs =>
      obtain ⟨l, b⟩ := b
      simp [sameFields, same_iff a b, sameFields_iff as bs]

end

instance : DecidableEq JsonValue := fun a b => decidable_of_iff _ (same_iff a b)

def get : JsonValue → String → Option JsonValue
  | .object fields, key => fields.lookup key
  | _, _ => none

def asStr : JsonValue → Option String
  | .string value => some value
  | _ => none

def asArray : JsonValue → Option (List JsonValue)
  | .array values => some values
  | _ => none

def asObject : JsonValue → Option (List (String × JsonValue))
  | .object fields => some fields
  | _ => none

def asI64 : JsonValue → Option Int
  | .number (.int value) =>
    if -0x8000000000000000 ≤ value && value < 0x8000000000000000 then some value else none
  | _ => none

def asU64 : JsonValue → Option Nat
  | .number (.int value) => if 0 ≤ value && value < 0x10000000000000000 then some value.toNat else none
  | _ => none

@[simp] theorem get_null (key : String) : get .null key = none := rfl

end JsonValue

structure JsonCodec where
  parse : String → Option JsonValue
  print : JsonValue → String
