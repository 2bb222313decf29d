import EntityStore.Json.Basic
import EntityStore.Value

/-!
# JSON values as typed store values

The native serializer keeps each field as a value of the store's own types. An integer is a signed
word if it fits in one and an unsigned word otherwise. On the way back the values that JSON does not
have take the nearest form: octets become a list of numbers, and what is not a finite number becomes
`null`.

`Value.ofJson` and `Value.toJson` mirror `to_store` and `from_store`.
-/

namespace EntityStore.Native

/-- An integer as a word. -/
def ofInt (n : WideInt) : Value :=
  if n.val < 9223372036854775808 then .int (Int64.ofInt n.val) else .uint (UInt64.ofNat n.val.toNat)

mutual

/-- A JSON value as a store value. -/
def ofJson : Json → Value
  | .null => .null
  | .bool b => .bool b
  | .int n => ofInt n
  | .float x => .float x.val
  | .string s => .text s
  | .array items => .list (ofJsonItems items)
  | .object members => .map (ofJsonMembers members)

/-- The items of a list as store values. -/
def ofJsonItems : List Json → List Value
  | [] => []
  | item :: rest => ofJson item :: ofJsonItems rest

/-- Named values as store values. -/
def ofJsonMembers : List (String × Json) → List (String × Value)
  | [] => []
  | (name, value) :: rest => (name, ofJson value) :: ofJsonMembers rest

end

/-- An octet as a JSON number. -/
def octet (b : UInt8) : Json :=
  .int (.ofUInt64 b.toUInt64)

mutual

/-- A store value as a JSON value. -/
def toJson : Value → Json
  | .null => .null
  | .bool b => .bool b
  | .int n => .int (.ofInt64 n)
  | .uint n => .int (.ofUInt64 n)
  | .float x => .ofDouble x
  | .text s => .string s
  | .bytes octets => .array (octets.map octet)
  | .list items => .array (toJsonItems items)
  | .map members => .object (toJsonMembers members)

/-- The items of a list as JSON values. -/
def toJsonItems : List Value → List Json
  | [] => []
  | item :: rest => toJson item :: toJsonItems rest

/-- Named values as JSON values. -/
def toJsonMembers : List (String × Value) → List (String × Json)
  | [] => []
  | (name, value) :: rest => (name, toJson value) :: toJsonMembers rest

end

end EntityStore.Native
