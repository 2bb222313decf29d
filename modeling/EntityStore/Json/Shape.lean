import EntityStore.Decimal.Layout
import EntityStore.Json.Basic
import EntityStore.Text.Quoted

/-!
# Reading JSON values as typed ones

A field of a typed entity expects a value of a certain `Shape`. Each reader here accepts the values
of one shape and otherwise says which value it found: of another type, or an integer outside the
range of the expected one. A double accepts any number, an integer only integers.
-/

namespace EntityStore.Json

open Binary

/-- What a field expects. -/
inductive Shape where
  /-- A text. -/
  | text
  /-- An unsigned word of 32 bits. -/
  | u32
  /-- An unsigned word of 64 bits. -/
  | u64
  /-- A signed word of 64 bits. -/
  | i64
  /-- A double. -/
  | f64
  /-- A list. -/
  | sequence
  /-- A map. -/
  | map
  deriving DecidableEq

/-- The name of a shape in messages. -/
def Shape.name : Shape → String
  | text => "a string"
  | u32 => "u32"
  | u64 => "u64"
  | i64 => "i64"
  | f64 => "f64"
  | sequence => "a sequence"
  | map => "a map"

/-- Why the fields of an entity do not have the shapes that its type expects. -/
inductive ShapeError where
  /-- A field that has to be there is missing. -/
  | missingField (name : String)
  /-- A value has another type than expected. -/
  | wrongType (found : Json) (expected : Shape)
  /-- An integer is outside the range of the expected shape. -/
  | outOfRange (found : WideInt) (expected : Shape)

/-- A value as messages show it: a scalar in full, anything else by its type. -/
def describe : Json → String
  | null => "null"
  | bool true => "boolean \x60true\x60"
  | bool false => "boolean \x60false\x60"
  | int n => "integer \x60" ++ Decimal.intText n.val ++ "\x60"
  | float x => "floating point \x60" ++ Decimal.Layout.json.text x.val ++ "\x60"
  | string s => "string " ++ Text.quoted s
  | array _ => "sequence"
  | object _ => "map"

/-- The wording of a shape error. -/
def ShapeError.message : ShapeError → String
  | missingField name => "missing field \x60" ++ name ++ "\x60"
  | wrongType found expected =>
    "invalid type: " ++ found.describe ++ ", expected " ++ expected.name
  | outOfRange found expected =>
    "invalid value: " ++ (int found).describe ++ ", expected " ++ expected.name

/-- The text of a value that is one. -/
def asText : Json → Except ShapeError String
  | string s => .ok s
  | found => .error (.wrongType found .text)

/-- The integer of a value that is one, if it is at least `least` and below `bound`. -/
def asInt (expected : Shape) (least bound : Int) : Json → Except ShapeError Int
  | int n => if least ≤ n.val ∧ n.val < bound then .ok n.val else .error (.outOfRange n expected)
  | found => .error (.wrongType found expected)

/-- The value as an unsigned word of 32 bits. -/
def asUInt32 (value : Json) : Except ShapeError UInt32 :=
  (value.asInt .u32 0 4294967296).map fun n => UInt32.ofNat n.toNat

/-- The value as an unsigned word of 64 bits. -/
def asUInt64 (value : Json) : Except ShapeError UInt64 :=
  (value.asInt .u64 0 18446744073709551616).map fun n => UInt64.ofNat n.toNat

/-- The value as a signed word of 64 bits. -/
def asInt64 (value : Json) : Except ShapeError Int64 :=
  (value.asInt .i64 (-9223372036854775808) 9223372036854775808).map Int64.ofInt

/-- The value as a double; an integer is rounded to the nearest one. -/
def asDouble : Json → Except ShapeError Double
  | float x => .ok x.val
  | int n => .ok (Double.ofRatio (n.val < 0) n.val.natAbs 1)
  | found => .error (.wrongType found .f64)

/-- The value as an optional one, absent if it is `null`. -/
def asOption {α : Type} (read : Json → Except ShapeError α) : Json → Except ShapeError (Option α)
  | null => .ok none
  | value => (read value).map some

/-- The value as a list. -/
def asList {α : Type} (read : Json → Except ShapeError α) : Json → Except ShapeError (List α)
  | array items => items.mapM read
  | found => .error (.wrongType found .sequence)

/-- The value as a map. -/
def asMap {α : Type} (read : Json → Except ShapeError α) : Json → Except ShapeError (OrderedMap α)
  | object members =>
    (members.mapM fun m => (read m.2).map (m.1, ·)).map OrderedMap.ofList
  | found => .error (.wrongType found .map)

/-- The field of a name, read by its shape, if it is there. -/
def field? {α : Type} (fields : OrderedMap Json) (name : String)
    (read : Json → Except ShapeError α) : Except ShapeError (Option α) :=
  match fields.get? name with
  | some value => (read value).map some
  | none => .ok none

/-- The value of a field that has to be there. -/
def required {α : Type} (name : String) : Option α → Except ShapeError α
  | some value => .ok value
  | none => .error (.missingField name)

end EntityStore.Json
