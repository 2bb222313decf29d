import EntityStore.Binary.Double
import EntityStore.OrderedMap

/-!
# Store values

The typed values that a store keeps in the bins of a record. They tell signed from unsigned words,
and have raw octets besides texts.

They mirror `Value` and `Bins`, with `as_str`, `as_bytes` and `type_name`.
-/

namespace EntityStore

/-- A value in a bin of a record. -/
inductive Value where
  /-- No value. -/
  | null
  /-- A truth value. -/
  | bool (value : Bool)
  /-- A signed word. -/
  | int (value : Int64)
  /-- An unsigned word, for the integers above all signed ones. -/
  | uint (value : UInt64)
  /-- A floating-point number of any kind. -/
  | float (value : Binary.Double)
  /-- A text. -/
  | text (value : String)
  /-- Octets without a meaning to the store. -/
  | bytes (octets : List UInt8)
  /-- A list of values. -/
  | list (items : List Value)
  /-- A list of named values. -/
  | map (members : List (String × Value))

namespace Value

instance : Inhabited Value := ⟨null⟩

/-- The name of a value's type. -/
def typeName : Value → String
  | null => "null"
  | bool _ => "bool"
  | int _ => "int"
  | uint _ => "uint"
  | float _ => "float"
  | text _ => "string"
  | bytes _ => "bytes"
  | list _ => "list"
  | map _ => "map"

/-- The text, of a value that is one. -/
def text? : Value → Option String
  | text s => some s
  | _ => none

/-- The octets, of a value that has them. -/
def bytes? : Value → Option (List UInt8)
  | bytes octets => some octets
  | _ => none

/-- The map with the members of a list; of two with one name the later one counts. -/
def ofMembers (members : List (String × Value)) : Value :=
  map (OrderedMap.ofList members).entries

end Value

/-- The values of a record by the names of their bins. -/
abbrev Bins := OrderedMap Value

end EntityStore
