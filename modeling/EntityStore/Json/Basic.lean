import EntityStore.Binary.Double
import EntityStore.OrderedMap

/-!
# JSON values

The values that entities are made of. A number is an integer from `-2 ^ 63` up to `2 ^ 64 - 1` or a
finite double, and the two are never confused: `1` and `1.0` are different values.

An object lists its members. `Json.ofMembers` lists them in the order of their names, and everything
that reads a value builds its objects that way; `Canonical` says that it holds at every depth.
-/

namespace EntityStore

/-- The integers that some signed or unsigned word of 64 bits holds. -/
structure WideInt where
  /-- The integer. -/
  val : Int
  /-- It is not below the least signed word. -/
  lower : -9223372036854775808 ≤ val
  /-- It is not above the greatest unsigned word. -/
  upper : val < 18446744073709551616
  deriving DecidableEq

namespace WideInt

/-- The integer as a wide one, if it is in the range. -/
def ofInt? (n : Int) : Option WideInt :=
  if h : -9223372036854775808 ≤ n ∧ n < 18446744073709551616 then some ⟨n, h.1, h.2⟩ else none

/-- A natural number below `2 ^ 64`. -/
def ofUInt64 (n : UInt64) : WideInt :=
  ⟨n.toNat, by omega, by have := n.toNat_lt; omega⟩

/-- A signed word. -/
def ofInt64 (n : Int64) : WideInt :=
  ⟨n.toInt, by have := n.le_toInt; omega, by have := n.toInt_lt; omega⟩

end WideInt

/-- A JSON value. -/
inductive Json where
  /-- `null` -/
  | null
  /-- `true` or `false` -/
  | bool (value : Bool)
  /-- A number written without point and exponent. -/
  | int (value : WideInt)
  /-- A number written with a point or an exponent. -/
  | float (value : Binary.FiniteDouble)
  /-- A text. -/
  | string (value : String)
  /-- A list of values. -/
  | array (items : List Json)
  /-- A list of named values. -/
  | object (members : List (String × Json))

namespace Json

instance : Inhabited Json := ⟨null⟩

/-- The object with the members of a map, in the order of their names. -/
def ofMap (members : OrderedMap Json) : Json :=
  object members.entries

/-- The object with the members of a list; of two with one name the later one counts. -/
def ofMembers (members : List (String × Json)) : Json :=
  ofMap (OrderedMap.ofList members)

/-- The nearest JSON value to a double: the number itself, or `null` for what JSON cannot write. -/
def ofDouble (x : Binary.Double) : Json :=
  match Binary.FiniteDouble.ofDouble? x with
  | some finite => float finite
  | none => null

mutual

/-- Every object lists its members in the order of their names, each name once. -/
def Canonical : Json → Prop
  | array items => CanonicalItems items
  | object members => members.Pairwise (fun a b => a.1 < b.1) ∧ CanonicalMembers members
  | _ => True

/-- Every value of a list is canonical. -/
def CanonicalItems : List Json → Prop
  | [] => True
  | item :: rest => Canonical item ∧ CanonicalItems rest

/-- Every value of a list of members is canonical. -/
def CanonicalMembers : List (String × Json) → Prop
  | [] => True
  | (_, value) :: rest => Canonical value ∧ CanonicalMembers rest

end

end Json

end EntityStore
