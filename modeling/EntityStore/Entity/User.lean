import EntityStore.Entity.Basic

/-!
# A typed key and a typed entity

`UserKey` is a key with two parts, and `User` an entity with a field of every shape: texts, words of
three kinds, a double, a list and a map.
-/

namespace EntityStore

/-- The key of a user in one of several tenants. -/
structure UserKey where
  /-- The tenant. -/
  tenant : String
  /-- The number of the user in the tenant. -/
  id : UInt64
  deriving DecidableEq

instance : Key UserKey where
  typeName := "test.UserKey"
  toJson k := .object [("tenant", .string k.tenant), ("id", .int (.ofUInt64 k.id))]
  ofWritten? w :=
    match w.parts? ["tenant", "id"] with
    | some [tenant, id] => do some ⟨← tenant.toText?, ← Key.ofWritten? id⟩
    | _ => none

/-- A user. -/
structure User where
  /-- The name. -/
  name : String := ""
  /-- The mail address, if there is one. -/
  email : Option String := none
  /-- The age in years. -/
  age : UInt32 := 0
  /-- A score. -/
  score : Binary.Double := ⟨0⟩
  /-- A count of visits. -/
  hits : UInt64 := 0
  /-- A floor of a building. -/
  floor : Int64 := 0
  /-- Words that describe the user. -/
  tags : List String := []
  /-- Numbers with names. -/
  attributes : OrderedMap Int64 := .empty

namespace User

/-- A user as a JSON object. -/
def toJson (u : User) : Json :=
  .ofMembers [
    ("name", .string u.name),
    ("email", (u.email.map Json.string).getD .null),
    ("age", .int (.ofUInt64 u.age.toUInt64)),
    ("score", .ofDouble u.score),
    ("hits", .int (.ofUInt64 u.hits)),
    ("floor", .int (.ofInt64 u.floor)),
    ("tags", .array (u.tags.map .string)),
    ("attributes", .ofMap (u.attributes.mapValues fun n => .int (.ofInt64 n)))]

open Json in
/-- The user with certain fields. All but the mail address have to be there; the fields that are
there are checked first, in the order of their names. -/
def ofFields (fields : OrderedMap Json) : Except ShapeError User := do
  let age ← field? fields "age" asUInt32
  let attributes ← field? fields "attributes" (asMap asInt64)
  let email ← field? fields "email" (asOption asText)
  let floor ← field? fields "floor" asInt64
  let hits ← field? fields "hits" asUInt64
  let name ← field? fields "name" asText
  let score ← field? fields "score" asDouble
  let tags ← field? fields "tags" (asList asText)
  return {
    name := ← required "name" name
    email := email.join
    age := ← required "age" age
    score := ← required "score" score
    hits := ← required "hits" hits
    floor := ← required "floor" floor
    tags := ← required "tags" tags
    attributes := ← required "attributes" attributes }

end User

instance : Entity User where
  typeName := "test.User"
  toJson := User.toJson
  ofFields := User.ofFields

end EntityStore
