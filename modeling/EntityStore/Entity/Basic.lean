import EntityStore.Error
import EntityStore.Json.Written

/-!
# Keys and entities

An application stores entities under keys. A type of keys has a name and is written as JSON, whose
compact text is the digest that the store knows a key by; a type of entities has a name and is
written as a JSON object, whose members are the fields of the entity. Both can be read back.

The two classes mirror `PersistentKey` and `Persistent`, `Key.digest` mirrors `encode_key`,
`Key.ofDigest` mirrors `decode_key`, and `Entity.fields` mirrors `entity_fields`. A key type is one
whose every key can be written, as that of every key type here can, so the failure of `encode_key`
does not arise and `Key.digest` is total.
-/

namespace EntityStore

/-- A type of keys. -/
class Key (κ : Type) where
  /-- The canonical name of the type. -/
  typeName : String
  /-- A key as JSON. Every key can be written. -/
  toJson : κ → Json
  /-- The key that a JSON text writes. -/
  ofWritten? : Json.Written → Option κ

/-- A type of entities. -/
class Entity (ε : Type) where
  /-- The canonical name of the type. -/
  typeName : String
  /-- An entity as JSON. -/
  toJson : ε → Json
  /-- The entity with certain fields. -/
  ofFields : OrderedMap Json → Except Json.ShapeError ε

namespace Key

variable {κ : Type} [Key κ]

/-- The digest of a key: its compact JSON text, which every key has. -/
def digest (key : κ) : String :=
  (toJson key).compact

/-- The key with a digest, or the failure to read one. -/
def ofDigest (digest : String) : Except SerializationError κ :=
  match (Json.Written.ofText? digest).bind ofWritten? with
  | some key => .ok key
  | none => .error (.undecodableKey digest)

end Key

namespace Entity

variable {ε : Type} [Entity ε]

/-- The fields of an entity, by their names. -/
def fields (entity : ε) : Except SerializationError (OrderedMap Json) :=
  match toJson entity with
  | .object members => .ok (.ofList members)
  | value => .error (.notFields (typeName ε) value)

end Entity

/-- The names of a key type and an entity type. -/
def TypePair.of (κ ε : Type) [Key κ] [Entity ε] : TypePair :=
  ⟨Key.typeName κ, Entity.typeName ε⟩

instance : Key String where
  typeName := "String"
  toJson := .string
  ofWritten? := Json.Written.toText?

instance : Key UInt64 where
  typeName := "u64"
  toJson n := .int (.ofUInt64 n)
  ofWritten? w := do
    let n ← w.toInt?
    if 0 ≤ n ∧ n < 18446744073709551616 then some (UInt64.ofNat n.toNat) else none

instance : Key UInt32 where
  typeName := "u32"
  toJson n := .int (.ofUInt64 n.toUInt64)
  ofWritten? w := do
    let n ← w.toInt?
    if 0 ≤ n ∧ n < 4294967296 then some (UInt32.ofNat n.toNat) else none

instance : Key Int64 where
  typeName := "i64"
  toJson n := .int (.ofInt64 n)
  ofWritten? w := do
    let n ← w.toInt?
    if -9223372036854775808 ≤ n ∧ n < 9223372036854775808 then some (Int64.ofInt n) else none

instance : Key Int32 where
  typeName := "i32"
  toJson n := .int (.ofInt64 n.toInt64)
  ofWritten? w := do
    let n ← w.toInt?
    if -2147483648 ≤ n ∧ n < 2147483648 then some (Int32.ofInt n) else none

end EntityStore
