import EntityStore.Client
import EntityStore.Entity.Basic
import EntityStore.Serializer.Basic
import EntityStore.StoreConfig

/-!
# Mapped stores

A mapped store keeps entities of one type under keys of one type, in the collection that the mapping
names, through a store client. Each call is one operation of the client with the mapping's policies,
apart from creating and dropping the schema, which are two, and writing a batch, which is one for
each pair.

An entity that cannot be converted fails the call before it reaches the client, and the first
failure of the client ends it.

It mirrors `MappedStore` with the methods of `Serializer` and `StoreContext` that it calls: `clear`
is `truncate_schema`, `hasSchema` is `schema_exists`, `putAll` is `put_batch`, `query` is `scan`,
`addressOf` is `record_key`, and `openConfig` is `open`.
-/

namespace EntityStore

/-- A computation that calls a client with states `σ` and may fail. What the client has done stays
done. -/
abbrev Call (σ α : Type) := ExceptT Error (StateM σ) α

namespace Call

variable {σ α : Type}

/-- The result and the state of the client afterwards. -/
def runFrom (call : Call σ α) (s : σ) : Except Error α × σ :=
  StateT.run (ExceptT.run call) s

/-- A computation on a state as a call. -/
def ofState (f : σ → Except Error α × σ) : Call σ α :=
  ExceptT.mk f

/-- A result that needs no client. -/
def ofExcept (result : Except Error α) : Call σ α :=
  ExceptT.mk (pure result)

end Call

namespace Client

variable {σ : Type}

/-- Executes an operation. -/
def perform (client : Client σ) (operation : Operation) : Call σ Outcome :=
  .ofState fun s => ((client.execute operation s).1.mapError .store, (client.execute operation s).2)

/-- Requests the metadata of a namespace. -/
def inspect (client : Client σ) (ns : String) : Call σ (Option NamespaceMetadata) :=
  .ofState fun s => ((client.metadata ns s).1.mapError .store, (client.metadata ns s).2)

/-- Ends the use of the store. -/
def shut (client : Client σ) : Call σ Unit :=
  .ofState fun s => (.ok (), client.close s)

end Client

/-- A query for the pairs of a store, the first ones only if there is a limit. -/
structure Query where
  /-- The greatest number of pairs. -/
  limit : Option Nat := none
  deriving DecidableEq

/-- A store of entities of type `ε` under keys of type `κ`. -/
structure MappedStore (κ ε : Type) where
  /-- The mapping of the two types. -/
  mapping : Mapping.Resolved
  /-- The way to keep the values of fields. -/
  serializer : Serializer

namespace MappedStore

variable {κ ε σ : Type}

/-- The names of the types that the store persists. -/
def types (store : MappedStore κ ε) : TypePair :=
  ⟨store.mapping.keyType, store.mapping.entityType⟩

/-- The address of the record of a key. There is one, since every key has a digest. -/
def addressOf [Key κ] (store : MappedStore κ ε) (key : κ) : RecordKey :=
  ⟨store.mapping.ns, store.mapping.collection, Key.digest key⟩

/-- The bins of an entity. -/
def encode [Entity ε] (store : MappedStore κ ε) (entity : ε) : Except Error Bins :=
  (do store.mapping.toBins store.serializer.binOfField (← Entity.fields entity)).mapError
    .serialization

/-- The entity in bins. -/
def decode [Entity ε] (store : MappedStore κ ε) (bins : Bins) : Except Error ε :=
  (do
    let fields ← store.mapping.ofBins store.serializer.fieldOfBin bins
    (Entity.ofFields fields).mapError .shape).mapError .serialization

/-- Creates the namespace, then the collection. -/
def createSchema (client : Client σ) (store : MappedStore κ ε) : Call σ Unit := do
  let _ ← client.perform (.createNamespace store.mapping.ns)
  let _ ← client.perform (.createCollection store.mapping.ns store.mapping.collection)

/-- Drops the collection, then the namespace. -/
def dropSchema (client : Client σ) (store : MappedStore κ ε) : Call σ Unit := do
  let _ ← client.perform (.dropCollection store.mapping.ns store.mapping.collection)
  let _ ← client.perform (.dropNamespace store.mapping.ns)

/-- Removes all records of the collection. -/
def clear (client : Client σ) (store : MappedStore κ ε) : Call σ Unit := do
  let _ ← client.perform (.truncateCollection store.mapping.ns store.mapping.collection)

/-- Do the namespace and the collection exist? -/
def hasSchema (client : Client σ) (store : MappedStore κ ε) : Call σ Bool := do
  match ← client.inspect store.mapping.ns with
  | some found => return (found.count? store.mapping.collection).isSome
  | none => return false

/-- Writes an entity under a key. -/
def put [Key κ] [Entity ε] (client : Client σ) (store : MappedStore κ ε) (key : κ) (entity : ε) :
    Call σ Unit := do
  let bins ← Call.ofExcept (store.encode entity)
  let _ ← client.perform (.put (store.addressOf key) bins store.mapping.writePolicy)

/-- Writes pairs one after the other. -/
def putAll [Key κ] [Entity ε] (client : Client σ) (store : MappedStore κ ε) :
    List (κ × ε) → Call σ Unit
  | [] => pure ()
  | (key, entity) :: rest => do
    store.put client key entity
    store.putAll client rest

/-- Reads the entity under a key. -/
def get [Key κ] [Entity ε] (client : Client σ) (store : MappedStore κ ε) (key : κ) :
    Call σ (Option ε) := do
  match ← client.perform (.get (store.addressOf key) store.mapping.readPolicy) with
  | .record (some record) => some <$> Call.ofExcept (store.decode record.bins)
  | .record none => return none
  | outcome => throw (.unexpected outcome "get")

/-- Removes the entity under a key, and tells whether there was one. -/
def delete [Key κ] (client : Client σ) (store : MappedStore κ ε) (key : κ) : Call σ Bool := do
  match ← client.perform (.delete (store.addressOf key) store.mapping.writePolicy) with
  | .deleted removed => return removed
  | outcome => throw (.unexpected outcome "delete")

/-- The pair that a record holds. -/
def pairOf [Key κ] [Entity ε] (store : MappedStore κ ε) (found : String × Record) :
    Except Error (κ × ε) := do
  let key ← (Key.ofDigest found.1).mapError .serialization
  let entity ← store.decode found.2.bins
  return (key, entity)

/-- Reads the pairs of the collection, in the order in which the client lists them. -/
def query [Key κ] [Entity ε] (client : Client σ) (store : MappedStore κ ε) (q : Query) :
    Call σ (List (κ × ε)) := do
  let operation :=
    .scan store.mapping.ns store.mapping.collection q.limit store.mapping.readPolicy
  match ← client.perform operation with
  | .records found => Call.ofExcept (found.mapM store.pairOf)
  | outcome => throw (.unexpected outcome "scan")

/-- Makes sure that all writes are done, which they always are. -/
def flush (_ : MappedStore κ ε) : Call σ Unit :=
  pure ()

/-- Opens the store that a configuration describes, and creates its schema if the configuration says
so and it does not exist. -/
def openConfig [Key κ] [Entity ε] (client : Client σ) (files : FileTree) (config : StoreConfig) :
    Call σ (MappedStore κ ε) := do
  let mapping ← Call.ofExcept ((do
    let source ← config.findMapping files
    source.resolve files (Key.typeName κ) (Entity.typeName ε)).mapError .configuration)
  let store : MappedStore κ ε := ⟨mapping, .ofName config.serializer⟩
  if config.autoCreateSchema then
    if !(← store.hasSchema client) then store.createSchema client
  return store

end MappedStore

end EntityStore
