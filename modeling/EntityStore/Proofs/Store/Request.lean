import EntityStore.Proofs.Store.Call

/-!
# Requests to a mapped store

`Request` lists the calls that an application makes of a mapped store, and `MappedStore.respond`
makes such a call, so that statements about the use of a store can range over lists of requests.
-/

namespace EntityStore

/-- A call that an application makes of a mapped store. -/
inductive Request (κ ε : Type) where
  /-- Creates the namespace and the collection. -/
  | createSchema
  /-- Drops the collection and the namespace. -/
  | dropSchema
  /-- Asks for the namespace and the collection. -/
  | hasSchema
  /-- Removes all records. -/
  | clear
  /-- Writes an entity. -/
  | put (key : κ) (entity : ε)
  /-- Writes pairs one after the other. -/
  | putAll (pairs : List (κ × ε))
  /-- Reads an entity. -/
  | get (key : κ)
  /-- Removes an entity. -/
  | delete (key : κ)
  /-- Reads the pairs of the collection. -/
  | query (q : Query)

/-- What an application gets from a request that succeeds. -/
inductive Answer (κ ε : Type) where
  /-- The request is done. -/
  | done
  /-- Whether something is, or was, there. -/
  | found (present : Bool)
  /-- The entity that was read, if there is one. -/
  | entity (found : Option ε)
  /-- The pairs that were read. -/
  | pairs (found : List (κ × ε))

/-- The entities that a request writes. -/
def Request.entities {κ ε : Type} : Request κ ε → List ε
  | put _ entity => [entity]
  | putAll pairs => pairs.map (·.2)
  | _ => []

/-- Makes the call that a request stands for. -/
def MappedStore.respond {κ ε σ : Type} [Key κ] [Entity ε] (client : Client σ)
    (store : MappedStore κ ε) : Request κ ε → Call σ (Answer κ ε)
  | .createSchema => (fun _ => .done) <$> store.createSchema client
  | .dropSchema => (fun _ => .done) <$> store.dropSchema client
  | .hasSchema => .found <$> store.hasSchema client
  | .clear => (fun _ => .done) <$> store.clear client
  | .put key entity => (fun _ => .done) <$> store.put client key entity
  | .putAll pairs => (fun _ => .done) <$> store.putAll client pairs
  | .get key => .entity <$> store.get client key
  | .delete key => .found <$> store.delete client key
  | .query q => .pairs <$> store.query client q

end EntityStore
