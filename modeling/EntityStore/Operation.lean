import EntityStore.Policy
import EntityStore.Record

/-!
# Operations on a store, and their outcomes

A store executes operations one at a time. Each succeeds with an outcome or fails with a
`StoreError`. Besides, a store reports which collections a namespace has.

They mirror `Operation`, `OpResult`, `StoreError` and `NamespaceMetadata`.
-/

namespace EntityStore

/-- A request to a store. -/
inductive Operation where
  /-- Makes sure that a namespace exists. -/
  | createNamespace (ns : String)
  /-- Removes a namespace with all it holds. -/
  | dropNamespace (ns : String)
  /-- Makes sure that a collection exists in a namespace. -/
  | createCollection (ns collection : String)
  /-- Removes a collection with all it holds. -/
  | dropCollection (ns collection : String)
  /-- Removes the records of a collection. -/
  | truncateCollection (ns collection : String)
  /-- Writes bins to a record. -/
  | put (key : RecordKey) (bins : Bins) (policy : WritePolicy)
  /-- Reads a record. -/
  | get (key : RecordKey) (policy : ReadPolicy)
  /-- Removes a record. -/
  | delete (key : RecordKey) (policy : WritePolicy)
  /-- Reads the records of a collection, the first ones only if there is a limit. -/
  | scan (ns collection : String) (limit : Option Nat) (policy : ReadPolicy)

/-- What a store answers to an operation that succeeds. -/
inductive Outcome where
  /-- An administrative operation or a write is done. -/
  | done
  /-- The record that was read, if there is one. -/
  | record (found : Option Record)
  /-- Whether a record was removed. -/
  | deleted (removed : Bool)
  /-- The records of a scan, with their digests. -/
  | records (found : List (String × Record))

/-- A failure that a store reports. -/
inductive StoreError where
  /-- The namespace does not exist. -/
  | namespaceNotFound (ns : String)
  /-- The collection does not exist in its namespace. -/
  | collectionNotFound (ns collection : String)
  /-- The record to be created exists. -/
  | recordExists (key : String)
  /-- The record to be written over does not exist. -/
  | recordNotFound (key : String)
  /-- The stored generation does not pass the check of the write. -/
  | generationMismatch (key : String) (stored expected : UInt32)
  /-- The operation took longer than allowed. -/
  | timeout (milliseconds : UInt32)
  /-- The store does not answer. -/
  | unavailable (reason : String)
  deriving DecidableEq

/-- The collections of a namespace, with the number of records of each. -/
structure NamespaceMetadata where
  /-- The namespace. -/
  ns : String
  /-- The collections and their sizes. -/
  collections : List (String × Nat)
  deriving DecidableEq

/-- The number of records of a collection, if the namespace has it. -/
def NamespaceMetadata.count? (m : NamespaceMetadata) (collection : String) : Option Nat :=
  (m.collections.find? fun c => c.1 = collection).map (·.2)

/-- The wording of a failure that a store reports. -/
def StoreError.message : StoreError → String
  | namespaceNotFound ns => "namespace '" ++ ns ++ "' does not exist"
  | collectionNotFound ns collection =>
    "collection '" ++ ns ++ "." ++ collection ++ "' does not exist"
  | recordExists key => "record " ++ key ++ " already exists"
  | recordNotFound key => "record " ++ key ++ " does not exist"
  | generationMismatch key stored expected =>
    "generation check failed for " ++ key ++ ": stored " ++ Decimal.toText stored.toNat ++
      ", expected " ++ Decimal.toText expected.toNat
  | timeout milliseconds =>
    "operation timed out after " ++ Decimal.toText milliseconds.toNat ++ " ms"
  | unavailable reason => "store unavailable: " ++ reason

end EntityStore
