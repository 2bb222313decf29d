import EntityStore.Value

/-!
# Records and their addresses

A record is addressed by a namespace, a collection in it, and a digest, which is the text of the
application's key. It has bins and a generation, which counts the writes it has seen, and keeps the
user key if some write sent it.

The two structures mirror `RecordKey` and `Record`.
-/

namespace EntityStore

/-- The address of a record. -/
structure RecordKey where
  /-- The namespace. -/
  ns : String
  /-- The collection in the namespace. -/
  collection : String
  /-- The identity of the record in the collection: the text of the application's key. -/
  digest : String
  deriving DecidableEq

/-- The three parts of an address, with slashes between them. -/
def RecordKey.display (key : RecordKey) : String :=
  key.ns ++ "/" ++ key.collection ++ "/" ++ key.digest

/-- A stored record. -/
structure Record where
  /-- The values by the names of their bins. -/
  bins : Bins
  /-- The number of writes that the record has seen, modulo `2 ^ 32`. -/
  generation : UInt32 := 0
  /-- The user key, if a write sent it. -/
  key : Option String := none

end EntityStore
