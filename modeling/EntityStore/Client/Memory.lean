import EntityStore.Client

/-!
# The memory store

A store whose whole state is a value: namespaces hold collections, collections hold records by
digest. Time limits are accepted and ignored.

A write goes through four checks in this order: the namespace exists, the collection exists, the
generation of a stored record passes the policy's check, and the policy's action allows a record to
be there or not. `Record.afterWrite` has the last two, and says what record the write leaves.

It mirrors `MemoryStoreClient`: `Memory.run` is its `execute` and `Memory.metadata` its
`namespace_metadata`, and the write is its `put`.
-/

namespace EntityStore

/-- Does a stored record pass the generation check of a write? -/
def WritePolicy.accepts (policy : WritePolicy) (stored : Record) : Bool :=
  match policy.generation with
  | .ignore => true
  | .expectEqual => stored.generation = policy.expectedGeneration
  | .expectGreater => stored.generation < policy.expectedGeneration

/-- What a write by the action makes of the record that may be there, before the user key is
considered. -/
def ExistsAction.apply (action : ExistsAction) (key : RecordKey) (bins : Bins) :
    Option Record → Except StoreError Record
  | some stored =>
    let next := { stored with generation := stored.generation + 1 }
    match action with
    | .createOnly => .error (.recordExists key.display)
    | .update | .updateOnly => .ok { next with bins := stored.bins.overlay bins }
    | .replace | .replaceOnly => .ok { next with bins := bins }
  | none =>
    match action with
    | .updateOnly | .replaceOnly => .error (.recordNotFound key.display)
    | .update | .replace | .createOnly => .ok { bins := bins, generation := 1 }

/-- The record that a write leaves where `stored` may have been, or why it fails. -/
def Record.afterWrite (key : RecordKey) (bins : Bins) (policy : WritePolicy)
    (stored : Option Record) : Except StoreError Record := do
  match stored with
  | some record =>
    if !policy.accepts record then
      throw (.generationMismatch key.display record.generation policy.expectedGeneration)
  | none => pure ()
  let record ← policy.existsAction.apply key bins stored
  match policy.keyMode with
  | .send => pure { record with key := some key.digest }
  | .digest => pure record

/-- The records of a collection by their digests. -/
abbrev Collection := OrderedMap Record

/-- The collections of a namespace by their names. -/
abbrev Namespace := OrderedMap Collection

/-- The state of a memory store: its namespaces by their names. -/
abbrev Memory := OrderedMap Namespace

namespace Memory

/-- The namespace with a name, or the failure to find it. -/
def findNamespace (m : Memory) (ns : String) : Except StoreError Namespace :=
  match m.get? ns with
  | some collections => .ok collections
  | none => .error (.namespaceNotFound ns)

/-- The collection with a name in a namespace, or the failure to find one of the two. -/
def findCollection (m : Memory) (ns name : String) : Except StoreError Collection := do
  match (← m.findNamespace ns).get? name with
  | some records => .ok records
  | none => .error (.collectionNotFound ns name)

/-- The record at an address, if the namespace and the collection exist and hold it. -/
def record? (m : Memory) (key : RecordKey) : Option Record := do
  (← (← m.get? key.ns).get? key.collection).get? key.digest

/-- The store with other records in a collection of an existing namespace. -/
def setCollection (m : Memory) (ns name : String) (records : Collection) : Memory :=
  m.modify ns fun collections => collections.insert name records

/-- The outcome of an operation and the store that it leaves, or the failure, which leaves the
store as it was. -/
def run (m : Memory) : Operation → Except StoreError (Outcome × Memory)
  | .createNamespace ns =>
    .ok (.done, if m.contains ns then m else m.insert ns .empty)
  | .dropNamespace ns => .ok (.done, m.erase ns)
  | .createCollection ns name => do
    let collections ← m.findNamespace ns
    .ok (.done, if collections.contains name then m else m.setCollection ns name .empty)
  | .dropCollection ns name =>
    .ok (.done, m.modify ns fun collections => collections.erase name)
  | .truncateCollection ns name => do
    let _ ← m.findCollection ns name
    .ok (.done, m.setCollection ns name .empty)
  | .put key bins policy => do
    let records ← m.findCollection key.ns key.collection
    let record ← Record.afterWrite key bins policy (records.get? key.digest)
    .ok (.done, m.setCollection key.ns key.collection (records.insert key.digest record))
  | .get key _ => do
    let collections ← m.findNamespace key.ns
    .ok (.record ((collections.get? key.collection).bind (·.get? key.digest)), m)
  | .delete key _ => do
    let collections ← m.findNamespace key.ns
    match collections.get? key.collection with
    | none => .ok (.deleted false, m)
    | some records =>
      .ok (.deleted (records.contains key.digest),
        m.setCollection key.ns key.collection (records.erase key.digest))
  | .scan ns name limit _ => do
    let collections ← m.findNamespace ns
    let found := match collections.get? name with
      | some records => records.entries
      | none => []
    .ok (.records (match limit with | some n => found.take n | none => found), m)

/-- The collections of a namespace, if it exists. -/
def metadata (m : Memory) (ns : String) : Option NamespaceMetadata :=
  (m.get? ns).map fun collections =>
    { ns := ns, collections := collections.entries.map fun c => (c.1, c.2.size) }

/-- The client of a memory store. -/
def client : Client Memory where
  execute operation m :=
    match m.run operation with
    | .ok (outcome, m') => (.ok outcome, m')
    | .error e => (.error e, m)
  metadata ns m := (.ok (m.metadata ns), m)
  close m := m

end Memory

end EntityStore
