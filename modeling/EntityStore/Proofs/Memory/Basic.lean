import EntityStore.Client.Memory
import EntityStore.Proofs.OrderedMap
import EntityStore.Proofs.Store.Call

/-!
# What the memory store does to one collection

`afterWrite_some` and `afterWrite_none` say what a write makes of a stored record and of a missing
one. The remaining lemmas follow one collection through the operations of a mapped store: in a store
that has the collection (`Memory.collection?`), each operation on it succeeds or fails by the
records of the collection alone.
-/

namespace EntityStore

/-! ## Writing a record -/

/-- The record with the user key, if the mode sends it. -/
def Record.withKey (record : Record) (mode : KeyMode) (key : RecordKey) : Record :=
  match mode with
  | .send => { record with key := some key.digest }
  | .digest => record

/-- The user key is not in a bin. -/
@[simp] theorem Record.bins_withKey (record : Record) (mode : KeyMode) (key : RecordKey) :
    (record.withKey mode key).bins = record.bins := by
  cases mode <;> rfl

/-- A write over a stored record checks its generation and then applies the action. -/
theorem Record.afterWrite_some (key : RecordKey) (bins : Bins) (policy : WritePolicy)
    (stored : Record) :
    afterWrite key bins policy (some stored) =
      if policy.accepts stored then
        (policy.existsAction.apply key bins (some stored)).map (·.withKey policy.keyMode key)
      else
        .error (.generationMismatch key.display stored.generation policy.expectedGeneration) := by
  unfold afterWrite withKey
  cases haccepts : policy.accepts stored with
  | false =>
    simp only [haccepts]
    rfl
  | true =>
    simp only [haccepts]
    cases policy.existsAction.apply key bins (some stored) with
    | ok record => cases policy.keyMode <;> rfl
    | error e => rfl

/-- A write of a missing record applies the action. -/
theorem Record.afterWrite_none (key : RecordKey) (bins : Bins) (policy : WritePolicy) :
    afterWrite key bins policy none =
      (policy.existsAction.apply key bins none).map (·.withKey policy.keyMode key) := by
  unfold afterWrite withKey
  cases policy.existsAction.apply key bins none with
  | ok record => cases policy.keyMode <;> rfl
  | error e => rfl

/-- A write that does not check the generation applies the action. -/
theorem Record.afterWrite_of_ignore (key : RecordKey) (bins : Bins) {policy : WritePolicy}
    (h : policy.generation = .ignore) (stored : Option Record) :
    afterWrite key bins policy stored =
      (policy.existsAction.apply key bins stored).map (·.withKey policy.keyMode key) := by
  cases stored with
  | some record =>
    have haccepts : policy.accepts record = true := by rw [WritePolicy.accepts, h]
    rw [afterWrite_some, if_pos haccepts]
  | none => exact afterWrite_none key bins policy

/-! ## One collection -/

namespace Memory

variable {m : Memory} {ns name : String} {records : Collection}

/-- The collection with a name in a namespace, if the store has both. -/
def collection? (m : Memory) (ns name : String) : Option Collection :=
  (m.get? ns).bind (·.get? name)

/-- A collection is there if its namespace is, and has it. -/
theorem collection?_eq_some_iff : m.collection? ns name = some records ↔
    ∃ collections, m.get? ns = some collections ∧ collections.get? name = some records :=
  Option.bind_eq_some_iff

/-- A collection that is there is found in its namespace. -/
theorem findNamespace_of_collection? (h : m.collection? ns name = some records) :
    ∃ collections, m.findNamespace ns = .ok collections ∧ collections.get? name = some records := by
  obtain ⟨collections, hns, hname⟩ := collection?_eq_some_iff.1 h
  exact ⟨collections, by rw [findNamespace, hns], hname⟩

/-- A collection that is there is found. -/
theorem findCollection_of_collection? (h : m.collection? ns name = some records) :
    m.findCollection ns name = .ok records := by
  obtain ⟨collections, hns, hname⟩ := findNamespace_of_collection? h
  simp [findCollection, hns, hname, bind, Except.bind]

/-- A namespace that is not there is not found. -/
theorem findNamespace_of_absent (h : m.get? ns = none) :
    m.findNamespace ns = .error (.namespaceNotFound ns) := by
  rw [findNamespace, h]

/-- A collection is not found where its namespace is not there. -/
theorem findCollection_of_absent (h : m.get? ns = none) (name : String) :
    m.findCollection ns name = .error (.namespaceNotFound ns) := by
  rw [findCollection, findNamespace_of_absent h]
  rfl

/-- A collection is not found where its namespace does not have it. -/
theorem findCollection_of_get? {collections : Namespace} (hns : m.get? ns = some collections)
    (hname : collections.get? name = none) :
    m.findCollection ns name = .error (.collectionNotFound ns name) := by
  simp [findCollection, findNamespace, hns, hname, bind, Except.bind]

/-- The new records of a collection are in the store. -/
theorem collection?_setCollection (h : m.collection? ns name = some records)
    (records' : Collection) : (m.setCollection ns name records').collection? ns name =
      some records' := by
  obtain ⟨collections, hns, -⟩ := collection?_eq_some_iff.1 h
  simp [setCollection, OrderedMap.modify, collection?, hns]

/-- A write sees the record under its digest and nothing else. -/
theorem run_put {key : RecordKey} (h : m.collection? key.ns key.collection = some records)
    (bins : Bins) (policy : WritePolicy) :
    m.run (.put key bins policy) =
      (Record.afterWrite key bins policy (records.get? key.digest)).map fun record =>
        (.done, m.setCollection key.ns key.collection (records.insert key.digest record)) := by
  rw [run, findCollection_of_collection? h]
  cases hwrite : Record.afterWrite key bins policy (records.get? key.digest) with
  | ok record => simp [hwrite, Except.map, bind, Except.bind]
  | error e => simp [hwrite, Except.map, bind, Except.bind]

/-- A read finds the record under its digest. -/
theorem run_get {key : RecordKey} (h : m.collection? key.ns key.collection = some records)
    (policy : ReadPolicy) :
    m.run (.get key policy) = .ok (.record (records.get? key.digest), m) := by
  obtain ⟨collections, hns, hname⟩ := findNamespace_of_collection? h
  simp [run, hns, hname, bind, Except.bind]

/-- A removal removes the record under its digest. -/
theorem run_delete {key : RecordKey} (h : m.collection? key.ns key.collection = some records)
    (policy : WritePolicy) :
    m.run (.delete key policy) = .ok (.deleted (records.contains key.digest),
      m.setCollection key.ns key.collection (records.erase key.digest)) := by
  obtain ⟨collections, hns, hname⟩ := findNamespace_of_collection? h
  simp [run, hns, hname, bind, Except.bind]

/-- A scan lists the records in the order of their digests. -/
theorem run_scan (h : m.collection? ns name = some records) (limit : Option Nat)
    (policy : ReadPolicy) :
    m.run (.scan ns name limit policy) = .ok (.records (match limit with
      | some n => records.entries.take n
      | none => records.entries), m) := by
  obtain ⟨collections, hns, hname⟩ := findNamespace_of_collection? h
  cases limit with
  | some n => simp [run, hns, hname, bind, Except.bind]
  | none => simp [run, hns, hname, bind, Except.bind]

/-- A scan that does not fail lists records, and leaves the store as it was. -/
theorem run_scan_cases (m : Memory) (ns name : String) (limit : Option Nat) (policy : ReadPolicy) :
    (∃ found, m.run (.scan ns name limit policy) = .ok (.records found, m)) ∨
      ∃ e, m.run (.scan ns name limit policy) = .error e := by
  rw [run]
  cases m.findNamespace ns with
  | ok collections => exact .inl ⟨_, rfl⟩
  | error e => exact .inr ⟨e, rfl⟩

/-- A truncation removes all records. -/
theorem run_truncate (h : m.collection? ns name = some records) :
    m.run (.truncateCollection ns name) = .ok (.done, m.setCollection ns name .empty) := by
  rw [run, findCollection_of_collection? h]
  rfl

/-! ## Schemas -/

/-- A namespace that is created has the collections that it had, or none. -/
theorem run_createNamespace (m : Memory) (ns : String) :
    ∃ m', m.run (.createNamespace ns) = .ok (.done, m') ∧
      m'.get? ns = some ((m.get? ns).getD .empty) := by
  refine ⟨_, rfl, ?_⟩
  cases h : m.get? ns with
  | some collections => simp [OrderedMap.contains, h]
  | none => simp [OrderedMap.contains, h]

/-- A collection that is created has the records that it had, or none. -/
theorem run_createCollection {collections : Namespace} (h : m.get? ns = some collections)
    (name : String) :
    ∃ m', m.run (.createCollection ns name) = .ok (.done, m') ∧
      m'.collection? ns name = some ((collections.get? name).getD .empty) := by
  refine ⟨if collections.contains name then m else m.setCollection ns name .empty, ?_, ?_⟩
  · rw [run, findNamespace, h]
    rfl
  · cases hname : collections.get? name with
    | some records => simp [OrderedMap.contains, hname, collection?, h]
    | none =>
      simp [OrderedMap.contains, hname, collection?, h, setCollection, OrderedMap.modify]

/-- A namespace reports the collections that it has, with their sizes. -/
theorem count?_metadata (m : Memory) (ns name : String) :
    (m.metadata ns).bind (·.count? name) = (m.collection? ns name).map OrderedMap.size := by
  unfold metadata collection?
  cases m.get? ns with
  | none => rfl
  | some collections =>
    simp only [Option.map_some, Option.bind_some, NamespaceMetadata.count?, OrderedMap.get?]
    generalize collections.entries = entries
    induction entries with
    | nil => rfl
    | cons entry rest ih =>
      obtain ⟨k, records⟩ := entry
      rw [List.map_cons, List.find?_cons, OrderedMap.lookupEntry]
      by_cases heq : name = k
      · simp [heq]
      · simpa [heq, Ne.symm heq] using ih

/-! ## The client -/

/-- The client executes an operation that succeeds. -/
theorem execute_of_ok {operation : Operation} {outcome : Outcome} {m' : Memory}
    (h : m.run operation = .ok (outcome, m')) :
    client.execute operation m = (.ok outcome, m') := by
  simp only [client, h]

/-- The client leaves the store as it was if an operation fails. -/
theorem execute_of_error {operation : Operation} {e : StoreError}
    (h : m.run operation = .error e) : client.execute operation m = (.error e, m) := by
  simp only [client, h]

/-- An operation that succeeds leaves the store that it says. -/
theorem runFrom_perform_of_ok {operation : Operation} {outcome : Outcome} {m' : Memory}
    (h : m.run operation = .ok (outcome, m')) :
    (client.perform operation).runFrom m = (.ok outcome, m') := by
  rw [Client.perform, Call.runFrom_ofState, execute_of_ok h]
  rfl

/-- An operation that fails leaves the store as it was. -/
theorem runFrom_perform_of_error {operation : Operation} {e : StoreError}
    (h : m.run operation = .error e) :
    (client.perform operation).runFrom m = (.error (.store e), m) := by
  rw [Client.perform, Call.runFrom_ofState, execute_of_error h]
  rfl

/-- A request for metadata leaves the store as it was. -/
theorem runFrom_inspect (m : Memory) (ns : String) :
    (client.inspect ns).runFrom m = (.ok (m.metadata ns), m) :=
  rfl

/-- A call that begins with an operation goes on from the store that the operation leaves. -/
theorem runFrom_perform_bind_of_ok {α : Type} {operation : Operation} {outcome : Outcome}
    {m' : Memory} {f : Outcome → Call Memory α} (h : m.run operation = .ok (outcome, m')) :
    (client.perform operation >>= f).runFrom m = (f outcome).runFrom m' := by
  rw [Call.runFrom_bind, runFrom_perform_of_ok h]

/-- A call that begins with an operation that fails fails itself. -/
theorem runFrom_perform_bind_of_error {α : Type} {operation : Operation} {e : StoreError}
    {f : Outcome → Call Memory α} (h : m.run operation = .error e) :
    (client.perform operation >>= f).runFrom m = (.error (.store e), m) := by
  rw [Call.runFrom_bind, runFrom_perform_of_error h]

end Memory

end EntityStore
