import EntityStore.Proofs.Memory.Address
import EntityStore.Proofs.Store.Dialogue
import EntityStore.Proofs.Store.Isolation

/-!
# The life of a schema

Three calls depend on whether the schema of a mapped store is there: asking for it looks into the
metadata of the namespace, removing all records looks for the collection, and a write does so too.
All three agree in every state (`MappedStore.schema_lifecycle`), also where the namespace exists
without the collection. They agree because each of them comes down to `Memory.collection?`: where it
finds nothing, `Memory.findCollection` fails with a `StoreError` that lacks the schema, and where it
finds records, no write fails with such an error (`Record.lacksSchema_of_afterWrite`).

Creating the schema completes it and touches no record, so that a second creation has nothing to do.
Dropping it leaves no namespace behind, whatever was there.
-/

namespace EntityStore

/-- The failure says that a namespace or a collection does not exist. -/
def StoreError.lacksSchema : StoreError → Bool
  | namespaceNotFound _ | collectionNotFound .. => true
  | _ => false

/-! ## Writes and the schema -/

/-- An action never fails for lack of the schema. -/
theorem ExistsAction.lacksSchema_of_apply {action : ExistsAction} {key : RecordKey} {bins : Bins}
    {stored : Option Record} {e : StoreError} (h : action.apply key bins stored = .error e) :
    e.lacksSchema = false := by
  cases stored with
  | some record =>
    cases action with
    | createOnly =>
      obtain rfl := Except.error.inj h
      rfl
    | update | updateOnly | replace | replaceOnly => cases h
  | none =>
    cases action with
    | updateOnly | replaceOnly =>
      obtain rfl := Except.error.inj h
      rfl
    | update | replace | createOnly => cases h

/-- A failure stays what it is if the result would have been changed. -/
theorem error_of_map_eq_error {ε α β : Type} {x : Except ε α} {f : α → β} {e : ε}
    (h : x.map f = .error e) : x = .error e := by
  cases x with
  | ok a => cases h
  | error e' => exact congrArg Except.error (Except.error.inj h)

/-- Inside a collection a write never fails for lack of the schema. -/
theorem Record.lacksSchema_of_afterWrite {key : RecordKey} {bins : Bins} {policy : WritePolicy}
    {stored : Option Record} {e : StoreError} (h : afterWrite key bins policy stored = .error e) :
    e.lacksSchema = false := by
  cases stored with
  | none =>
    rw [afterWrite_none] at h
    exact ExistsAction.lacksSchema_of_apply (error_of_map_eq_error h)
  | some record =>
    rw [afterWrite_some] at h
    split at h
    · exact ExistsAction.lacksSchema_of_apply (error_of_map_eq_error h)
    · obtain rfl := Except.error.inj h
      rfl

namespace Memory

variable {m : Memory} {ns name : String}

/-- A collection that is not there is not found, for lack of the schema. -/
theorem exists_findCollection_eq_error (h : m.collection? ns name = none) :
    ∃ e, m.findCollection ns name = .error e ∧ e.lacksSchema = true := by
  cases hns : m.get? ns with
  | none => exact ⟨_, findCollection_of_absent hns name, rfl⟩
  | some collections =>
    rw [collection?, hns, Option.bind_some] at h
    exact ⟨_, findCollection_of_get? hns h, rfl⟩

end Memory

namespace MappedStore

variable {κ ε : Type} {store : MappedStore κ ε} {m : Memory} {records : Collection}

/-! ## Removing all records -/

/-- Removing all records leaves the collection without records. -/
theorem runFrom_clear_of_collection?
    (h : m.collection? store.mapping.ns store.mapping.collection = some records) :
    (store.clear Memory.client).runFrom m =
      (.ok (), m.setCollection store.mapping.ns store.mapping.collection .empty) := by
  rw [clear, Memory.runFrom_perform_bind_of_ok (Memory.run_truncate h)]
  rfl

/-- All records can be removed exactly if the collection is there. -/
theorem exists_runFrom_clear_iff :
    (∃ m', (store.clear Memory.client).runFrom m = (.ok (), m')) ↔
      (m.collection? store.mapping.ns store.mapping.collection).isSome = true := by
  cases hrecords : m.collection? store.mapping.ns store.mapping.collection with
  | some records => simpa using ⟨_, runFrom_clear_of_collection? hrecords⟩
  | none =>
    obtain ⟨e, hfind, -⟩ := Memory.exists_findCollection_eq_error hrecords
    have hrun : m.run (.truncateCollection store.mapping.ns store.mapping.collection) =
        .error e := by
      rw [Memory.run, hfind]
      rfl
    rw [clear, Memory.runFrom_perform_bind_of_error hrun]
    simp

/-- After all records are removed, the collection is there and has none. -/
theorem collection?_of_clear {m' : Memory}
    (h : (store.clear Memory.client).runFrom m = (.ok (), m')) :
    m'.collection? store.mapping.ns store.mapping.collection = some .empty := by
  obtain ⟨records, hrecords⟩ := Option.isSome_iff_exists.1 (exists_runFrom_clear_iff.1 ⟨m', h⟩)
  rw [runFrom_clear_of_collection? hrecords] at h
  obtain ⟨-, rfl⟩ := Prod.mk.inj h
  exact Memory.collection?_setCollection hrecords .empty

/-! ## Writing -/

/-- A write of an entity that has bins fails for lack of the schema exactly if the collection is not
there. -/
theorem put_lacksSchema_iff [Key κ] [Entity ε] {entity : ε} {bins : Bins}
    (hbins : store.encode entity = .ok bins) (key : κ) :
    (∃ e, ((store.put Memory.client key entity).runFrom m).1 = .error (.store e) ∧
        e.lacksSchema = true) ↔
      m.collection? store.mapping.ns store.mapping.collection = none := by
  rw [put_of_encode hbins]
  cases hrecords : m.collection? store.mapping.ns store.mapping.collection with
  | none =>
    obtain ⟨e, hfind, hlacks⟩ := Memory.exists_findCollection_eq_error hrecords
    have hrun : m.run (.put (store.addressOf key) bins store.mapping.writePolicy) = .error e := by
      rw [Memory.run, addressOf, hfind]
      rfl
    rw [Memory.runFrom_perform_bind_of_error hrun]
    simpa using hlacks
  | some records =>
    have hrun : m.run (.put (store.addressOf key) bins store.mapping.writePolicy) = _ :=
      Memory.run_put hrecords bins store.mapping.writePolicy
    cases hafter : Record.afterWrite (store.addressOf key) bins store.mapping.writePolicy
        (records.get? (store.addressOf key).digest) with
    | ok record =>
      rw [hafter] at hrun
      rw [Memory.runFrom_perform_bind_of_ok hrun]
      simp
    | error e =>
      rw [hafter] at hrun
      rw [Memory.runFrom_perform_bind_of_error hrun]
      simpa using Record.lacksSchema_of_afterWrite hafter

/-! ## Creating the schema -/

/-- Creating the schema changes no record. -/
theorem record?_of_createSchema {m' : Memory}
    (h : (store.createSchema Memory.client).runFrom m = (.ok (), m')) (address : RecordKey) :
    m'.record? address = m.record? address := by
  obtain ⟨m₁, hrun₁, hns⟩ := m.run_createNamespace store.mapping.ns
  obtain ⟨m₂, hrun₂, -⟩ := m₁.run_createCollection hns store.mapping.collection
  rw [createSchema, Memory.runFrom_perform_bind_of_ok hrun₁,
    Memory.runFrom_perform_bind_of_ok hrun₂] at h
  obtain rfl : m₂ = m' := congrArg Prod.snd h
  calc m₂.record? address
      = (m₁.next
          (.createCollection store.mapping.ns store.mapping.collection)).record? address := by
        rw [Memory.next_of_ok hrun₂]
    _ = m₁.record? address := m₁.record?_createCollection _ _ address
    _ = (m.next (.createNamespace store.mapping.ns)).record? address := by
        rw [Memory.next_of_ok hrun₁]
    _ = m.record? address := m.record?_createNamespace _ address

/-- Where the collection is there, creating the schema changes nothing. -/
theorem runFrom_createSchema_of_collection?
    (h : m.collection? store.mapping.ns store.mapping.collection = some records) :
    (store.createSchema Memory.client).runFrom m = (.ok (), m) := by
  obtain ⟨collections, hns, hname⟩ := Memory.collection?_eq_some_iff.1 h
  have hnamespace : m.run (.createNamespace store.mapping.ns) = .ok (.done, m) := by
    simp [Memory.run, OrderedMap.contains, hns]
  have hcollection : m.run (.createCollection store.mapping.ns store.mapping.collection) =
      .ok (.done, m) := by
    simp [Memory.run, Memory.findNamespace, OrderedMap.contains, hns, hname, bind, Except.bind]
  rw [createSchema, Memory.runFrom_perform_bind_of_ok hnamespace,
    Memory.runFrom_perform_bind_of_ok hcollection]
  rfl

/-! ## From creation to removal -/

/-- Asking for the schema never fails; the answer is yes exactly if all records can be removed, and
exactly if a write of an entity that has bins does not fail for lack of the schema. Creating the
schema succeeds and makes it exist, changes no record, and done again changes nothing. After all
records are removed the schema still exists, without records. Dropping it succeeds, whatever there
is, and leaves neither the schema nor its namespace; created again, the collection is empty. -/
theorem schema_lifecycle [Key κ] [Entity ε] (store : MappedStore κ ε) (m : Memory) :
    (∃ present, (store.hasSchema Memory.client).runFrom m = (.ok present, m) ∧
      (present = true ↔ ∃ m', (store.clear Memory.client).runFrom m = (.ok (), m')) ∧
      ∀ key entity bins, store.encode entity = .ok bins →
        (present = true ↔ ¬∃ e,
          ((store.put Memory.client key entity).runFrom m).1 = .error (.store e) ∧
            e.lacksSchema = true)) ∧
    (∃ m', (store.createSchema Memory.client).runFrom m = (.ok (), m') ∧
      (store.hasSchema Memory.client).runFrom m' = (.ok true, m') ∧
      (∀ address, m'.record? address = m.record? address) ∧
      (store.createSchema Memory.client).runFrom m' = (.ok (), m')) ∧
    (∀ m', (store.clear Memory.client).runFrom m = (.ok (), m') →
      (store.hasSchema Memory.client).runFrom m' = (.ok true, m') ∧
      m'.collection? store.mapping.ns store.mapping.collection = some .empty) ∧
    ∃ m', (store.dropSchema Memory.client).runFrom m = (.ok (), m') ∧
      (store.hasSchema Memory.client).runFrom m' = (.ok false, m') ∧
      (Memory.client.inspect store.mapping.ns).runFrom m' = (.ok none, m') ∧
      ∃ m'', (store.createSchema Memory.client).runFrom m' = (.ok (), m'') ∧
        m''.collection? store.mapping.ns store.mapping.collection = some .empty := by
  refine ⟨⟨_, runFrom_hasSchema store m, exists_runFrom_clear_iff.symm, ?_⟩, ?_, ?_, ?_⟩
  · intro key entity bins hbins
    rw [put_lacksSchema_iff hbins, Option.isSome_iff_ne_none]
  · obtain ⟨m', hcreate, hrecords⟩ := runFrom_createSchema store m
    refine ⟨m', hcreate, ?_, record?_of_createSchema hcreate,
      runFrom_createSchema_of_collection? hrecords⟩
    rw [runFrom_hasSchema, hrecords]
    rfl
  · intro m' hclear
    have hrecords := collection?_of_clear hclear
    refine ⟨?_, hrecords⟩
    rw [runFrom_hasSchema, hrecords]
    rfl
  · have hdropped : (m.erase store.mapping.ns).get? store.mapping.ns = none := by
      rw [OrderedMap.get?_erase, if_pos rfl]
    have hrecords : Memory.collection? (m.erase store.mapping.ns) store.mapping.ns
        store.mapping.collection = none := by
      rw [Memory.collection?, hdropped]
      rfl
    obtain ⟨m'', hcreate, hcreated⟩ := runFrom_createSchema store (m.erase store.mapping.ns)
    rw [hrecords] at hcreated
    refine ⟨_, runFrom_dropSchema store m, ?_, ?_, m'', hcreate, hcreated⟩
    · rw [runFrom_hasSchema, hrecords]
      rfl
    · rw [Memory.runFrom_inspect, Memory.metadata, hdropped]
      rfl

/-- The namespace exists and the collection of logs does not, so its schema does not exist and a
write fails for lack of it. The documents in the same namespace have their schema, and keep it when
their records are removed. -/
theorem schema_lifecycle_partial :
    (logsStore.hasSchema Memory.client).runFrom mixedFormats = (.ok false, mixedFormats) ∧
      (∃ e, ((logsStore.put Memory.client "a" ⟨.empty⟩).runFrom mixedFormats).1 =
        .error (.store e) ∧ e.lacksSchema = true) ∧
      ∃ m', ((docsStore .cbor).clear Memory.client).runFrom mixedFormats = (.ok (), m') ∧
        ((docsStore .cbor).hasSchema Memory.client).runFrom m' = (.ok true, m') ∧
        m'.collection? "app" "docs" = some .empty := by
  obtain ⟨⟨present, hask, -, hput⟩, -⟩ := schema_lifecycle logsStore mixedFormats
  obtain rfl : false = present := Except.ok.inj (congrArg Prod.fst hask)
  obtain ⟨⟨present', hask', hclear, -⟩, -, hcleared, -⟩ :=
    schema_lifecycle (docsStore .cbor) mixedFormats
  obtain rfl : true = present' := Except.ok.inj (congrArg Prod.fst hask')
  obtain ⟨m', hm'⟩ := hclear.1 rfl
  refine ⟨hask, ?_, m', hm', hcleared m' hm'⟩
  by_contra hnone
  exact absurd ((hput "a" ⟨.empty⟩ _ rfl).2 hnone) Bool.false_ne_true

end MappedStore

end EntityStore
