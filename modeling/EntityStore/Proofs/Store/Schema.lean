import EntityStore.MappedStore
import EntityStore.Proofs.Memory.Basic

/-!
# The schema of a mapped store on a memory store

Creating the schema makes sure that the collection is there and keeps its records, and the schema
exists exactly if the collection is there. Dropping the schema removes the namespace, so that
nothing is left of any collection in it.
-/

namespace EntityStore.MappedStore

variable {κ ε : Type}

/-- Creating the schema keeps the records of the collection, if it has any. -/
theorem runFrom_createSchema (store : MappedStore κ ε) (m : Memory) :
    ∃ m', (store.createSchema Memory.client).runFrom m = (.ok (), m') ∧
      m'.collection? store.mapping.ns store.mapping.collection =
        some ((m.collection? store.mapping.ns store.mapping.collection).getD .empty) := by
  obtain ⟨m₁, hrun₁, hns⟩ := m.run_createNamespace store.mapping.ns
  obtain ⟨m₂, hrun₂, hname⟩ := m₁.run_createCollection hns store.mapping.collection
  refine ⟨m₂, ?_, ?_⟩
  · rw [createSchema, Memory.runFrom_perform_bind_of_ok hrun₁,
      Memory.runFrom_perform_bind_of_ok hrun₂]
    rfl
  · rw [hname, Memory.collection?]
    cases m.get? store.mapping.ns <;> rfl

/-- The schema exists if the store has the collection. -/
theorem runFrom_hasSchema (store : MappedStore κ ε) (m : Memory) :
    (store.hasSchema Memory.client).runFrom m =
      (.ok (m.collection? store.mapping.ns store.mapping.collection).isSome, m) := by
  rw [← Option.isSome_map, ← Memory.count?_metadata, hasSchema, Call.runFrom_bind,
    Memory.runFrom_inspect]
  cases m.metadata store.mapping.ns <;> rfl

/-- Dropping the schema succeeds and removes the namespace. -/
theorem runFrom_dropSchema (store : MappedStore κ ε) (m : Memory) :
    (store.dropSchema Memory.client).runFrom m = (.ok (), m.erase store.mapping.ns) := by
  have hdropped : (m.modify store.mapping.ns fun collections =>
      collections.erase store.mapping.collection).erase store.mapping.ns =
        m.erase store.mapping.ns := by
    refine OrderedMap.ext_get? fun ns => ?_
    rw [OrderedMap.get?_erase, OrderedMap.get?_erase]
    split
    · rfl
    · next hne => cases hns : m.get? store.mapping.ns <;> simp [OrderedMap.modify, hns, hne]
  rw [dropSchema, Memory.runFrom_perform_bind_of_ok rfl, Memory.runFrom_perform_bind_of_ok rfl,
    hdropped]
  rfl

end EntityStore.MappedStore
