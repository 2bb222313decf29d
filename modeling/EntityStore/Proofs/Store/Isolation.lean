import EntityStore.Proofs.Memory.InPlace
import EntityStore.Proofs.Store.Reading
import EntityStore.Proofs.Store.Schema

/-!
# Mapped stores do not see one another

A mapped store on a memory client works at one address only: in the namespace of its mapping, and
there in the collection of its mapping. Two memory stores `AgreeOutside` an address if they differ
nowhere else. Each operation that a mapped store issues, but for dropping the namespace, leaves a
store that agrees with the one before outside the address of the mapping (`agreeOutside_next`), so a
request does too, and so do any number of requests. Another mapped store with another address
therefore finds its collection as it was.

Dropping the schema is the exception, because the namespace goes with all its collections.
`MappedStore.isolated` says both.
-/

namespace EntityStore

namespace Memory

/-- The stores have the same namespaces, but for one, and in it the same collections, but for
one. -/
structure AgreeOutside (ns name : String) (m m' : Memory) : Prop where
  /-- The other namespaces are the same. -/
  namespaces : ∀ ns', ns' ≠ ns → m'.get? ns' = m.get? ns'
  /-- The other collections of the namespace are the same. -/
  collections : ∀ name', name' ≠ name → m'.collection? ns name' = m.collection? ns name'

variable {ns name : String} {m m' m'' : Memory}

namespace AgreeOutside

/-- Every store agrees with itself. -/
theorem refl (ns name : String) (m : Memory) : AgreeOutside ns name m m :=
  ⟨fun _ _ => rfl, fun _ _ => rfl⟩

/-- Stores that agree with one store one after the other agree. -/
theorem trans (h : AgreeOutside ns name m m') (hnext : AgreeOutside ns name m' m'') :
    AgreeOutside ns name m m'' :=
  ⟨fun ns' hne => (hnext.namespaces ns' hne).trans (h.namespaces ns' hne),
    fun name' hne => (hnext.collections name' hne).trans (h.collections name' hne)⟩

/-- Stores that agree have the same collections at other addresses. -/
theorem collection?_eq (h : AgreeOutside ns name m m') {ns' name' : String}
    (hne : (ns', name') ≠ (ns, name)) : m'.collection? ns' name' = m.collection? ns' name' := by
  by_cases hns : ns' = ns
  · subst hns
    exact h.collections name' fun hname => hne (by rw [hname])
  · rw [collection?, collection?, h.namespaces ns' hns]

end AgreeOutside

/-! ## One operation -/

/-- A program inside one key leaves the values at the other keys. -/
theorem get?_inside_of_ne {α β : Type} {key k : String} (hne : k ≠ key) (missing : StoreError)
    (program : Call α β) (m : OrderedMap α) :
    ((Call.inside key missing program).runFrom m).2.get? k = m.get? k := by
  cases hvalue : m.get? key with
  | none => rw [runFrom_inside_of_absent hvalue]
  | some value => rw [runFrom_inside_of_get? hvalue, OrderedMap.get?_insert, if_neg hne]

/-- A program inside the namespace that leaves the other collections as they were. -/
theorem agreeOutside_inside {β : Type} {program : Call Namespace β}
    (h : ∀ collections name', name' ≠ name →
      (program.runFrom collections).2.get? name' = collections.get? name')
    (missing : StoreError) (m : Memory) :
    AgreeOutside ns name m ((Call.inside ns missing program).runFrom m).2 := by
  refine ⟨fun ns' hne => get?_inside_of_ne hne missing program m, fun name' hne => ?_⟩
  rw [collection?, collection?]
  cases hns : m.get? ns with
  | none => rw [runFrom_inside_of_absent hns, hns]
  | some collections =>
    rw [runFrom_inside_of_get? hns, OrderedMap.get?_insert, if_pos rfl]
    exact h collections name' hne

/-- An operation at the address of a mapping, but for dropping the namespace, changes nothing
outside the address. -/
theorem agreeOutside_next {κ ε : Type} [Key κ] {store : MappedStore κ ε} {operation : Operation}
    (h : store.Issues operation) (hdrop : operation ≠ .dropNamespace store.mapping.ns)
    (m : Memory) :
    AgreeOutside store.mapping.ns store.mapping.collection m (m.next operation) := by
  have hnext : m.next operation = ((edit operation).runFrom m).2 :=
    congrArg Prod.snd (runFrom_perform_eq_edit operation m)
  rw [hnext]
  cases h with
  | dropNamespace => exact absurd rfl hdrop
  | createNamespace =>
    -- If the namespace is created, it has no collections, as before.
    refine ⟨fun ns' hne => ?_, fun name' _ => ?_⟩
    · rw [edit, Call.runFrom_bind, Call.runFrom_modify]
      simp [hne]
    · rw [edit, Call.runFrom_bind, Call.runFrom_modify, collection?, collection?]
      cases hns : m.get? store.mapping.ns <;> simp [hns]
  | createCollection =>
    refine agreeOutside_inside (fun collections name' hne => ?_) _ m
    rw [Call.runFrom_bind, Call.runFrom_modify]
    simp [hne]
  | dropCollection =>
    rw [edit, Call.runFrom_bind, Call.runFrom_modify]
    refine ⟨fun ns' hne => ?_, fun name' hne => ?_⟩
    · cases hns : m.get? store.mapping.ns <;> simp [OrderedMap.modify, hns, hne]
    · rw [collection?, collection?]
      cases hns : m.get? store.mapping.ns <;> simp [OrderedMap.modify, hns, hne]
  | truncateCollection =>
    exact agreeOutside_inside (fun collections name' hne => get?_inside_of_ne hne _ _ _) _ m
  | put key bins =>
    exact agreeOutside_inside (fun collections name' hne => get?_inside_of_ne hne _ _ _) _ m
  | get key => exact agreeOutside_inside (fun _ _ _ => rfl) _ m
  | delete key =>
    refine agreeOutside_inside (fun collections name' hne => ?_) _ m
    simp only [Call.runFrom_bind, Call.runFrom_get, Call.runFrom_modify, Call.runFrom_pure]
    cases hname : collections.get? store.mapping.collection <;>
      simp [OrderedMap.modify, MappedStore.addressOf, hname, hne]
  | scan limit => exact agreeOutside_inside (fun _ _ _ => rfl) _ m

end Memory

/-! ## Requests -/

namespace MappedStore

variable {κ ε : Type} [Key κ] [Entity ε] {store : MappedStore κ ε}

/-- Only dropping the schema drops the namespace. -/
theorem eq_dropSchema_of_mem_plan {request : Request κ ε} {ns : String}
    (h : .execute (.dropNamespace ns) ∈ store.plan request) : request = .dropSchema := by
  cases request with
  | dropSchema => rfl
  | put | putAll =>
    obtain ⟨key, entity, bins, -, heq⟩ := exists_put_of_mem_writes h
    cases heq
  | _ => simp [plan] at h

/-- A request that does not drop the schema keeps what there is outside the address of the
mapping. -/
theorem keeps_agreeOutside (store : MappedStore κ ε) {request : Request κ ε}
    (h : request ≠ .dropSchema) (m : Memory) :
    (store.respond Memory.client request).Keeps
      (Memory.AgreeOutside store.mapping.ns store.mapping.collection m) := by
  refine keeps_respond fun operation m' hmem hagree => hagree.trans ?_
  refine Memory.agreeOutside_next (concerns_of_mem_plan hmem) ?_ m'
  rintro rfl
  exact h (eq_dropSchema_of_mem_plan hmem)

/-- However many requests a mapped store answers, and whether they succeed or fail: if none drops
the schema, other namespaces, and other collections in the namespace of the mapping, stay as they
were, so the collection of every store with another address does, with all its records. Dropping the
schema succeeds; it removes the namespace and leaves the others as they were. -/
theorem isolated (store : MappedStore κ ε) (m : Memory) :
    (∀ requests : List (Request κ ε), .dropSchema ∉ requests →
      let m' := Call.stateAfter (store.respond Memory.client) requests m
      (∀ {κ' ε' : Type} (other : MappedStore κ' ε'),
        (other.mapping.ns, other.mapping.collection) ≠
          (store.mapping.ns, store.mapping.collection) →
        m'.collection? other.mapping.ns other.mapping.collection =
          m.collection? other.mapping.ns other.mapping.collection) ∧
      (∀ ns, ns ≠ store.mapping.ns → m'.get? ns = m.get? ns) ∧
      ∀ name, name ≠ store.mapping.collection →
        m'.collection? store.mapping.ns name = m.collection? store.mapping.ns name) ∧
    ∃ m', (store.dropSchema Memory.client).runFrom m = (.ok (), m') ∧
      ∀ ns, m'.get? ns = if ns = store.mapping.ns then none else m.get? ns := by
  refine ⟨fun requests hdrop => ?_, _, store.runFrom_dropSchema m, OrderedMap.get?_erase m _⟩
  have hagree : Memory.AgreeOutside store.mapping.ns store.mapping.collection m
      (Call.stateAfter (store.respond Memory.client) requests m) :=
    Call.stateAfter_of_keeps
      (fun request hmem => store.keeps_agreeOutside (fun heq => hdrop (heq ▸ hmem)) m) (.refl _ _ m)
  exact ⟨fun other hne => hagree.collection?_eq hne, hagree.namespaces, hagree.collections⟩

/-- A store of logs, in the namespace of the documents. -/
def logsStore : MappedStore String Document where
  mapping := ⟨"String", "polystore.Document", "app", "logs", .empty, {}, {}⟩
  serializer := .cbor

/-- Requests that create the collection, write and remove records, find none, and remove all. -/
def logsRequests : List (Request String Document) :=
  [.createSchema, .put "a" ⟨.empty⟩, .delete "b", .get "a", .clear]

/-- The store of logs creates its collection and leaves it empty, and the documents are still
there. -/
theorem isolated_logs :
    let m' := Call.stateAfter (logsStore.respond Memory.client) logsRequests mixedFormats
    m'.collection? "app" "docs" = mixedFormats.collection? "app" "docs" ∧
      (mixedFormats.collection? "app" "docs").map OrderedMap.size = some 2 ∧
      mixedFormats.collection? "app" "logs" = none ∧
      (m'.collection? "app" "logs").map OrderedMap.size = some 0 := by
  have hdrop : .dropSchema ∉ logsRequests := by simp [logsRequests]
  refine ⟨?_, rfl, rfl, rfl⟩
  exact ((isolated logsStore mixedFormats).1 logsRequests hdrop).1 (docsStore .native) (by decide)

end MappedStore

end EntityStore
