import EntityStore.Proofs.Memory.Address
import EntityStore.Proofs.Memory.InPlace
import EntityStore.Proofs.Store.Reading

/-!
# Failed calls change nothing

A request that makes one call of the client either fails as a whole or does what it is for. That is
not so for creating and dropping the schema and for writing a batch: they make several calls, and
what the first ones have done stays done when a later one fails.

Over a memory store such a request fails in three ways: before the call, because an entity has no
bins; in the call, where a program fails before its first change (`Memory.failsClean_perform`); or
after the call, because what was read is no entity. After the call of a write or a removal nothing
can fail any more. `MappedStore.failures_unchanged` puts this together.
-/

namespace EntityStore

variable {κ ε : Type}

/-- Does the operation only read? -/
def Operation.reads : Operation → Bool
  | get .. | scan .. => true
  | _ => false

/-- Is the request answered by a single call of the client? -/
def Request.isSingle : Request κ ε → Bool
  | put .. | get .. | delete .. | query .. | clear | hasSchema => true
  | putAll .. | createSchema | dropSchema => false

/-- An operation that only reads leaves the store as it was. -/
theorem Memory.next_of_reads {operation : Operation} (h : operation.reads = true) (m : Memory) :
    m.next operation = m := by
  cases operation with
  | get key policy => exact m.next_get key policy
  | scan ns name limit policy => exact m.next_scan ns name limit policy
  | _ => cases h

namespace MappedStore

variable [Key κ] [Entity ε]

/-- A request that makes a single call of a memory store leaves the store as it was if it fails. -/
theorem failsClean_respond (store : MappedStore κ ε) {request : Request κ ε}
    (h : request.isSingle = true) : (store.respond Memory.client request).FailsClean := by
  cases request with
  | put key entity =>
    refine .map (.bind_of_same (fun _ => rfl) fun bins => ?_)
    exact .bind_of_ok (Memory.failsClean_perform _) fun _ _ _ _ => ⟨(), rfl⟩
  | clear => exact .map (.bind_of_ok (Memory.failsClean_perform _) fun _ _ _ _ => ⟨(), rfl⟩)
  | delete key =>
    refine .map (.bind_of_ok (Memory.failsClean_perform _) fun m outcome m' hrun => ?_)
    obtain ⟨removed, rfl⟩ := Memory.exists_deleted_of_perform hrun
    exact ⟨removed, rfl⟩
  | get key =>
    refine .map (.bind_of_same (Memory.next_of_reads rfl) fun outcome => ?_)
    split
    · exact .map (.ofExcept _)
    · exact .ofExcept _
    · exact .ofExcept _
  | query q =>
    refine .map (.bind_of_same (Memory.next_of_reads rfl) fun outcome => ?_)
    split
    · exact .ofExcept _
    · exact .ofExcept _
  | hasSchema =>
    refine .map (.bind_of_same (fun _ => rfl) fun found => ?_)
    cases found <;> exact .ofExcept (.ok _)
  | putAll | createSchema | dropSchema => cases h

/-- The memory client executes each operation as a program that changes the store in place. An
operation that fails, whatever it has done by then, leaves the store as it was; reads and requests
for metadata always do. And a request of a mapped store that makes a single call of the client
leaves the store as it was if it fails, in the client or before or after its call. -/
theorem failures_unchanged (m : Memory) :
    (∀ operation,
      (Memory.client.perform operation).runFrom m = (Memory.edit operation).runFrom m) ∧
    (∀ operation e, (Memory.client.execute operation m).1 = .error e →
      (Memory.client.execute operation m).2 = m) ∧
    (∀ operation, operation.reads = true → (Memory.client.execute operation m).2 = m) ∧
    (∀ ns, (Memory.client.metadata ns m).2 = m) ∧
    ∀ (store : MappedStore κ ε) request e, request.isSingle = true →
      ((store.respond Memory.client request).runFrom m).1 = .error e →
      ((store.respond Memory.client request).runFrom m).2 = m := by
  refine ⟨fun operation => Memory.runFrom_perform_eq_edit operation m, fun operation e hfails => ?_,
    fun operation hreads => Memory.next_of_reads hreads m, fun _ => rfl,
    fun store request e hsingle hfails => failsClean_respond store hsingle m e hfails⟩
  refine Memory.failsClean_perform operation m (.store e) ?_
  rw [Client.perform, Call.runFrom_ofState, hfails]
  rfl

/-- Creating a record that exists fails in the client, and writing a document with two fields for
one bin fails before it; a CBOR store that finds a native value fails after it. All three leave the
two records as they were. -/
theorem failures_unchanged_mixed :
    let create : Operation := .put ⟨"app", "docs", "\"a\""⟩ .empty { existsAction := .createOnly }
    let store : MappedStore String Document :=
      ⟨⟨"String", "polystore.Document", "app", "docs", .ofList [("f", "g")], {}, {}⟩, .cbor⟩
    let collide : Request String Document :=
      .put "a" ⟨.ofList [("f", .null), ("g", .null)]⟩
    ((Memory.client.execute create mixedFormats).1 = .error (.recordExists "app/docs/\"a\"") ∧
      (Memory.client.execute create mixedFormats).2 = mixedFormats) ∧
    ((∃ e, ((store.respond Memory.client collide).runFrom mixedFormats).1 = .error e) ∧
      ((store.respond Memory.client collide).runFrom mixedFormats).2 = mixedFormats) ∧
    ((∃ e, ((store.respond Memory.client (.query {})).runFrom mixedFormats).1 = .error e) ∧
      ((store.respond Memory.client (.query {})).runFrom mixedFormats).2 = mixedFormats) := by
  intro create store collide
  obtain ⟨-, hclient, -, -, hstore⟩ :=
    failures_unchanged (κ := String) (ε := Document) mixedFormats
  refine ⟨⟨rfl, hclient create _ rfl⟩, ⟨⟨_, rfl⟩, hstore store collide _ rfl rfl⟩,
    ⟨⟨_, rfl⟩, hstore store (.query {}) _ rfl rfl⟩⟩

end MappedStore

end EntityStore
