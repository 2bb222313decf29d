import EntityStore.Operation

/-!
# Clients of a store

A client is whatever executes operations: the memory store, a scripted one, one that keeps a log of
its calls, or a client that nothing is known about. It is a state machine on a type of states, and a
call that fails may change the state as well as one that succeeds.

It mirrors `StoreClient`.
-/

namespace EntityStore

/-- A state machine that executes operations and reports metadata. -/
structure Client (σ : Type) where
  /-- Executes an operation. -/
  execute : Operation → σ → Except StoreError Outcome × σ
  /-- Reports the collections of a namespace, if the namespace exists. -/
  metadata : String → σ → Except StoreError (Option NamespaceMetadata) × σ
  /-- Ends the use of the store. -/
  close : σ → σ

end EntityStore
