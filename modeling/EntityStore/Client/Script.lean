import EntityStore.Client

/-!
# Clients with prescribed answers

A scripted client answers its operations with the answers of a list, one after the other, whatever
the operations are, and its metadata requests likewise. When a list is used up the store is
unavailable.
-/

namespace EntityStore

/-- The answers that a scripted client still has to give. -/
structure Script where
  /-- The answers to operations. -/
  outcomes : List (Except StoreError Outcome)
  /-- The answers to metadata requests: the collections, if the namespace exists. -/
  metadata : List (Except StoreError (Option (List (String × Nat))))

namespace Script

/-- The first of the remaining answers, and the others. -/
def next {α : Type} : List (Except StoreError α) → Except StoreError α × List (Except StoreError α)
  | [] => (.error (.unavailable "script exhausted"), [])
  | answer :: rest => (answer, rest)

/-- The client that gives the answers of its script. -/
def client : Client Script where
  execute _ s :=
    let (answer, rest) := next s.outcomes
    (answer, { s with outcomes := rest })
  metadata ns s :=
    let (answer, rest) := next s.metadata
    (answer.map fun found => found.map fun collections => ⟨ns, collections⟩,
      { s with metadata := rest })
  close s := s

end Script

end EntityStore
