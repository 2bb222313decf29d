import EntityStore.Client

/-!
# Clients that keep a log

`Client.logged` adds to a client a list of the calls that it has received, in their order. A call is
listed whether it succeeds or fails, and the answers are those of the client itself.
-/

namespace EntityStore

/-- A call that a client receives. -/
inductive ClientCall where
  /-- The execution of an operation. -/
  | execute (operation : Operation)
  /-- A request for the metadata of a namespace. -/
  | metadata (ns : String)
  /-- The end of the use of the store. -/
  | close

/-- The client that also lists the calls it receives, the latest first. -/
def Client.logged {σ : Type} (client : Client σ) : Client (σ × List ClientCall) where
  execute operation s :=
    let (answer, next) := client.execute operation s.1
    (answer, (next, .execute operation :: s.2))
  metadata ns s :=
    let (answer, next) := client.metadata ns s.1
    (answer, (next, .metadata ns :: s.2))
  close s := (client.close s.1, .close :: s.2)

end EntityStore
