import EntityStore.Bridge.Engine
import EntityStore.Bridge.Execution
import EntityStore.Client.Memory
import EntityStore.Command.Lines

/-!
# Copying documents

A copy writes the documents of a file to a source store, copies that store to a target store with a
bridge job, and shows what the target store holds then. Both stores are in one client, which starts
empty, so their schemas are created when they are opened. The buffer of the job takes a number of
octets, for which there is an amount of memory.

`copyThrough` mirrors `copy`, and `configOf` mirrors `load_config`.
-/

namespace EntityStore.Command

/-- A computation that calls a client and may fail as a command does. -/
abbrev Task (σ α : Type) := ExceptT Failure (StateM σ) α

variable {σ α : Type}

/-- The result and the state of the client afterwards. -/
def Task.runFrom (task : Task σ α) (s : σ) : Except Failure α × σ :=
  StateT.run (ExceptT.run task) s

/-- A call as a part of a command. -/
def Task.ofCall (call : Call σ α) : Task σ α :=
  call.adapt .cause

/-- A result that needs no client. -/
def Task.ofExcept (result : Except Failure α) : Task σ α :=
  ExceptT.mk (pure result)

/-- The store configuration in a file, of a store whose schema is created when it is opened. -/
def configOf (files : FileTree) (path : String) : Except Failure StoreConfig :=
  match StoreConfig.load files path with
  | .ok config => .ok { config with autoCreateSchema := true }
  | .error _ => .error (.unusableConfig path)

/-- The memory for buffers of documents, a number of octets. A document with its key takes 48. -/
def documentHeap (memory : Nat) : Bridge.Heap :=
  ⟨48, memory⟩

/-- Opens a store of documents. -/
def openDocuments (client : Client σ) (files : FileTree) (config : StoreConfig) :
    Call σ (MappedStore String Document) :=
  MappedStore.openConfig client files config

/-- Copies the source store to the target store with a bridge job. -/
def bridge (memory : Nat) (client : Client σ) (files : FileTree) (source target : StoreConfig)
    (capacity : Nat) : Task σ Unit := do
  let engine := Bridge.Engine.ofTypes String Document
  let opener := openDocuments client files
  let reader ← .ofCall (engine.openSource opener source)
  let writer ← .ofCall (engine.openSink (.ok "") opener target)
  let env : Bridge.Environment := { capacity, heap := documentHeap memory }
  let _ ← .ofCall (env.execute client (reader.feed client) writer)

/-- Copies documents through a client. The result is what the target store holds. -/
def copyThrough (memory : Nat) (client : Client σ) (files : FileTree)
    (source target input : String) (capacity : Nat) : Task σ (List (String × Document)) := do
  let source ← .ofExcept (configOf files source)
  let target ← .ofExcept (configOf files target)
  let seed ← .ofCall (openDocuments client files source)
  let documents ← .ofExcept (readDocuments files input)
  .ofCall (seed.putAll client documents)
  bridge memory client files source target capacity
  let copied ← .ofCall (openDocuments client files target)
  .ofCall (copied.query client {})

/-- What a copy prints. -/
def copyOutput (memory : Nat) (files : FileTree) (source target input : String)
    (capacity : Nat) : Except Failure String :=
  ((copyThrough memory Memory.client files source target input capacity).runFrom .empty).1.map
    fun documents => String.join (documents.map documentLine)

end EntityStore.Command
