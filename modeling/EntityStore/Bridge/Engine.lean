import EntityStore.Bridge.Sink
import EntityStore.Bridge.Source

/-!
# Building sources and sinks

An engine knows the names of the types that a job reads and of those that it writes, if it does so.
It builds a source or a sink only for a store that persists just these types, and only if both names
are there. It looks at the names before it opens a store and at the store before it builds anything,
so a job that does not fit fails before it has touched a store. The directory of a sink is created
last, if it can be.

It mirrors `BridgeEngine`: `check` is `check_store`, `source` and `sink` are `create_data_source`
and `create_data_sink`, `openSource` and `openSink` are the same with an opener, and the directory
is that of `provision_scratch_output_dir`.
-/

namespace EntityStore.Bridge

/-- The names of the types that jobs read and write. -/
structure Engine where
  /-- The types that are read, if any. -/
  input : Option TypePair
  /-- The types that are written, if any. -/
  output : Option TypePair

namespace Engine

variable {κ ε σ : Type}

/-- The engine that reads and writes entities of one type under keys of one type. -/
def ofTypes (κ ε : Type) [Key κ] [Entity ε] : Engine :=
  ⟨some (.of κ ε), some (.of κ ε)⟩

/-- The engine that only reads them. -/
def readerOfTypes (κ ε : Type) [Key κ] [Entity ε] : Engine :=
  ⟨some (.of κ ε), none⟩

/-- The types of a direction. -/
def types? (engine : Engine) : Direction → Option TypePair
  | .input => engine.input
  | .output => engine.output

/-- The types of a direction, both of which must be named. -/
def require (engine : Engine) (direction : Direction) : Except PreconditionError TypePair :=
  match engine.types? direction with
  | some types => if types.isNamed then .ok types else .error (.blankTypes direction types)
  | none => .error (.missingTypes direction)

/-- Makes sure that a store persists the types of a direction. -/
def check (engine : Engine) (direction : Direction) (store : MappedStore κ ε) :
    Except PreconditionError Unit := do
  let types ← engine.require direction
  if store.types = types then .ok () else .error (.otherTypes direction store.types types)

/-- The source of the pairs of a store. -/
def source (engine : Engine) (config : StoreConfig) (store : MappedStore κ ε) :
    Except Error (Source κ ε) := do
  (engine.check .input store).mapError .precondition
  let (format, job) := InputFormat.set (Job.ofConfig config) store {}
  return ⟨format, job⟩

/-- The source of the pairs of a store that is opened for it. -/
def openSource (engine : Engine) (opener : StoreConfig → Call σ (MappedStore κ ε))
    (config : StoreConfig) : Call σ (Source κ ε) := do
  let _ ← Call.ofExcept ((engine.require .input).mapError .precondition)
  let store ← opener config
  Call.ofExcept (engine.source config store)

/-- The sink that writes to a store, with a directory of its own if one could be created. -/
def sink (engine : Engine) (scratch : Except String String) (config : StoreConfig)
    (store : MappedStore κ ε) : Except Error (Sink κ ε) := do
  (engine.check .output store).mapError .precondition
  let (format, job) := OutputFormat.set (Job.ofConfig config) store
  let scratch ← scratch.mapError .directory
  return { format, job := job.insert Job.outputDirectory scratch, scratch }

/-- The sink that writes to a store that is opened for it. -/
def openSink (engine : Engine) (scratch : Except String String)
    (opener : StoreConfig → Call σ (MappedStore κ ε)) (config : StoreConfig) :
    Call σ (Sink κ ε) := do
  let _ ← Call.ofExcept ((engine.require .output).mapError .precondition)
  let store ← opener config
  Call.ofExcept (engine.sink scratch config store)

end Engine

end EntityStore.Bridge
