import EntityStore.Job
import EntityStore.MappedStore

/-!
# What a job writes

An output format is the store that a job writes to, and the number of pairs that it writes at a
time. Setting the output of a job records the types and that number in its properties. A job may
bring a number of its own, which counts if it is the text of a positive number.

`set` mirrors `set_output`, and `defaultBatchSize` is `DEFAULT_BATCH_SIZE`.
-/

namespace EntityStore.Bridge

/-- The number of pairs that are written at a time if a job does not say otherwise. -/
def defaultBatchSize : Nat := 1024

/-- A store to write to, and the size of the batches. -/
structure OutputFormat (κ ε : Type) where
  /-- The store. -/
  store : MappedStore κ ε
  /-- The number of pairs that are written at a time. -/
  batchSize : Nat := defaultBatchSize

namespace OutputFormat

variable {κ ε : Type}

/-- The size of the batches of a job. -/
def batchSizeOf (job : Job) : Nat :=
  match job.number? Job.batchSize with
  | some 0 | none => defaultBatchSize
  | some n => n

/-- The job that records what is written. -/
def recorded (format : OutputFormat κ ε) (job : Job) : Job :=
  ((job.insert Job.outputKeys format.store.types.key).insert Job.outputEntities
    format.store.types.entity).insert Job.batchSize (Decimal.toText format.batchSize)

/-- Sets the output of a job: the format, and the job that records it. -/
def set (job : Job) (store : MappedStore κ ε) : OutputFormat κ ε × Job :=
  let format := ⟨store, batchSizeOf job⟩
  (format, format.recorded job)

/-- The names of the types that are written. -/
def types (format : OutputFormat κ ε) : TypePair :=
  format.store.types

end OutputFormat

end EntityStore.Bridge
