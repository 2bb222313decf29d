import EntityStore.Job
import EntityStore.MappedStore

/-!
# What a job reads

An input format is the store that a job reads, and the query for the pairs to read. Setting the
input of a job records the types and the limit of the query in its properties. A job may bring a
limit of its own, which counts if the query has none and if it is the text of a number.

`set` mirrors `set_input`, and `pairs` mirrors `read_all`.
-/

namespace EntityStore.Bridge

/-- A store to read, and the query for the pairs. -/
structure InputFormat (κ ε : Type) where
  /-- The store. -/
  store : MappedStore κ ε
  /-- The query for the pairs to read. -/
  query : Query := {}

namespace InputFormat

variable {κ ε σ : Type}

/-- The query with the limit of a job if it has none of its own. -/
def limited (job : Job) (query : Query) : Query :=
  match query.limit with
  | some n => ⟨some n⟩
  | none => ⟨job.number? Job.inputLimit⟩

/-- The job that records what is read. -/
def recorded (format : InputFormat κ ε) (job : Job) : Job :=
  let job : Job := (job.insert Job.inputKeys format.store.types.key).insert Job.inputEntities
    format.store.types.entity
  match format.query.limit with
  | some n => job.insert Job.inputLimit (Decimal.toText n)
  | none => job

/-- Sets the input of a job: the format, and the job that records it. -/
def set (job : Job) (store : MappedStore κ ε) (query : Query) : InputFormat κ ε × Job :=
  let format := ⟨store, limited job query⟩
  (format, format.recorded job)

/-- The names of the types that are read. -/
def types (format : InputFormat κ ε) : TypePair :=
  format.store.types

/-- Reads the pairs. -/
def pairs [Key κ] [Entity ε] (client : Client σ) (format : InputFormat κ ε) :
    Call σ (List (κ × ε)) :=
  format.store.query client format.query

end InputFormat

end EntityStore.Bridge
