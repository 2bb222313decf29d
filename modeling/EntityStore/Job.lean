import EntityStore.StoreConfig

/-!
# Job configurations

A bridge job has properties, which are texts with names. It starts with those of the store
configuration, and each operator adds what it is built from.

It mirrors `JobConf`, with `from_config` as `ofConfig`.
-/

namespace EntityStore

/-- The properties of a bridge job by their names. -/
abbrev Job := OrderedMap String

namespace Job

/-- The name of the mapping. -/
def mappingName : String := "polystore.mapping"

/-- The name of the serializer. -/
def serializerName : String := "polystore.serializer"

/-- The type of the keys that are read. -/
def inputKeys : String := "polystore.input.key.type"

/-- The type of the entities that are read. -/
def inputEntities : String := "polystore.input.value.type"

/-- The greatest number of pairs that are read. -/
def inputLimit : String := "polystore.input.query.limit"

/-- The type of the keys that are written. -/
def outputKeys : String := "polystore.output.key.type"

/-- The type of the entities that are written. -/
def outputEntities : String := "polystore.output.value.type"

/-- The number of pairs that are written at a time. -/
def batchSize : String := "polystore.output.batch.size"

/-- The directory that batch engines expect a sink to have. -/
def outputDirectory : String := "mapred.output.dir"

/-- The job that a store configuration describes. -/
def ofConfig (config : StoreConfig) : Job :=
  let job : Job := config.properties.insert mappingName config.mapping
  if config.serializer.isEmpty then job else job.insert serializerName config.serializer

/-- The number that a property writes in decimal, between blanks, if it is below `2 ^ 64`. -/
def number? (job : Job) (name : String) : Option Nat :=
  (job.get? name).bind fun text => Decimal.natural? UInt64.size (Text.trimChars text.toList)

end Job

end EntityStore
