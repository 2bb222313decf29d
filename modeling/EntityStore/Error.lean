import EntityStore.Json.Printer
import EntityStore.Json.Shape
import EntityStore.Record.Description
import EntityStore.TypeName

/-!
# Why a call fails

An `Error` tells the cause of a failure: a mapping or configuration that cannot be used, a bridge
that is built without what it needs, a failure of the store, a key or entity that cannot be
converted, an answer of a store to another question, a channel that closed too early, a failure of
an application's own source, or a directory, a channel or a buffer that cannot be had. A call that
panics, or that ends the whole program, gives nothing to its caller; it has an error here as well.
`Error.message` has the wording of each.

The type mirrors `PolystoreError`. The size of an encoded field is bounded as by `MAX_FIELD_BYTES`.
-/

namespace EntityStore

/-- Why a mapping or a configuration cannot be used. -/
inductive ConfigurationError where
  /-- The text is not a mapping document. -/
  | unparsableMapping
  /-- The mapping document does not declare the pair of types. -/
  | undeclaredTypes (keyType entityType : String)
  /-- The declaration of the entity type has no namespace. -/
  | missingNamespace (entityType : String)
  /-- The mapping file is not there, or is not a text. -/
  | unreadableMapping (path : String)
  /-- A reader did not give a text. -/
  | failedReader
  /-- No search root has the mapping file. -/
  | mappingNotFound (name : String)
  /-- The text is not a store configuration. -/
  | unparsableConfig
  /-- The configuration file is not there, or is not a text. -/
  | unreadableConfig (path : String)
  /-- The configuration names no mapping. -/
  | missingMapping
  deriving DecidableEq

/-- The direction of a bridge operator. -/
inductive Direction where
  /-- From a store. -/
  | input
  /-- To a store. -/
  | output
  deriving DecidableEq

/-- Why a bridge operator cannot be built. -/
inductive PreconditionError where
  /-- The engine has no types for the direction. -/
  | missingTypes (direction : Direction)
  /-- One of the type names is blank. -/
  | blankTypes (direction : Direction) (types : TypePair)
  /-- The store persists other types than the engine expects. -/
  | otherTypes (direction : Direction) (persisted expected : TypePair)
  deriving DecidableEq

/-- Why a key or an entity cannot be converted. -/
inductive SerializationError where
  /-- The digest of a record is not the text of a key. -/
  | undecodableKey (digest : String)
  /-- The entity is not a map of fields. -/
  | notFields (typeName : String) (value : Json)
  /-- Two fields go to the same bin. -/
  | sharedBin (owner field entityType bin : String)
  /-- The encoding of a field is longer than a bin may hold. -/
  | oversizedBin (bin : String)
  /-- A bin does not hold octets. -/
  | untypedBin (bin : String) (found : Value)
  /-- The octets of a bin do not encode a value. -/
  | undecodableBin (bin : String)
  /-- The fields do not have the shapes of the entity type. -/
  | shape (cause : Json.ShapeError)

/-- Why a computation panics. -/
inductive Panic where
  /-- No channel has room for that many messages. -/
  | oversizedChannel (capacity : Nat)
  /-- No buffer has room for that many elements. -/
  | oversizedBuffer (size : Nat)
  deriving DecidableEq

/-- Why a call fails. -/
inductive Error where
  /-- A mapping or a configuration cannot be used. -/
  | configuration (cause : ConfigurationError)
  /-- A bridge operator cannot be built. -/
  | precondition (cause : PreconditionError)
  /-- The store failed. -/
  | store (cause : StoreError)
  /-- A key or an entity cannot be converted. -/
  | serialization (cause : SerializationError)
  /-- The receiver of a source's pairs is gone. -/
  | channelClosed
  /-- The store answered an operation with the outcome of another kind. -/
  | unexpected (outcome : Outcome) (operation : String)
  /-- An application's own source failed. -/
  | upstream (reason : String)
  /-- The directory of a sink could not be created. -/
  | directory (reason : String)
  /-- A task that the call waits for has panicked. -/
  | brokenTask (cause : Panic)
  /-- The call panics, and does not return. -/
  | panic (cause : Panic)
  /-- There is no memory for that many octets, and the program is ended. -/
  | outOfMemory (octets : Nat)

/-- The greatest number of octets that an encoded field may have. -/
def fieldLimit : Nat := 1048576

/-- The greatest number of messages that a channel may have room for. -/
def channelLimit : Nat := 2305843009213693951

/-- The greatest number of octets that a buffer may have. -/
def bufferLimit : Nat := 9223372036854775807

/-- An error as who waits for the task in which it arises sees it: a panic ends only the task. -/
def Error.ofTask : Error → Error
  | panic cause => brokenTask cause
  | e => e

/-- The name of a direction. -/
def Direction.name : Direction → String
  | input => "input"
  | output => "output"

/-- The wording of a configuration error. -/
def ConfigurationError.message : ConfigurationError → String
  | unparsableMapping => "mapping document could not be parsed"
  | undeclaredTypes keyType entityType =>
    "mapping does not include a class declaration for key '" ++ keyType ++ "' and entity '" ++
      entityType ++ "'"
  | missingNamespace entityType =>
    "mapping does not include the namespace for the '" ++ entityType ++ "' class"
  | unreadableMapping path => "mapping file '" ++ path ++ "' could not be read"
  | failedReader => "mapping reader failed"
  | mappingNotFound name => "mapping file '" ++ name ++ "' could not be found"
  | unparsableConfig => "store configuration could not be parsed"
  | unreadableConfig path => "store configuration '" ++ path ++ "' could not be read"
  | missingMapping => "store configuration has no mapping"

/-- The wording of a precondition error. -/
def PreconditionError.message : PreconditionError → String
  | missingTypes direction => direction.name ++ " key and value types are required"
  | blankTypes direction types =>
    direction.name ++ " key and value types must both be named, got " ++ types.display
  | otherTypes direction persisted expected =>
    direction.name ++ " store persists " ++ persisted.display ++ " but the engine expects " ++
      expected.display

/-- The wording of a serialization error. -/
def SerializationError.message : SerializationError → String
  | undecodableKey digest => "no key has the text " ++ digest
  | notFields typeName value =>
    typeName ++ " must serialize to a map of fields, got " ++ value.compact
  | sharedBin owner field entityType bin =>
    "fields '" ++ owner ++ "' and '" ++ field ++ "' of " ++ entityType ++ " both map to bin '" ++
      bin ++ "'"
  | oversizedBin bin =>
    "bin '" ++ bin ++ "' exceeds " ++ Decimal.toText fieldLimit ++ " bytes"
  | untypedBin bin found =>
    "bin '" ++ bin ++ "' holds a " ++ found.typeName ++ " value, expected cbor bytes"
  | undecodableBin bin => "cbor decode of bin '" ++ bin ++ "'"
  | shape cause => cause.message

/-- The wording of a panic. -/
def Panic.message : Panic → String
  | oversizedChannel _ =>
    "a semaphore may not have more than MAX_PERMITS permits (" ++ Decimal.toText channelLimit ++ ")"
  | oversizedBuffer _ => "capacity overflow"

/-- The wording of an error. That of a broken task leaves out the number of the task. -/
def Error.message : Error → String
  | configuration cause => "configuration error: " ++ cause.message
  | precondition cause => "precondition failed: " ++ cause.message
  | store cause => cause.message
  | serialization cause => "serialization error: " ++ cause.message
  | channelClosed => "channel closed: source output"
  | unexpected outcome operation =>
    "store returned " ++ outcome.describe ++ " for a " ++ operation ++ " operation"
  | upstream reason => reason
  | directory reason => "creating scratch output dir: " ++ reason
  | brokenTask cause => "task panicked with message \"" ++ cause.message ++ "\""
  | panic cause => cause.message
  | outOfMemory octets => "memory allocation of " ++ Decimal.toText octets ++ " bytes failed"

end EntityStore
