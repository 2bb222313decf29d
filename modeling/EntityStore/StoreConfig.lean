import EntityStore.Mapping.Source

/-!
# Store configurations

A store configuration names the mapping of a store and the directories to search for it, the
serializer, whether to create the schema when the store is opened, and properties that are passed on
to bridge jobs.

It mirrors the type of the same name, with `from_yaml` as `ofText`, `load`, and `mapping_source` as
`findMapping`.
-/

namespace EntityStore

/-- The configuration of a store. -/
structure StoreConfig where
  /-- The name of the mapping document. -/
  mapping : String
  /-- The directories to search for the mapping, the working directory if there are none. -/
  roots : List String := []
  /-- The name of the serializer, empty for the native one. -/
  serializer : String := ""
  /-- Is the schema created when the store is opened? -/
  autoCreateSchema : Bool := false
  /-- The properties for bridge jobs. -/
  properties : OrderedMap String := .empty

namespace StoreConfig

open Yaml Decoder in
/-- Reads a configuration. Only the mapping has to be there. -/
def decoder : Decoder StoreConfig := fun node targets => do
  let found ← members node targets
  pure {
    mapping := ← member ["mapping"] text found targets
    roots := ← memberD ["mapping_roots"] (list text) [] found targets
    serializer := ← memberD ["serializer"] text "" found targets
    autoCreateSchema := ← memberD ["auto_create_schema"] bool false found targets
    properties :=
      .ofList (← memberD ["properties"] (entries text) [] found targets) }

/-- The configuration that a text writes. -/
def ofText (text : String) : Except ConfigurationError StoreConfig :=
  match Yaml.Decoder.ofText? decoder text with
  | some config => .ok config
  | none => .error .unparsableConfig

/-- The configuration in a file. -/
def load (files : FileTree) (path : String) : Except ConfigurationError StoreConfig :=
  match files.text? path with
  | some text => ofText text
  | none => .error (.unreadableConfig path)

/-- The directories that are searched for the mapping. -/
def searchRoots (config : StoreConfig) : List String :=
  if config.roots.isEmpty then ["."] else config.roots

/-- Where the mapping comes from. -/
def findMapping (files : FileTree) (config : StoreConfig) :
    Except ConfigurationError Mapping.Source :=
  if Text.isAllBlank config.mapping then .error .missingMapping
  else Mapping.Source.find files config.mapping config.searchRoots

/-- The paths that the mapping may be found at. -/
def candidates (config : StoreConfig) : List String :=
  config.mapping :: config.searchRoots.map fun root => FileTree.join root config.mapping

end StoreConfig

end EntityStore
