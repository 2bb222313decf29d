import EntityStore.FileTree
import EntityStore.Mapping.Resolved

/-!
# Where mappings come from

A mapping document is a file, a text, or what a reader gives. A file is searched for by its name:
a path from the root is taken as it is, and any other name is looked up in the search roots, one
after the other.

It mirrors `MappingSource`, with `resource` as `find` and `read_to_string` as `read`, and `build` of
`MappingBuilder` as `resolve`.
-/

namespace EntityStore.Mapping

/-- Where a mapping document comes from. -/
inductive Source where
  /-- The file at a path. -/
  | file (path : String)
  /-- A text. -/
  | text (document : String)
  /-- The octets that a reader gives. -/
  | reader (octets : List UInt8)

namespace Source

/-- The source as messages show it. -/
def describe : Source → String
  | file path => "File(" ++ Text.quoted path ++ ")"
  | text document => "Text(" ++ Decimal.toText document.utf8ByteSize ++ ")"
  | reader _ => "Reader(..)"

/-- The file with a name, in the first search root that has it. -/
def find (files : FileTree) (name : String) (roots : List String) :
    Except ConfigurationError Source :=
  if FileTree.isAbsolute name && files.isFile name then .ok (file name)
  else
    match (roots.map fun root => FileTree.join root name).find? files.isFile with
    | some path => .ok (file path)
    | none => .error (.mappingNotFound name)

/-- The text of the document. -/
def read (files : FileTree) : Source → Except ConfigurationError String
  | file path =>
    match files.text? path with
    | some document => .ok document
    | none => .error (.unreadableMapping path)
  | text document => .ok document
  | reader octets =>
    match Text.ofOctets? octets with
    | some document => .ok document
    | none => .error .failedReader

/-- What the document says about a pair of types. -/
def resolve (files : FileTree) (source : Source) (keyType entityType : String) :
    Except ConfigurationError Resolved := do
  let text ← source.read files
  match Document.ofText? text with
  | some document => document.resolve keyType entityType
  | none => .error .unparsableMapping

end Source

end EntityStore.Mapping
