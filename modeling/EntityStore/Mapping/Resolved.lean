import EntityStore.Error
import EntityStore.Mapping.Document

/-!
# The mapping of a pair of types

Resolving a mapping document for a key type and an entity type gives the place where the entities
are stored, the policies that apply, and the translation of field names to bin names and back.

Of the policies of one kind the last one counts as a whole, of the classes for the pair of types the
first one, and of the bindings of one field the last one. A field without a binding goes to the bin
of its own name. Of several fields bound to one bin the greatest is the one the bin leads back to.

`Resolved` mirrors `ResolvedMapping`, with `physical_name` as `binOf` and `logical_name` as
`fieldOf`, and `Document.resolve` mirrors `resolve` of `MappingBuilder`, with `policies`.
-/

namespace EntityStore.Mapping

/-- What a mapping document says about a key type and an entity type. -/
structure Resolved where
  /-- The name of the key type. -/
  keyType : String
  /-- The name of the entity type. -/
  entityType : String
  /-- The namespace of the entities. -/
  ns : String
  /-- The collection of the entities. -/
  collection : String
  /-- The bins that certain fields go to. -/
  bindings : OrderedMap String
  /-- The policy of reads. -/
  readPolicy : ReadPolicy
  /-- The policy of writes. -/
  writePolicy : WritePolicy

namespace Resolved

/-- The field that each bound bin leads back to. -/
def reverse (m : Resolved) : OrderedMap String :=
  m.bindings.entries.foldl (fun fields binding => fields.insert binding.2 binding.1) .empty

/-- The bin that a field goes to. -/
def binOf (m : Resolved) (field : String) : String :=
  (m.bindings.get? field).getD field

/-- The field that a bin leads back to. -/
def fieldOf (m : Resolved) (bin : String) : String :=
  (m.reverse.get? bin).getD bin

/-- The names of the two types. -/
def types (m : Resolved) : TypePair :=
  ⟨m.keyType, m.entityType⟩

end Resolved

/-- Is the declaration for a kind of operation? -/
def PolicyDeclaration.isFor (kind : String) (d : PolicyDeclaration) : Bool :=
  (Text.trim d.kind).toLower = kind

/-- The read policy that a declaration describes. -/
def PolicyDeclaration.readPolicy (d : PolicyDeclaration) : ReadPolicy where
  keyMode := (d.keyMode.map KeyMode.ofText).getD .digest
  timeout := (d.timeout.map Policy.timeoutOfText).getD 0

/-- The write policy that a declaration describes. It never expects a generation above zero. -/
def PolicyDeclaration.writePolicy (d : PolicyDeclaration) : WritePolicy where
  generation := (d.generation.map GenerationPolicy.ofText).getD .ignore
  existsAction := (d.existsAction.map ExistsAction.ofText).getD .update
  keyMode := (d.keyMode.map KeyMode.ofText).getD .digest
  timeout := (d.timeout.map Policy.timeoutOfText).getD 0

namespace Document

/-- The last declared policy of a kind. -/
def lastPolicy? (d : Document) (kind : String) : Option PolicyDeclaration :=
  (d.policies.filter (·.isFor kind)).getLast?

/-- The policy of reads. -/
def readPolicy (d : Document) : ReadPolicy :=
  ((d.lastPolicy? "read").map (·.readPolicy)).getD {}

/-- The policy of writes. -/
def writePolicy (d : Document) : WritePolicy :=
  ((d.lastPolicy? "write").map (·.writePolicy)).getD {}

/-- The first declared class for a pair of types. -/
def class? (d : Document) (keyType entityType : String) : Option ClassDeclaration :=
  d.classes.find? fun c => c.keyType = some keyType && c.entityType = some entityType

/-- What the document says about a pair of types. -/
def resolve (d : Document) (keyType entityType : String) :
    Except ConfigurationError Resolved :=
  match d.class? keyType entityType with
  | none => .error (.undeclaredTypes keyType entityType)
  | some c =>
    match Text.present? c.ns with
    | none => .error (.missingNamespace entityType)
    | some ns =>
      .ok {
        keyType, entityType, ns
        collection := (Text.present? c.collection).getD (TypeName.lastSegment entityType)
        bindings := .ofList (c.fields.map fun f => (f.field, f.bin))
        readPolicy := d.readPolicy
        writePolicy := d.writePolicy }

end Document

end EntityStore.Mapping
