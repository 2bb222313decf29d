import EntityStore.Yaml.Decode

/-!
# Mapping documents

A mapping document declares policies, and for pairs of a key type and an entity type the place where
the entities are stored and the bins that their fields go to. Everything is a text as the document
has it; `Mapping.Resolved` says what the texts mean.

It mirrors `MappingDocument`, `PolicyDeclaration`, `ClassDeclaration` and `FieldBinding`, where
attributes are read as by `scalar_text` and a document as by `parse`.
-/

namespace EntityStore.Mapping

open Yaml

/-- The options of reads or writes, as texts. -/
structure PolicyDeclaration where
  /-- What the options are for, `read` or `write`. -/
  kind : String
  /-- The check of the stored generation. -/
  generation : Option String := none
  /-- What becomes of a record that exists or does not. -/
  existsAction : Option String := none
  /-- Whether the user key travels. -/
  keyMode : Option String := none
  /-- The time limit in milliseconds. -/
  timeout : Option String := none
  deriving DecidableEq

/-- The bin that a field goes to. -/
structure FieldBinding where
  /-- The name of the field. -/
  field : String
  /-- The name of the bin. -/
  bin : String
  deriving DecidableEq

/-- The place where the entities of a type are stored, for one type of keys. -/
structure ClassDeclaration where
  /-- The name of the entity type. -/
  entityType : Option String := none
  /-- The name of the key type. -/
  keyType : Option String := none
  /-- The namespace. -/
  ns : Option String := none
  /-- The collection. -/
  collection : Option String := none
  /-- The bins that certain fields go to. -/
  fields : List FieldBinding := []
  deriving DecidableEq

/-- A mapping document. -/
structure Document where
  /-- The options of reads and writes. -/
  policies : List PolicyDeclaration := []
  /-- The places of entities. -/
  classes : List ClassDeclaration := []
  deriving DecidableEq

open Decoder in
/-- Reads the declaration of a policy. Its options may be written as numbers or truth values. -/
def PolicyDeclaration.decoder : Decoder PolicyDeclaration := fun node targets => do
  let found ← members node targets
  let textOf (name : String) :=
    Option.join <$> member? [name] (Option.join <$> optional typedText · ·) found targets
  pure {
    kind := ← member ["kind", "name"] text found targets
    generation := ← textOf "gen"
    existsAction := ← textOf "exists"
    keyMode := ← textOf "key"
    timeout := ← textOf "timeout" }

open Decoder in
/-- Reads the binding of a field. -/
def FieldBinding.decoder : Decoder FieldBinding := fun node targets => do
  let found ← members node targets
  pure {
    field := ← member ["name"] text found targets
    bin := ← member ["bin"] text found targets }

open Decoder in
/-- Reads the declaration of a class. -/
def ClassDeclaration.decoder : Decoder ClassDeclaration := fun node targets => do
  let found ← members node targets
  let textOf (names : List String) := memberD names (optional text) none found targets
  pure {
    entityType := ← textOf ["name"]
    keyType := ← textOf ["key_class", "keyClass"]
    ns := ← textOf ["namespace"]
    collection := ← textOf ["set", "collection"]
    fields := ← memberD ["fields"] (list FieldBinding.decoder) [] found targets }

open Decoder in
/-- Reads a mapping document. -/
def Document.decoder : Decoder Document := fun node targets => do
  let found ← members node targets
  pure {
    policies := ← memberD ["policies"] (list PolicyDeclaration.decoder) [] found targets
    classes := ← memberD ["classes"] (list ClassDeclaration.decoder) [] found targets }

/-- The mapping document that a text writes, if it writes one. -/
def Document.ofText? (text : String) : Option Document :=
  Decoder.ofText? Document.decoder text

end EntityStore.Mapping
