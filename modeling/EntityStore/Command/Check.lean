import EntityStore.Command.Arguments
import EntityStore.Command.Failure
import EntityStore.Serializer.Basic
import EntityStore.StoreConfig

/-!
# Checking a mapping

A check resolves the mapping of two types, from a mapping document or through a store configuration,
and shows what came out of it as JSON.

`checkOutput` mirrors `check`, and `summary` mirrors `MappingSummary`.
-/

namespace EntityStore.Command

/-- The generation and exists policies of a write. -/
def writePolicyText (policy : WritePolicy) : String :=
  policy.generation.name ++ "/" ++ policy.existsAction.name

/-- What a check shows. -/
def summary (mapping : Mapping.Resolved) (serializer : Serializer) : Json :=
  .object [
    ("key_type", .string mapping.keyType),
    ("entity_type", .string mapping.entityType),
    ("namespace", .string mapping.ns),
    ("collection", .string mapping.collection),
    ("serializer", .string serializer.name),
    ("bindings", .ofMap (mapping.bindings.mapValues .string)),
    ("read_timeout_ms", .int (.ofUInt64 mapping.readPolicy.timeout.toUInt64)),
    ("write_timeout_ms", .int (.ofUInt64 mapping.writePolicy.timeout.toUInt64)),
    ("send_key", .bool (mapping.writePolicy.keyMode == .send)),
    ("write_policy", .string (writePolicyText mapping.writePolicy))]

/-- Where the mapping of a subject comes from, and the serializer that goes with it. -/
def sourceOf (files : FileTree) : CheckSubject → Except Failure (Mapping.Source × String)
  | .config path => do
    let config ← (StoreConfig.load files path).mapError fun _ => .unusableConfig path
    let source ← (config.findMapping files).mapError fun e => .cause (.configuration e)
    return (source, config.serializer)
  | .mapping path => .ok (.file path, "")
  | .missing => .error .noSubject

/-- What a check prints. -/
def checkOutput (files : FileTree) (subject : CheckSubject) (keyType entityType : String)
    (serializer : Option String) : Except Failure String := do
  let (source, configured) ← sourceOf files subject
  let mapping ← (source.resolve files keyType entityType).mapError fun e =>
    .cause (.configuration e)
  return (summary mapping (.ofName (serializer.getD configured))).pretty ++ "\n"

end EntityStore.Command
