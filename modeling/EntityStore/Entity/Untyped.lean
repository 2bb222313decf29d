import EntityStore.Entity.Basic

/-!
# Entities without a fixed shape

A `Document` is any map of fields; the command line copies documents. An `AnyValue` is any JSON
value at all, so that it may turn out not to have fields when it is stored.

`Document` is the type that the command line registers as `polystore.Document`.
-/

namespace EntityStore

/-- An entity that is any map of fields. -/
structure Document where
  /-- The fields by their names. -/
  fields : OrderedMap Json

instance : Entity Document where
  typeName := "polystore.Document"
  toJson d := .ofMap d.fields
  ofFields fields := .ok ⟨fields⟩

/-- An entity that is any JSON value. -/
structure AnyValue where
  /-- The value. -/
  value : Json

instance : Entity AnyValue where
  typeName := "test::model::Any"
  toJson a := a.value
  ofFields fields := .ok ⟨.ofMap fields⟩

end EntityStore
