import EntityStore.Proofs.Mapping.InForce
import EntityStore.Proofs.Store.Isolation

/-!
# Opening a store that creates its schema

A configuration leads to a mapping document, and the document to the mapping of the two types
(`StoreConfig.resolve`); both may be texts in files. A store that is opened over a memory store, and
creates its schema if that is not there, has its collection then, with the records that it had, and
nothing else has changed (`runFrom_openConfig`).
-/

namespace EntityStore

/-- A result that goes on from an earlier one has one to go on from. -/
theorem exists_of_bind_eq_ok {ε α β : Type} {x : Except ε α} {f : α → Except ε β} {b : β}
    (h : x >>= f = .ok b) : ∃ a, x = .ok a ∧ f a = .ok b := by
  cases x with
  | ok a => exact ⟨a, rfl, h⟩
  | error e => cases h

/-- What a document says about two types is a mapping of these types. -/
theorem Mapping.Document.types_of_resolve {document : Mapping.Document}
    {keyType entityType : String} {mapping : Mapping.Resolved}
    (h : document.resolve keyType entityType = .ok mapping) :
    mapping.types = ⟨keyType, entityType⟩ := by
  obtain ⟨c, ns, -, -, rfl⟩ := resolve_eq_ok_iff.1 h
  rfl

/-- The mapping of two types that a configuration leads to. -/
def StoreConfig.resolve (config : StoreConfig) (files : FileTree) (keyType entityType : String) :
    Except ConfigurationError Mapping.Resolved := do
  let source ← config.findMapping files
  source.resolve files keyType entityType

/-- The mapping that a configuration leads to is one of the types that were asked for. -/
theorem StoreConfig.types_of_resolve {config : StoreConfig} {files : FileTree}
    {keyType entityType : String} {mapping : Mapping.Resolved}
    (h : config.resolve files keyType entityType = .ok mapping) :
    mapping.types = ⟨keyType, entityType⟩ := by
  obtain ⟨source, -, hsource⟩ := exists_of_bind_eq_ok h
  obtain ⟨text, -, htext⟩ := exists_of_bind_eq_ok hsource
  split at htext
  · exact Mapping.Document.types_of_resolve htext
  · cases htext

/-- A file with the octets of a text has this text. -/
theorem FileTree.text?_of_octets {files : FileTree} {path text : String}
    (h : files.contents? path = some (Text.octets text)) : files.text? path = some text := by
  rw [FileTree.text?, h]
  exact Text.ofOctets?_octets text

/-- A configuration is loaded from a file with its text. -/
theorem StoreConfig.load_of_octets {files : FileTree} {path text : String} {config : StoreConfig}
    (hcontents : files.contents? path = some (Text.octets text))
    (htext : ofText text = .ok config) : load files path = .ok config := by
  rw [load, FileTree.text?_of_octets hcontents]
  exact htext

/-- A configuration leads to what the text of its mapping says about the types. -/
theorem StoreConfig.resolve_of_octets {config : StoreConfig} {files : FileTree}
    {path text keyType entityType : String} {document : Mapping.Document}
    {mapping : Mapping.Resolved} (hfind : config.findMapping files = .ok (.file path))
    (hcontents : files.contents? path = some (Text.octets text))
    (htext : Mapping.Document.ofText? text = some document)
    (hmapping : document.resolve keyType entityType = .ok mapping) :
    config.resolve files keyType entityType = .ok mapping := by
  have hread : (Mapping.Source.file path).read files = .ok text := by
    rw [Mapping.Source.read, FileTree.text?_of_octets hcontents]
  have hsource : (Mapping.Source.file path).resolve files keyType entityType = .ok mapping := by
    rw [Mapping.Source.resolve, hread, ← hmapping]
    simp only [bind, Except.bind, htext]
  rw [resolve, hfind]
  exact hsource

namespace MappedStore

variable {κ ε σ : Type} [Key κ] [Entity ε]

/-- The store that a configuration with a mapping describes. -/
abbrev ofConfig (config : StoreConfig) (mapping : Mapping.Resolved) : MappedStore κ ε :=
  ⟨mapping, .ofName config.serializer⟩

/-- With a mapping, opening a store is to create its schema if that has to be done. -/
theorem openConfig_of_resolve {config : StoreConfig} {files : FileTree}
    {mapping : Mapping.Resolved}
    (h : config.resolve files (Key.typeName κ) (Entity.typeName ε) = .ok mapping)
    (client : Client σ) :
    (openConfig client files config : Call σ (MappedStore κ ε)) =
      let store : MappedStore κ ε := ofConfig config mapping
      if config.autoCreateSchema then
        store.hasSchema client >>= fun present =>
          if present then pure store else (fun _ => store) <$> store.createSchema client
      else pure store := by
  rw [StoreConfig.resolve] at h
  rw [openConfig, h]
  cases config.autoCreateSchema with
  | false => rfl
  | true =>
    let store : MappedStore κ ε := ofConfig config mapping
    show (store.hasSchema client >>= fun present =>
      if !present then store.createSchema client >>= fun _ => pure store else pure store) = _
    refine congrArg _ (funext fun present => ?_)
    cases present with
    | false => exact (map_eq_pure_bind _ _).symm
    | true => rfl

/-- A store whose collection is there can be opened if its mapping is there, and there is nothing
else to do. -/
theorem runFrom_openConfig_of_collection? {config : StoreConfig} {files : FileTree}
    {mapping : Mapping.Resolved} {m : Memory} {records : Collection}
    (hmapping : config.resolve files (Key.typeName κ) (Entity.typeName ε) = .ok mapping)
    (hrecords : m.collection? mapping.ns mapping.collection = some records) :
    (openConfig Memory.client files config : Call Memory (MappedStore κ ε)).runFrom m =
      (.ok (ofConfig config mapping), m) := by
  rw [openConfig_of_resolve hmapping]
  cases config.autoCreateSchema with
  | false => rfl
  | true =>
    simp only [if_true]
    rw [Call.runFrom_bind, runFrom_hasSchema, hrecords]
    rfl

/-- A store that creates its schema can be opened if its mapping is there. Its collection is there
then, with the records that it had, and there is no other change. -/
theorem runFrom_openConfig {config : StoreConfig} {files : FileTree} {mapping : Mapping.Resolved}
    (hmapping : config.resolve files (Key.typeName κ) (Entity.typeName ε) = .ok mapping)
    (hcreate : config.autoCreateSchema = true) (m : Memory) :
    ∃ m', (openConfig Memory.client files config : Call Memory (MappedStore κ ε)).runFrom m =
        (.ok (ofConfig config mapping), m') ∧
      Memory.AgreeOutside mapping.ns mapping.collection m m' ∧
      m'.collection? mapping.ns mapping.collection =
        some ((m.collection? mapping.ns mapping.collection).getD .empty) := by
  cases hrecords : m.collection? mapping.ns mapping.collection with
  | some records =>
    exact ⟨m, runFrom_openConfig_of_collection? hmapping hrecords, .refl _ _ m, hrecords⟩
  | none =>
    obtain ⟨m', hrun, hcollection⟩ :=
      runFrom_createSchema (ofConfig config mapping : MappedStore κ ε) m
    have hcreates : (.createSchema : Request κ ε) ≠ .dropSchema := nofun
    have hagree := (ofConfig config mapping).keeps_agreeOutside hcreates m m (.refl _ _ m)
    rw [respond, Call.runFrom_map, hrun] at hagree
    rw [hrecords] at hcollection
    refine ⟨m', ?_, hagree, hcollection⟩
    rw [openConfig_of_resolve hmapping, hcreate]
    simp only [if_true]
    rw [Call.runFrom_bind, runFrom_hasSchema, hrecords]
    simp only [Option.isSome_none, Bool.false_eq_true, if_false]
    rw [Call.runFrom_map, hrun]
    rfl

end MappedStore

end EntityStore
