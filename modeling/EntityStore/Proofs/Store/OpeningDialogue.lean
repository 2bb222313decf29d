import EntityStore.Proofs.Store.Dialogue
import EntityStore.Proofs.Store.Opening

/-!
# What opening a store says to its client

Before opening a store makes any call, it needs the mapping of the types. A configuration leads to
the mapping in stages: the mapping is named, found, read, parsed, and has to declare the types.
`StoreConfig.Leads` says where this ends, and `StoreConfig.leads_resolve` that it always ends
somewhere.

Only a store that creates its schema makes calls then. It looks into the metadata of its namespace,
and creates the schema if the collection is not there. `MappedStore.Opens` has a case for each way
that this can go with a client that answers as it likes, and `MappedStore.opens_openConfig` says
that one of them is what happens.

No call of the memory client fails there. A schema of which only a part was there is completed and
not made anew (`MappedStore.CompletesSchema`), and whoever opens the store again finds nothing to
do. `MappedStore.opening_safe` puts this together.
-/

namespace EntityStore

/-- If the collection at an address of two stores that agree elsewhere has the same records, or is
new and has none, the stores have the same records. -/
theorem Memory.AgreeOutside.record?_eq {ns name : String} {m m' : Memory}
    (h : AgreeOutside ns name m m')
    (hcollection : m'.collection? ns name = some ((m.collection? ns name).getD .empty))
    (address : RecordKey) : m'.record? address = m.record? address := by
  rw [Memory.record?_eq, Memory.record?_eq]
  by_cases haddress : (address.ns, address.collection) = (ns, name)
  · obtain ⟨rfl, rfl⟩ := Prod.mk.inj haddress
    rw [hcollection]
    cases m.collection? address.ns address.collection <;> rfl
  · rw [h.collection?_eq haddress]

/-! ## The way to the mapping -/

/-- A file says about two types what the document in its text says, if it is one. -/
theorem Mapping.Source.resolve_of_text? {files : FileTree} {path text : String}
    (h : files.text? path = some text) (keyType entityType : String) :
    (Source.file path).resolve files keyType entityType =
      match Document.ofText? text with
      | some document => document.resolve keyType entityType
      | none => .error .unparsableMapping := by
  rw [resolve, read, h]
  rfl

namespace StoreConfig

/-- The paths at which the mapping is looked for, one after the other: its name, if that is a path
from the root, and then the name below each search root. -/
def paths (config : StoreConfig) : List String :=
  (if FileTree.isAbsolute config.mapping then [config.mapping] else []) ++
    config.searchRoots.map fun root => FileTree.join root config.mapping

/-- The mapping is named, and this is the first of its paths with a file. -/
def FoundAt (config : StoreConfig) (files : FileTree) (path : String) : Prop :=
  Text.isAllBlank config.mapping = false ∧ config.paths.find? files.isFile = some path

/-- What a configuration leads to: the mapping of two types, or the first thing on the way to it
that is missing. -/
inductive Leads (config : StoreConfig) (files : FileTree) (keyType entityType : String) :
    Except ConfigurationError Mapping.Resolved → Prop where
  /-- The mapping has no name. -/
  | unnamed (h : Text.isAllBlank config.mapping = true) :
    Leads config files keyType entityType (.error .missingMapping)
  /-- There is no file at any of the paths. -/
  | absent (hnamed : Text.isAllBlank config.mapping = false)
      (h : ∀ path ∈ config.paths, files.isFile path = false) :
    Leads config files keyType entityType (.error (.mappingNotFound config.mapping))
  /-- The file is not a text. -/
  | unreadable {path : String} (hfound : config.FoundAt files path) (h : files.text? path = none) :
    Leads config files keyType entityType (.error (.unreadableMapping path))
  /-- The text is not a mapping document. -/
  | unparsable {path text : String} (hfound : config.FoundAt files path)
      (htext : files.text? path = some text) (h : Mapping.Document.ofText? text = none) :
    Leads config files keyType entityType (.error .unparsableMapping)
  /-- The document has no mapping of the types. -/
  | unresolved {path text : String} {document : Mapping.Document} {cause : ConfigurationError}
      (hfound : config.FoundAt files path) (htext : files.text? path = some text)
      (hdocument : Mapping.Document.ofText? text = some document)
      (h : document.resolve keyType entityType = .error cause) :
    Leads config files keyType entityType (.error cause)
  /-- The document has a mapping of the types. -/
  | resolved {path text : String} {document : Mapping.Document} {mapping : Mapping.Resolved}
      (hfound : config.FoundAt files path) (htext : files.text? path = some text)
      (hdocument : Mapping.Document.ofText? text = some document)
      (h : document.resolve keyType entityType = .ok mapping) :
    Leads config files keyType entityType (.ok mapping)

/-- A mapping that is named is the file at the first of its paths with one. -/
theorem findMapping_eq (config : StoreConfig) (files : FileTree) :
    config.findMapping files =
      if Text.isAllBlank config.mapping then .error .missingMapping
      else
        match config.paths.find? files.isFile with
        | some path => .ok (.file path)
        | none => .error (.mappingNotFound config.mapping) := by
  have hpaths : config.paths.find? files.isFile =
      if FileTree.isAbsolute config.mapping && files.isFile config.mapping then some config.mapping
      else (config.searchRoots.map fun root => FileTree.join root config.mapping).find?
        files.isFile := by
    rw [paths]
    cases FileTree.isAbsolute config.mapping <;> cases hfile : files.isFile config.mapping <;>
      simp [hfile]
  rw [findMapping, Mapping.Source.find, hpaths]
  split
  · rfl
  · split <;> rfl

/-- A mapping that is found is the one at its path. -/
theorem resolve_of_foundAt {config : StoreConfig} {files : FileTree} {path : String}
    (h : config.FoundAt files path) (keyType entityType : String) :
    config.resolve files keyType entityType =
      (Mapping.Source.file path).resolve files keyType entityType := by
  rw [resolve, findMapping_eq, h.1, h.2]
  rfl

/-- A configuration leads to what it is resolved to. -/
theorem leads_resolve (config : StoreConfig) (files : FileTree) (keyType entityType : String) :
    config.Leads files keyType entityType (config.resolve files keyType entityType) := by
  cases hnamed : Text.isAllBlank config.mapping with
  | true =>
    rw [resolve, findMapping_eq, hnamed]
    exact .unnamed hnamed
  | false =>
    cases hfind : config.paths.find? files.isFile with
    | none =>
      have habsent : ∀ path ∈ config.paths, files.isFile path = false := by
        simpa using hfind
      rw [resolve, findMapping_eq, hnamed, hfind]
      exact .absent hnamed habsent
    | some path =>
      have hfound : config.FoundAt files path := ⟨hnamed, hfind⟩
      rw [resolve_of_foundAt hfound]
      cases htext : files.text? path with
      | none =>
        rw [Mapping.Source.resolve, Mapping.Source.read, htext]
        exact .unreadable hfound htext
      | some text =>
        rw [Mapping.Source.resolve_of_text? htext]
        cases hdocument : Mapping.Document.ofText? text with
        | none => exact .unparsable hfound htext hdocument
        | some document =>
          simp only
          cases hmapping : document.resolve keyType entityType with
          | error cause => exact .unresolved hfound htext hdocument hmapping
          | ok mapping => exact .resolved hfound htext hdocument hmapping

/-- A configuration is resolved to what it leads to. -/
theorem resolve_of_leads {config : StoreConfig} {files : FileTree} {keyType entityType : String}
    {result : Except ConfigurationError Mapping.Resolved}
    (h : config.Leads files keyType entityType result) :
    config.resolve files keyType entityType = result := by
  cases h with
  | unnamed h => rw [resolve, findMapping_eq, h]; rfl
  | absent hnamed h =>
    have hfind : config.paths.find? files.isFile = none := by simpa using h
    rw [resolve, findMapping_eq, hnamed, hfind]
    rfl
  | unreadable hfound h =>
    rw [resolve_of_foundAt hfound, Mapping.Source.resolve, Mapping.Source.read, h]
    rfl
  | unparsable hfound htext h =>
    rw [resolve_of_foundAt hfound, Mapping.Source.resolve_of_text? htext, h]
  | unresolved hfound htext hdocument h | resolved hfound htext hdocument h =>
    rw [resolve_of_foundAt hfound, Mapping.Source.resolve_of_text? htext, hdocument]
    exact h

end StoreConfig

namespace MappedStore

variable {κ ε σ : Type} [Key κ] [Entity ε]

/-! ## What opening comes down to -/

/-- Without a mapping nothing is opened, and no call is made. -/
theorem openConfig_of_resolve_error {config : StoreConfig} {files : FileTree}
    {cause : ConfigurationError}
    (h : config.resolve files (Key.typeName κ) (Entity.typeName ε) = .error cause)
    (client : Client σ) :
    (openConfig client files config : Call σ (MappedStore κ ε)) =
      .ofExcept (.error (.configuration cause)) := by
  rw [StoreConfig.resolve] at h
  rw [openConfig, h]
  rfl

omit [Key κ] [Entity ε] in
/-- A client that describes the namespace tells whether the schema is there. -/
theorem runFrom_hasSchema_of_metadata {client : Client σ} {store : MappedStore κ ε}
    {found : Option NamespaceMetadata} {s s' : σ}
    (h : client.metadata store.mapping.ns s = (.ok found, s')) :
    (store.hasSchema client).runFrom s =
      (.ok (found.bind fun found => found.count? store.mapping.collection).isSome, s') := by
  rw [hasSchema, Call.runFrom_bind, Client.inspect, Call.runFrom_ofState, h]
  cases found <;> rfl

omit [Key κ] [Entity ε] in
/-- A client that fails to describe the namespace does not tell whether the schema is there. -/
theorem runFrom_hasSchema_of_metadata_error {client : Client σ} {store : MappedStore κ ε}
    {e : StoreError} {s s' : σ} (h : client.metadata store.mapping.ns s = (.error e, s')) :
    (store.hasSchema client).runFrom s = (.error (.store e), s') := by
  rw [hasSchema, Call.runFrom_bind, Client.inspect, Call.runFrom_ofState, h]
  rfl

/-! ## The ways that opening can go -/

/-- The calls that are made to open a store, with their answers, the result, and the state of the
client afterwards. -/
inductive Opens (client : Client σ) (files : FileTree) (config : StoreConfig) (s : σ) :
    List Exchange → Except Error (MappedStore κ ε) → σ → Prop where
  /-- There is no mapping, and no call. -/
  | unmapped {cause : ConfigurationError}
      (hleads : config.Leads files (Key.typeName κ) (Entity.typeName ε) (.error cause)) :
    Opens client files config s [] (.error (.configuration cause)) s
  /-- The schema is not asked for. -/
  | unchecked {mapping : Mapping.Resolved}
      (hleads : config.Leads files (Key.typeName κ) (Entity.typeName ε) (.ok mapping))
      (hcreate : config.autoCreateSchema = false) :
    Opens client files config s [] (.ok (ofConfig config mapping)) s
  /-- The client does not answer whether the schema is there. -/
  | unanswered {mapping : Mapping.Resolved} {e : StoreError} {s' : σ}
      (hleads : config.Leads files (Key.typeName κ) (Entity.typeName ε) (.ok mapping))
      (hcreate : config.autoCreateSchema = true)
      (hmetadata : client.metadata mapping.ns s = (.error e, s')) :
    Opens client files config s [⟨.metadata mapping.ns, .error e⟩] (.error (.store e)) s'
  /-- The schema is there. -/
  | present {mapping : Mapping.Resolved} {found : NamespaceMetadata} {s' : σ}
      (hleads : config.Leads files (Key.typeName κ) (Entity.typeName ε) (.ok mapping))
      (hcreate : config.autoCreateSchema = true)
      (hmetadata : client.metadata mapping.ns s = (.ok (some found), s'))
      (hfound : (found.count? mapping.collection).isSome = true) :
    Opens client files config s [⟨.metadata mapping.ns, .ok (.metadata (some found))⟩]
      (.ok (ofConfig config mapping)) s'
  /-- The namespace or its collection is not there. Both are created, up to the first failure. -/
  | created {mapping : Mapping.Resolved} {found : Option NamespaceMetadata} {s₁ s' : σ}
      {exchanges : List Exchange} {heard : Except StoreError (List Reply)}
      (hleads : config.Leads files (Key.typeName κ) (Entity.typeName ε) (.ok mapping))
      (hcreate : config.autoCreateSchema = true)
      (hmetadata : client.metadata mapping.ns s = (.ok found, s₁))
      (hlacks : (found.bind fun found => found.count? mapping.collection) = none)
      (hdialogue : client.Dialogue [.execute (.createNamespace mapping.ns),
        .execute (.createCollection mapping.ns mapping.collection)] s₁ exchanges heard s') :
    Opens client files config s (⟨.metadata mapping.ns, .ok (.metadata found)⟩ :: exchanges)
      ((heard.mapError .store).map fun _ => ofConfig config mapping) s'

omit [Key κ] [Entity ε] in
/-- Creating the schema is two operations, the first of which may be the last. -/
theorem conducts_createSchema (client : Client σ) (store : MappedStore κ ε) :
    client.Conducts [.execute (.createNamespace store.mapping.ns),
        .execute (.createCollection store.mapping.ns store.mapping.collection)]
      (fun _ result => result = .ok store) ((fun _ => store) <$> store.createSchema client)
      ((fun _ => store) <$> store.createSchema client.logged) :=
  .map (.perform fun _ => .perform fun _ => .ofExcept (.ok ()) rfl)

/-- A store with a mapping that creates its schema goes one of the ways that begin with the metadata
of the namespace. -/
theorem opens_of_creates {files : FileTree} {config : StoreConfig} {mapping : Mapping.Resolved}
    (hleads : config.Leads files (Key.typeName κ) (Entity.typeName ε) (.ok mapping))
    (hcreate : config.autoCreateSchema = true) (client : Client σ) (s : σ)
    (log : List ClientCall) :
    ∃ exchanges result s',
      Opens client files config s exchanges (result : Except Error (MappedStore κ ε)) s' ∧
        (openConfig client files config).runFrom s = (result, s') ∧
        (openConfig client.logged files config).runFrom (s, log) =
          (result, s', (exchanges.map Exchange.call).reverse ++ log) := by
  have hresolve := StoreConfig.resolve_of_leads hleads
  let store : MappedStore κ ε := ofConfig config mapping
  rw [openConfig_of_resolve hresolve, openConfig_of_resolve hresolve]
  simp only [hcreate, if_true, Call.runFrom_bind]
  cases hmetadata : client.metadata mapping.ns s with
  | mk answer s₁ =>
    have hlogged : client.logged.metadata mapping.ns (s, log) =
        (answer, s₁, .metadata mapping.ns :: log) := by
      simp only [Client.logged, hmetadata]
    cases answer with
    | error e =>
      rw [runFrom_hasSchema_of_metadata_error hmetadata,
        runFrom_hasSchema_of_metadata_error hlogged]
      exact ⟨_, _, s₁, .unanswered hleads hcreate hmetadata, rfl, rfl⟩
    | ok found =>
      rw [runFrom_hasSchema_of_metadata hmetadata, runFrom_hasSchema_of_metadata hlogged]
      cases hcount : found.bind fun found => found.count? mapping.collection with
      | some count =>
        obtain ⟨found, rfl, hfound⟩ := Option.bind_eq_some_iff.1 hcount
        have hpresent := Option.isSome_of_eq_some hfound
        exact ⟨_, _, s₁, .present hleads hcreate hmetadata hpresent, rfl, rfl⟩
      | none =>
        -- What is left is the dialogue of creating the schema, after the request for metadata.
        obtain ⟨exchanges, heard, s', result, hdialogue, hresulting, hrun, hlog⟩ :=
          conducts_createSchema client store s₁ (.metadata mapping.ns :: log)
        have hresult : result = (heard.mapError .store).map fun _ => store := by
          cases hresulting with
          | failed e => rfl
          | replied h => exact h
        subst hresult
        refine ⟨_, _, s', .created hleads hcreate hmetadata hcount hdialogue, hrun, ?_⟩
        rw [List.map_cons, List.reverse_cons, List.append_assoc]
        exact hlog

/-- Opening a store goes one of the ways that there are, and the log of the client lists the calls
that this way has, and no others. -/
theorem opens_openConfig (client : Client σ) (files : FileTree) (config : StoreConfig) (s : σ)
    (log : List ClientCall) :
    ∃ exchanges result s',
      Opens client files config s exchanges (result : Except Error (MappedStore κ ε)) s' ∧
        (openConfig client files config).runFrom s = (result, s') ∧
        (openConfig client.logged files config).runFrom (s, log) =
          (result, s', (exchanges.map Exchange.call).reverse ++ log) := by
  have hleads := config.leads_resolve files (Key.typeName κ) (Entity.typeName ε)
  cases hresolve : config.resolve files (Key.typeName κ) (Entity.typeName ε) with
  | error cause =>
    rw [hresolve] at hleads
    rw [openConfig_of_resolve_error hresolve, openConfig_of_resolve_error hresolve]
    exact ⟨[], _, s, .unmapped hleads, rfl, rfl⟩
  | ok mapping =>
    rw [hresolve] at hleads
    cases hcreate : config.autoCreateSchema with
    | true => exact opens_of_creates hleads hcreate client s log
    | false =>
      rw [openConfig_of_resolve hresolve, openConfig_of_resolve hresolve, hcreate]
      exact ⟨[], _, s, .unchecked hleads hcreate, rfl, rfl⟩

/-! ## Safe and repeatable -/

/-- The second store is the first one with the schema of a mapping, of which a part or all may have
been there before. -/
structure CompletesSchema (mapping : Mapping.Resolved) (m m' : Memory) : Prop where
  /-- The collection is there, with the records that it had. -/
  collection : m'.collection? mapping.ns mapping.collection =
    some ((m.collection? mapping.ns mapping.collection).getD .empty)
  /-- The other namespaces, and the other collections of the namespace, are as they were. -/
  others : Memory.AgreeOutside mapping.ns mapping.collection m m'
  /-- Every record is as it was, with its bins, its generation and its key, and there is no new
  one. -/
  records : ∀ address, m'.record? address = m.record? address
  /-- There is no change if the collection was there before. -/
  unchanged : (m.collection? mapping.ns mapping.collection).isSome = true → m' = m

/-- Opening a store that creates its schema completes the schema. -/
theorem completesSchema_openConfig {config : StoreConfig} {files : FileTree}
    {mapping : Mapping.Resolved}
    (hmapping : config.resolve files (Key.typeName κ) (Entity.typeName ε) = .ok mapping)
    (hcreate : config.autoCreateSchema = true) (m : Memory) :
    ∃ m', (openConfig Memory.client files config : Call Memory (MappedStore κ ε)).runFrom m =
        (.ok (ofConfig config mapping), m') ∧ CompletesSchema mapping m m' := by
  obtain ⟨m', hopen, hagree, hcollection⟩ :=
    (runFrom_openConfig hmapping hcreate m : ∃ m', (openConfig Memory.client files config :
      Call Memory (MappedStore κ ε)).runFrom m = _ ∧ _)
  refine ⟨m', hopen, hcollection, hagree, hagree.record?_eq hcollection, fun hsome => ?_⟩
  obtain ⟨records, hrecords⟩ := Option.isSome_iff_exists.1 hsome
  rw [runFrom_openConfig_of_collection? hmapping hrecords] at hopen
  exact (congrArg Prod.snd hopen).symm

/-- Whatever the client answers, opening a store goes one of the ways of `Opens`, and the log of the
client lists the calls of this way and no others: there is none if the configuration does not lead
to a mapping or the schema is not to be created, and none after the first one that fails. Over the
memory client a store that has a mapping and creates its schema is opened in every state. This
completes the schema and changes nothing else, and the store can be opened again, with any
serializer, without a change. -/
theorem opening_safe (files : FileTree) (config : StoreConfig) :
    (∀ {σ : Type} (client : Client σ) (s : σ) (log : List ClientCall),
      ∃ exchanges result s',
        Opens client files config s exchanges (result : Except Error (MappedStore κ ε)) s' ∧
          (openConfig client files config).runFrom s = (result, s') ∧
          (openConfig client.logged files config).runFrom (s, log) =
            (result, s', (exchanges.map Exchange.call).reverse ++ log)) ∧
    ∀ mapping, config.Leads files (Key.typeName κ) (Entity.typeName ε) (.ok mapping) →
      config.autoCreateSchema = true → ∀ m : Memory, ∃ m' : Memory,
        let store : MappedStore κ ε := ofConfig config mapping
        (openConfig Memory.client files config).runFrom m = (.ok store, m') ∧
          CompletesSchema mapping m m' ∧
          (store.hasSchema Memory.client).runFrom m' = (.ok true, m') ∧
          ∀ serializer,
            (openConfig Memory.client files { config with serializer }).runFrom m' =
              (.ok ({ store with serializer := .ofName serializer } : MappedStore κ ε), m') := by
  refine ⟨fun client s log => opens_openConfig client files config s log, ?_⟩
  intro mapping hleads hcreate m
  have hmapping := StoreConfig.resolve_of_leads hleads
  obtain ⟨m', hopen, hcompletes⟩ := completesSchema_openConfig hmapping hcreate m
  refine ⟨m', hopen, hcompletes, ?_, fun serializer => ?_⟩
  · rw [runFrom_hasSchema, hcompletes.collection]
    rfl
  · -- The name of the serializer plays no part in finding the mapping.
    have hagain : StoreConfig.resolve { config with serializer } files (Key.typeName κ)
      (Entity.typeName ε) = .ok mapping := hmapping
    exact runFrom_openConfig_of_collection? hagain hcompletes.collection

/-- A mapping document that names the collection of the logs. -/
def logsDocument : String :=
  "classes:\n- name: polystore.Document\n  key_class: String\n  namespace: app\n  set: logs\n"

/-- The mapping of the logs is not in the first search root. -/
def logsConfig : StoreConfig where
  mapping := "logs.yml"
  roots := ["missing", "etc/"]
  serializer := "cbor"
  autoCreateSchema := true

/-- The file with the mapping of the logs. -/
def logsFiles : FileTree :=
  .ofList [("etc/logs.yml", Text.octets logsDocument)]

/-- The configuration leads to the mapping of the logs. -/
theorem leads_logsConfig : logsConfig.Leads logsFiles "String" "polystore.Document"
    (.ok logsStore.mapping) := by
  have hdocument : Mapping.Document.ofText? logsDocument = some { classes := [
      { entityType := some "polystore.Document", keyType := some "String", ns := some "app",
        collection := some "logs" }] } := by decide +kernel
  have htext : logsFiles.text? "etc/logs.yml" = some logsDocument :=
    FileTree.text?_of_octets rfl
  have hfound : logsConfig.FoundAt logsFiles "etc/logs.yml" :=
    ⟨by decide +kernel, by decide +kernel⟩
  exact .resolved hfound htext hdocument rfl

/-- The namespace of the logs is there without their collection. Opening their store adds the
collection, and the documents in the namespace are still there. -/
theorem opening_safe_logs :
    logsConfig.Leads logsFiles "String" "polystore.Document" (.ok logsStore.mapping) ∧
      logsConfig.autoCreateSchema = true ∧
      mixedFormats.collection? "app" "logs" = none ∧
      ∃ m' : Memory, m'.collection? "app" "logs" = some .empty ∧
        m'.collection? "app" "docs" = mixedFormats.collection? "app" "docs" ∧
        (openConfig Memory.client logsFiles logsConfig).runFrom mixedFormats =
          (.ok (logsStore : MappedStore String Document), m') ∧
        (openConfig Memory.client logsFiles { logsConfig with serializer := "" }).runFrom m' =
          (.ok ({ logsStore with serializer := .native } : MappedStore String Document), m') := by
  have hcbor : Serializer.ofName "cbor" = .cbor := by decide +kernel
  have hnative : Serializer.ofName "" = .native := by decide +kernel
  have hlogs : (ofConfig logsConfig logsStore.mapping : MappedStore String Document) = logsStore :=
    congrArg _ hcbor
  obtain ⟨m', hopen, hcompletes, -, hagain⟩ :=
    (@opening_safe String Document _ _ logsFiles logsConfig).2 logsStore.mapping leads_logsConfig
      rfl mixedFormats
  rw [hlogs] at hopen hagain
  refine ⟨leads_logsConfig, rfl, rfl, m', hcompletes.collection,
    hcompletes.others.collections "docs" (by decide), hopen, ?_⟩
  rw [← hnative]
  exact hagain ""

end MappedStore

end EntityStore
