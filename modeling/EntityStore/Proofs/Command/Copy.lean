import EntityStore.Command.Run
import EntityStore.Proofs.Bridge.Engine
import EntityStore.Proofs.Command.Lines
import EntityStore.Proofs.Store.Opening
import EntityStore.Proofs.Store.Transfer
import Mathlib

/-!
# A copy prints what the lines leave

A copy takes documents through much: they are encoded and decoded by two stores, merged or
overwritten by the first one, read with a limit, sent through a channel, written in batches, and
read again. None of this shows. What is printed can be told from the lines alone
(`Copying.copied`): under each key the document that the lines of the key leave, up to the limit.

`Copying` is what the files of a copy hold, and `Copying.Faithful` what is asked of it: the stores
have different addresses, the policies let the writes through, and the fields can be read back. Then
`run_copy` follows the two stores through the steps of a copy. The source store stands for the table
that is left of the lines from the seeding on, and the target store for the copied pairs from the
bridge job on. Opening a store again changes neither.
-/

namespace EntityStore.Command

/-! ## Parts of a command -/

namespace Task

variable {σ α β : Type}

/-- A command whose first part succeeds goes on from the state that this part leaves. -/
theorem runFrom_bind_of_ok {x : Task σ α} {f : α → Task σ β} {s s' : σ} {a : α}
    (h : x.runFrom s = (.ok a, s')) : (x >>= f).runFrom s = (f a).runFrom s' := by
  unfold runFrom at h ⊢
  rw [ExceptT.run_bind, StateT.run_bind, h]
  rfl

/-- A call that succeeds is a part that does. -/
theorem runFrom_ofCall_of_ok {call : Call σ α} {s s' : σ} {a : α}
    (h : call.runFrom s = (.ok a, s')) : (ofCall call).runFrom s = (.ok a, s') := by
  show ((call.runFrom s).1.mapError Failure.cause, (call.runFrom s).2) = _
  rw [h]
  rfl

/-- A command that begins with a call that succeeds. -/
theorem runFrom_ofCall_bind_of_ok {call : Call σ α} {f : α → Task σ β} {s s' : σ} {a : α}
    (h : call.runFrom s = (.ok a, s')) : (ofCall call >>= f).runFrom s = (f a).runFrom s' :=
  runFrom_bind_of_ok (runFrom_ofCall_of_ok h)

/-- A command that begins with a result that needs no client. -/
theorem runFrom_ofExcept_bind_of_ok {result : Except Failure α} {f : α → Task σ β} {s : σ} {a : α}
    (h : result = .ok a) : (ofExcept result >>= f).runFrom s = (f a).runFrom s := by
  refine runFrom_bind_of_ok ?_
  rw [h]
  rfl

end Task

/-! ## What a copy works on -/

/-- What the files of a copy hold: two configurations that lead to mappings of documents, and lines
of documents. -/
structure Copying (files : FileTree) (source target input : String) where
  /-- The configuration of the source store. -/
  sourceConfig : StoreConfig
  /-- The configuration of the target store. -/
  targetConfig : StoreConfig
  /-- The mapping of the source store. -/
  sourceMapping : Mapping.Resolved
  /-- The mapping of the target store. -/
  targetMapping : Mapping.Resolved
  /-- The documents of the input, with their keys. -/
  lines : List (String × Document)
  /-- The configuration of the source store is loaded. -/
  load_source : StoreConfig.load files source = .ok sourceConfig
  /-- The configuration of the target store is loaded. -/
  load_target : StoreConfig.load files target = .ok targetConfig
  /-- The configuration of the source store leads to its mapping. -/
  resolve_source : sourceConfig.resolve files "String" "polystore.Document" = .ok sourceMapping
  /-- The configuration of the target store leads to its mapping. -/
  resolve_target : targetConfig.resolve files "String" "polystore.Document" = .ok targetMapping
  /-- The lines are read. -/
  read_input : readDocuments files input = .ok lines

namespace Copying

variable {files : FileTree} {source target input : String}

/-- The source store. -/
abbrev sourceStore (c : Copying files source target input) : MappedStore String Document :=
  .ofConfig c.sourceConfig c.sourceMapping

/-- The target store. -/
abbrev targetStore (c : Copying files source target input) : MappedStore String Document :=
  .ofConfig c.targetConfig c.targetMapping

/-- What the lines leave in the source store: each key once, in the order of the octets of its JSON
text, with the last of its documents or with all of them laid over one another. -/
def seeded (c : Copying files source target input) : Table String :=
  Table.settled c.sourceMapping.writePolicy.existsAction c.lines

/-- The limit of the source configuration, if it has a usable one. -/
def limit? (c : Copying files source target input) : Option Nat :=
  Job.number? c.sourceConfig.properties Job.inputLimit

/-- The documents that are copied: all that the lines leave, or the first ones up to the limit. -/
def copied (c : Copying files source target input) : List (String × Document) :=
  match c.limit? with
  | some n => c.seeded.take n
  | none => c.seeded

/-- The size of the batches: what the target configuration says, if that is a usable number. -/
def batchSize (c : Copying files source target input) : Nat :=
  Bridge.OutputFormat.batchSizeOf c.targetConfig.properties

/-- The documents can be copied: the stores are apart, every write goes through, and every field can
be read back. -/
structure Faithful (c : Copying files source target input) : Prop where
  /-- The stores have different addresses. -/
  apart : (c.targetMapping.ns, c.targetMapping.collection) ≠
    (c.sourceMapping.ns, c.sourceMapping.collection)
  /-- The source store does not check generations. -/
  generation : c.sourceMapping.writePolicy.generation = .ignore
  /-- The source store lays documents over one another, or puts one in place of another. -/
  sourceAction : c.sourceMapping.writePolicy.existsAction = .update ∨
    c.sourceMapping.writePolicy.existsAction = .replace
  /-- The target store creates records. -/
  targetAction : c.targetMapping.writePolicy.existsAction = .update ∨
    c.targetMapping.writePolicy.existsAction = .replace ∨
    c.targetMapping.writePolicy.existsAction = .createOnly
  /-- In both stores the names of fields survive the way to their bins and back. -/
  names : ∀ mapping ∈ [c.sourceMapping, c.targetMapping], ∀ line ∈ c.lines,
    ∀ field ∈ line.2.fields.keys, mapping.fieldOf (mapping.binOf field) = field
  /-- No field that is written to the source store is too long for its serializer. -/
  sourceAccepts : ∀ line ∈ c.lines, c.sourceStore.Accepts line.2
  /-- No field that is copied is too long for the serializer of the target store. -/
  targetAccepts : ∀ pair ∈ c.copied, c.targetStore.Accepts pair.2

variable {c : Copying files source target input}

/-- The limit is the one of the query of the bridge job. -/
theorem copied_eq_select (c : Copying files source target input) :
    c.copied =
      Table.select (Bridge.InputFormat.limited (Job.ofConfig c.sourceConfig) {}) c.seeded := by
  -- The properties that the job adds have other names.
  have hlimit : (Job.ofConfig c.sourceConfig).number? Job.inputLimit = c.limit? :=
    Job.number?_ofConfig c.sourceConfig (by decide) (by decide)
  rw [copied, ← hlimit]
  rfl

/-- The lines fit a store whose mapping lets their names survive. -/
theorem fits_of_mem (c : Copying files source target input) {store : MappedStore String Document}
    {line : String × Document} (hmem : line ∈ c.lines)
    (hnames : ∀ field ∈ line.2.fields.keys,
      store.mapping.fieldOf (store.mapping.binOf field) = field) : store.Fits line.2 :=
  ⟨hnames, fun _ _ hget => preserves_of_readDocuments c.read_input hmem store.serializer hget⟩

/-- The lines fit the source store. -/
theorem Faithful.source_fits (h : c.Faithful) :
    ∀ line ∈ c.lines, c.sourceStore.Fits line.2 :=
  fun line hmem => c.fits_of_mem hmem (h.names _ List.mem_cons_self line hmem)

/-- What the lines leave fits the target store. -/
theorem Faithful.target_fits (h : c.Faithful) :
    ∀ pair ∈ c.copied, c.targetStore.Fits pair.2 := by
  rintro ⟨key, document⟩ hmem
  rw [copied_eq_select] at hmem
  have hseeded : (key, document) ∈ c.seeded := (Table.select_sublist _ _).mem hmem
  have hsettles := Table.settles_settled c.sourceMapping.writePolicy.existsAction c.lines
  rw [seeded, ← hsettles.ascending.find_eq_some_iff, hsettles.find] at hseeded
  refine Table.property_of_leftBy (fun _ _ => MappedStore.Fits.overlay) ?_ hseeded
  intro other hother
  obtain ⟨line, hline, rfl⟩ := List.mem_map.1 hother
  have hmem := (List.mem_filter.1 hline).1
  have htarget : c.targetMapping ∈ [c.sourceMapping, c.targetMapping] := by simp
  exact c.fits_of_mem hmem (h.names _ htarget line hmem)

/-! ## The steps of a copy -/

/-- A configuration with which a store creates its schema. -/
def creating (config : StoreConfig) : StoreConfig :=
  { config with autoCreateSchema := true }

/-- A configuration that is loaded is used to create the schema. -/
theorem configOf_of_load {path : String} {config : StoreConfig}
    (h : StoreConfig.load files path = .ok config) :
    configOf files path = .ok (creating config) := by
  rw [configOf, h]
  rfl

/-- A store is opened, has its collection then, and nothing else has changed. -/
theorem runFrom_openDocuments {config : StoreConfig} {mapping : Mapping.Resolved}
    (h : config.resolve files "String" "polystore.Document" = .ok mapping) (m : Memory) :
    ∃ m', (openDocuments Memory.client files (creating config)).runFrom m =
        (.ok (.ofConfig config mapping), m') ∧
      Memory.AgreeOutside mapping.ns mapping.collection m m' ∧
      m'.collection? mapping.ns mapping.collection =
        some ((m.collection? mapping.ns mapping.collection).getD .empty) :=
  MappedStore.runFrom_openConfig h rfl m

/-- A store that stands for a table does so when it is opened again. -/
theorem runFrom_openDocuments_again {config : StoreConfig} {mapping : Mapping.Resolved}
    (h : config.resolve files "String" "polystore.Document" = .ok mapping) {m : Memory}
    {t : Table String}
    (hstands : MappedStore.StandsFor (.ofConfig config mapping) m (some t)) :
    ∃ m', (openDocuments Memory.client files (creating config)).runFrom m =
        (.ok (.ofConfig config mapping), m') ∧
      Memory.AgreeOutside mapping.ns mapping.collection m m' ∧
      MappedStore.StandsFor (.ofConfig config mapping) m' (some t) := by
  obtain ⟨records, hrecords, hrepresents⟩ := hstands
  obtain ⟨m', hopen, hagree, hcollection⟩ := runFrom_openDocuments h m
  rw [hrecords] at hcollection
  exact ⟨m', hopen, hagree, records, hcollection, hrepresents⟩

/-- The types of a mapping of documents are those of the engine. -/
theorem require_types {config : StoreConfig} {mapping : Mapping.Resolved}
    (h : config.resolve files "String" "polystore.Document" = .ok mapping)
    (direction : Direction) :
    (Bridge.Engine.ofTypes String Document).require direction =
      .ok (MappedStore.ofConfig config mapping : MappedStore String Document).types := by
  have htypes : (MappedStore.ofConfig config mapping : MappedStore String Document).types =
      ⟨"String", "polystore.Document"⟩ := StoreConfig.types_of_resolve h
  rw [htypes]
  cases direction <;> rfl

/-- The bridge job leaves the copied pairs in the target store, if there are a channel and a buffer
for it, the source store stands for what the lines leave and there is no target collection. -/
theorem runFrom_bridge (h : c.Faithful) {capacity : Nat} (hcapacity : capacity ≤ channelLimit)
    {memory : Nat} (hbuffer : (documentHeap memory).Holds c.batchSize) {m : Memory}
    (hseeded : c.sourceStore.StandsFor m (some c.seeded))
    (habsent : m.collection? c.targetMapping.ns c.targetMapping.collection = none) :
    ∃ m', (bridge memory Memory.client files (creating c.sourceConfig)
        (creating c.targetConfig) capacity).runFrom m = (.ok (), m') ∧
      c.targetStore.StandsFor m' (some c.copied) := by
  -- Opening the source store again changes nothing, and opening the target creates its collection.
  obtain ⟨m₁, hopen₁, hagree₁, hseeded₁⟩ := runFrom_openDocuments_again c.resolve_source hseeded
  obtain ⟨m₂, hopen₂, hagree₂, hcollection⟩ := runFrom_openDocuments c.resolve_target m₁
  rw [hagree₁.collection?_eq h.apart, habsent] at hcollection
  obtain ⟨records, hrecords, hrepresents⟩ := hseeded₁
  have hseeded₂ : c.sourceStore.StandsFor m₂ (some c.seeded) :=
    ⟨records, (hagree₂.collection?_eq h.apart.symm).trans hrecords, hrepresents⟩
  obtain ⟨source, hsource, hbuilt⟩ :=
    Bridge.Engine.runFrom_openSource (require_types c.resolve_source .input) hopen₁
  obtain ⟨sink, hsink, hbuilt'⟩ :=
    Bridge.Engine.runFrom_openSink (require_types c.resolve_target .output) hopen₂ ""
  have hformat := Bridge.Engine.format_of_source hbuilt
  obtain ⟨hwrites, hwritten⟩ := Bridge.Engine.format_of_sink hbuilt'
  -- The job does what copying the pairs does, and they are all new to the target store.
  have hfits := h.target_fits
  have haccepts := h.targetAccepts
  rw [copied_eq_select] at hfits haccepts ⊢
  have haction : MappedStore.Creates c.targetStore.mapping.writePolicy.existsAction :=
    h.targetAction
  obtain ⟨m₃, hcopy, hstands⟩ := MappedStore.runFrom_copyTo_new _ haction hfits haccepts
    (Table.settles_settled _ c.lines).ascending hseeded₂ hcollection
  let env : Bridge.Environment := { capacity, heap := documentHeap memory }
  have hcancelled : env.cancelled = false := rfl
  have hholds : env.heap.Holds sink.format.batchSize := by
    rw [hwrites, Bridge.OutputFormat.batchSizeOf_ofConfig]
    exact hbuffer
  have hstore : sink.format.store = c.targetStore := congrArg Bridge.OutputFormat.store hwrites
  obtain ⟨sink', hexecute⟩ := Bridge.Environment.runFrom_execute_of_ok hcapacity hcancelled hholds
    hformat hstore hwritten hcopy
  refine ⟨m₃, ?_, hstands⟩
  rw [bridge, Task.runFrom_ofCall_bind_of_ok hsource, Task.runFrom_ofCall_bind_of_ok hsink]
  exact Task.runFrom_ofCall_bind_of_ok hexecute

/-- A copy finds the copied documents in the target store. -/
theorem runFrom_copyThrough (h : c.Faithful) {capacity : Nat} (hcapacity : capacity ≤ channelLimit)
    {memory : Nat} (hbuffer : (documentHeap memory).Holds c.batchSize) :
    ((copyThrough memory Memory.client files source target input capacity).runFrom .empty).1 =
      .ok c.copied := by
  -- The source store is opened and filled. This does not concern the collection of the target.
  obtain ⟨m₁, hopen₁, hagree₁, hcollection⟩ := runFrom_openDocuments c.resolve_source .empty
  obtain ⟨m₂, hput, hseeded, hagree₂⟩ := MappedStore.runFrom_putAll_lines
    h.generation h.sourceAction h.source_fits h.sourceAccepts hcollection
  have habsent : m₂.collection? c.targetMapping.ns c.targetMapping.collection = none := by
    rw [hagree₂.collection?_eq h.apart, hagree₁.collection?_eq h.apart]
    rfl
  -- The job fills the target store, which is read after it has been opened again.
  obtain ⟨m₃, hbridge, hcopied⟩ := runFrom_bridge h hcapacity hbuffer hseeded habsent
  obtain ⟨m₄, hopen₄, -, hcopied₄⟩ := runFrom_openDocuments_again c.resolve_target hcopied
  have hquery := hcopied₄.runFrom_query {}
  rw [copyThrough, Task.runFrom_ofExcept_bind_of_ok (configOf_of_load c.load_source),
    Task.runFrom_ofExcept_bind_of_ok (configOf_of_load c.load_target),
    Task.runFrom_ofCall_bind_of_ok hopen₁, Task.runFrom_ofExcept_bind_of_ok c.read_input,
    Task.runFrom_ofCall_bind_of_ok hput, Task.runFrom_bind_of_ok hbridge,
    Task.runFrom_ofCall_bind_of_ok hopen₄, Task.runFrom_ofCall_of_ok hquery]
  rfl

end Copying

/-- A copy whose documents can be copied succeeds, for any room in the channel that there can be and
any size of batches for which there are a buffer and memory. It prints a line for each of the copied
documents and nothing else. -/
theorem run_copy {memory : Nat} {files : FileTree} {arguments : List String}
    {source target input : String} {capacity : Nat}
    (harguments : ofArguments arguments = .ok (.copy source target input capacity))
    (hcapacity : capacity ≤ channelLimit) (c : Copying files source target input)
    (hbuffer : (documentHeap memory).Holds c.batchSize) (h : c.Faithful) :
    run memory files arguments = ⟨0, String.join (c.copied.map documentLine), ""⟩ := by
  have houtput : copyOutput memory files source target input capacity =
      .ok (String.join (c.copied.map documentLine)) := by
    rw [copyOutput, Copying.runFrom_copyThrough h hcapacity hbuffer]
    rfl
  rw [run, harguments]
  simp only [execute, houtput]

/-- A mapping document that keeps the field x in the bin z. -/
def docsDocument : String :=
  "classes:\n- name: polystore.Document\n  key_class: String\n  namespace: app\n" ++
    "  fields:\n  - name: x\n    bin: z\n"

/-- A mapping document that names the collection of the copies. -/
def copiesDocument : String :=
  "classes:\n- name: polystore.Document\n  key_class: String\n  namespace: app\n  set: copies\n"

/-- The lines of two documents with one key, a blank line, and the line of an empty document. -/
def documentLines : String :=
  "[\"b\",\x7b\"x\":true\x7d]\n\n[\"a\",\x7b\x7d]\n[\"b\",\x7b\"y\":true\x7d]\n"

/-- The files of a copy from a store of CBOR items to one of native values. -/
def copyFiles : FileTree := .ofList [
  ("from.yml", Text.octets "mapping: /docs\nserializer: cbor\n"),
  ("to.yml", Text.octets "mapping: /copies\n"),
  ("/docs", Text.octets docsDocument),
  ("/copies", Text.octets copiesDocument),
  ("in.jsonl", Text.octets documentLines)]

/-- The documents of the lines, without the blank one. -/
theorem readDocuments_copyFiles : readDocuments copyFiles "in.jsonl" =
    .ok [("b", ⟨.ofList [("x", .bool true)]⟩), ("a", ⟨.empty⟩),
      ("b", ⟨.ofList [("y", .bool true)]⟩)] := by
  have hcontents : copyFiles.contents? "in.jsonl" = some (Text.octets documentLines) := rfl
  have hlines : linesOf (Text.octets documentLines) = [
      Text.octets "[\"b\",\x7b\"x\":true\x7d]", Text.octets "", Text.octets "[\"a\",\x7b\x7d]",
      Text.octets "[\"b\",\x7b\"y\":true\x7d]"] := rfl
  have hfirst : documentOf? "[\"b\",\x7b\"x\":true\x7d]" =
      some ("b", ⟨.ofList [("x", .bool true)]⟩) := by cbv
  have hsecond : documentOf? "[\"a\",\x7b\x7d]" = some ("a", ⟨.empty⟩) := rfl
  have hthird : documentOf? "[\"b\",\x7b\"y\":true\x7d]" =
      some ("b", ⟨.ofList [("y", .bool true)]⟩) := by cbv
  -- Only the empty line is passed over.
  have hfirst' : Text.isAllBlank "[\"b\",\x7b\"x\":true\x7d]" = false := rfl
  have hblank : Text.isAllBlank "" = true := rfl
  have hsecond' : Text.isAllBlank "[\"a\",\x7b\x7d]" = false := rfl
  have hthird' : Text.isAllBlank "[\"b\",\x7b\"y\":true\x7d]" = false := rfl
  simp only [readDocuments, hcontents, hlines, documentsOf, Text.ofOctets?_octets, hfirst, hsecond,
    hthird, hfirst', hblank, hsecond', hthird', Bool.false_eq_true, if_false, if_true, Except.map]

/-- What the files hold. The source collection has the name of the entity type by default. -/
def mergingCopy : Copying copyFiles "from.yml" "to.yml" "in.jsonl" where
  sourceConfig := { mapping := "/docs", serializer := "cbor" }
  targetConfig := { mapping := "/copies" }
  sourceMapping :=
    ⟨"String", "polystore.Document", "app", "Document", .ofList [("x", "z")], {}, {}⟩
  targetMapping := ⟨"String", "polystore.Document", "app", "copies", .empty, {}, {}⟩
  lines := [("b", ⟨.ofList [("x", .bool true)]⟩), ("a", ⟨.empty⟩),
    ("b", ⟨.ofList [("y", .bool true)]⟩)]
  load_source := by
    have htext : StoreConfig.ofText "mapping: /docs\nserializer: cbor\n" =
        .ok { mapping := "/docs", serializer := "cbor" } := by cbv
    exact StoreConfig.load_of_octets rfl htext
  load_target := by
    have htext : StoreConfig.ofText "mapping: /copies\n" = .ok { mapping := "/copies" } := by cbv
    exact StoreConfig.load_of_octets rfl htext
  resolve_source := by
    have htext : Mapping.Document.ofText? docsDocument = some { classes := [
        { entityType := some "polystore.Document", keyType := some "String", ns := some "app",
          fields := [⟨"x", "z"⟩] }] } := by decide +kernel
    have hcontents : copyFiles.contents? "/docs" = some (Text.octets docsDocument) := rfl
    exact StoreConfig.resolve_of_octets rfl hcontents htext rfl
  resolve_target := by
    have htext : Mapping.Document.ofText? copiesDocument = some { classes := [
        { entityType := some "polystore.Document", keyType := some "String", ns := some "app",
          collection := some "copies" }] } := by decide +kernel
    have hcontents : copyFiles.contents? "/copies" = some (Text.octets copiesDocument) := rfl
    exact StoreConfig.resolve_of_octets rfl hcontents htext rfl
  read_input := readDocuments_copyFiles

/-- The documents can be copied. -/
theorem mergingCopy_faithful : mergingCopy.Faithful where
  apart := by decide
  generation := rfl
  sourceAction := .inl rfl
  targetAction := .inl rfl
  names := by decide +kernel
  sourceAccepts := by
    have haccepts : ∀ line ∈ mergingCopy.lines, ∀ entry ∈ line.2.fields.entries,
        mergingCopy.sourceStore.serializer.accepts entry.2 = true := by decide +kernel
    intro line hmem field json hget
    exact haccepts line hmem (field, json) (OrderedMap.get?_eq_some_iff.1 hget)
  targetAccepts := by
    have hnative : mergingCopy.targetStore.serializer = .native := by decide +kernel
    intro pair _ field json _
    rw [hnative]
    rfl

/-- The copy succeeds and prints the documents by their keys: the empty one, and the two of one key
laid over one another. -/
theorem run_copy_merged :
    let arguments := ["copy", "--from", "from.yml", "--to", "to.yml", "--input", "in.jsonl"]
    ofArguments arguments = .ok (.copy "from.yml" "to.yml" "in.jsonl" 8) ∧ 8 ≤ channelLimit ∧
      (documentHeap 65536).Holds mergingCopy.batchSize ∧ mergingCopy.Faithful ∧
      run 65536 copyFiles arguments = ⟨0, "\x7b\"key\":\"a\",\"value\":\x7b\x7d\x7d\n" ++
        "\x7b\"key\":\"b\",\"value\":\x7b\"x\":true,\"y\":true\x7d\x7d\n", ""⟩ := by
  have harguments : ofArguments
      ["copy", "--from", "from.yml", "--to", "to.yml", "--input", "in.jsonl"] =
        .ok (.copy "from.yml" "to.yml" "in.jsonl" 8) := rfl
  have hcapacity : 8 ≤ channelLimit := by decide
  have hbuffer : (documentHeap 65536).Holds mergingCopy.batchSize := ⟨by decide, by decide⟩
  have hrun := run_copy harguments hcapacity mergingCopy hbuffer mergingCopy_faithful
  refine ⟨harguments, hcapacity, hbuffer, mergingCopy_faithful, hrun.trans ?_⟩
  decide +kernel

end EntityStore.Command
