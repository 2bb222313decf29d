import EntityStore.Bridge.Engine
import EntityStore.Proofs.Bridge.SequentialCopy

/-!
# Sources and sinks of fitting stores

If a store persists the types of an engine, the engine opens it and builds what is asked for
(`Engine.runFrom_openSource`, `Engine.runFrom_openSink`). A job of such a source and such a sink
succeeds if copying the pairs one after the other does, and leaves what that leaves
(`Environment.runFrom_execute_of_ok`).
-/

namespace EntityStore

namespace Job

/-- A job has the properties of its configuration, but for the mapping and the serializer. -/
theorem get?_ofConfig (config : StoreConfig) {name : String} (hmapping : name ≠ mappingName)
    (hserializer : name ≠ serializerName) :
    (ofConfig config).get? name = config.properties.get? name := by
  unfold ofConfig
  split <;> simp [hmapping, hserializer]

/-- The number of a property with another name is that of the configuration. -/
theorem number?_ofConfig (config : StoreConfig) {name : String} (hmapping : name ≠ mappingName)
    (hserializer : name ≠ serializerName) :
    (ofConfig config).number? name = number? config.properties name := by
  rw [number?, number?, get?_ofConfig config hmapping hserializer]

end Job

namespace Bridge

/-- The size of the batches of a job is the one that its configuration says. -/
theorem OutputFormat.batchSizeOf_ofConfig (config : StoreConfig) :
    batchSizeOf (Job.ofConfig config) = batchSizeOf config.properties := by
  rw [batchSizeOf, batchSizeOf, Job.number?_ofConfig config (by decide) (by decide)]

variable {κ ε σ : Type}

namespace Engine

variable {engine : Engine} {store : MappedStore κ ε} {config : StoreConfig} {s s' : σ}
  {opener : StoreConfig → Call σ (MappedStore κ ε)}

/-- A store of the types of a direction passes the check. -/
theorem check_of_require {direction : Direction}
    (htypes : engine.require direction = .ok store.types) :
    engine.check direction store = .ok () := by
  rw [check, htypes]
  exact if_pos rfl

/-- A store of the input types is opened, and there is a source that reads from it. -/
theorem runFrom_openSource (htypes : engine.require .input = .ok store.types)
    (hopen : (opener config).runFrom s = (.ok store, s')) :
    ∃ source, (engine.openSource opener config).runFrom s = (.ok source, s') ∧
      engine.source config store = .ok source := by
  obtain ⟨source, hsource⟩ : ∃ source, engine.source config store = .ok source := by
    rw [Engine.source, check_of_require htypes]
    exact ⟨_, rfl⟩
  refine ⟨source, ?_, hsource⟩
  rw [openSource, htypes, Call.runFrom_bind, Call.runFrom_ofExcept]
  simp only [Except.mapError, Call.runFrom_bind, hopen, Call.runFrom_ofExcept, hsource]

/-- A store of the output types is opened, and there is a sink that writes to it, with a directory
that is there. -/
theorem runFrom_openSink (htypes : engine.require .output = .ok store.types)
    (hopen : (opener config).runFrom s = (.ok store, s')) (scratch : String) :
    ∃ sink, (engine.openSink (.ok scratch) opener config).runFrom s = (.ok sink, s') ∧
      engine.sink (.ok scratch) config store = .ok sink := by
  obtain ⟨sink, hsink⟩ : ∃ sink, engine.sink (.ok scratch) config store = .ok sink := by
    rw [Engine.sink, check_of_require htypes]
    exact ⟨_, rfl⟩
  refine ⟨sink, ?_, hsink⟩
  rw [openSink, htypes, Call.runFrom_bind, Call.runFrom_ofExcept]
  simp only [Except.mapError, Call.runFrom_bind, hopen, Call.runFrom_ofExcept, hsink]

end Engine

variable [Key κ] [Entity ε]

/-- A job that is not cancelled, with a channel and a buffer, succeeds if copying the pairs that its
query finds does, and leaves the same state of the client. -/
theorem Environment.runFrom_execute_of_ok {env : Environment}
    (hcapacity : env.capacity ≤ channelLimit) (hcancelled : env.cancelled = false)
    {client : Client σ} {input output : MappedStore κ ε} {q : Query} {source : Source κ ε}
    {sink : Sink κ ε} (hbuffer : env.heap.Holds sink.format.batchSize)
    (hsource : source.format = ⟨input, q⟩) (hsink : sink.format.store = output)
    (hwritten : sink.written = 0) {s s' : σ} {copied : Nat}
    (hcopy : (input.copyTo client output q).runFrom s = (.ok copied, s')) :
    ∃ sink', (env.execute client (source.feed client) sink).runFrom s = (.ok sink', s') := by
  have hexecute := runFrom_written_execute client hcapacity hcancelled hbuffer hsource hsink
    hwritten s
  rw [Call.runFrom_map, hcopy] at hexecute
  obtain ⟨hresult, hclient⟩ := Prod.mk.inj hexecute
  cases hend : ((env.execute client (source.feed client) sink).runFrom s).1 with
  | ok sink' => exact ⟨sink', Prod.ext hend hclient⟩
  | error e =>
    rw [hend] at hresult
    cases hresult

end Bridge

end EntityStore
