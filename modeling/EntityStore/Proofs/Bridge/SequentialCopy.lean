import EntityStore.Bridge.Engine
import EntityStore.Entity.Untyped
import EntityStore.Proofs.Bridge.Beginning
import EntityStore.Proofs.Memory.Basic
import EntityStore.Proofs.Store.Pair

/-!
# A job is a sequential copy

A job that reads from one store of a memory client and writes to another one does what
`MappedStore.copyTo` does: it reads all pairs and then writes them one after the other, up to the
first one that is not written. As long as there are a channel of the capacity and a buffer for a
batch, neither the size of the batches nor the capacity nor the order of the moves makes a
difference, and the two stores may well be the same (`Environment.execute_eq_copyTo`). Without them
no pair is copied, which is `Environment.execute_of_oversized` and `Environment.execute_of_refused`.

The first part is about any client. A job starts in the stage in which its source has not read, and
stays in stages of the same outcome as long as nobody cancels it, so that is the outcome it has when
both have left. The second part says what reading and writing do to a memory client, and the third
one puts the two together.
-/

namespace EntityStore

namespace Bridge.Pipeline

variable {σ κ ε : Type} [Key κ] [Entity ε]

/-! ## Whole jobs -/

/-- A job whose sink gets its buffer has first to read the pairs and then to write them. -/
theorem Stage.start (p : Pipeline σ κ ε) {env : Environment} (hcancelled : env.cancelled = false)
    {sink : Sink κ ε} (hbuffer : env.heap.Holds sink.format.batchSize) (s : σ) :
    p.Stage ((p.feed.read >>= fun pairs => p.copy pairs (sink.written + pairs.length)).runFrom s)
      (env.start sink (.empty env.capacity) s) := by
  rw [Environment.start_of_holds hbuffer, hcancelled]
  have hroom : 0 < max env.capacity 1 := Nat.lt_of_lt_of_le Nat.one_pos (Nat.le_max_right _ _)
  exact .reading hroom (.inl rfl) rfl

variable {p : Pipeline σ κ ε} {outcome : Except Error Nat × σ} {e : Execution σ κ ε}

/-- A schedule without a cancellation leads to a stage with the same outcome. -/
theorem Stage.follow (hfeed : p.feed.failure = none) {schedule : List Actor}
    (hschedule : .canceller ∉ schedule) (h : p.Stage outcome e) :
    p.Stage outcome (p.follow schedule e) := by
  induction schedule generalizing e with
  | nil => exact h
  | cons actor rest ih =>
    have hactor : actor ≠ .canceller := (List.ne_of_not_mem_cons hschedule).symm
    have hnext : p.Stage outcome ((p.step actor e).getD e) := by
      cases hstep : p.step actor e with
      | none => exact h
      | some e' => exact h.step hfeed hactor hstep
    exact ih (List.not_mem_of_not_mem_cons hschedule) hnext

/-- A job that is executed to its end has the outcome of its stage. -/
theorem Stage.run (hfeed : p.feed.failure = none) (h : p.Stage outcome e) :
    ((p.run e).result.map fun _ => (p.run e).sink.written, (p.run e).client) = outcome := by
  fun_induction Pipeline.run p e with
  | case1 e e' hadvance ih =>
    rcases Option.or_eq_some_iff.1 hadvance with hstep | ⟨-, hstep⟩
    · exact ih (h.step hfeed (by decide) hstep)
    · exact ih (h.step hfeed (by decide) hstep)
  | case2 e hadvance =>
    refine h.outcome_eq ?_
    -- Neither can move, so both have left.
    obtain ⟨hsource, hsink⟩ := Option.or_eq_none_iff.1 hadvance
    by_contra hfinished
    have hstep := h.exists_step (Bool.eq_false_iff.2 hfinished)
    simp [hsource, hsink] at hstep

end Bridge.Pipeline

/-! ## Reading and writing pairs of a memory store -/

namespace MappedStore

variable {κ ε σ : Type} [Key κ] [Entity ε]

/-- Reads the pairs that a query finds in one store, writes them to another one after the other, and
reports how many there are. -/
def copyTo (client : Client σ) (input output : MappedStore κ ε) (q : Query) : Call σ Nat := do
  let pairs ← input.query client q
  output.putAll client pairs
  return pairs.length

/-- What comes of copying pairs: the result, with the number of pairs, and the memory store. If
there is a failure, the reason is not a channel. -/
inductive Copies (input output : MappedStore κ ε) (q : Query) (m : Memory) :
    Except Error Nat × Memory → Prop where
  /-- The pairs cannot be read, and nothing is written. -/
  | unread {e : Error} (hread : (input.query Memory.client q).runFrom m = (.error e, m))
      (hchannel : e ≠ .channelClosed) : Copies input output q m (.error e, m)
  /-- All pairs are written. -/
  | all {pairs : List (κ × ε)} {m' : Memory}
      (hread : (input.query Memory.client q).runFrom m = (.ok pairs, m))
      (hwrite : (output.putAll Memory.client pairs).runFrom m = (.ok (), m')) :
      Copies input output q m (.ok pairs.length, m')
  /-- A pair cannot be written, and those before it, but none after it, are. -/
  | before {written rest : List (κ × ε)} {pair : κ × ε} {e : Error} {m' : Memory}
      (hread : (input.query Memory.client q).runFrom m = (.ok (written ++ pair :: rest), m))
      (hwrite : (output.putAll Memory.client written).runFrom m = (.ok (), m'))
      (hfail : (output.put Memory.client pair.1 pair.2).runFrom m' = (.error e, m'))
      (hchannel : e ≠ .channelClosed) : Copies input output q m (.error e, m')

omit [Key κ] [Entity ε] in
/-- What cannot be converted does not fail because of a channel. -/
theorem mapError_serialization_ne {α : Type} (result : Except SerializationError α) :
    result.mapError Error.serialization ≠ .error .channelClosed := by
  intro h
  cases result with
  | ok a => cases h
  | error e => cases h

/-- A record is not unreadable because of a channel. -/
theorem pairOf_ne_channelClosed (store : MappedStore κ ε) (found : String × Record) :
    store.pairOf found ≠ .error .channelClosed := by
  intro h
  unfold pairOf at h
  cases hkey : ((Key.ofDigest found.1 : Except _ κ).mapError Error.serialization) with
  | error e =>
    rw [hkey] at h
    obtain rfl := Except.error.inj h
    exact mapError_serialization_ne _ hkey
  | ok key =>
    cases hentity : store.decode found.2.bins with
    | error e =>
      rw [hkey, hentity] at h
      obtain rfl := Except.error.inj h
      exact mapError_serialization_ne _ hentity
    | ok entity =>
      rw [hkey, hentity] at h
      cases h

/-- Records are not unreadable because of a channel. -/
theorem mapM_pairOf_ne_channelClosed (store : MappedStore κ ε) (found : List (String × Record)) :
    found.mapM store.pairOf ≠ .error .channelClosed := by
  intro h
  obtain ⟨-, record, -, -, -, hrecord⟩ := mapM_eq_error_iff.1 h
  exact store.pairOf_ne_channelClosed record hrecord

/-- A query leaves the memory store as it was, and does not fail because of a channel. -/
theorem runFrom_query (store : MappedStore κ ε) (q : Query) (m : Memory) :
    ∃ result, (store.query Memory.client q).runFrom m = (result, m) ∧
      result ≠ .error .channelClosed := by
  unfold query
  rcases m.run_scan_cases store.mapping.ns store.mapping.collection q.limit
    store.mapping.readPolicy with ⟨found, hrun⟩ | ⟨e, hrun⟩
  · rw [Memory.runFrom_perform_bind_of_ok hrun]
    exact ⟨_, rfl, store.mapM_pairOf_ne_channelClosed found⟩
  · rw [Memory.runFrom_perform_bind_of_error hrun]
    exact ⟨_, rfl, fun h => Error.noConfusion (Except.error.inj h)⟩

/-- A pair that cannot be written leaves the memory store as it was, and the reason is not a
channel. -/
theorem runFrom_put_of_error {store : MappedStore κ ε} {key : κ} {entity : ε} {m m' : Memory}
    {e : Error} (h : (store.put Memory.client key entity).runFrom m = (.error e, m')) :
    m' = m ∧ e ≠ .channelClosed := by
  rw [put, Call.runFrom_bind, Call.runFrom_ofExcept] at h
  cases hencode : store.encode entity with
  | error cause =>
    rw [hencode] at h
    obtain ⟨rfl, rfl⟩ : cause = e ∧ m = m' := by simpa using h
    exact ⟨rfl, fun heq => mapError_serialization_ne _ (hencode.trans (congrArg Except.error heq))⟩
  | ok bins =>
    simp only [hencode] at h
    cases hrun : m.run (.put (store.addressOf key) bins store.mapping.writePolicy) with
    | error cause =>
      rw [Memory.runFrom_perform_bind_of_error hrun] at h
      obtain ⟨rfl, rfl⟩ : Error.store cause = e ∧ m = m' := by simpa using h
      exact ⟨rfl, Error.noConfusion⟩
    | ok result =>
      rw [Memory.runFrom_perform_bind_of_ok hrun] at h
      cases congrArg Prod.fst h

/-- Pairs are all written, or all up to one that is not. -/
theorem runFrom_putAll (store : MappedStore κ ε) (pairs : List (κ × ε)) (m : Memory) :
    ∃ m', (store.putAll Memory.client pairs).runFrom m = (.ok (), m') ∨
      ∃ e written pair rest, (store.putAll Memory.client pairs).runFrom m = (.error e, m') ∧
        pairs = written ++ pair :: rest ∧
        (store.putAll Memory.client written).runFrom m = (.ok (), m') ∧
        (store.put Memory.client pair.1 pair.2).runFrom m' = (.error e, m') := by
  induction pairs generalizing m with
  | nil => exact ⟨m, .inl rfl⟩
  | cons pair rest ih =>
    cases hput : (store.put Memory.client pair.1 pair.2).runFrom m with
    | mk result m₁ =>
      cases result with
      | error e =>
        obtain ⟨rfl, -⟩ := runFrom_put_of_error hput
        have hall := runFrom_putAll_cons_of_error hput rest
        exact ⟨m₁, .inr ⟨e, [], pair, rest, hall, rfl, rfl, hput⟩⟩
      | ok _ =>
        -- The pairs after this one are written from the store that it has left.
        have hcons := runFrom_putAll_cons_of_ok hput
        obtain ⟨m', hall | ⟨e, written, other, others, hfail, rfl, hwritten, hother⟩⟩ := ih m₁
        · exact ⟨m', .inl ((hcons rest).trans hall)⟩
        · exact ⟨m', .inr ⟨e, pair :: written, other, others, (hcons _).trans hfail, rfl,
            (hcons written).trans hwritten, hother⟩⟩

/-- Copying pairs reads them all first, and then writes them up to one that is not written. -/
theorem copies_copyTo (input output : MappedStore κ ε) (q : Query) (m : Memory) :
    Copies input output q m ((input.copyTo Memory.client output q).runFrom m) := by
  obtain ⟨result, hread, hne⟩ := input.runFrom_query q m
  rw [copyTo, Call.runFrom_bind, hread]
  cases result with
  | error e => exact .unread hread fun heq => hne (congrArg Except.error heq)
  | ok pairs =>
    simp only [Call.runFrom_bind]
    obtain ⟨m', hall | ⟨e, written, pair, rest, hfail, rfl, hwritten, hpair⟩⟩ :=
      output.runFrom_putAll pairs m
    · rw [hall]
      exact .all hread hall
    · rw [hfail]
      exact .before hread hwritten hpair (runFrom_put_of_error hpair).2

end MappedStore

/-! ## Jobs between two stores -/

namespace Bridge

variable {κ ε : Type} [Key κ] [Entity ε]

omit [Key κ] [Entity ε] in
/-- The source that an engine builds reads from the store, up to the limit of the job. -/
theorem Engine.format_of_source {engine : Engine} {config : StoreConfig} {store : MappedStore κ ε}
    {source : Source κ ε} (h : engine.source config store = .ok source) :
    source.format = ⟨store, InputFormat.limited (Job.ofConfig config) {}⟩ := by
  unfold Engine.source at h
  cases hcheck : (engine.check .input store).mapError Error.precondition with
  | error e =>
    rw [hcheck] at h
    cases h
  | ok _ =>
    rw [hcheck] at h
    obtain rfl := Except.ok.inj h
    rfl

omit [Key κ] [Entity ε] in
/-- The sink that an engine builds writes to the store, in batches of the size that the job says,
and has written nothing. -/
theorem Engine.format_of_sink {engine : Engine} {scratch : Except String String}
    {config : StoreConfig} {store : MappedStore κ ε} {sink : Sink κ ε}
    (h : engine.sink scratch config store = .ok sink) :
    sink.format = ⟨store, OutputFormat.batchSizeOf (Job.ofConfig config)⟩ ∧ sink.written = 0 := by
  unfold Engine.sink at h
  cases hcheck : (engine.check .output store).mapError Error.precondition with
  | error e =>
    rw [hcheck] at h
    cases h
  | ok _ =>
    rw [hcheck] at h
    cases scratch with
    | error reason => cases h
    | ok directory =>
      obtain rfl := Except.ok.inj h
      exact ⟨rfl, rfl⟩

namespace Environment

variable {σ : Type} {env : Environment} (client : Client σ) {input output : MappedStore κ ε}
  {q : Query} {source : Source κ ε} {sink : Sink κ ε}

/-- A job that is not cancelled and whose sink gets its buffer has first to copy the pairs that its
query finds. -/
theorem stage_start (hcancelled : env.cancelled = false)
    (hbuffer : env.heap.Holds sink.format.batchSize) (hsource : source.format = ⟨input, q⟩)
    (hsink : sink.format.store = output) (hwritten : sink.written = 0) (s : σ) :
    Pipeline.Stage ⟨client, source.feed client, sink.format⟩
      ((input.copyTo client output q).runFrom s) (env.start sink (.empty env.capacity) s) := by
  let p : Pipeline σ κ ε := ⟨client, source.feed client, sink.format⟩
  -- The sink starts with no pairs written, so it ends with as many as the source has read.
  have houtcome : (p.feed.read >>= fun pairs => p.copy pairs (sink.written + pairs.length)) =
      input.copyTo client output q := by
    simp only [p, Source.feed, InputFormat.pairs, Pipeline.copy, MappedStore.copyTo, hsource, hsink,
      hwritten, Nat.zero_add]
  exact houtcome ▸ Pipeline.Stage.start p hcancelled hbuffer s

/-- If it has a channel as well, executing it does so. -/
theorem runFrom_written_execute (hcapacity : env.capacity ≤ channelLimit)
    (hcancelled : env.cancelled = false) (hbuffer : env.heap.Holds sink.format.batchSize)
    (hsource : source.format = ⟨input, q⟩) (hsink : sink.format.store = output)
    (hwritten : sink.written = 0) (s : σ) :
    (Sink.written <$> env.execute client (source.feed client) sink).runFrom s =
      (input.copyTo client output q).runFrom s := by
  have hstart := stage_start client hcancelled hbuffer hsource hsink hwritten s
  rw [Call.runFrom_map, runFrom_execute hcapacity, ← hstart.run rfl]
  refine Prod.ext ?_ rfl
  show ((Pipeline.run _ _).result.map _).map Sink.written = _
  cases (Pipeline.run _ (env.start sink (.empty env.capacity) s)).result <;> rfl

end Environment

/-- A job that is not cancelled copies the pairs that its query finds, if there can be a channel of
the capacity and a buffer for a batch: executing it has the outcome of doing so one pair after the
other, and so has every schedule of moves that lets it finish. A schedule that does not can be
continued by a move of the source or the sink. -/
theorem Environment.execute_eq_copyTo {inputEngine outputEngine : Engine}
    {inputConfig outputConfig : StoreConfig} {scratch : Except String String}
    {input output : MappedStore κ ε} {source : Source κ ε} {sink : Sink κ ε}
    (hsource : inputEngine.source inputConfig input = .ok source)
    (hsink : outputEngine.sink scratch outputConfig output = .ok sink) {env : Environment}
    (hcapacity : env.capacity ≤ channelLimit) (hbuffer : env.heap.Holds sink.format.batchSize)
    (hcancelled : env.cancelled = false) (m : Memory) :
    let q := InputFormat.limited (Job.ofConfig inputConfig) {}
    let outcome := (input.copyTo Memory.client output q).runFrom m
    let p : Pipeline Memory κ ε := ⟨Memory.client, source.feed Memory.client, sink.format⟩
    input.Copies output q m outcome ∧
      (Sink.written <$> env.execute Memory.client (source.feed Memory.client) sink).runFrom m =
        outcome ∧
      ∀ schedule : List Actor, .canceller ∉ schedule →
        let e := p.follow schedule (env.start sink (.empty env.capacity) m)
        if e.isFinished then (e.result.map fun _ => e.sink.written, e.client) = outcome
        else (p.step .source e).isSome ∨ (p.step .sink e).isSome := by
  intro q outcome p
  have hformat := Engine.format_of_source hsource
  obtain ⟨hwrites, hwritten⟩ := Engine.format_of_sink hsink
  have hstore : sink.format.store = output := congrArg OutputFormat.store hwrites
  have hstart : p.Stage outcome (env.start sink (.empty env.capacity) m) :=
    stage_start Memory.client hcancelled hbuffer hformat hstore hwritten m
  refine ⟨input.copies_copyTo output q m, ?_, ?_⟩
  · exact runFrom_written_execute Memory.client hcapacity hcancelled hbuffer hformat hstore
      hwritten m
  · intro schedule hschedule e
    have hstage : p.Stage outcome e := hstart.follow rfl hschedule
    split_ifs with hfinished
    · exact hstage.outcome_eq hfinished
    · exact hstage.exists_step (Bool.eq_false_iff.2 hfinished)

/-- A native store of documents in a collection of the namespace `app` that only takes new keys. -/
def newKeyStore (collection : String) : MappedStore String Document where
  mapping := ⟨"String", "polystore.Document", "app", collection, .empty, {},
    { existsAction := .createOnly }⟩
  serializer := .native

/-- Two pairs to copy, and a collection that has the key of the second one already. -/
def overlappingCollections : Memory :=
  .ofList [("app", .ofList [
    ("docs", .ofList [("\"a\"", ⟨.empty, 1, none⟩), ("\"b\"", ⟨.empty, 1, none⟩)]),
    ("copies", .ofList [("\"b\"", ⟨.empty, 1, none⟩)])])]

/-- The first of the two pairs is copied, and the second one is reported. -/
theorem Environment.execute_eq_copyTo_overlapping :
    let env : Environment := { capacity := 1, heap := ⟨48, 4096⟩ }
    ∃ (source : Source String Document) (sink : Sink String Document),
      (Engine.ofTypes String Document).source { mapping := "docs" } (newKeyStore "docs") =
        .ok source ∧
      (Engine.ofTypes String Document).sink (.ok "/tmp/sink")
        { mapping := "copies", properties := .ofList [(Job.batchSize, " 2 ")] }
        (newKeyStore "copies") = .ok sink ∧
      env.capacity ≤ channelLimit ∧ env.heap.Holds sink.format.batchSize ∧
      (Sink.written <$> env.execute Memory.client
          (source.feed Memory.client) sink).runFrom overlappingCollections =
        (.error (.store (.recordExists "app/copies/\"b\"")),
          (((newKeyStore "copies").put Memory.client "a" ⟨.empty⟩).runFrom
            overlappingCollections).2) := by
  intro env
  obtain ⟨source, hsource⟩ : ∃ source, (Engine.ofTypes String Document).source
      { mapping := "docs" } (newKeyStore "docs") = .ok source := ⟨_, rfl⟩
  obtain ⟨sink, hsink⟩ : ∃ sink, (Engine.ofTypes String Document).sink (.ok "/tmp/sink")
      { mapping := "copies", properties := .ofList [(Job.batchSize, " 2 ")] }
      (newKeyStore "copies") = .ok sink := ⟨_, rfl⟩
  have hcapacity : env.capacity ≤ channelLimit := by decide
  have hbuffer : env.heap.Holds sink.format.batchSize := by
    rw [(Engine.format_of_sink hsink).1]
    exact ⟨by decide, by decide⟩
  have hcancelled : env.cancelled = false := rfl
  have hcopy := (execute_eq_copyTo hsource hsink hcapacity hbuffer hcancelled
    overlappingCollections).2.1
  exact ⟨source, sink, hsource, hsink, hcapacity, hbuffer, hcopy.trans rfl⟩

/-- A pair to copy, and an empty collection to copy it to. -/
def emptyTarget : Memory :=
  .ofList [("app", .ofList [("docs", .ofList [("\"a\"", ⟨.empty, 1, none⟩)]),
    ("copies", .empty)])]

/-- The pair can be copied. But with one message too many for a channel the job panics, and with
batches for which there can be no buffer it fails, and both leave the collections as they were. -/
theorem Environment.execute_ne_copyTo :
    let heap : Heap := ⟨48, bufferLimit⟩
    let job (env : Environment) (source : Source String Document) (sink : Sink String Document) :=
      (Sink.written <$> env.execute Memory.client (source.feed Memory.client) sink).runFrom
        emptyTarget
    ∃ (source : Source String Document) (sink vast : Sink String Document),
      (Engine.ofTypes String Document).source { mapping := "docs" } (newKeyStore "docs") =
        .ok source ∧
      (Engine.ofTypes String Document).sink (.ok "/tmp/sink") { mapping := "copies" }
        (newKeyStore "copies") = .ok sink ∧
      (Engine.ofTypes String Document).sink (.ok "/tmp/sink")
        { mapping := "copies", properties := .ofList [(Job.batchSize, "18446744073709551615")] }
        (newKeyStore "copies") = .ok vast ∧
      (((newKeyStore "docs").copyTo Memory.client (newKeyStore "copies") {}).runFrom
        emptyTarget).1 = .ok 1 ∧
      job { capacity := 2305843009213693952, heap } source sink =
        (.error (.panic (.oversizedChannel 2305843009213693952)), emptyTarget) ∧
      job { heap } source vast =
        (.error (.brokenTask (.oversizedBuffer 18446744073709551615)), emptyTarget) := by
  intro heap job
  obtain ⟨source, hsource⟩ : ∃ source, (Engine.ofTypes String Document).source
      { mapping := "docs" } (newKeyStore "docs") = .ok source := ⟨_, rfl⟩
  obtain ⟨sink, hsink⟩ : ∃ sink, (Engine.ofTypes String Document).sink (.ok "/tmp/sink")
      { mapping := "copies" } (newKeyStore "copies") = .ok sink := ⟨_, rfl⟩
  obtain ⟨vast, hvast⟩ : ∃ vast, (Engine.ofTypes String Document).sink (.ok "/tmp/sink")
      { mapping := "copies", properties := .ofList [(Job.batchSize, "18446744073709551615")] }
      (newKeyStore "copies") = .ok vast := ⟨_, rfl⟩
  have hpanic : job { capacity := 2305843009213693952, heap } source sink =
      (.error (.panic (.oversizedChannel 2305843009213693952)), emptyTarget) := by
    have hlimit : channelLimit < 2305843009213693952 := by decide
    show (Sink.written <$> execute _ _ _ _).runFrom emptyTarget = _
    rw [Call.runFrom_map, execute_of_oversized hlimit]
    rfl
  have hbroken : job { heap } source vast =
      (.error (.brokenTask (.oversizedBuffer 18446744073709551615)), emptyTarget) := by
    have hsize : vast.format.batchSize = 18446744073709551615 := by
      rw [(Engine.format_of_sink hvast).1]
      decide
    have hrefused : heap.reserve vast.format.batchSize =
        .error (.panic (.oversizedBuffer 18446744073709551615)) := by
      rw [hsize]
      exact Heap.reserve_of_lt (by decide)
    have hread : ((source.feed Memory.client).read.runFrom emptyTarget).2 = emptyTarget := by
      rw [Source.feed, InputFormat.pairs, Engine.format_of_source hsource]
      rfl
    have hcapacity : ({ heap } : Environment).capacity ≤ channelLimit := by decide
    have hfailed := (execute_of_refused hcapacity hrefused Memory.client
      (source.feed Memory.client) emptyTarget).1
    show (Sink.written <$> execute _ _ _ _).runFrom emptyTarget = _
    rw [Call.runFrom_map, hfailed, hread]
    rfl
  exact ⟨source, sink, vast, hsource, hsink, hvast, rfl, hpanic, hbroken⟩

end Bridge

end EntityStore
