import EntityStore.Proofs.Bridge.Construction
import EntityStore.Proofs.Bridge.Delivery
import EntityStore.Proofs.Decimal.Natural
import EntityStore.Proofs.Store.Reading

/-!
# Sources with a limit

A source of a store reads what a query without a limit reads, up to the limit that a property of its
job writes (`Job.WritesLimit`), and delivers that through any channel that there can be. The job
records the limit in the same property, as the digits of the number alone, which write the same limit
for a source that is built from them. A text that writes no limit stays as it is
(`Bridge.Engine.source_bounded`).

The limit is read after the name of the mapping and that of the serializer are added to the
properties, and the types and the limit are recorded after it is read. None of these has the name of
another property, so the other properties are those of the configuration (`Job.get?_ofConfig`,
`Bridge.InputFormat.get?_recorded`).
-/

namespace EntityStore

/-! ## Limits -/

namespace Job

/-- A text writes a limit: without the blanks around it, it writes this number, which is below
`2 ^ 64`. -/
def WritesLimit (text : String) (n : Nat) : Prop :=
  ∃ core, Text.Trims text core ∧ Decimal.Writes core.toList n ∧ n < 2 ^ 64

/-- The number of a property is the limit that its text writes. -/
theorem number?_eq_some_iff {job : Job} {name : String} {n : Nat} :
    job.number? name = some n ↔ ∃ text, job.get? name = some text ∧ WritesLimit text n := by
  rw [number?, Option.bind_eq_some_iff]
  refine exists_congr fun text => and_congr_right fun _ => ?_
  constructor
  · intro h
    have htrims := Text.trims_trim text
    rw [Decimal.natural?_trimChars htrims, Decimal.natural?_eq_some_iff] at h
    exact ⟨_, htrims, h⟩
  · rintro ⟨core, htrims, hwrites, hlt⟩
    rw [Decimal.natural?_trimChars htrims]
    exact Decimal.natural?_eq_some_iff.2 ⟨hwrites, hlt⟩

/-- The digits of a limit write it. -/
theorem WritesLimit.toText {text : String} {n : Nat} (h : WritesLimit text n) :
    WritesLimit (Decimal.toText n) n := by
  obtain ⟨-, -, -, hlt⟩ := h
  exact ⟨_, Decimal.trims_toText n, Decimal.writes_toText n, hlt⟩

end Job

/-- The pairs up to the limit of a query. -/
def Query.cut {α : Type} (q : Query) (pairs : List α) : List α :=
  match q.limit with
  | some n => pairs.take n
  | none => pairs

/-- There is nothing to cut off. -/
theorem Query.cut_nil {α : Type} (q : Query) : q.cut ([] : List α) = [] := by
  unfold cut
  cases q.limit with
  | some n => exact List.take_nil
  | none => rfl

/-- If all pairs can be read, a query reads them up to its limit. -/
theorem MappedStore.runFrom_query_cut {κ ε : Type} [Key κ] [Entity ε] {store : MappedStore κ ε}
    {m : Memory} {pairs : List (κ × ε)}
    (hquery : ((store.query Memory.client {}).runFrom m).1 = .ok pairs) (q : Query) :
    (store.query Memory.client q).runFrom m = (.ok (q.cut pairs), m) := by
  cases hns : m.get? store.mapping.ns with
  | none =>
    rw [(reads_of_absent_namespace hns).2] at hquery
    cases hquery
  | some collections =>
    cases hname : collections.get? store.mapping.collection with
    | none =>
      obtain ⟨-, hnothing⟩ := @reads_of_absent_collection κ ε _ _ store m _ hns hname
      rw [hnothing] at hquery
      obtain rfl := Except.ok.inj hquery
      rw [hnothing, Query.cut_nil]
    | some records =>
      have hrecords : m.collection? store.mapping.ns store.mapping.collection = some records := by
        rw [Memory.collection?, hns, Option.bind_some, hname]
      obtain ⟨limit⟩ := q
      cases limit with
      | some n => exact runFrom_query_take hrecords hquery n
      | none =>
        rw [runFrom_query_all hrecords] at hquery ⊢
        exact Prod.ext hquery rfl

namespace Bridge

/-! ## What is recorded -/

namespace InputFormat

variable {κ ε : Type}

/-- A limit is recorded with its digits, and a text that writes none stays. -/
theorem get?_recorded_inputLimit (format : InputFormat κ ε) (job : Job) :
    (format.recorded job).get? Job.inputLimit =
      (format.query.limit.map Decimal.toText).or (job.get? Job.inputLimit) := by
  have hkeys : Job.inputLimit ≠ Job.inputKeys := by decide
  have hentities : Job.inputLimit ≠ Job.inputEntities := by decide
  unfold recorded
  cases format.query.limit <;> simp [hkeys, hentities]

/-- Nothing is recorded under other names. -/
theorem get?_recorded (format : InputFormat κ ε) (job : Job) {name : String}
    (hkeys : name ≠ Job.inputKeys) (hentities : name ≠ Job.inputEntities)
    (hlimit : name ≠ Job.inputLimit) : (format.recorded job).get? name = job.get? name := by
  unfold recorded
  cases format.query.limit <;> simp [hkeys, hentities, hlimit]

end InputFormat

namespace Engine

variable {κ ε : Type}

/-- A source that is built for a store is the one of the store. -/
theorem eq_ofStore_of_source {engine : Engine} {config : StoreConfig} {store : MappedStore κ ε}
    {source : Source κ ε} (h : engine.source config store = .ok source) :
    source = .ofStore config store := by
  rw [source_eq] at h
  cases hcheck : engine.check .input store with
  | error cause =>
    rw [hcheck] at h
    cases h
  | ok _ =>
    rw [hcheck] at h
    exact (Except.ok.inj h).symm

/-- The limit of a source is the one that the property of its configuration writes. -/
theorem limit_of_source {engine : Engine} {config : StoreConfig} {store : MappedStore κ ε}
    {source : Source κ ε} (h : engine.source config store = .ok source) :
    source.format.query.limit = Job.number? config.properties Job.inputLimit := by
  rw [eq_ofStore_of_source h]
  exact Job.number?_ofConfig config (by decide) (by decide)

/-- The job of a source has the digits of its limit, or the text that writes none. -/
theorem get?_inputLimit_of_source {engine : Engine} {config : StoreConfig}
    {store : MappedStore κ ε} {source : Source κ ε} (h : engine.source config store = .ok source) :
    source.job.get? Job.inputLimit =
      (source.format.query.limit.map Decimal.toText).or
        (config.properties.get? Job.inputLimit) := by
  have hconfig : (Job.ofConfig config).get? Job.inputLimit =
      config.properties.get? Job.inputLimit :=
    Job.get?_ofConfig config (by decide) (by decide)
  rw [eq_ofStore_of_source h, ← hconfig]
  exact InputFormat.get?_recorded_inputLimit _ _

/-- What the job of a source writes is the limit of the source. -/
theorem number?_job_of_source {engine : Engine} {config : StoreConfig}
    {store : MappedStore κ ε} {source : Source κ ε} (h : engine.source config store = .ok source) :
    source.job.number? Job.inputLimit = source.format.query.limit := by
  have hjob := get?_inputLimit_of_source h
  have hlimit := limit_of_source h
  cases hn : source.format.query.limit with
  | none =>
    rw [hn, Option.map_none, Option.none_or] at hjob
    rw [← hn, hlimit, Job.number?, Job.number?, hjob]
  | some n =>
    rw [hn, Option.map_some, Option.some_or] at hjob
    rw [hn] at hlimit
    obtain ⟨text, -, hwrites⟩ := Job.number?_eq_some_iff.1 hlimit.symm
    exact Job.number?_eq_some_iff.2 ⟨_, hjob, hwrites.toText⟩

/-- A source of a store whose pairs can all be read delivers the pairs up to the limit that its
configuration writes, through any channel that there can be and however it takes turns with its
receiver; for want of a channel it panics. Its job records the limit with its digits, and a source
that is built with a property of that text has the same limit; a text that writes none stays. All
other properties, but for those of the mapping, the serializer and the types, are those of the
configuration. -/
theorem source_bounded [Key κ] [Entity ε] {engine : Engine} {config : StoreConfig}
    {store : MappedStore κ ε} {source : Source κ ε}
    (hsource : engine.source config store = .ok source) {m : Memory} {pairs : List (κ × ε)}
    (hquery : ((store.query Memory.client {}).runFrom m).1 = .ok pairs) :
    let limit := source.format.query.limit
    let text? := config.properties.get? Job.inputLimit
    (∀ n, limit = some n ↔ ∃ text, text? = some text ∧ Job.WritesLimit text n) ∧
      (∀ capacity, capacity ≤ channelLimit →
        (source.feed Memory.client).Delivers capacity m (Query.cut ⟨limit⟩ pairs) m) ∧
      (∀ capacity, channelLimit < capacity →
        ((source.feed Memory.client).collect capacity).runFrom m =
          (.error (.panic (.oversizedChannel capacity)), m)) ∧
      source.job.get? Job.inputLimit = (limit.map Decimal.toText).or text? ∧
      (∀ {κ' ε' : Type} (other : Engine) (next : StoreConfig) (target : MappedStore κ' ε')
        (reseeded : Source κ' ε'), other.source next target = .ok reseeded →
        next.properties.get? Job.inputLimit = source.job.get? Job.inputLimit →
        reseeded.format.query.limit = limit) ∧
      ∀ name, name ∉ [Job.mappingName, Job.serializerName, Job.inputKeys, Job.inputEntities,
          Job.inputLimit] →
        source.job.get? name = config.properties.get? name := by
  intro limit text?
  have hlimit := limit_of_source hsource
  refine ⟨fun n => ?_, fun capacity hcapacity => ?_, fun capacity hcapacity => ?_,
    get?_inputLimit_of_source hsource, ?_, ?_⟩
  · rw [← Job.number?_eq_some_iff, ← hlimit]
  · refine Feed.delivers rfl ?_ hcapacity
    have hformat : source.format = ⟨store, ⟨limit⟩⟩ := by
      show source.format = ⟨store, ⟨source.format.query.limit⟩⟩
      rw [eq_ofStore_of_source hsource]
      rfl
    rw [Source.feed, InputFormat.pairs, hformat]
    exact MappedStore.runFrom_query_cut hquery _
  · exact Feed.collect_of_oversized hcapacity _ m
  · intro κ' ε' other next target reseeded hreseeded htext
    rw [limit_of_source hreseeded, Job.number?, htext]
    exact number?_job_of_source hsource
  · intro name hname
    simp only [List.mem_cons, List.not_mem_nil, or_false, not_or] at hname
    obtain ⟨hmapping, hserializer, hkeys, hentities, hinput⟩ := hname
    rw [eq_ofStore_of_source hsource, ← Job.get?_ofConfig config hmapping hserializer]
    exact InputFormat.get?_recorded _ _ hkeys hentities hinput

/-- A configuration that limits what is read to one pair. -/
def limitedConfig : StoreConfig where
  mapping := "docs"
  properties := .ofList [(Job.inputLimit, "\t+01 "), ("owner", "jobs")]

/-- The first of two pairs is collected through a channel that has room for one message only, and
the job records the limit without the sign, the leading zero and the blanks. -/
theorem source_bounded_limited :
    ∃ source : Source String Document,
      (ofTypes String Document).source limitedConfig (newKeyStore "docs") = .ok source ∧
      (((newKeyStore "docs").query Memory.client {}).runFrom overlappingCollections).1 =
        .ok [("a", ⟨.empty⟩), ("b", ⟨.empty⟩)] ∧
      ((source.feed Memory.client).collect 0).runFrom overlappingCollections =
        (.ok [("a", ⟨.empty⟩)], overlappingCollections) ∧
      source.job.get? Job.inputLimit = some "1" ∧ source.job.get? "owner" = some "jobs" := by
  obtain ⟨source, hsource⟩ : ∃ source : Source String Document,
      (ofTypes String Document).source limitedConfig (newKeyStore "docs") = .ok source := ⟨_, rfl⟩
  have hquery : (((newKeyStore "docs").query Memory.client {}).runFrom overlappingCollections).1 =
      .ok [("a", ⟨.empty⟩), ("b", ⟨.empty⟩)] := rfl
  obtain ⟨hwrites, hdelivers, -, hrecorded, -, hkept⟩ := source_bounded hsource hquery
  have hlimit : source.format.query.limit = some 1 := by
    refine (hwrites 1).2 ⟨"\t+01 ", rfl, "+01", ?_, ?_, by decide⟩
    · exact ⟨⟨['\t'], [' '], rfl, by simp [Text.isBlank], by simp [Text.isBlank]⟩,
        by simp [Text.isBlank], by simp [Text.isBlank]⟩
    · exact ⟨[0, 1], by decide, by decide, by decide, .inr rfl⟩
  rw [hlimit] at hrecorded hdelivers
  refine ⟨source, hsource, hquery, (hdelivers 0 (by decide)).collected, hrecorded, ?_⟩
  exact hkept "owner" (by decide)

/-- Two pairs can be read, but with one message too many for a channel none is collected. -/
theorem collect_ne_query :
    ∃ source : Source String Document,
      (ofTypes String Document).source { mapping := "docs" } (newKeyStore "docs") = .ok source ∧
      (((newKeyStore "docs").query Memory.client {}).runFrom overlappingCollections).1 =
        .ok [("a", ⟨.empty⟩), ("b", ⟨.empty⟩)] ∧
      ((source.feed Memory.client).collect 2305843009213693952).runFrom overlappingCollections =
        (.error (.panic (.oversizedChannel 2305843009213693952)), overlappingCollections) :=
  ⟨_, rfl, rfl, Feed.collect_of_oversized (by decide) _ _⟩

end Engine

end Bridge

end EntityStore
