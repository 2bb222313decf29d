import EntityStore.Proofs.Bridge.Engine

/-!
# What it takes to build a source or a sink

Sources and sinks, of a given store or of one that is opened for them, are built in the same way
(`Engine.construct`): the types of the direction are required, the store is opened, and its types
are compared with those of the direction. `Engine.Construction` says what comes of that, in terms of
what the opener gives and leaves, and `Engine.construction` that all four constructors are such.

The directory of a sink is one that could be created; without one there is no sink, though the store
has been opened and checked (`Engine.sink_eq_of_directory`). A state may be that of a client that
keeps a log of its calls. So what leaves the state as it was makes no call, and what leaves the
state of the opener makes no call after it.
-/

namespace EntityStore

/-- Both names have another character than blanks. -/
def TypePair.Named (types : TypePair) : Prop :=
  (∃ c ∈ types.key.toList, Text.isBlank c = false) ∧
    ∃ c ∈ types.entity.toList, Text.isBlank c = false

/-- Names are checked for being more than blanks. -/
theorem TypePair.isNamed_iff {types : TypePair} : types.isNamed = true ↔ types.Named := by
  simp [isNamed, Named, Text.isAllBlank]

namespace Bridge

variable {κ ε σ α : Type}

/-- The source that reads from a store. -/
def Source.ofStore (config : StoreConfig) (store : MappedStore κ ε) : Source κ ε :=
  ⟨(InputFormat.set (Job.ofConfig config) store {}).1,
    (InputFormat.set (Job.ofConfig config) store {}).2⟩

/-- The sink that writes to a store, with a directory of its own. -/
def Sink.ofStore (scratch : String) (config : StoreConfig) (store : MappedStore κ ε) :
    Sink κ ε where
  format := (OutputFormat.set (Job.ofConfig config) store).1
  job := (OutputFormat.set (Job.ofConfig config) store).2.insert Job.outputDirectory scratch
  scratch := scratch

namespace Engine

/-- Builds a source or a sink of a store that is opened for it, once the types of the direction are
there, and if the store persists them. -/
def construct (engine : Engine) (direction : Direction) (make : MappedStore κ ε → α)
    (opened : Call σ (MappedStore κ ε)) : Call σ α := do
  let _ ← Call.ofExcept ((engine.require direction).mapError .precondition)
  let store ← opened
  Call.ofExcept (((engine.check direction store).mapError .precondition).map fun _ => make store)

/-- What comes of building a source or a sink, in terms of what opening the store gives and leaves
from the same state: the result, and the state that is left. -/
structure Construction (engine : Engine) (direction : Direction) (make : MappedStore κ ε → α)
    (opened : Except Error (MappedStore κ ε) × σ) (s : σ) (outcome : Except Error α × σ) :
    Prop where
  /-- It succeeds exactly if both types of the direction are named and the store that is opened
  persists them. -/
  succeeds_iff : (∃ a, outcome.1 = .ok a) ↔
    ∃ store, engine.types? direction = some store.types ∧ store.types.Named ∧ opened.1 = .ok store
  /-- Without types the store is not opened. -/
  missing : engine.types? direction = none →
    outcome = (.error (.precondition (.missingTypes direction)), s)
  /-- With a blank name the store is not opened. -/
  blank : ∀ types, engine.types? direction = some types → ¬types.Named →
    outcome = (.error (.precondition (.blankTypes direction types)), s)
  /-- A failure to open the store is the result. -/
  unopened : ∀ types e, engine.types? direction = some types → types.Named → opened.1 = .error e →
    outcome = (.error e, opened.2)
  /-- A store of other types is refused. -/
  mismatched : ∀ types store, engine.types? direction = some types → types.Named →
    opened.1 = .ok store → store.types ≠ types →
    outcome = (.error (.precondition (.otherTypes direction store.types types)), opened.2)
  /-- A store of the types is used. -/
  built : ∀ store, engine.types? direction = some store.types → store.types.Named →
    opened.1 = .ok store → outcome = (.ok (make store), opened.2)

/-! ## Requiring types -/

variable {engine : Engine} {direction : Direction} {types : TypePair}

/-- Types that are not there are missing. -/
theorem require_of_missing (h : engine.types? direction = none) :
    engine.require direction = .error (.missingTypes direction) := by
  rw [require, h]

/-- Types with a blank name are refused. -/
theorem require_of_blank (h : engine.types? direction = some types) (hblank : ¬types.Named) :
    engine.require direction = .error (.blankTypes direction types) := by
  rw [← TypePair.isNamed_iff] at hblank
  rw [require, h]
  exact if_neg hblank

/-- Types that are named are there. -/
theorem require_of_named (h : engine.types? direction = some types) (hnamed : types.Named) :
    engine.require direction = .ok types := by
  rw [require, h]
  exact if_pos (TypePair.isNamed_iff.2 hnamed)

/-! ## Building -/

variable {make : MappedStore κ ε → α} {opened : Call σ (MappedStore κ ε)} {s s' : σ}

/-- Without the types nothing is opened. -/
theorem runFrom_construct_of_error {cause : PreconditionError}
    (h : engine.require direction = .error cause) :
    (engine.construct direction make opened).runFrom s = (.error (.precondition cause), s) := by
  rw [construct, h, Call.runFrom_bind]
  rfl

/-- A store of other types does not pass the check. -/
theorem check_of_ne {store : MappedStore κ ε} (h : engine.require direction = .ok types)
    (hne : store.types ≠ types) :
    engine.check direction store = .error (.otherTypes direction store.types types) := by
  rw [check, h]
  exact if_neg hne

/-- With the types the store is opened, and a failure to open it is the result. -/
theorem runFrom_construct_of_unopened {e : Error} (h : engine.require direction = .ok types)
    (hopen : opened.runFrom s = (.error e, s')) :
    (engine.construct direction make opened).runFrom s = (.error e, s') := by
  rw [construct, h, Call.runFrom_bind]
  simp only [Except.mapError, Call.runFrom_ofExcept, Call.runFrom_bind, hopen]

/-- A store that is opened is checked. -/
theorem runFrom_construct_of_opened {store : MappedStore κ ε}
    (h : engine.require direction = .ok types) (hopen : opened.runFrom s = (.ok store, s')) :
    (engine.construct direction make opened).runFrom s =
      (((engine.check direction store).mapError .precondition).map fun _ => make store, s') := by
  rw [construct, h, Call.runFrom_bind]
  simp only [Except.mapError, Call.runFrom_ofExcept, Call.runFrom_bind, hopen]

/-- Building a source or a sink comes to what it takes. -/
theorem construction_construct (engine : Engine) (direction : Direction)
    (make : MappedStore κ ε → α) (opened : Call σ (MappedStore κ ε)) (s : σ) :
    engine.Construction direction make (opened.runFrom s) s
      ((engine.construct direction make opened).runFrom s) := by
  have hmissing (h : engine.types? direction = none) :
      (engine.construct direction make opened).runFrom s =
        (.error (.precondition (.missingTypes direction)), s) :=
    runFrom_construct_of_error (require_of_missing h)
  have hblank (types) (h : engine.types? direction = some types) (hnot : ¬types.Named) :
      (engine.construct direction make opened).runFrom s =
        (.error (.precondition (.blankTypes direction types)), s) :=
    runFrom_construct_of_error (require_of_blank h hnot)
  have hunopened (types e) (h : engine.types? direction = some types) (hnamed : types.Named)
      (hopen : (opened.runFrom s).1 = .error e) :
      (engine.construct direction make opened).runFrom s = (.error e, (opened.runFrom s).2) :=
    runFrom_construct_of_unopened (require_of_named h hnamed) (Prod.ext hopen rfl)
  have hmismatched (types) (store : MappedStore κ ε) (h : engine.types? direction = some types)
      (hnamed : types.Named) (hopen : (opened.runFrom s).1 = .ok store)
      (hne : store.types ≠ types) :
      (engine.construct direction make opened).runFrom s =
        (.error (.precondition (.otherTypes direction store.types types)),
          (opened.runFrom s).2) := by
    have hrequire := require_of_named h hnamed
    rw [runFrom_construct_of_opened hrequire (Prod.ext hopen rfl), check_of_ne hrequire hne]
    rfl
  have hbuilt (store : MappedStore κ ε) (h : engine.types? direction = some store.types)
      (hnamed : store.types.Named) (hopen : (opened.runFrom s).1 = .ok store) :
      (engine.construct direction make opened).runFrom s =
        (.ok (make store), (opened.runFrom s).2) := by
    have hrequire := require_of_named h hnamed
    rw [runFrom_construct_of_opened hrequire (Prod.ext hopen rfl), check_of_require hrequire]
    rfl
  refine ⟨⟨?_, ?_⟩, hmissing, hblank, hunopened, hmismatched, hbuilt⟩
  · -- In every other case there is an error.
    rintro ⟨a, ha⟩
    cases htypes : engine.types? direction with
    | none => simp [hmissing htypes] at ha
    | some types =>
      by_cases hnamed : types.Named
      · cases hopen : (opened.runFrom s).1 with
        | error e => simp [hunopened types e htypes hnamed hopen] at ha
        | ok store =>
          by_cases hsame : store.types = types
          · exact ⟨store, by rw [hsame], hsame ▸ hnamed, rfl⟩
          · simp [hmismatched types store htypes hnamed hopen hsame] at ha
      · simp [hblank types htypes hnamed] at ha
  · rintro ⟨store, htypes, hnamed, hopen⟩
    exact ⟨make store, by rw [hbuilt store htypes hnamed hopen]⟩

/-! ## The four constructors -/

section

variable (engine : Engine) (config : StoreConfig) (scratch : String)
  (opener : StoreConfig → Call σ (MappedStore κ ε)) (store : MappedStore κ ε) (s : σ)

/-- The source of a store is the one that reads from it, if the store passes the check. -/
theorem source_eq : engine.source config store =
    ((engine.check .input store).mapError .precondition).map
      fun _ => Source.ofStore config store := by
  rw [source]
  cases engine.check .input store <;> rfl

/-- The sink of a store is the one that writes to it, if the store passes the check. -/
theorem sink_eq : engine.sink (.ok scratch) config store =
    ((engine.check .output store).mapError .precondition).map fun _ =>
      Sink.ofStore scratch config store := by
  rw [sink]
  cases engine.check .output store <;> rfl

/-- Without a directory there is no sink, even if the store passes the check. -/
theorem sink_eq_of_directory (reason : String) : engine.sink (.error reason) config store =
    ((engine.check .output store).mapError .precondition).bind fun _ =>
      .error (.directory reason) := by
  rw [sink]
  cases engine.check .output store <;> rfl

/-- A source of a store that is opened is built as sources and sinks are. -/
theorem openSource_eq : engine.openSource opener config =
    engine.construct .input (Source.ofStore config) (opener config) := by
  rw [openSource, construct]
  simp only [source_eq]

/-- A sink of a store that is opened is built as sources and sinks are. -/
theorem openSink_eq : engine.openSink (.ok scratch) opener config =
    engine.construct .output (Sink.ofStore scratch config) (opener config) := by
  rw [openSink, construct]
  simp only [sink_eq]

/-- A store that is there is only checked. -/
theorem runFrom_construct_pure (direction : Direction) (make : MappedStore κ ε → α) :
    (engine.construct direction make (pure store)).runFrom s =
      (((engine.check direction store).mapError .precondition).map fun _ => make store, s) := by
  cases h : engine.require direction with
  | error cause =>
    rw [runFrom_construct_of_error h, check, h]
    rfl
  | ok types => exact runFrom_construct_of_opened h rfl

/-- Whatever the types of an engine are, and whatever opening a store gives and does: sources and
sinks are built exactly if the two types of their own direction are named, the store can be opened
and it persists these types. Without the types nothing is opened and the state stays as it was; else
the state is the one that opening the store leaves, whether the store is used or not, and a failure
to open it is the result. A store that is there already needs no state. The types of the other
direction do not matter. -/
theorem construction :
    engine.Construction .input (Source.ofStore config) ((opener config).runFrom s) s
        ((engine.openSource opener config).runFrom s) ∧
      engine.Construction .output (Sink.ofStore scratch config) ((opener config).runFrom s) s
        ((engine.openSink (.ok scratch) opener config).runFrom s) ∧
      engine.Construction .input (Source.ofStore config) (.ok store, s) s
        (engine.source config store, s) ∧
      engine.Construction .output (Sink.ofStore scratch config) (.ok store, s) s
        (engine.sink (.ok scratch) config store, s) ∧
      ∀ other : Option TypePair,
        { engine with output := other }.openSource opener config =
            engine.openSource opener config ∧
          { engine with input := other }.openSink (.ok scratch) opener config =
            engine.openSink (.ok scratch) opener config ∧
          { engine with output := other }.source config store = engine.source config store ∧
          { engine with input := other }.sink (.ok scratch) config store =
            engine.sink (.ok scratch) config store := by
  refine ⟨?_, ?_, ?_, ?_, fun _ => ⟨rfl, rfl, rfl, rfl⟩⟩
  · rw [openSource_eq]
    exact construction_construct _ _ _ _ s
  · rw [openSink_eq]
    exact construction_construct _ _ _ _ s
  · rw [source_eq, ← runFrom_construct_pure]
    exact construction_construct _ _ _ (pure store) s
  · rw [sink_eq, ← runFrom_construct_pure]
    exact construction_construct _ _ _ (pure store) s

end

/-- An engine that reads documents and has only one name for what it writes. -/
def halfNamed : Engine where
  input := some ⟨"String", "polystore.Document"⟩
  output := some ⟨"String", " "⟩

/-- Opens a store of documents by creating its schema. -/
def createDocs (_ : StoreConfig) : Call Memory (MappedStore String Document) := do
  (newKeyStore "docs").createSchema Memory.client
  return newKeyStore "docs"

/-- There is a source, and the schema of its store is created; for a sink nothing is done. -/
theorem construction_halfNamed :
    (halfNamed.openSource createDocs { mapping := "docs" }).runFrom .empty =
        (.ok (.ofStore { mapping := "docs" } (newKeyStore "docs")),
          .ofList [("app", .ofList [("docs", .empty)])]) ∧
      (halfNamed.openSink (.ok "/tmp/sink") createDocs { mapping := "docs" }).runFrom .empty =
        (.error (.precondition (.blankTypes .output ⟨"String", " "⟩)), .empty) := by
  have hnamed : (newKeyStore "docs").types.Named := TypePair.isNamed_iff.1 rfl
  have hblank : ¬(⟨"String", " "⟩ : TypePair).Named := by
    rw [← TypePair.isNamed_iff]
    decide
  obtain ⟨hsource, hsink, -⟩ := construction halfNamed { mapping := "docs" } "/tmp/sink" createDocs
    (newKeyStore "docs") .empty
  exact ⟨hsource.built (newKeyStore "docs") rfl hnamed rfl, hsink.blank _ rfl hblank⟩

end Engine

end Bridge

end EntityStore
