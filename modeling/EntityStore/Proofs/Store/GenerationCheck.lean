import EntityStore.Entity.Untyped
import EntityStore.Proofs.Mapping.InForce
import EntityStore.Proofs.Memory.History
import EntityStore.Proofs.Memory.Put
import EntityStore.Proofs.Store.Issued

/-!
# Stores that check the generation never write over a record

A mapping document can ask for a check of the generation, but it has no way to say which generation
is expected, and so writes expect zero. No stored record has this generation, as long as the
counter has not come round (`Memory.generation_ne_zero`), and none is below it. So a store whose
mapping checks the generation can create records and nothing else: every write of a stored record
fails (`MappedStore.put_of_checksGeneration`).

A collection that only such stores write to therefore keeps what was written first. This is an
invariant of runs: at each address the history is empty and there is no record, or it has a single
write and the record is what this write has left (`Memory.WrittenOnce`). It needs no bound on the
length of the run, since no counter ever goes beyond one.
-/

namespace EntityStore

/-! ## Documents, stores and operations that check the generation -/

/-- The last write policy of the document asks for a check of the generation, of either kind. -/
def Mapping.Document.ChecksGeneration (d : Mapping.Document) : Prop :=
  ∃ declaration text, d.lastPolicy? "write" = some declaration ∧
    declaration.generation = some text ∧
    (GenerationPolicy.ofText text = .expectEqual ∨ GenerationPolicy.ofText text = .expectGreater)

/-- The mapping of the store comes from a document that asks for a check of the generation. -/
def MappedStore.ChecksGeneration {κ ε : Type} (store : MappedStore κ ε) : Prop :=
  ∃ (document : Mapping.Document) (keyType entityType : String),
    document.resolve keyType entityType = .ok store.mapping ∧ document.ChecksGeneration

/-- If the operation writes into the collection, it is one of a store that checks the generation. -/
inductive Operation.Guarded (ns name : String) (operation : Operation) : Prop where
  /-- The operation does not write into the collection. -/
  | other (h : ∀ key bins policy, operation = .put key bins policy →
      ¬(key.ns = ns ∧ key.collection = name))
  /-- A store that checks the generation issues the operation. -/
  | issued {κ ε : Type} [Key κ] {store : MappedStore κ ε} (hchecks : store.ChecksGeneration)
      (hissues : store.Issues operation)

/-- The policy checks the generation, and expects zero. -/
structure WritePolicy.ExpectsZero (policy : WritePolicy) : Prop where
  /-- There is a check. -/
  checks : policy.generation ≠ .ignore
  /-- Zero is expected. -/
  expected : policy.expectedGeneration = 0

/-- The writes of a store that checks the generation expect zero. -/
theorem MappedStore.ChecksGeneration.expectsZero {κ ε : Type} {store : MappedStore κ ε}
    (h : store.ChecksGeneration) : store.mapping.writePolicy.ExpectsZero := by
  obtain ⟨document, keyType, entityType, hresolve, declaration, text, hlast, htext, hkind⟩ := h
  obtain ⟨c, ns, -, -, hmapping⟩ := Mapping.Document.resolve_eq_ok_iff.1 hresolve
  have hpolicy : store.mapping.writePolicy = declaration.writePolicy := by
    rw [hmapping]
    simp only [Mapping.Document.writePolicy, hlast, Option.map_some, Option.getD_some]
  rw [hpolicy]
  refine ⟨?_, rfl⟩
  simp only [Mapping.PolicyDeclaration.writePolicy, htext, Option.map_some, Option.getD_some]
  rcases hkind with hkind | hkind <;> rw [hkind] <;> exact nofun

/-- A record that counts at least one write does not pass a check against zero. -/
theorem WritePolicy.ExpectsZero.not_passes {policy : WritePolicy} (h : policy.ExpectsZero)
    {stored : Record} (hstored : stored.generation ≠ 0) : ¬policy.Passes stored := by
  rintro (hignore | ⟨-, hequal⟩ | ⟨-, hgreater⟩)
  · exact h.checks hignore
  · exact hstored (hequal.symm.trans h.expected)
  · rw [h.expected] at hgreater
    exact UInt32.not_lt_zero hgreater

/-- A guarded write into the collection expects zero. -/
theorem Operation.Guarded.expectsZero {ns name : String} {key : RecordKey} {bins : Bins}
    {policy : WritePolicy} (h : Guarded ns name (.put key bins policy)) (hns : key.ns = ns)
    (hname : key.collection = name) : policy.ExpectsZero := by
  cases h with
  | other h => exact absurd ⟨hns, hname⟩ (h key bins policy rfl)
  | issued hchecks hissues =>
    cases hissues
    exact hchecks.expectsZero

namespace Memory

variable {key : RecordKey} {operations : List Operation} {operation : Operation}

/-! ## Stored generations -/

/-- In a run with fewer writes than there are generations no record has the generation zero. -/
theorem generation_ne_zero (hputs : operations.countP Operation.isPut < 2 ^ 32) {record : Record}
    (h : (after .empty operations).record? key = some record) : record.generation ≠ 0 := by
  have hleft := accounts_history key operations
  rw [h] at hleft
  obtain ⟨hgeneration, -, earlier, base, later, hsplit, -⟩ :
    record.IsLeftBy key (history .empty key operations) := hleft
  have hlength : (history .empty key operations).length < 2 ^ 32 :=
    Nat.lt_of_le_of_lt (length_history_le .empty key operations) hputs
  intro hzero
  have hnat : (history .empty key operations).length = 0 := by
    rw [← UInt32.toNat_ofNat_of_lt' hlength, ← hgeneration, hzero]
    rfl
  rw [hsplit, List.length_append, List.length_cons] at hnat
  omega

/-! ## Records that are written once -/

/-- There is no record and has been no write, or the record is that of the only write. -/
def WrittenOnce (history : List Write) : Option Record → Prop
  | some record => ∃ w, history = [w] ∧ record.bins = w.bins ∧ record.generation = 1
  | none => history = []

/-- A guarded operation leaves a record that is written once, or none. -/
theorem writtenOnce_concat {m : Memory} (hguarded : operation.Guarded key.ns key.collection)
    (h : WrittenOnce (m.history key operations) ((m.after operations).record? key)) :
    WrittenOnce (m.history key (operations ++ [operation]))
      ((m.after (operations ++ [operation])).record? key) := by
  rw [after_append]
  show WrittenOnce _ (((m.after operations).next operation).record? key)
  cases touch (m.after operations) key operation with
  | removed hremoves hwrite hrecord =>
    rw [history_concat_of_removes _ _ hremoves, hrecord]
    rfl
  | kept hremoves hwrite hrecord =>
    rw [history_concat _ _ hremoves, hwrite, hrecord, Option.toList_none, List.append_nil]
    exact h
  | @written w record hremoves hwrite hafter hrecord =>
    rw [history_concat _ _ hremoves, hwrite, hrecord, Option.toList_some]
    cases hstored : (m.after operations).record? key with
    | none =>
      rw [hstored] at h hafter
      obtain ⟨hgeneration, -, hbins⟩ := Record.afterWrite_none_eq_ok hafter
      have hempty : m.history key operations = [] := h
      exact ⟨w, by rw [hempty, List.nil_append], hbins, hgeneration⟩
    | some stored =>
      -- The record counts one write, so the check against zero has refused this one.
      rw [hstored] at h hafter
      obtain ⟨-, -, -, hgeneration⟩ := h
      obtain rfl := eq_put_of_writeOf? hwrite
      have hnonzero : stored.generation ≠ 0 := by
        rw [hgeneration]
        decide
      obtain ⟨haccepts, -⟩ := Record.afterWrite_some_eq_ok hafter
      exact absurd (WritePolicy.accepts_iff_passes.1 haccepts)
        ((hguarded.expectsZero rfl rfl).not_passes hnonzero)

/-- In a run of guarded operations a record that was not there at first is written once. -/
theorem writtenOnce_after {m : Memory} (h : m.record? key = none)
    (hguarded : ∀ operation ∈ operations, operation.Guarded key.ns key.collection) :
    WrittenOnce (m.history key operations) ((m.after operations).record? key) := by
  induction operations using List.reverseRecOn with
  | nil =>
    show WrittenOnce [] (m.record? key)
    rw [h]
    rfl
  | append_singleton operations operation ih =>
    refine writtenOnce_concat (hguarded operation (by simp)) (ih fun other hmem => ?_)
    exact hguarded other (List.mem_append_left _ hmem)

/-! ## Requests are runs -/

/-- What the memory client does on a call is the run of an operation, or nothing. -/
theorem exists_after_of_answer (call : ClientCall) (m : Memory) :
    ∃ operations, (∀ operation ∈ operations, call = .execute operation) ∧
      (client.answer call m).2 = m.after operations := by
  cases call with
  | execute operation => exact ⟨[operation], by simp, rfl⟩
  | metadata ns => exact ⟨[], by simp, rfl⟩
  | close => exact ⟨[], by simp, rfl⟩

/-- What the memory client does in a dialogue is a run of operations that it is asked for. -/
theorem exists_after_of_dialogue {calls : List ClientCall} {m m' : Memory}
    {exchanges : List Exchange} {heard : Except StoreError (List Reply)}
    (h : client.Dialogue calls m exchanges heard m') :
    ∃ operations, (∀ operation ∈ operations, .execute operation ∈ calls) ∧
      m' = m.after operations := by
  induction h with
  | nil m => exact ⟨[], by simp, rfl⟩
  | @failed call m m' e hanswer rest =>
    obtain ⟨operations, hcall, hafter⟩ := exists_after_of_answer call m
    rw [hanswer] at hafter
    exact ⟨operations, fun operation hmem => hcall operation hmem ▸ List.mem_cons_self, hafter⟩
  | @replied call m m₁ m' reply rest exchanges heard hanswer _ ih =>
    obtain ⟨operations, hcall, hafter⟩ := exists_after_of_answer call m
    obtain ⟨later, hlater, rfl⟩ := ih
    rw [hanswer] at hafter
    obtain rfl : m₁ = m.after operations := hafter
    refine ⟨operations ++ later, fun operation hmem => ?_, (after_append m operations later).symm⟩
    rcases List.mem_append.1 hmem with hmem | hmem
    · exact hcall operation hmem ▸ List.mem_cons_self
    · exact List.mem_cons_of_mem _ (hlater operation hmem)

end Memory

/-! ## Stores that check the generation -/

namespace MappedStore

variable {κ ε : Type} [Key κ] [Entity ε] {store : MappedStore κ ε} {m : Memory}

/-- Whatever a store is asked for, it executes operations that it issues. -/
theorem exists_after_of_respond (store : MappedStore κ ε) (request : Request κ ε) (m : Memory) :
    ∃ operations, (∀ operation ∈ operations, store.Issues operation) ∧
      ((store.respond Memory.client request).runFrom m).2 = m.after operations := by
  obtain ⟨_, _, m', _, hdialogue, -, hrun, -⟩ := conducts_respond Memory.client store request m []
  obtain ⟨operations, hplan, hafter⟩ := Memory.exists_after_of_dialogue hdialogue
  refine ⟨operations, fun operation hmem => concerns_of_mem_plan (hplan operation hmem), ?_⟩
  rw [hrun, ← hafter]

/-- A store that checks the generation refuses to write over a record of any generation but
zero. -/
theorem put_of_checksGeneration (hchecks : store.ChecksGeneration) {key : κ} {entity : ε}
    {bins : Bins} {record : Record} (hbins : store.encode entity = .ok bins)
    (hrecord : m.record? (store.addressOf key) = some record) (hnonzero : record.generation ≠ 0) :
    (store.put Memory.client key entity).runFrom m =
      (.error (.store (.generationMismatch (store.addressOf key).display record.generation 0)),
        m) := by
  have hpolicy := hchecks.expectsZero
  have hrefuses := Memory.RefusesPut.mismatch hrecord (hpolicy.not_passes hnonzero)
  rw [put_of_encode hbins, Memory.runFrom_perform_bind_of_error (hrefuses.run_eq bins),
    hpolicy.expected]

/-- A store that checks the generation never writes over a record. After fewer writes than there are
generations, of whatever kind and whoever made them, it refuses each entity with bins for a key that
has a record, tells the stored generation and that it expects zero, and leaves everything as it was.
What it does upon any request are operations that it issues; and if only such stores write into a
collection, from when it has no records, then each record in it has the bins of the only write since
it was last removed, and counts one write. -/
theorem never_overwrites (store : MappedStore κ ε) (hchecks : store.ChecksGeneration) :
    (∀ operations : List Operation, operations.countP Operation.isPut < 2 ^ 32 →
      ∀ key entity bins record, store.encode entity = .ok bins →
      (Memory.after .empty operations).record? (store.addressOf key) = some record →
      (store.put Memory.client key entity).runFrom (Memory.after .empty operations) =
        (.error (.store (.generationMismatch (store.addressOf key).display record.generation 0)),
          Memory.after .empty operations)) ∧
    (∀ request m, ∃ operations,
      (∀ operation ∈ operations, ∀ ns name, operation.Guarded ns name) ∧
        ((store.respond Memory.client request).runFrom m).2 = m.after operations) ∧
    ∀ (m : Memory) (ns name : String), (∀ digest, m.record? ⟨ns, name, digest⟩ = none) →
      ∀ operations : List Operation, (∀ operation ∈ operations, operation.Guarded ns name) →
      ∀ digest record, (m.after operations).record? ⟨ns, name, digest⟩ = some record →
      ∃ w, m.history ⟨ns, name, digest⟩ operations = [w] ∧ record.bins = w.bins ∧
        record.generation = 1 := by
  refine ⟨fun operations hputs key entity bins record hbins hrecord => ?_, fun request m => ?_,
    fun m ns name hempty operations hguarded digest record hrecord => ?_⟩
  · exact put_of_checksGeneration hchecks hbins hrecord (Memory.generation_ne_zero hputs hrecord)
  · obtain ⟨operations, hissues, hafter⟩ := store.exists_after_of_respond request m
    exact ⟨operations, fun operation hmem _ _ => .issued hchecks (hissues operation hmem), hafter⟩
  · have honce := Memory.writtenOnce_after (hempty digest) hguarded
    rw [hrecord] at honce
    exact honce

/-- Writes that have to be newer than what they write over. -/
def newerOnly : Mapping.PolicyDeclaration where
  kind := "write"
  generation := some "gt"

/-- The place of drafts. -/
def draftsClass : Mapping.ClassDeclaration where
  entityType := some "polystore.Document"
  keyType := some "String"
  ns := some "app"
  collection := some "drafts"

/-- A document whose second write policy checks the generation. -/
def draftsDocument : Mapping.Document where
  policies := [{ kind := "write", existsAction := some "replace" }, newerOnly]
  classes := [draftsClass]

/-- The store of drafts that the document describes. -/
def draftsStore : MappedStore String Document where
  mapping := ⟨"String", "polystore.Document", "app", "drafts", .empty, {},
    { generation := .expectGreater }⟩
  serializer := .native

/-- The store of drafts checks the generation, as the last write policy of its document asks for. -/
theorem checksGeneration_draftsStore : draftsStore.ChecksGeneration := by
  have hlast : draftsDocument.lastPolicy? "write" = some newerOnly := by decide +kernel
  have hread : draftsDocument.readPolicy = {} := by decide +kernel
  have hwrite : draftsDocument.writePolicy = { generation := .expectGreater } := by
    decide +kernel
  have hresolve :
      draftsDocument.resolve "String" "polystore.Document" = .ok draftsStore.mapping := by
    have hns : Text.present? draftsClass.ns = some "app" := by decide
    have hcollection : Text.present? draftsClass.collection = some "drafts" := by decide
    refine Mapping.Document.resolve_eq_ok_iff.2 ⟨draftsClass, "app", by decide, hns, ?_⟩
    rw [hcollection, hread, hwrite]
    rfl
  exact ⟨_, _, _, hresolve, newerOnly, "gt", hlast, rfl, .inr (by decide)⟩

/-- A run that writes a record of drafts twice, without any check. -/
def draftsWrittenTwice : List Operation :=
  [.createNamespace "app", .createCollection "app" "drafts",
    .put (draftsStore.addressOf "a") .empty {}, .put (draftsStore.addressOf "a") .empty {}]

/-- A run of the store of drafts, which writes a record, fails to write over it, removes it, and
writes it again. -/
def draftsRun : List Operation :=
  let write : Operation := .put (draftsStore.addressOf "a") .empty draftsStore.mapping.writePolicy
  [.createNamespace "app", .createCollection "app" "drafts", write, write,
    .delete (draftsStore.addressOf "a") draftsStore.mapping.writePolicy, write]

/-- The store of drafts does not write over a record that has been written twice, and its own
record counts the one write since it was removed. -/
theorem never_overwrites_drafts :
    draftsStore.ChecksGeneration ∧
      (draftsStore.put Memory.client "a" ⟨.empty⟩).runFrom (.after .empty draftsWrittenTwice) =
        (.error (.store (.generationMismatch "app/drafts/\"a\"" 2 0)),
          .after .empty draftsWrittenTwice) ∧
      ∃ record, (Memory.after .empty draftsRun).record? ⟨"app", "drafts", "\"a\""⟩ = some record ∧
        (Memory.history .empty ⟨"app", "drafts", "\"a\""⟩ draftsRun).length = 1 ∧
        record.generation = 1 := by
  have hchecks := checksGeneration_draftsStore
  obtain ⟨hrefuses, -, hkeeps⟩ := never_overwrites draftsStore hchecks
  refine ⟨hchecks, ?_, ?_⟩
  · exact hrefuses draftsWrittenTwice (by decide) "a" ⟨.empty⟩ .empty _ rfl rfl
  · obtain ⟨record, hrecord⟩ : ∃ record,
        (Memory.after .empty draftsRun).record? ⟨"app", "drafts", "\"a\""⟩ = some record := ⟨_, rfl⟩
    have hguarded : ∀ operation ∈ draftsRun, operation.Guarded "app" "drafts" := by
      intro operation hmem
      refine .issued hchecks ?_
      simp only [draftsRun, List.mem_cons, List.not_mem_nil, or_false] at hmem
      rcases hmem with rfl | rfl | rfl | rfl | rfl | rfl
      · exact .createNamespace
      · exact .createCollection
      · exact .put "a" .empty
      · exact .put "a" .empty
      · exact .delete "a"
      · exact .put "a" .empty
    obtain ⟨w, hhistory, -, hgeneration⟩ :=
      hkeeps .empty "app" "drafts" (fun _ => rfl) draftsRun hguarded "\"a\"" record hrecord
    exact ⟨record, hrecord, by rw [hhistory]; rfl, hgeneration⟩

end MappedStore

end EntityStore
