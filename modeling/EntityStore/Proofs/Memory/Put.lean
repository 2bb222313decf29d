import EntityStore.Proofs.Memory.Address
import Mathlib.Algebra.Group.Nat.Defs

/-!
# When a write is accepted, and what it changes

A write is accepted if its namespace and its collection are there, a stored record passes the
generation check, and the action is for the case that there is a record or that there is none
(`Memory.AcceptsPut`). Otherwise it is refused for the first of these conditions that fails
(`Memory.RefusesPut`). There is no third case (`Memory.acceptsPut_or_refusesPut`), and the two
exclude one another (`Memory.AcceptsPut.not_refusesPut`).

A write that succeeds changes one record (`Memory.ChangesOnly`), which gets the bins, the generation
and the user key that `Write.Leaves` says. `Memory.execute_put` has all of this together.
-/

namespace EntityStore

/-! ## Conditions -/

/-- A stored record passes the generation check of the policy. -/
def WritePolicy.Passes (policy : WritePolicy) (stored : Record) : Prop :=
  policy.generation = .ignore ∨
    policy.generation = .expectEqual ∧ policy.expectedGeneration = stored.generation ∨
    policy.generation = .expectGreater ∧ stored.generation < policy.expectedGeneration

/-- The action is for the case that there is a record, or for the case that there is none. -/
def ExistsAction.Admits (action : ExistsAction) (stored : Option Record) : Prop :=
  (action = .createOnly → stored = none) ∧
    (action = .updateOnly ∨ action = .replaceOnly → stored ≠ none)

/-- The generation check is made as the policy says. -/
theorem WritePolicy.accepts_iff_passes {policy : WritePolicy} {stored : Record} :
    policy.accepts stored = true ↔ policy.Passes stored := by
  unfold accepts Passes
  cases policy.generation <;> simp [eq_comm]

/-- The action makes a record of what is stored exactly if it is for this case. -/
theorem ExistsAction.exists_apply_iff (action : ExistsAction) (key : RecordKey) (bins : Bins)
    (stored : Option Record) :
    (∃ record, action.apply key bins stored = .ok record) ↔ action.Admits stored := by
  cases stored <;> cases action <;> simp [apply, Admits]

namespace Memory

variable {m : Memory} {key : RecordKey} {policy : WritePolicy} {e e' : StoreError}

/-- The conditions of a write: there is a collection for the record, a stored record passes the
generation check, and the action is for the case. -/
structure AcceptsPut (m : Memory) (key : RecordKey) (policy : WritePolicy) : Prop where
  /-- The namespace exists, and the collection in it. -/
  collection : ∃ collections, m.get? key.ns = some collections ∧
    ∃ records, collections.get? key.collection = some records
  /-- A stored record passes the generation check. -/
  generation : ∀ stored, m.record? key = some stored → policy.Passes stored
  /-- The action is for what is stored. -/
  action : policy.existsAction.Admits (m.record? key)

/-- Why a write is refused: the first condition that fails. -/
inductive RefusesPut (m : Memory) (key : RecordKey) (policy : WritePolicy) : StoreError → Prop where
  /-- The namespace does not exist. -/
  | noNamespace (hns : m.get? key.ns = none) :
    RefusesPut m key policy (.namespaceNotFound key.ns)
  /-- The namespace exists, but not the collection in it. -/
  | noCollection {collections : Namespace} (hns : m.get? key.ns = some collections)
    (hcollection : collections.get? key.collection = none) :
    RefusesPut m key policy (.collectionNotFound key.ns key.collection)
  /-- There is a record, and it does not pass the generation check. -/
  | mismatch {stored : Record} (hstored : m.record? key = some stored)
    (hfails : ¬policy.Passes stored) :
    RefusesPut m key policy
      (.generationMismatch key.display stored.generation policy.expectedGeneration)
  /-- There is a record that passes the check, and the action is for a missing one. -/
  | present {stored : Record} (hstored : m.record? key = some stored)
    (hpasses : policy.Passes stored) (haction : policy.existsAction = .createOnly) :
    RefusesPut m key policy (.recordExists key.display)
  /-- There is no record in the collection, and the action is for a stored one. -/
  | absent {collections : Namespace} {records : Collection}
    (hns : m.get? key.ns = some collections)
    (hcollection : collections.get? key.collection = some records)
    (hstored : m.record? key = none)
    (haction : policy.existsAction = .updateOnly ∨ policy.existsAction = .replaceOnly) :
    RefusesPut m key policy (.recordNotFound key.display)

/-! ## Acceptance and refusal -/

/-- Where there is a record, there is a collection for it. -/
theorem exists_collection_of_record? {stored : Record} (h : m.record? key = some stored) :
    ∃ records, m.collection? key.ns key.collection = some records := by
  rw [record?_eq] at h
  obtain ⟨records, hrecords, -⟩ := Option.bind_eq_some_iff.1 h
  exact ⟨records, hrecords⟩

/-- In a collection that is there, a write depends on the record at its address. -/
theorem run_put_of_collection? {records : Collection}
    (h : m.collection? key.ns key.collection = some records) (bins : Bins) (policy : WritePolicy) :
    m.run (.put key bins policy) =
      (Record.afterWrite key bins policy (m.record? key)).map fun record =>
        (.done, m.setCollection key.ns key.collection (records.insert key.digest record)) := by
  rw [run_put h, record?_eq, h, Option.bind_some]

/-- A write that is refused fails for the reason of the refusal. -/
theorem RefusesPut.run_eq (h : m.RefusesPut key policy e) (bins : Bins) :
    m.run (.put key bins policy) = .error e := by
  cases h with
  | noNamespace hns =>
    rw [run, findCollection_of_absent hns]
    rfl
  | noCollection hns hcollection =>
    rw [run, findCollection_of_get? hns hcollection]
    rfl
  | mismatch hstored hfails =>
    obtain ⟨records, hrecords⟩ := exists_collection_of_record? hstored
    have haccepts := mt WritePolicy.accepts_iff_passes.1 hfails
    rw [run_put_of_collection? hrecords, hstored, Record.afterWrite_some, if_neg haccepts]
    rfl
  | present hstored hpasses haction =>
    obtain ⟨records, hrecords⟩ := exists_collection_of_record? hstored
    have haccepts := WritePolicy.accepts_iff_passes.2 hpasses
    rw [run_put_of_collection? hrecords, hstored, Record.afterWrite_some, if_pos haccepts, haction]
    rfl
  | absent hns hcollection hstored haction =>
    have hrecords := collection?_eq_some_iff.2 ⟨_, hns, hcollection⟩
    rw [run_put_of_collection? hrecords, hstored, Record.afterWrite_none]
    rcases haction with haction | haction <;> rw [haction] <;> rfl

/-- A write that meets the conditions leaves a record. -/
theorem AcceptsPut.exists_afterWrite (h : m.AcceptsPut key policy) (bins : Bins) :
    ∃ record, Record.afterWrite key bins policy (m.record? key) = .ok record := by
  obtain ⟨record, happly⟩ :=
    (ExistsAction.exists_apply_iff policy.existsAction key bins (m.record? key)).2 h.action
  cases hstored : m.record? key with
  | none =>
    rw [hstored] at happly
    rw [Record.afterWrite_none, happly]
    exact ⟨_, rfl⟩
  | some stored =>
    have haccepts := WritePolicy.accepts_iff_passes.2 (h.generation stored hstored)
    rw [hstored] at happly
    rw [Record.afterWrite_some, if_pos haccepts, happly]
    exact ⟨_, rfl⟩

/-- A write meets the conditions or is refused. -/
theorem acceptsPut_or_refusesPut (m : Memory) (key : RecordKey) (policy : WritePolicy) :
    m.AcceptsPut key policy ∨ ∃ e, m.RefusesPut key policy e := by
  cases hns : m.get? key.ns with
  | none => exact .inr ⟨_, .noNamespace hns⟩
  | some collections =>
    cases hcollection : collections.get? key.collection with
    | none => exact .inr ⟨_, .noCollection hns hcollection⟩
    | some records =>
      have hthere : ∃ collections, m.get? key.ns = some collections ∧
          ∃ records, collections.get? key.collection = some records :=
        ⟨collections, hns, records, hcollection⟩
      cases hstored : m.record? key with
      | none =>
        by_cases haction : policy.existsAction = .updateOnly ∨ policy.existsAction = .replaceOnly
        · exact .inr ⟨_, .absent hns hcollection hstored haction⟩
        · refine .inl ⟨hthere, ?_, ?_⟩
          · simp [hstored]
          · exact ⟨fun _ => hstored, fun hneeds => absurd hneeds haction⟩
      | some stored =>
        by_cases hpasses : policy.Passes stored
        · by_cases haction : policy.existsAction = .createOnly
          · exact .inr ⟨_, .present hstored hpasses haction⟩
          · refine .inl ⟨hthere, ?_, ?_⟩
            · simpa [hstored] using hpasses
            · exact ⟨fun hcreates => absurd hcreates haction, fun _ => by simp [hstored]⟩
        · exact .inr ⟨_, .mismatch hstored hpasses⟩

/-- A write succeeds if it meets the conditions. -/
theorem AcceptsPut.exists_run (h : m.AcceptsPut key policy) (bins : Bins) :
    ∃ records record, m.collection? key.ns key.collection = some records ∧
      Record.afterWrite key bins policy (m.record? key) = .ok record ∧
      m.run (.put key bins policy) =
        .ok (.done, m.setCollection key.ns key.collection (records.insert key.digest record)) := by
  obtain ⟨collections, hns, records, hcollection⟩ := h.collection
  have hrecords := collection?_eq_some_iff.2 ⟨_, hns, hcollection⟩
  obtain ⟨record, hafter⟩ := h.exists_afterWrite bins
  refine ⟨records, record, hrecords, hafter, ?_⟩
  rw [run_put_of_collection? hrecords, hafter]
  rfl

/-- A write that meets the conditions is not refused. -/
theorem AcceptsPut.not_refusesPut (h : m.AcceptsPut key policy) : ¬m.RefusesPut key policy e := by
  intro hrefuses
  obtain ⟨records, record, -, -, hrun⟩ := h.exists_run .empty
  have herror := hrefuses.run_eq .empty
  rw [hrun] at herror
  cases herror

/-- A write is refused for one reason. -/
theorem RefusesPut.unique (h : m.RefusesPut key policy e) (h' : m.RefusesPut key policy e') :
    e = e' :=
  Except.error.inj ((h.run_eq .empty).symm.trans (h'.run_eq .empty))

end Memory

/-! ## Effects -/

/-- What a record is after a write, by what was stored before. -/
structure Write.Leaves (w : Write) (key : RecordKey) (stored : Option Record) (record : Record) :
    Prop where
  /-- A record that was missing has the bins of the write, and counts one write. -/
  created : stored = none → record.bins = w.bins ∧ record.generation = 1
  /-- An update lays the bins of the write over the stored ones. -/
  updated : ∀ old, stored = some old →
    w.policy.existsAction = .update ∨ w.policy.existsAction = .updateOnly →
    ∀ bin, record.bins.get? bin = (w.bins.get? bin).or (old.bins.get? bin)
  /-- Another action puts the bins of the write in place of the stored ones. -/
  replaced : ∀ old, stored = some old →
    ¬(w.policy.existsAction = .update ∨ w.policy.existsAction = .updateOnly) →
    record.bins = w.bins
  /-- A record that was stored counts one write more, modulo the number of generations. -/
  counted : ∀ old, stored = some old →
    record.generation.toNat = (old.generation.toNat + 1) % 2 ^ 32
  /-- The user key is there if the write sends it, or if it was there before. -/
  key : record.key = if w.sendsKey then some key.digest else stored.bind (·.key)

/-- A write over a stored record that succeeds is not for missing records only. -/
theorem Record.ne_createOnly_of_afterWrite {key : RecordKey} {bins : Bins} {policy : WritePolicy}
    {old record : Record} (h : afterWrite key bins policy (some old) = .ok record) :
    policy.existsAction ≠ .createOnly := by
  intro haction
  rw [afterWrite_some, haction] at h
  split at h <;> cases h

/-- A write that succeeds leaves the record that its policy says. -/
theorem Record.leaves_of_afterWrite {key : RecordKey} {w : Write} {stored : Option Record}
    {record : Record} (h : afterWrite key w.bins w.policy stored = .ok record) :
    w.Leaves key stored record := by
  cases stored with
  | none =>
    obtain ⟨hgeneration, hkey, hbins⟩ := afterWrite_none_eq_ok h
    refine ⟨fun _ => ⟨hbins, hgeneration⟩, ?_, ?_, ?_, hkey⟩ <;> simp
  | some old =>
    have hcreates := ne_createOnly_of_afterWrite h
    obtain ⟨-, hgeneration, hkey, hbins⟩ := afterWrite_some_eq_ok h
    refine ⟨by simp, ?_, ?_, ?_, hkey⟩
    · rintro _ ⟨⟩ haction bin
      have hreplaces : w.replaces = false := by
        rcases haction with haction | haction <;> simp [Write.replaces, haction]
      rw [hbins, hreplaces, if_neg Bool.false_ne_true, OrderedMap.get?_overlay]
    · rintro _ ⟨⟩ haction
      have hreplaces : w.replaces = true := by
        unfold Write.replaces
        cases hother : w.policy.existsAction <;> simp_all
      rw [hbins, if_pos hreplaces]
    · rintro _ ⟨⟩
      rw [hgeneration, UInt32.toNat_add]
      rfl

/-- A write changes the record, if only by counting one write more. -/
theorem Write.Leaves.ne_some {w : Write} {key : RecordKey} {stored : Option Record}
    {record : Record} (h : w.Leaves key stored record) : stored ≠ some record := by
  intro hstored
  have hcounted := h.counted record hstored
  have hlt : record.generation.toNat < 2 ^ 32 := record.generation.toNat_lt
  omega

namespace Memory

/-- Two stores differ in one record and in nothing else. -/
structure ChangesOnly (key : RecordKey) (written : Record) (m m' : Memory) : Prop where
  /-- The record is there. -/
  stored : m'.record? key = some written
  /-- It was not there before, or was another one. -/
  changed : m.record? key ≠ some written
  /-- The other records are as they were. -/
  records : ∀ other, other ≠ key → m'.record? other = m.record? other
  /-- The other collections are as they were. -/
  collections : ∀ ns name, (ns, name) ≠ (key.ns, key.collection) →
    m'.collection? ns name = m.collection? ns name
  /-- The other namespaces are as they were. -/
  namespaces : ∀ ns, ns ≠ key.ns → m'.get? ns = m.get? ns

variable {m : Memory} {key : RecordKey}

/-- Putting another record into a collection changes this record and nothing else. -/
theorem changesOnly_setCollection {records : Collection} {written : Record}
    (hrecords : m.collection? key.ns key.collection = some records)
    (hchanged : m.record? key ≠ some written) :
    ChangesOnly key written m
      (m.setCollection key.ns key.collection (records.insert key.digest written)) := by
  obtain ⟨collections, hns, -⟩ := collection?_eq_some_iff.1 hrecords
  refine ⟨?_, hchanged, fun other hne => ?_, fun ns name hne => ?_, fun ns hne => ?_⟩
  · rw [record?_setCollection hns, if_pos ⟨rfl, rfl⟩, OrderedMap.get?_insert, if_pos rfl]
  · refine record?_setCollection_of_same hrecords fun hns hname => ?_
    rw [OrderedMap.get?_insert, if_neg (RecordKey.digest_ne hne.symm hns hname)]
  · rw [collection?_setCollection_of_get? hns, if_neg]
    rintro ⟨rfl, rfl⟩
    exact hne rfl
  · rw [setCollection, OrderedMap.modify_of_get? hns, OrderedMap.get?_insert, if_neg hne]

/-- A write that meets the conditions changes the record at its address, as the policy says. -/
theorem AcceptsPut.exists_execute {policy : WritePolicy} (h : m.AcceptsPut key policy)
    (bins : Bins) :
    ∃ m' record, client.execute (.put key bins policy) m = (.ok .done, m') ∧
      (⟨bins, policy⟩ : Write).Leaves key (m.record? key) record ∧ ChangesOnly key record m m' := by
  obtain ⟨records, record, hrecords, hafter, hrun⟩ := h.exists_run bins
  have hleaves : (⟨bins, policy⟩ : Write).Leaves key (m.record? key) record :=
    Record.leaves_of_afterWrite hafter
  exact ⟨_, record, execute_of_ok hrun, hleaves, changesOnly_setCollection hrecords hleaves.ne_some⟩

/-- A write succeeds exactly if its collection exists, the generation of a stored record passes the
check, and the action is for what is stored; otherwise the failure is that of the first condition
that does not hold, and the store stays as it was. A write that succeeds changes the record at its
address and nothing else, and the record is what the write leaves of the stored one. -/
theorem execute_put (m : Memory) (key : RecordKey) (bins : Bins) (policy : WritePolicy) :
    let result := (client.execute (.put key bins policy) m).1
    let m' := (client.execute (.put key bins policy) m).2
    ((∃ outcome, result = .ok outcome) ↔ m.AcceptsPut key policy) ∧
      (∀ e, result = .error e ↔ m.RefusesPut key policy e) ∧
      (∀ e, result = .error e → m' = m) ∧
      ∀ outcome, result = .ok outcome → outcome = .done ∧
        ∃ record, (⟨bins, policy⟩ : Write).Leaves key (m.record? key) record ∧
          ChangesOnly key record m m' := by
  intro result m'
  rcases m.acceptsPut_or_refusesPut key policy with haccepts | ⟨cause, hrefuses⟩
  · obtain ⟨after, record, hexecute, hleaves, hchanges⟩ := haccepts.exists_execute bins
    have hresult : result = .ok .done := congrArg Prod.fst hexecute
    have hm' : m' = after := congrArg Prod.snd hexecute
    rw [hresult, hm']
    refine ⟨⟨fun _ => haccepts, fun _ => ⟨.done, rfl⟩⟩, fun e => ⟨?_, fun hrefuses => ?_⟩, ?_, ?_⟩
    · rintro ⟨⟩
    · exact absurd hrefuses haccepts.not_refusesPut
    · rintro e ⟨⟩
    · rintro outcome ⟨⟩
      exact ⟨rfl, record, hleaves, hchanges⟩
  · have hexecute := execute_of_error (hrefuses.run_eq bins)
    have hresult : result = .error cause := congrArg Prod.fst hexecute
    have hm' : m' = m := congrArg Prod.snd hexecute
    rw [hresult, hm']
    refine ⟨⟨?_, fun haccepts => ?_⟩, fun e => ⟨?_, fun hrefuses' => ?_⟩, fun _ _ => rfl, ?_⟩
    · rintro ⟨outcome, ⟨⟩⟩
    · exact absurd hrefuses haccepts.not_refusesPut
    · rintro ⟨⟩
      exact hrefuses
    · rw [hrefuses.unique hrefuses']
    · rintro outcome ⟨⟩

/-- The address of the one record of the store below. -/
def wornKey : RecordKey := ⟨"app", "User", "ada"⟩

/-- What is stored there: it has seen as many writes as a generation can count. -/
def wornRecord : Record where
  bins := .ofList [("name", .text "Ada"), ("visits", .int 7)]
  generation := 0xffffffff

/-- The store with this record. -/
def worn : Memory :=
  .ofList [("app", .ofList [("User", .ofList [("ada", wornRecord)])])]

/-- An update that expects the greatest generation is accepted: its bins are laid over the stored
ones, and the generation starts again at zero. A write that expects more than the greatest one is
refused for this, also where it is for missing records. -/
theorem execute_put_worn :
    let checked : WritePolicy :=
      { generation := .expectEqual, expectedGeneration := 0xffffffff, existsAction := .updateOnly }
    let doomed : WritePolicy :=
      { generation := .expectGreater, expectedGeneration := 0xffffffff,
        existsAction := .createOnly }
    (∃ record, (client.execute (.put wornKey (.ofList [("visits", .int 8)]) checked) worn).2.record?
          wornKey = some record ∧
        record.generation.toNat = 0 ∧ record.bins.get? "name" = some (.text "Ada") ∧
        record.bins.get? "visits" = some (.int 8)) ∧
      (client.execute (.put wornKey .empty doomed) worn).1 =
        .error (.generationMismatch "app/User/ada" 0xffffffff 0xffffffff) := by
  intro checked doomed
  have hstored : worn.record? wornKey = some wornRecord := rfl
  constructor
  · obtain ⟨haccepted, -, -, heffect⟩ :=
      execute_put worn wornKey (.ofList [("visits", .int 8)]) checked
    have hpasses : checked.Passes wornRecord := .inr (.inl ⟨rfl, rfl⟩)
    have haccepts : worn.AcceptsPut wornKey checked := by
      refine ⟨⟨_, rfl, _, rfl⟩, fun stored h => ?_, by simp [ExistsAction.Admits, checked, hstored]⟩
      rwa [← Option.some.inj (hstored.symm.trans h)]
    obtain ⟨outcome, houtcome⟩ := haccepted.2 haccepts
    obtain ⟨-, record, hleaves, hchanges⟩ := heffect outcome houtcome
    have hbins := hleaves.updated wornRecord hstored (.inr rfl)
    exact ⟨record, hchanges.stored, hleaves.counted _ hstored, hbins "name", hbins "visits"⟩
  · obtain ⟨-, hrefused, -⟩ := execute_put worn wornKey .empty doomed
    exact (hrefused _).2 (.mismatch hstored (by simp [WritePolicy.Passes, doomed, wornRecord]))

end Memory

end EntityStore
