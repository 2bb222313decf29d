import EntityStore.Proofs.Memory.Related

/-!
# What operations do to one record

Whatever the memory store executes, the record at an address is removed, or written, or stays as it
was. `Memory.Touch` lists the three cases with all that is known in each of them, and
`Memory.touch` says that there are no others, so that a statement about the records of a run needs
no look at the operations one by one.

An operation that covers the address (`Operation.removes`) leaves no record there, whether it
succeeds or fails: it fails only if there was none. A write that succeeds leaves the record that
`Record.afterWrite` makes, of which `Record.afterWrite_some_eq_ok` and
`Record.afterWrite_none_eq_ok` give every part.
-/

namespace EntityStore

/-- Does the operation remove the record at an address, if there is one? -/
def Operation.removes (key : RecordKey) : Operation → Bool
  | dropNamespace ns => ns = key.ns
  | dropCollection ns name | truncateCollection ns name => ns = key.ns ∧ name = key.collection
  | delete other _ => other = key
  | _ => false

/-- Two addresses in one collection have different digests. -/
theorem RecordKey.digest_ne {key other : RecordKey} (hne : other ≠ key) (hns : key.ns = other.ns)
    (hcollection : key.collection = other.collection) : key.digest ≠ other.digest := by
  intro hdigest
  cases key
  cases other
  simp only at hns hcollection hdigest
  exact hne (by rw [hns, hcollection, hdigest])

/-! ## Writes that succeed -/

/-- What a write brings to the record at its address. -/
structure Write where
  /-- The bins. -/
  bins : Bins
  /-- The policy of the write. -/
  policy : WritePolicy

namespace Write

/-- Does the write put its bins in place of those that are stored? -/
def replaces (w : Write) : Bool :=
  w.policy.existsAction = .replace ∨ w.policy.existsAction = .replaceOnly

/-- Does the write send the user key? -/
def sendsKey (w : Write) : Bool :=
  w.policy.keyMode = .send

/-- Does the write go through only if the stored generation is a certain one? -/
def expects (w : Write) (generation : UInt32) : Bool :=
  w.policy.generation = .expectEqual ∧ w.policy.expectedGeneration = generation

end Write

namespace Record

/-- The user key of a record is there if the write sends it, or if it was there before. -/
theorem key_withKey (record : Record) (w : Write) (key : RecordKey) :
    (record.withKey w.policy.keyMode key).key =
      if w.sendsKey then some key.digest else record.key := by
  unfold withKey Write.sendsKey
  cases w.policy.keyMode <;> rfl

/-- The user key does not change the generation. -/
theorem generation_withKey (record : Record) (mode : KeyMode) (key : RecordKey) :
    (record.withKey mode key).generation = record.generation := by
  cases mode <;> rfl

/-- A write that succeeds over a stored record: the record has passed the check, counts one write
more, and has the new bins over its own or in their place. -/
theorem afterWrite_some_eq_ok {key : RecordKey} {w : Write} {stored record : Record}
    (h : afterWrite key w.bins w.policy (some stored) = .ok record) :
    w.policy.accepts stored = true ∧ record.generation = stored.generation + 1 ∧
      record.key = (if w.sendsKey then some key.digest else stored.key) ∧
      record.bins = if w.replaces then w.bins else stored.bins.overlay w.bins := by
  rw [afterWrite_some] at h
  by_cases haccepts : w.policy.accepts stored = true
  · rw [if_pos haccepts] at h
    refine ⟨haccepts, ?_⟩
    -- The action gives the bins, and what is sent with it the user key.
    cases haction : w.policy.existsAction with
    | createOnly =>
      rw [haction] at h
      cases h
    | update | updateOnly | replace | replaceOnly =>
      rw [haction] at h
      obtain rfl := Except.ok.inj h
      refine ⟨generation_withKey _ _ _, key_withKey _ w key, ?_⟩
      rw [bins_withKey]
      simp [Write.replaces, haction]
  · rw [if_neg haccepts] at h
    cases h

/-- A write that succeeds where there is no record creates one, which counts one write. -/
theorem afterWrite_none_eq_ok {key : RecordKey} {w : Write} {record : Record}
    (h : afterWrite key w.bins w.policy none = .ok record) :
    record.generation = 1 ∧ record.key = (if w.sendsKey then some key.digest else none) ∧
      record.bins = w.bins := by
  rw [afterWrite_none] at h
  cases haction : w.policy.existsAction with
  | updateOnly | replaceOnly =>
    rw [haction] at h
    cases h
  | update | replace | createOnly =>
    rw [haction] at h
    obtain rfl := Except.ok.inj h
    exact ⟨generation_withKey _ _ _, key_withKey _ w key, bins_withKey _ _ _⟩

end Record

namespace Memory

/-! ## Runs -/

/-- The store after an operation. One that fails leaves it as it was. -/
def next (m : Memory) (operation : Operation) : Memory :=
  (client.execute operation m).2

/-- The store after operations, one after the other. -/
def after (m : Memory) (operations : List Operation) : Memory :=
  operations.foldl next m

/-- What an operation writes to the record at an address, if it is a write of it and succeeds. -/
def writeOf? (m : Memory) (key : RecordKey) (operation : Operation) : Option Write :=
  match operation, (client.execute operation m).1 with
  | .put other bins policy, .ok _ => if other = key then some ⟨bins, policy⟩ else none
  | _, _ => none

variable {m m' : Memory} {operation : Operation}

/-- The store after an operation that succeeds. -/
theorem next_of_ok {outcome : Outcome} (h : m.run operation = .ok (outcome, m')) :
    m.next operation = m' := by
  rw [next, execute_of_ok h]

/-- The store after an operation that fails. -/
theorem next_of_error {e : StoreError} (h : m.run operation = .error e) :
    m.next operation = m := by
  rw [next, execute_of_error h]

/-- No operation but a write writes. -/
theorem writeOf?_of_not_isPut (m : Memory) (key : RecordKey) (h : operation.isPut = false) :
    m.writeOf? key operation = none := by
  cases operation with
  | put => cases h
  | _ => rfl

/-- A write of the record that succeeds is what it writes. -/
theorem writeOf?_put_of_ok {key : RecordKey} {bins : Bins} {policy : WritePolicy}
    {outcome : Outcome} (h : (client.execute (.put key bins policy) m).1 = .ok outcome) :
    m.writeOf? key (.put key bins policy) = some ⟨bins, policy⟩ := by
  simp only [writeOf?, h, if_true]

/-- An operation that writes the record at an address is a write at this address. -/
theorem eq_put_of_writeOf? {key : RecordKey} {w : Write} (h : m.writeOf? key operation = some w) :
    operation = .put key w.bins w.policy := by
  unfold writeOf? at h
  split at h
  · split at h
    · next haddress =>
      obtain rfl := Option.some.inj h
      rw [haddress]
    · cases h
  · cases h

/-! ## Records in a store with other records in one collection -/

/-- A record is in the collection of its address. -/
theorem record?_eq (m : Memory) (key : RecordKey) :
    m.record? key = (m.collection? key.ns key.collection).bind (·.get? key.digest) := by
  unfold record? collection?
  cases m.get? key.ns <;> rfl

/-- If there is no namespace, there is no record in it. -/
theorem record?_of_absent {key : RecordKey} (h : m.get? key.ns = none) : m.record? key = none := by
  rw [record?_eq, collection?, h]
  rfl

variable {ns name : String} {collections : Namespace}

/-- The new records of a collection are in the store, and the other collections are as before. -/
theorem collection?_setCollection_of_get? (h : m.get? ns = some collections)
    (records : Collection) (ns' name' : String) :
    (m.setCollection ns name records).collection? ns' name' =
      if ns' = ns ∧ name' = name then some records else m.collection? ns' name' := by
  unfold setCollection OrderedMap.modify collection?
  rw [h]
  by_cases hns : ns' = ns
  · subst hns
    by_cases hname : name' = name
    · simp [hname]
    · simp [hname, h]
  · simp [hns]

/-- The new records of a collection are at its addresses, and the others are as before. -/
theorem record?_setCollection (h : m.get? ns = some collections) (records : Collection)
    (key : RecordKey) :
    (m.setCollection ns name records).record? key =
      if key.ns = ns ∧ key.collection = name then records.get? key.digest else m.record? key := by
  rw [record?_eq, record?_eq, collection?_setCollection_of_get? h]
  split <;> rfl

/-- A record stays where it was if the records of one collection change, but not this one. -/
theorem record?_setCollection_of_same {records records' : Collection} {key : RecordKey}
    (h : m.collection? ns name = some records)
    (hsame : key.ns = ns → key.collection = name →
      records'.get? key.digest = records.get? key.digest) :
    (m.setCollection ns name records').record? key = m.record? key := by
  obtain ⟨collections, hns, -⟩ := Option.bind_eq_some_iff.1 h
  rw [record?_setCollection hns]
  split
  · next haddress =>
    obtain ⟨rfl, rfl⟩ := haddress
    rw [hsame rfl rfl, record?_eq, h]
    rfl
  · rfl

/-! ## The three cases -/

/-- What an operation does to the record at an address: it removes it, writes it, or leaves it. -/
inductive Touch (m : Memory) (key : RecordKey) (operation : Operation) : Prop where
  /-- The operation covers the address, and there is no record afterwards. -/
  | removed (hremoves : operation.removes key = true) (hwrite : m.writeOf? key operation = none)
      (hrecord : (m.next operation).record? key = none)
  /-- The operation is a write of the record and succeeds. -/
  | written {w : Write} {record : Record} (hremoves : operation.removes key = false)
      (hwrite : m.writeOf? key operation = some w)
      (hafter : Record.afterWrite key w.bins w.policy (m.record? key) = .ok record)
      (hrecord : (m.next operation).record? key = some record)
  /-- The operation does not concern the record, or is a write of it that fails. -/
  | kept (hremoves : operation.removes key = false) (hwrite : m.writeOf? key operation = none)
      (hrecord : (m.next operation).record? key = m.record? key)

variable (m)

/-- Creating a namespace does not change records. -/
theorem record?_createNamespace (ns : String) (key : RecordKey) :
    (m.next (.createNamespace ns)).record? key = m.record? key := by
  have hnext : m.next (.createNamespace ns) = if m.contains ns then m else m.insert ns .empty :=
    next_of_ok rfl
  rw [hnext]
  split
  · rfl
  · next habsent =>
    have hnone : m.get? ns = none := by simpa [OrderedMap.contains] using habsent
    by_cases hns : key.ns = ns
    · have hnew : record? (m.insert ns .empty) key = none := by
        rw [record?_eq, collection?, OrderedMap.get?_insert, if_pos hns]
        rfl
      rw [hnew, record?_of_absent (hns ▸ hnone)]
    · rw [record?_eq, record?_eq, collection?, collection?, OrderedMap.get?_insert, if_neg hns]

/-- Dropping a namespace removes its records and no others. -/
theorem record?_dropNamespace (ns : String) (key : RecordKey) :
    (m.next (.dropNamespace ns)).record? key = if ns = key.ns then none else m.record? key := by
  have hnext : m.next (.dropNamespace ns) = m.erase ns := next_of_ok rfl
  rw [hnext, record?_eq, record?_eq, collection?, collection?, OrderedMap.get?_erase]
  by_cases hns : key.ns = ns
  · rw [if_pos hns, if_pos hns.symm]
    rfl
  · rw [if_neg hns, if_neg (Ne.symm hns)]

/-- Creating a collection does not change records. -/
theorem record?_createCollection (ns name : String) (key : RecordKey) :
    (m.next (.createCollection ns name)).record? key = m.record? key := by
  cases hns : m.get? ns with
  | none =>
    have hrun : m.run (.createCollection ns name) = .error (.namespaceNotFound ns) := by
      rw [run, findNamespace_of_absent hns]
      rfl
    rw [next_of_error hrun]
  | some collections =>
    have hrun : m.run (.createCollection ns name) = .ok (.done,
        if collections.contains name then m else m.setCollection ns name .empty) := by
      rw [run, findNamespace, hns]
      rfl
    rw [next_of_ok hrun]
    split
    · rfl
    · next habsent =>
      have hnone : collections.get? name = none := by simpa [OrderedMap.contains] using habsent
      rw [record?_setCollection hns]
      split
      · next haddress =>
        obtain ⟨rfl, rfl⟩ := haddress
        rw [record?_eq, collection?, hns, Option.bind_some, hnone]
        rfl
      · rfl

/-- Dropping a collection removes its records and no others. -/
theorem record?_dropCollection (ns name : String) (key : RecordKey) :
    (m.next (.dropCollection ns name)).record? key =
      if ns = key.ns ∧ name = key.collection then none else m.record? key := by
  have hnext : m.next (.dropCollection ns name) =
      m.modify ns fun collections => collections.erase name := next_of_ok rfl
  rw [hnext, record?_eq, record?_eq]
  unfold OrderedMap.modify collection?
  cases hns : m.get? ns with
  | none =>
    by_cases heq : ns = key.ns
    · subst heq
      simp [hns]
    · simp [heq]
  | some collections =>
    by_cases heq : key.ns = ns
    · subst heq
      by_cases hname : key.collection = name
      · simp [hname]
      · simp [hns, hname, Ne.symm hname]
    · simp [heq, Ne.symm heq]

/-- Truncating a collection removes its records and no others. -/
theorem record?_truncateCollection (ns name : String) (key : RecordKey) :
    (m.next (.truncateCollection ns name)).record? key =
      if ns = key.ns ∧ name = key.collection then none else m.record? key := by
  cases hcollection : m.collection? ns name with
  | none =>
    -- The truncation fails, and there was no record.
    obtain ⟨e, hrun⟩ : ∃ e, m.run (.truncateCollection ns name) = .error e := by
      rw [run, findCollection, findNamespace]
      cases hns : m.get? ns with
      | none => exact ⟨_, rfl⟩
      | some collections =>
        have hname : collections.get? name = none := by simpa [collection?, hns] using hcollection
        exact ⟨.collectionNotFound ns name, by simp [hname, bind, Except.bind]⟩
    rw [next_of_error hrun]
    split
    · next haddress =>
      obtain ⟨rfl, rfl⟩ := haddress
      rw [record?_eq, hcollection]
      rfl
    · rfl
  | some records =>
    obtain ⟨collections, hns, -⟩ := Option.bind_eq_some_iff.1 hcollection
    rw [next_of_ok (run_truncate hcollection), record?_setCollection hns]
    by_cases haddress : key.ns = ns ∧ key.collection = name
    · rw [if_pos haddress, if_pos ⟨haddress.1.symm, haddress.2.symm⟩]
      rfl
    · rw [if_neg haddress, if_neg fun h => haddress ⟨h.1.symm, h.2.symm⟩]

/-- A removal removes the record at its address and no other. -/
theorem record?_delete (other key : RecordKey) (policy : WritePolicy) :
    (m.next (.delete other policy)).record? key = if other = key then none else m.record? key := by
  cases hcollection : m.collection? other.ns other.collection with
  | none =>
    -- There was no record, whether the namespace is there or not.
    have hnext : m.next (.delete other policy) = m := by
      cases hns : m.get? other.ns with
      | none =>
        refine next_of_error (e := .namespaceNotFound other.ns) ?_
        rw [run, findNamespace_of_absent hns]
        rfl
      | some collections =>
        have hname : collections.get? other.collection = none := by
          simpa [collection?, hns] using hcollection
        have hrun : m.run (.delete other policy) = .ok (.deleted false, m) := by
          simp [run, findNamespace, hns, hname, bind, Except.bind]
        exact next_of_ok hrun
    rw [hnext]
    split
    · next haddress =>
      obtain rfl := haddress
      rw [record?_eq, hcollection]
      rfl
    · rfl
  | some records =>
    rw [next_of_ok (run_delete hcollection policy)]
    by_cases haddress : other = key
    · subst haddress
      obtain ⟨collections, hns, -⟩ := Option.bind_eq_some_iff.1 hcollection
      rw [if_pos rfl, record?_setCollection hns, if_pos ⟨rfl, rfl⟩, OrderedMap.get?_erase,
        if_pos rfl]
    · rw [if_neg haddress]
      refine record?_setCollection_of_same hcollection fun hns hname => ?_
      rw [OrderedMap.get?_erase, if_neg (RecordKey.digest_ne haddress hns hname)]

/-- A read leaves the store as it was. -/
theorem next_get (key : RecordKey) (policy : ReadPolicy) : m.next (.get key policy) = m := by
  cases hrun : m.findNamespace key.ns with
  | error e => exact next_of_error (e := e) (by rw [run, hrun]; rfl)
  | ok collections => exact next_of_ok (by rw [run, hrun]; rfl)

/-- A scan leaves the store as it was. -/
theorem next_scan (ns name : String) (limit : Option Nat) (policy : ReadPolicy) :
    m.next (.scan ns name limit policy) = m := by
  rcases m.run_scan_cases ns name limit policy with ⟨found, hrun⟩ | ⟨e, hrun⟩
  · exact next_of_ok hrun
  · exact next_of_error hrun

/-- A read that succeeds reports the record at the address. -/
theorem record?_of_execute_get {key : RecordKey} {policy : ReadPolicy} {found : Option Record}
    (h : (client.execute (.get key policy) m).1 = .ok (.record found)) : m.record? key = found := by
  rw [record?_eq, collection?]
  cases hns : m.get? key.ns with
  | none =>
    simp only [client, run, findNamespace_of_absent hns, bind, Except.bind] at h
    cases h
  | some collections =>
    simp only [client, run, findNamespace, hns, bind, Except.bind] at h
    exact Outcome.record.inj (Except.ok.inj h)

/-- A write that fails leaves all records, and one that succeeds changes the record at its address
and no other. -/
theorem touch_put (other key : RecordKey) (bins : Bins) (policy : WritePolicy) :
    m.Touch key (.put other bins policy) := by
  cases hrun : m.run (.put other bins policy) with
  | error e =>
    have hwrite : m.writeOf? key (.put other bins policy) = none := by
      simp only [writeOf?, execute_of_error hrun]
    exact .kept rfl hwrite (by rw [next_of_error hrun])
  | ok result =>
    obtain ⟨outcome, m'⟩ := result
    have hwrite : m.writeOf? key (.put other bins policy) =
        if other = key then some ⟨bins, policy⟩ else none := by
      simp only [writeOf?, execute_of_ok hrun]
    -- The collection is there, since the write succeeds.
    obtain ⟨records, hcollection⟩ : ∃ records,
        m.collection? other.ns other.collection = some records := by
      rw [run, findCollection, findNamespace] at hrun
      unfold collection?
      cases hns : m.get? other.ns with
      | none =>
        rw [hns] at hrun
        cases hrun
      | some collections =>
        cases hname : collections.get? other.collection with
        | none =>
          simp only [hns, hname, bind, Except.bind] at hrun
          cases hrun
        | some records => exact ⟨records, hname⟩
    rw [run_put hcollection] at hrun
    cases hafter : Record.afterWrite other bins policy (records.get? other.digest) with
    | error e =>
      rw [hafter] at hrun
      cases hrun
    | ok record =>
      rw [hafter] at hrun
      obtain ⟨-, rfl⟩ := Prod.mk.inj (Except.ok.inj hrun)
      have hnext : m.next (.put other bins policy) = m.setCollection other.ns other.collection
          (records.insert other.digest record) := by
        have hrun : m.run (.put other bins policy) = .ok (.done, m.setCollection other.ns
            other.collection (records.insert other.digest record)) := by
          rw [run_put hcollection, hafter]
          rfl
        exact next_of_ok hrun
      by_cases haddress : other = key
      · subst haddress
        rw [if_pos rfl] at hwrite
        have hstored : m.record? other = records.get? other.digest := by
          rw [record?_eq, hcollection]
          rfl
        obtain ⟨collections, hns, -⟩ := Option.bind_eq_some_iff.1 hcollection
        refine .written rfl hwrite (hstored ▸ hafter) ?_
        rw [hnext, record?_setCollection hns, if_pos ⟨rfl, rfl⟩, OrderedMap.get?_insert,
          if_pos rfl]
      · rw [if_neg haddress] at hwrite
        refine .kept rfl hwrite ?_
        rw [hnext]
        refine record?_setCollection_of_same hcollection fun hns hname => ?_
        rw [OrderedMap.get?_insert, if_neg (RecordKey.digest_ne haddress hns hname)]

/-- An operation that is no write, and leaves no record where it covers the address and the same
one otherwise, removes the record or leaves it. -/
theorem touch_of_record?_eq {operation : Operation} {key : RecordKey}
    (hput : operation.isPut = false)
    (h : (m.next operation).record? key =
      if operation.removes key then none else m.record? key) : m.Touch key operation := by
  have hwrite := m.writeOf?_of_not_isPut key hput
  cases hremoves : operation.removes key with
  | true => exact .removed hremoves hwrite (by rw [h, if_pos hremoves])
  | false => exact .kept hremoves hwrite (by rw [h, hremoves]; rfl)

/-- Every operation removes the record at an address, writes it, or leaves it. -/
theorem touch (key : RecordKey) (operation : Operation) : m.Touch key operation := by
  cases operation with
  | createNamespace ns => exact m.touch_of_record?_eq rfl (m.record?_createNamespace ns key)
  | dropNamespace ns =>
    refine m.touch_of_record?_eq rfl ?_
    simpa [Operation.removes] using m.record?_dropNamespace ns key
  | createCollection ns name =>
    exact m.touch_of_record?_eq rfl (m.record?_createCollection ns name key)
  | dropCollection ns name =>
    refine m.touch_of_record?_eq rfl ?_
    simpa [Operation.removes] using m.record?_dropCollection ns name key
  | truncateCollection ns name =>
    refine m.touch_of_record?_eq rfl ?_
    simpa [Operation.removes] using m.record?_truncateCollection ns name key
  | put other bins policy => exact m.touch_put other key bins policy
  | get other policy =>
    refine m.touch_of_record?_eq rfl ?_
    rw [m.next_get]
    rfl
  | delete other policy =>
    refine m.touch_of_record?_eq rfl ?_
    simpa [Operation.removes] using m.record?_delete other key policy
  | scan ns name limit policy =>
    refine m.touch_of_record?_eq rfl ?_
    rw [m.next_scan]
    rfl

end Memory

end EntityStore
