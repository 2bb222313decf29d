import EntityStore.Entity.Untyped
import EntityStore.Proofs.Store.Issued
import EntityStore.Proofs.Store.Pair
import EntityStore.Proofs.Text.Order

/-!
# Reading one entity, reading all, and counting them

A mapped store on a memory client reads a single entity by its address, the entities of the
collection by a scan, and their number from the metadata of the namespace. The three tell the same
story (`MappedStore.reads_agree`) in every state in which the digests of the collection are those of
keys, as they are in all states that mapped stores of the key type have reached
(`Memory.keyedBy_of_reached`).

Where the collection exists, a query without a limit succeeds if each record is read as a pair, and
the pairs correspond to the records one by one (`MappedStore.readAs_of_query`). So the pairs are in
the order of the records, which is that of the digests, and they are found where `get` finds them.
-/

namespace EntityStore

namespace MappedStore

variable {κ ε : Type} [Key κ] [Entity ε] {store : MappedStore κ ε} {m : Memory}
  {records : Collection}

/-! ## What reading gives -/

/-- A query reads the first records of the collection, up to its limit. -/
theorem runFrom_query_of_collection?
    (h : m.collection? store.mapping.ns store.mapping.collection = some records) (q : Query) :
    (store.query Memory.client q).runFrom m =
      ((records.entries.take (min (q.limit.getD records.size) records.size)).mapM store.pairOf,
        m) := by
  rw [query, Memory.runFrom_perform_bind_of_ok (Memory.run_scan h _ _), Call.runFrom_ofExcept,
    OrderedMap.size, ← List.take_eq_take_min]
  cases q.limit with
  | some n => rfl
  | none => rw [Option.getD_none, List.take_length]

/-- A query without a limit reads all records. -/
theorem runFrom_query_all
    (h : m.collection? store.mapping.ns store.mapping.collection = some records) :
    (store.query Memory.client {}).runFrom m = (records.entries.mapM store.pairOf, m) := by
  rw [runFrom_query_of_collection? h, Option.getD_none, Nat.min_self, OrderedMap.size,
    List.take_length]

/-- The entity under a key is read from the record under the digest of the key. -/
theorem runFrom_get_of_collection?
    (h : m.collection? store.mapping.ns store.mapping.collection = some records) (key : κ) :
    (store.get Memory.client key).runFrom m =
      (match records.get? (Key.digest key) with
        | some record => (store.decode record.bins).map some
        | none => .ok none, m) := by
  have hrun : m.run (.get (store.addressOf key) store.mapping.readPolicy) =
      .ok (.record (records.get? (Key.digest key)), m) := Memory.run_get h _
  rw [get, Memory.runFrom_perform_bind_of_ok hrun]
  cases records.get? (Key.digest key) with
  | some record => exact Call.runFrom_map some (Call.ofExcept (store.decode record.bins)) m
  | none => rfl

/-- The entity under a key is read from the record at the address of the key. -/
theorem runFrom_get_of_record? {key : κ} {record : Record}
    (h : m.record? (store.addressOf key) = some record) :
    (store.get Memory.client key).runFrom m = ((store.decode record.bins).map some, m) := by
  rw [Memory.record?_eq] at h
  obtain ⟨records, hrecords, hget⟩ := Option.bind_eq_some_iff.1 h
  have hdigest : records.get? (Key.digest key) = some record := hget
  rw [runFrom_get_of_collection? hrecords, hdigest]

/-- An entity is read under a key exactly if the record under the digest of the key holds it. -/
theorem runFrom_get_eq_some_iff
    (h : m.collection? store.mapping.ns store.mapping.collection = some records) (key : κ)
    (entity : ε) :
    (store.get Memory.client key).runFrom m = (.ok (some entity), m) ↔
      ∃ record, (Key.digest key, record) ∈ records.entries ∧
        store.decode record.bins = .ok entity := by
  rw [runFrom_get_of_collection? h]
  simp only [← OrderedMap.get?_eq_some_iff]
  cases records.get? (Key.digest key) with
  | some record =>
    cases hdecode : store.decode record.bins with
    | ok found => simp [Except.map, hdecode]
    | error e => simp [Except.map, hdecode]
  | none => simp

/-- Without the namespace nothing is read. -/
theorem reads_of_absent_namespace (h : m.get? store.mapping.ns = none) :
    (∀ key, (store.get Memory.client key).runFrom m =
        (.error (.store (.namespaceNotFound store.mapping.ns)), m)) ∧
      ∀ q, (store.query Memory.client q).runFrom m =
        (.error (.store (.namespaceNotFound store.mapping.ns)), m) := by
  have habsent := Memory.findNamespace_of_absent h
  constructor
  · intro key
    refine Memory.runFrom_perform_bind_of_error ?_
    rw [Memory.run, addressOf, habsent]
    rfl
  · intro q
    refine Memory.runFrom_perform_bind_of_error ?_
    rw [Memory.run, habsent]
    rfl

/-- Without the collection there is nothing to read. -/
theorem reads_of_absent_collection {collections : Namespace}
    (hns : m.get? store.mapping.ns = some collections)
    (hname : collections.get? store.mapping.collection = none) :
    (∀ key, (store.get Memory.client key).runFrom m = (.ok none, m)) ∧
      ∀ q, (store.query Memory.client q).runFrom m = (.ok [], m) := by
  have hfound : m.findNamespace store.mapping.ns = .ok collections := by
    rw [Memory.findNamespace, hns]
  constructor
  · intro key
    have hrun : m.run (.get (store.addressOf key) store.mapping.readPolicy) =
        .ok (.record none, m) := by
      simp [Memory.run, addressOf, hfound, hname, bind, Except.bind]
    rw [get, Memory.runFrom_perform_bind_of_ok hrun]
    rfl
  · rintro ⟨limit⟩
    have hrun : m.run (.scan store.mapping.ns store.mapping.collection limit
        store.mapping.readPolicy) = .ok (.records [], m) := by
      cases limit <;> simp [Memory.run, hfound, hname, bind, Except.bind]
    rw [query, Memory.runFrom_perform_bind_of_ok hrun]
    rfl

/-! ## The three ways of reading agree -/

variable [LawfulKey κ]

omit [Entity ε] [LawfulKey κ] in
/-- If the digests of the collection are those of keys, so is the digest of each entry. -/
theorem exists_digest_eq
    (h : m.collection? store.mapping.ns store.mapping.collection = some records)
    (hkeyed : m.KeyedBy κ store.mapping.ns store.mapping.collection) {found : String × Record}
    (hmem : found ∈ records.entries) : ∃ key : κ, Key.digest key = found.1 := by
  refine hkeyed found.1 found.2 ?_
  rw [Memory.record?_eq, h]
  exact OrderedMap.get?_eq_some_iff.2 hmem

/-- A record is read as a pair: it is under the digest of the key, and its bins hold the entity. -/
def ReadAs (store : MappedStore κ ε) (found : String × Record) (pair : κ × ε) : Prop :=
  found.1 = Key.digest pair.1 ∧ store.decode found.2.bins = .ok pair.2

/-- The pairs that a query without a limit reads are those that the records are read as. -/
theorem readAs_of_query
    (h : m.collection? store.mapping.ns store.mapping.collection = some records)
    (hkeyed : m.KeyedBy κ store.mapping.ns store.mapping.collection) {pairs : List (κ × ε)}
    (hquery : ((store.query Memory.client {}).runFrom m).1 = .ok pairs) :
    List.Forall₂ store.ReadAs records.entries pairs := by
  rw [runFrom_query_all h] at hquery
  have hkeys (found) (hmem : found ∈ records.entries) := exists_digest_eq h hkeyed hmem
  refine ((List.forall₂_and_left _ _).2 ⟨hkeys, mapM_eq_ok_iff.1 hquery⟩).imp ?_
  rintro found pair ⟨hkey, hpair⟩
  exact (pairOf_eq_ok_iff hkey).1 hpair

omit [LawfulKey κ] in
/-- The pairs that the records of a collection are read as ascend with the octets of the digests of
their keys. -/
theorem pairwise_of_readAs {pairs : List (κ × ε)}
    (h : List.Forall₂ store.ReadAs records.entries pairs) :
    pairs.Pairwise fun a b =>
      a.1 ≠ b.1 ∧ Text.octets (Key.digest a.1) < Text.octets (Key.digest b.1) := by
  -- The records are in the order of their digests, which are those of the keys.
  have hdigests : records.entries.map Prod.fst = pairs.map fun pair => Key.digest pair.1 := by
    rw [← List.forall₂_eq_eq_eq, List.forall₂_map_left_iff, List.forall₂_map_right_iff]
    exact h.imp fun _ _ hread => hread.1
  have hsorted := List.pairwise_map.2 records.sorted
  rw [hdigests] at hsorted
  refine (List.pairwise_map.1 hsorted).imp fun hlt => ⟨?_, Text.octets_lt_octets_iff.2 hlt⟩
  intro heq
  rw [heq] at hlt
  exact String.lt_irrefl _ hlt

/-- A pair is among those that the records of a collection are read as exactly if the record under
the digest of its key holds its entity. -/
theorem mem_iff_of_readAs {pairs : List (κ × ε)}
    (h : List.Forall₂ store.ReadAs records.entries pairs) (key : κ) (entity : ε) :
    (key, entity) ∈ pairs ↔ ∃ record, (Key.digest key, record) ∈ records.entries ∧
      store.decode record.bins = .ok entity := by
  constructor
  · intro hmem
    obtain ⟨⟨digest, record⟩, hfound, rfl, hdecode⟩ := exists_of_forall₂ h.flip hmem
    exact ⟨record, hfound, hdecode⟩
  · -- The record is read as some pair, whose key has the same digest and is the same one therefore.
    rintro ⟨record, hfound, hdecode⟩
    obtain ⟨⟨key', entity'⟩, hmem, hdigest, hdecode'⟩ := exists_of_forall₂ h hfound
    obtain rfl : key = key' := LawfulKey.digest_inj.1 hdigest
    rw [hdecode] at hdecode'
    rw [Except.ok.inj hdecode']
    exact hmem

omit [LawfulKey κ] in
/-- If all records are read, the first ones are read as the first pairs. -/
theorem runFrom_query_take
    (h : m.collection? store.mapping.ns store.mapping.collection = some records)
    {pairs : List (κ × ε)} (hquery : ((store.query Memory.client {}).runFrom m).1 = .ok pairs)
    (n : Nat) : (store.query Memory.client ⟨some n⟩).runFrom m = (.ok (pairs.take n), m) := by
  rw [runFrom_query_all h, mapM_eq_ok_iff] at hquery
  rw [runFrom_query_of_collection? h, Option.getD_some, OrderedMap.size, ← List.take_eq_take_min,
    mapM_eq_ok_iff.2 (List.forall₂_take n hquery)]

/-- A query fails exactly if one of the first records, up to its limit, cannot be read, and the
first such record says why. -/
theorem query_eq_error_iff
    (h : m.collection? store.mapping.ns store.mapping.collection = some records)
    (hkeyed : m.KeyedBy κ store.mapping.ns store.mapping.collection) (q : Query) (e : Error) :
    ((store.query Memory.client q).runFrom m).1 = .error e ↔
      ∃ earlier found later,
        records.entries.take (min (q.limit.getD records.size) records.size) =
            earlier ++ found :: later ∧
          (∀ other ∈ earlier, ∃ entity, store.decode other.2.bins = .ok entity) ∧
          store.decode found.2.bins = .error e := by
  rw [runFrom_query_of_collection? h, mapM_eq_error_iff]
  refine exists_congr fun earlier => exists_congr fun found => exists_congr fun later =>
    and_congr_right fun hsplit => ?_
  have hkeys (other) (hmem : other ∈ earlier ++ found :: later) :
      ∃ key : κ, Key.digest key = other.1 := by
    rw [← hsplit] at hmem
    exact exists_digest_eq h hkeyed (List.mem_of_mem_take hmem)
  have hearlier (other) (hmem : other ∈ earlier) :
      (∃ pair, store.pairOf other = .ok pair) ↔
        ∃ entity, store.decode other.2.bins = .ok entity := by
    obtain ⟨key, hkey⟩ := hkeys other (List.mem_append_left _ hmem)
    simp only [pairOf_eq_ok_iff ⟨key, hkey⟩, Prod.exists, exists_and_left]
    exact ⟨fun ⟨_, _, hread⟩ => hread, fun hread => ⟨key, hkey.symm, hread⟩⟩
  have hfound : store.pairOf found = .error e ↔ store.decode found.2.bins = .error e :=
    pairOf_eq_error_iff (hkeys found (List.mem_append_right _ List.mem_cons_self))
  exact and_congr (forall₂_congr hearlier) hfound

/-- If a query without a limit succeeds, its pairs ascend with the octets of the digests of their
keys, they are those that are read key by key, they are as many as the metadata say, and a query
with a limit reads the first ones of them. A query fails exactly if one of the first records, up to
its limit, cannot be read, with the error of the first such record. Without the namespace all reads
fail, and without the collection there is nothing to read. -/
theorem reads_agree (store : MappedStore κ ε) (m : Memory)
    (hkeyed : m.KeyedBy κ store.mapping.ns store.mapping.collection) :
    (∀ pairs, ((store.query Memory.client {}).runFrom m).1 = .ok pairs →
      (pairs.Pairwise fun a b =>
        a.1 ≠ b.1 ∧ Text.octets (Key.digest a.1) < Text.octets (Key.digest b.1)) ∧
      (∀ key entity, (key, entity) ∈ pairs ↔
        (store.get Memory.client key).runFrom m = (.ok (some entity), m)) ∧
      (∃ found, (Memory.client.inspect store.mapping.ns).runFrom m = (.ok (some found), m) ∧
        found.count? store.mapping.collection =
          (m.collection? store.mapping.ns store.mapping.collection).map fun _ => pairs.length) ∧
      ∀ n, (store.query Memory.client ⟨some n⟩).runFrom m = (.ok (pairs.take n), m)) ∧
    (∀ records, m.collection? store.mapping.ns store.mapping.collection = some records →
      ∀ limit e, ((store.query Memory.client ⟨limit⟩).runFrom m).1 = .error e ↔
        ∃ earlier found later,
          records.entries.take (min (limit.getD records.size) records.size) =
              earlier ++ found :: later ∧
            (∀ other ∈ earlier, ∃ entity, store.decode other.2.bins = .ok entity) ∧
            store.decode found.2.bins = .error e) ∧
    (m.get? store.mapping.ns = none →
      (∀ key, (store.get Memory.client key).runFrom m =
        (.error (.store (.namespaceNotFound store.mapping.ns)), m)) ∧
      ∀ q, (store.query Memory.client q).runFrom m =
        (.error (.store (.namespaceNotFound store.mapping.ns)), m)) ∧
    (∀ collections, m.get? store.mapping.ns = some collections →
      collections.get? store.mapping.collection = none →
      (∀ key, (store.get Memory.client key).runFrom m = (.ok none, m)) ∧
      ∀ q, (store.query Memory.client q).runFrom m = (.ok [], m)) := by
  refine ⟨fun pairs hquery => ?_, fun records h limit e => query_eq_error_iff h hkeyed ⟨limit⟩ e,
    reads_of_absent_namespace, fun collections => reads_of_absent_collection⟩
  cases hns : m.get? store.mapping.ns with
  | none =>
    rw [(reads_of_absent_namespace hns).2] at hquery
    cases hquery
  | some collections =>
    obtain ⟨found, hfound⟩ : ∃ found, m.metadata store.mapping.ns = some found := by
      rw [Memory.metadata, hns]
      exact ⟨_, rfl⟩
    have hinspect := Memory.runFrom_inspect m store.mapping.ns
    have hcount := m.count?_metadata store.mapping.ns store.mapping.collection
    rw [hfound] at hinspect hcount
    rw [Option.bind_some] at hcount
    cases hname : collections.get? store.mapping.collection with
    | none =>
      obtain ⟨hget, hqueries⟩ := reads_of_absent_collection hns hname
      rw [hqueries] at hquery
      obtain rfl := Except.ok.inj hquery
      refine ⟨.nil, fun key entity => ?_, ⟨found, hinspect, ?_⟩, fun n => ?_⟩
      · rw [hget]
        simp
      · rw [hcount, Memory.collection?, hns, Option.bind_some, hname]
        rfl
      · rw [hqueries, List.take_nil]
    | some records =>
      have h : m.collection? store.mapping.ns store.mapping.collection = some records := by
        rw [Memory.collection?, hns, Option.bind_some, hname]
      have hreads := readAs_of_query h hkeyed hquery
      refine ⟨pairwise_of_readAs hreads, fun key entity => ?_, ⟨found, hinspect, ?_⟩,
        runFrom_query_take h hquery⟩
      · rw [runFrom_get_eq_some_iff h, mem_iff_of_readAs hreads]
      · rw [hcount, h, Option.map_some, Option.map_some, OrderedMap.size, hreads.length_eq]

/-- Stores of documents, in the collection `docs` of the namespace `app`. -/
def docsStore (serializer : Serializer) : MappedStore String Document where
  mapping := ⟨"String", "polystore.Document", "app", "docs", .empty, {}, {}⟩
  serializer := serializer

/-- A collection in which a CBOR store has written the key `a` and a native store the key `b`. -/
def mixedFormats : Memory :=
  let created := (((docsStore .cbor).respond Memory.client .createSchema).runFrom .empty).2
  let written := (((docsStore .cbor).respond Memory.client
    (.put "a" ⟨.ofList [("f", .bool true)]⟩)).runFrom created).2
  (((docsStore .native).respond Memory.client
    (.put "b" ⟨.ofList [("f", .bool true)]⟩)).runFrom written).2

/-- A CBOR store reads the first of the two records and fails on the second one, and a native store
reads the second one both ways. -/
theorem reads_agree_mixed :
    mixedFormats.KeyedBy String "app" "docs" ∧
      (((docsStore .cbor).query Memory.client {}).runFrom mixedFormats).1 =
        .error (.serialization (.untypedBin "f" (.bool true))) ∧
      ∃ first, (((docsStore .native).query Memory.client {}).runFrom mixedFormats).1 =
          .ok [first, ("b", ⟨.ofList [("f", .bool true)]⟩)] ∧
        ((docsStore .native).get Memory.client "b").runFrom mixedFormats =
          (.ok (some ⟨.ofList [("f", .bool true)]⟩), mixedFormats) := by
  have hkeyed : mixedFormats.KeyedBy String "app" "docs" :=
    Memory.keyedBy_of_reached (.respond (.respond (.respond .empty _ _) _ _) _ _) _ _
  obtain ⟨-, hfails, -, -⟩ := reads_agree (docsStore .cbor) mixedFormats hkeyed
  obtain ⟨hreads, -⟩ := reads_agree (docsStore .native) mixedFormats hkeyed
  refine ⟨hkeyed, ?_, ?_⟩
  · refine (hfails _ rfl none _).2 ⟨[_], _, [], rfl, ?_, rfl⟩
    intro other hmem
    rw [List.mem_singleton.1 hmem]
    exact ⟨_, rfl⟩
  · exact ⟨_, rfl, ((hreads _ rfl).2.1 _ _).1 (.tail _ (.head _))⟩

end MappedStore

end EntityStore
