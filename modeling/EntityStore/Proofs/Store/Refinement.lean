import EntityStore.Proofs.Entity.LawfulKey
import EntityStore.Proofs.Store.Fits
import EntityStore.Proofs.Store.Pair
import EntityStore.Proofs.Store.Schema

/-!
# A store of documents is a table

A mapped store of documents on a memory store gives the answers of a `Table`, whatever its mapping,
its serializer, its exists action and its requests are (`answers_table`), provided that writes do
not check generations and that every document fits the store.

While the schema exists the collection of the store represents the table: it has a record for each
pair, in the same order, under the digest of the key and with bins that hold the document. Since
keys are read back from their digests, finding, assigning and removing a key mean the same on both
sides. Each request preserves this, and so do all of them, one after the other.
-/

namespace EntityStore

namespace MappedStore

variable {κ : Type} [Key κ] {store : MappedStore κ Document}

/-! ## Collections that represent a table -/

/-- A record holds a pair: it is under the digest of the key, and its bins hold the document. -/
def IsRecordOf (store : MappedStore κ Document) (pair : κ × Document)
    (entry : String × Record) : Prop :=
  entry.1 = Key.digest pair.1 ∧ store.Holds pair.2 entry.2.bins

/-- A collection represents a table if its records hold the pairs of the table, in their order. -/
def Represents (store : MappedStore κ Document) (t : Table κ) (records : Collection) : Prop :=
  List.Forall₂ store.IsRecordOf t records.entries

variable [LawfulKey κ] [DecidableEq κ] {t : Table κ} {records : Collection}

/-- A key is found in the table exactly if the collection has a record under its digest, and the
record holds what is found. -/
theorem Represents.find (h : store.Represents t records) (key : κ) :
    Option.Rel (fun document record => store.Holds document record.bins) (t.find key)
      (records.get? (Key.digest key)) := by
  unfold OrderedMap.get?
  unfold Represents at h
  generalize records.entries = entries at h ⊢
  induction h with
  | nil => exact .none
  | @cons pair entry t entries hhead _ ih =>
    obtain ⟨k, document⟩ := pair
    obtain ⟨digest, record⟩ := entry
    obtain ⟨rfl, hholds⟩ := hhead
    rw [OrderedMap.lookupEntry]
    by_cases heq : key = k
    · subst heq
      have hfind : Table.find ((key, document) :: t) key = some document := by simp [Table.find]
      rw [hfind, if_pos rfl]
      exact .some hholds
    · -- Different keys have different digests, so both sides go on.
      have hdigest : Key.digest key ≠ Key.digest k := fun h => heq (LawfulKey.digest_inj.1 h)
      have hfind : Table.find ((k, document) :: t) key = Table.find t key := by
        simp [Table.find, Ne.symm heq]
      rw [hfind, if_neg hdigest]
      exact ih

/-- Putting a record that holds a document under the digest of a key is assigning the document to
the key. -/
theorem Represents.assign (h : store.Represents t records) (key : κ) {document : Document}
    {record : Record} (hholds : store.Holds document record.bins) :
    store.Represents (t.assign key document) (records.insert (Key.digest key) record) := by
  show List.Forall₂ _ _ (OrderedMap.insertEntry (Key.digest key) record records.entries)
  unfold Represents at h
  generalize records.entries = entries at h ⊢
  have hnew : store.IsRecordOf (key, document) (Key.digest key, record) := ⟨rfl, hholds⟩
  induction h with
  | nil => exact .cons hnew .nil
  | @cons pair entry t entries hhead htail ih =>
    obtain ⟨k, other⟩ := pair
    obtain ⟨digest, stored⟩ := entry
    obtain rfl : digest = Key.digest k := hhead.1
    rw [Table.assign, OrderedMap.insertEntry]
    simp only [LawfulKey.digest_inj]
    -- The order of the pairs is that of the digests, so both sides put the key at the same place.
    split_ifs with hlt heq
    · exact .cons hnew (.cons hhead htail)
    · exact .cons hnew htail
    · exact .cons hhead ih

/-- Removing the record under the digest of a key is removing the key. -/
theorem Represents.remove (h : store.Represents t records) (key : κ) :
    store.Represents (t.remove key) (records.erase (Key.digest key)) := by
  unfold Represents OrderedMap.erase Table.remove at *
  simp only
  generalize records.entries = entries at h ⊢
  induction h with
  | nil => exact .nil
  | @cons pair entry t entries hhead _ ih =>
    obtain ⟨k, document⟩ := pair
    obtain ⟨digest, record⟩ := entry
    obtain rfl : digest = Key.digest k := hhead.1
    by_cases heq : k = key
    · subst heq
      simpa using ih
    · have hdigest : Key.digest k ≠ Key.digest key := fun h => heq (LawfulKey.digest_inj.1 h)
      simpa [heq, hdigest] using And.intro hhead ih

omit [DecidableEq κ] in
/-- Records are read as the pairs that they hold. -/
theorem mapM_pairOf {pairs : List (κ × Document)} {found : List (String × Record)}
    (h : List.Forall₂ store.IsRecordOf pairs found) : found.mapM store.pairOf = .ok pairs := by
  refine mapM_eq_ok_iff.2 (h.imp fun pair found hrecord => ?_).flip
  exact (pairOf_eq_ok_iff ⟨pair.1, hrecord.1.symm⟩).2 ⟨hrecord.1, hrecord.2.decode⟩

/-! ## Stores that stand for a table -/

/-- A memory store stands for a table if the collection represents it, and for no table if there is
no namespace. -/
def StandsFor (store : MappedStore κ Document) (m : Memory) : Option (Table κ) → Prop
  | none => m.get? store.mapping.ns = none
  | some t => ∃ records, m.collection? store.mapping.ns store.mapping.collection = some records ∧
    store.Represents t records

omit [LawfulKey κ] [DecidableEq κ] in
/-- A store stands for a table after other records are in the collection. -/
theorem StandsFor.setCollection {m : Memory} {records records' : Collection}
    (hm : m.collection? store.mapping.ns store.mapping.collection = some records)
    (h : store.Represents t records') :
    store.StandsFor (m.setCollection store.mapping.ns store.mapping.collection records')
      (some t) :=
  ⟨records', Memory.collection?_setCollection hm records', h⟩

omit [LawfulKey κ] [DecidableEq κ] in
/-- A call agrees with a change of the table if it fails without the namespace, and otherwise does
to the collection what the change does to the table. -/
theorem agrees_within {α : Type} {call : Call Memory α}
    {change : Table κ → Except Error α × Table κ}
    (habsent : ∀ m : Memory, m.get? store.mapping.ns = none →
      call.runFrom m = (.error (.store (.namespaceNotFound store.mapping.ns)), m))
    (hpresent : ∀ (m : Memory) (t : Table κ) (records : Collection),
      m.collection? store.mapping.ns store.mapping.collection = some records →
      store.Represents t records →
      (call.runFrom m).1 = (change t).1 ∧
        store.StandsFor (call.runFrom m).2 (some (change t).2)) :
    Call.Agrees store.StandsFor (· = ·) call (Table.within store change) := by
  intro m t hstands
  cases t with
  | none =>
    rw [habsent m hstands]
    exact ⟨.of_eq rfl, hstands⟩
  | some t =>
    obtain ⟨records, hcollection, hrepresents⟩ := hstands
    obtain ⟨hresult, hleft⟩ := hpresent m t records hcollection hrepresents
    exact ⟨.of_eq hresult, hleft⟩

/-- Reading a document. -/
theorem agrees_table_get (key : κ) :
    Call.Agrees store.StandsFor (· = ·) (store.get Memory.client key) (Table.get store key) := by
  unfold get Table.get
  refine agrees_within (fun m habsent => ?_) fun m t records hcollection hrepresents => ?_
  · refine Memory.runFrom_perform_bind_of_error ?_
    rw [Memory.run, addressOf, Memory.findNamespace_of_absent habsent]
    rfl
  · rw [Memory.runFrom_perform_bind_of_ok (Memory.run_get hcollection _)]
    have hstands : store.StandsFor m (some t) := ⟨records, hcollection, hrepresents⟩
    -- What is found on the two sides is named, so that the cases are those of the relation.
    have hfind := hrepresents.find key
    unfold addressOf
    generalize t.find key = found at hfind ⊢
    generalize records.get? (Key.digest key) = record at hfind ⊢
    cases hfind with
    | some hholds =>
      simp only [Call.runFrom_map, hholds.decode]
      exact ⟨rfl, hstands⟩
    | none => exact ⟨rfl, hstands⟩

/-- Removing a document. -/
theorem agrees_table_delete (key : κ) :
    Call.Agrees store.StandsFor (· = ·) (store.delete Memory.client key)
      (Table.delete store key) := by
  unfold delete Table.delete
  refine agrees_within (fun m habsent => ?_) fun m t records hcollection hrepresents => ?_
  · refine Memory.runFrom_perform_bind_of_error ?_
    rw [Memory.run, addressOf, Memory.findNamespace_of_absent habsent]
    rfl
  · rw [Memory.runFrom_perform_bind_of_ok (Memory.run_delete hcollection _)]
    refine ⟨?_, StandsFor.setCollection hcollection (hrepresents.remove key)⟩
    have hfound : records.contains (Key.digest key) = (t.find key).isSome := by
      have hfind := hrepresents.find key
      unfold OrderedMap.contains
      generalize t.find key = found at hfind ⊢
      generalize records.get? (Key.digest key) = record at hfind ⊢
      cases hfind <;> rfl
    exact congrArg Except.ok hfound

omit [DecidableEq κ] in
/-- Reading the pairs. -/
theorem agrees_table_query (q : Query) :
    Call.Agrees store.StandsFor (· = ·) (store.query Memory.client q)
      (Table.within store fun t => (.ok (Table.select q t), t)) := by
  unfold query
  refine agrees_within (fun m habsent => ?_) fun m t records hcollection hrepresents => ?_
  · refine Memory.runFrom_perform_bind_of_error ?_
    rw [Memory.run, Memory.findNamespace_of_absent habsent]
    rfl
  · rw [Memory.runFrom_perform_bind_of_ok (Memory.run_scan hcollection _ _)]
    refine ⟨?_, records, hcollection, hrepresents⟩
    unfold Table.select
    cases q.limit with
    | some n => exact mapM_pairOf (List.forall₂_take n hrepresents)
    | none => exact mapM_pairOf hrepresents

omit [LawfulKey κ] [DecidableEq κ] in
/-- Removing all documents. -/
theorem agrees_table_clear :
    Call.Agrees store.StandsFor (· = ·) (store.clear Memory.client)
      (Table.within store fun _ => (.ok (), [])) := by
  unfold clear
  refine agrees_within (fun m habsent => ?_) fun m t records hcollection hrepresents => ?_
  · refine Memory.runFrom_perform_bind_of_error ?_
    rw [Memory.run, Memory.findCollection_of_absent habsent]
    rfl
  · rw [Memory.runFrom_perform_bind_of_ok (Memory.run_truncate hcollection)]
    exact ⟨rfl, StandsFor.setCollection hcollection .nil⟩

/-! ## Writes -/

omit [Key κ] [LawfulKey κ] [DecidableEq κ] in
/-- An action makes a record that holds what it makes of the document, or fails alike. -/
theorem alike_written (action : ExistsAction) (address : RecordKey) {new : Document} {bins : Bins}
    (hnew : store.Holds new bins) {stored : Option Record} {old : Option Document}
    (hold : Option.Rel (fun document (record : Record) => store.Holds document record.bins)
      old stored) :
    Alike (fun document record => store.Holds document record.bins)
      (Table.written action address new old) (action.apply address bins stored) := by
  cases hold with
  | some h =>
    cases action with
    | createOnly => exact .error _
    | update | updateOnly => exact .ok (h.overlay hnew)
    | replace | replaceOnly => exact .ok hnew
  | none =>
    cases action with
    | updateOnly | replaceOnly => exact .error _
    | update | replace | createOnly => exact .ok hnew

/-- Writing a fitting document. -/
theorem agrees_table_put (hgeneration : store.mapping.writePolicy.generation = .ignore) (key : κ)
    {document : Document} (h : store.Fits document) :
    Call.Agrees store.StandsFor (· = ·) (store.put Memory.client key document)
      (Table.put store key document) := by
  unfold Table.put
  rcases encode_of_fits h with ⟨e, hrefusal, -⟩ | ⟨hrefusal, bins, hencode, hholds⟩
  · -- A refused document does not reach the client, whether the schema exists or not.
    rw [put_of_refusal _ h hrefusal, hrefusal]
    exact fun _ _ hstands => ⟨.error e, hstands⟩
  · rw [put, hrefusal, hencode]
    show Call.Agrees _ _ (Memory.client.perform _ >>= fun _ => pure ()) _
    refine agrees_within (fun m habsent => ?_) fun m t records hcollection hrepresents => ?_
    · refine Memory.runFrom_perform_bind_of_error ?_
      rw [Memory.run, addressOf, Memory.findCollection_of_absent habsent]
      rfl
    · have haddress : m.collection? (store.addressOf key).ns (store.addressOf key).collection =
          some records := hcollection
      have hrun := Memory.run_put haddress bins store.mapping.writePolicy
      rw [Record.afterWrite_of_ignore _ _ hgeneration] at hrun
      have hwritten := alike_written store.mapping.writePolicy.existsAction (store.addressOf key)
        hholds (hrepresents.find key)
      unfold Table.write
      unfold addressOf at hrun hwritten ⊢
      -- From here on only what the action makes of the record and of the document counts.
      generalize ExistsAction.apply _ _ _ _ = result at hrun hwritten
      generalize Table.written _ _ _ _ = result' at hwritten ⊢
      cases hwritten with
      | ok hresult =>
        rw [Memory.runFrom_perform_bind_of_ok hrun]
        refine ⟨rfl, StandsFor.setCollection hcollection (hrepresents.assign key ?_)⟩
        rw [Record.bins_withKey]
        exact hresult
      | error e =>
        rw [Memory.runFrom_perform_bind_of_error hrun]
        exact ⟨rfl, records, hcollection, hrepresents⟩

/-- Writing fitting documents. -/
theorem agrees_table_putAll (hgeneration : store.mapping.writePolicy.generation = .ignore)
    {pairs : List (κ × Document)} (h : ∀ pair ∈ pairs, store.Fits pair.2) :
    Call.Agrees store.StandsFor (· = ·) (store.putAll Memory.client pairs)
      (Table.putAll store pairs) := by
  induction pairs with
  | nil => exact .pure rfl
  | cons pair rest ih =>
    refine (agrees_table_put hgeneration pair.1 (h pair List.mem_cons_self)).bind fun _ _ _ => ?_
    exact ih fun pair hmem => h pair (List.mem_cons_of_mem _ hmem)

/-! ## Requests -/

/-- Each request with fitting documents is answered as the table answers it. -/
theorem agrees_table_respond (hgeneration : store.mapping.writePolicy.generation = .ignore)
    {request : Request κ Document} (h : ∀ document ∈ request.entities, store.Fits document) :
    Call.Agrees store.StandsFor (· = ·) (store.respond Memory.client request)
      (Table.respond store request) := by
  cases request with
  | createSchema =>
    intro m t hstands
    obtain ⟨m', hrun, hcollection⟩ := runFrom_createSchema store m
    rw [respond, Call.runFrom_map, hrun]
    refine ⟨.ok rfl, _, hcollection, ?_⟩
    cases t with
    | none =>
      -- Without a namespace there was no collection, and the new one represents the empty table.
      have habsent : m.get? store.mapping.ns = none := hstands
      rw [Memory.collection?, habsent]
      exact .nil
    | some t =>
      obtain ⟨records, hrecords, hrepresents⟩ := hstands
      rw [hrecords]
      exact hrepresents
  | dropSchema =>
    intro m t hstands
    rw [respond, Call.runFrom_map, dropSchema, Memory.runFrom_perform_bind_of_ok rfl,
      Memory.runFrom_perform_bind_of_ok rfl]
    exact ⟨.ok rfl, by simp [StandsFor, Table.respond]⟩
  | hasSchema =>
    intro m t hstands
    rw [respond, Call.runFrom_map, runFrom_hasSchema]
    refine ⟨.of_eq ?_, hstands⟩
    cases t with
    | none =>
      have habsent : m.get? store.mapping.ns = none := hstands
      rw [Memory.collection?, habsent]
      rfl
    | some t =>
      obtain ⟨records, hrecords, -⟩ := hstands
      rw [hrecords]
      rfl
  | clear => exact agrees_table_clear.map fun _ _ _ => rfl
  | put key document =>
    exact (agrees_table_put hgeneration key (h document List.mem_cons_self)).map fun _ _ _ => rfl
  | putAll pairs =>
    refine (agrees_table_putAll hgeneration fun pair hmem => ?_).map fun _ _ _ => rfl
    exact h pair.2 (List.mem_map_of_mem hmem)
  | get key => exact (agrees_table_get key).map fun _ _ heq => congrArg Answer.entity heq
  | delete key => exact (agrees_table_delete key).map fun _ _ heq => congrArg Answer.found heq
  | query q => exact (agrees_table_query q).map fun _ _ heq => congrArg Answer.pairs heq

/-- From a store without records in its collection on, creating the schema and any requests after
that are answered as a table answers them that starts empty. -/
theorem answers_table (store : MappedStore κ Document) (m : Memory)
    (hgeneration : store.mapping.writePolicy.generation = .ignore)
    (hfresh : ∀ digest,
      m.record? ⟨store.mapping.ns, store.mapping.collection, digest⟩ = none)
    (requests : List (Request κ Document))
    (h : ∀ request ∈ requests, ∀ document ∈ request.entities, store.Fits document) :
    Call.answers (store.respond Memory.client) (.createSchema :: requests) m =
      Call.answers (Table.respond store) (.createSchema :: requests) none := by
  obtain ⟨m', hrun, hcollection⟩ := runFrom_createSchema store m
  -- A collection without records is the empty one, whether it was there before or not.
  have hempty : ((m.collection? store.mapping.ns store.mapping.collection).getD .empty) =
      .empty := by
    cases hrecords : m.collection? store.mapping.ns store.mapping.collection with
    | none => rfl
    | some records =>
      refine OrderedMap.ext_get? fun digest => ?_
      have hnone := hfresh digest
      obtain ⟨collections, hns, hname⟩ := Option.bind_eq_some_iff.1 hrecords
      simpa [Memory.record?, hns, hname] using hnone
  have hstands : store.StandsFor m' (some ([] : Table κ)) :=
    ⟨_, hcollection, by rw [hempty]; exact .nil⟩
  have hrest := Call.answers_eq_of_agrees
    (fun request hmem => agrees_table_respond hgeneration (h request hmem)) hstands
  rw [Call.answers, Call.answers, respond, Call.runFrom_map, hrun, Table.respond]
  exact congrArg (List.cons (.ok .done)) hrest

/-- A CBOR store of documents, in the collection `docs` of the namespace `app`, where the field `a`
goes to the bin `b`. -/
def boundStore : MappedStore String Document where
  mapping := ⟨"String", "polystore.Document", "app", "docs", .ofList [("a", "b")], {}, {}⟩
  serializer := .cbor

/-- A second write lays its fields over those of the first one, and a removed document is gone. -/
theorem answers_table_merged :
    boundStore.mapping.writePolicy.generation = .ignore ∧
      (∀ digest, Memory.record? .empty ⟨"app", "docs", digest⟩ = none) ∧
      boundStore.Fits ⟨.ofList [("a", .bool true)]⟩ ∧ boundStore.Fits ⟨.ofList [("c", .null)]⟩ ∧
      Call.answers (boundStore.respond Memory.client)
        [.createSchema, .put "k" ⟨.ofList [("a", .bool true)]⟩, .put "k" ⟨.ofList [("c", .null)]⟩,
          .get "k", .delete "k", .query {}] (.empty : Memory) =
      [.ok .done, .ok .done, .ok .done,
        .ok (.entity (some ⟨.ofList [("a", .bool true), ("c", .null)]⟩)), .ok (.found true),
        .ok (.pairs [])] := by
  have ha : boundStore.Fits ⟨.ofList [("a", .bool true)]⟩ :=
    fits_singleton (by decide) ⟨trivial, by decide⟩
  have hc : boundStore.Fits ⟨.ofList [("c", .null)]⟩ :=
    fits_singleton (by decide) ⟨trivial, by decide⟩
  refine ⟨rfl, fun _ => rfl, ha, hc, ?_⟩
  refine (answers_table boundStore .empty rfl (fun _ => rfl) _ ?_).trans rfl
  intro request hrequest document hdocument
  simp only [List.mem_cons, List.not_mem_nil, or_false] at hrequest
  rcases hrequest with rfl | rfl | rfl | rfl | rfl
  · exact List.mem_singleton.1 hdocument ▸ ha
  · exact List.mem_singleton.1 hdocument ▸ hc
  · exact absurd hdocument List.not_mem_nil
  · exact absurd hdocument List.not_mem_nil
  · exact absurd hdocument List.not_mem_nil

/-- A document with a text of `2 ^ 20` characters fits a CBOR store, but is refused for its size. -/
theorem put_oversized_text :
    boundStore.mapping.writePolicy.generation = .ignore ∧
      boundStore.Fits ⟨.ofList [("f", .string (String.ofList (.replicate 1048576 'z')))]⟩ ∧
      Call.answers (boundStore.respond Memory.client)
        [.createSchema,
          .put "k" ⟨.ofList [("f", .string (String.ofList (.replicate 1048576 'z')))]⟩,
          .get "k"] (.empty : Memory) =
      [.ok .done, .error (.serialization (.oversizedBin "f")), .ok (.entity none)] := by
  have hlength : 1048576 ≤ (String.ofList (.replicate 1048576 'z')).toList.length := by
    rw [String.toList_ofList, List.length_replicate]
  -- The text is not looked into, only its length counts.
  generalize String.ofList (.replicate 1048576 'z') = text at hlength ⊢
  have hfits : boundStore.Fits ⟨.ofList [("f", .string text)]⟩ :=
    fits_singleton (by decide) ⟨trivial, Nat.zero_le _⟩
  have htoolong : Serializer.cbor.accepts (.string text) = false := by
    have hwrite := Cbor.length_lt_write_string text
    unfold Serializer.accepts fieldLimit
    exact decide_eq_false (by omega)
  have hrefusal : boundStore.refusal? ⟨.ofList [("f", .string text)]⟩ =
      some (.serialization (.oversizedBin "f")) := by
    show Option.map _ (List.find? _ [("f", Json.string text)]) = _
    rw [List.find?_cons_of_pos (by simp [boundStore, htoolong])]
    rfl
  refine ⟨rfl, hfits, ?_⟩
  simp only [Call.answers, respond, put_of_refusal _ hfits hrefusal]
  rfl

end MappedStore

end EntityStore
