import EntityStore.Proofs.Entity.LawfulKey
import EntityStore.Proofs.Memory.Independence
import EntityStore.Proofs.Memory.Put
import EntityStore.Proofs.Store.Issued
import EntityStore.Proofs.Store.Reading

/-!
# Keys do not share records

A request to write, read or remove the entity under a key is one operation on the record at the
address of the key, and what becomes of its outcome does not depend on the client
(`MappedStore.Single`). So what requests under two keys have to do with each other follows from what
operations at their addresses have to do with each other.

The addresses of two keys are equal only if their digests are, and a key is read back from its
digest (`LawfulKey`). So different keys have different records: no request under one of them changes
the record of the other, or has another answer because of a request under the other
(`KeysApart`). All types of keys are like this (`keys_never_alias`).
-/

namespace EntityStore

/-- A request to write, read or remove the entity under a key. -/
inductive Request.Under {κ ε : Type} (key : κ) : Request κ ε → Prop where
  /-- Writing. -/
  | put (entity : ε) : Under key (.put key entity)
  /-- Reading. -/
  | get : Under key (.get key)
  /-- Removing. -/
  | delete : Under key (.delete key)

/-- The address of the record that a call concerns, if it concerns a single one. -/
def ClientCall.address? : ClientCall → Option RecordKey
  | .execute operation => operation.address?
  | .metadata _ | .close => none

/-- A call that needs the client for one operation only. -/
theorem Client.runFrom_perform_bind {σ α : Type} (client : Client σ) (operation : Operation)
    {f : Outcome → Call σ α} {conclude : Outcome → Except Error α}
    (h : ∀ outcome s, (f outcome).runFrom s = (conclude outcome, s)) (s : σ) :
    (client.perform operation >>= f).runFrom s =
      (((client.execute operation s).1.mapError .store).bind conclude,
        (client.execute operation s).2) := by
  rw [Call.runFrom_bind, perform, Call.runFrom_ofState]
  cases (client.execute operation s).1 with
  | error e => rfl
  | ok outcome => exact h outcome _

namespace MappedStore

variable {κ ε σ : Type} [Key κ] [Entity ε] {store : MappedStore κ ε} {key key' : κ}
  {request request' : Request κ ε} {m m' : Memory}

/-! ## Requests of a single operation -/

/-- The calls that a client receives upon a request. -/
def callsOf (store : MappedStore κ ε) (client : Client σ) (request : Request κ ε) (s : σ) :
    List ClientCall :=
  ((store.respond client.logged request).runFrom (s, [])).2.2.reverse

/-- The request is a single operation on the record at an address. -/
structure Single (store : MappedStore κ ε) (request : Request κ ε) (address : RecordKey)
    (operation : Operation) (conclude : Except StoreError Outcome → Except Error (Answer κ ε)) :
    Prop where
  /-- The operation is at the address. -/
  address : operation.address? = some address
  /-- The client executes the operation, and the answer follows from its outcome. -/
  run : ∀ {σ : Type} (client : Client σ) (s : σ),
    (store.respond client request).runFrom s =
      (conclude (client.execute operation s).1, (client.execute operation s).2)

/-- What the outcome of a read says about the entity. -/
def entityOf (store : MappedStore κ ε) : Outcome → Except Error (Option ε)
  | .record (some record) => (store.decode record.bins).map some
  | .record none => .ok none
  | outcome => .error (.unexpected outcome "get")

/-- What the outcome of a removal says. -/
def removedOf : Outcome → Except Error Bool
  | .deleted removed => .ok removed
  | outcome => .error (.unexpected outcome "delete")

/-- The write of an entity with bins. -/
theorem runFrom_put_of_encode {entity : ε} {bins : Bins}
    (h : store.encode entity = .ok bins) (client : Client σ) (key : κ) (s : σ) :
    let operation : Operation := .put (store.addressOf key) bins store.mapping.writePolicy
    (store.put client key entity).runFrom s =
      (((client.execute operation s).1.mapError .store).bind fun _ => .ok (),
        (client.execute operation s).2) := by
  intro operation
  rw [put_of_encode h]
  exact client.runFrom_perform_bind operation (fun _ _ => rfl) s

/-- The read of an entity. -/
theorem runFrom_get (store : MappedStore κ ε) (client : Client σ) (key : κ) (s : σ) :
    let operation : Operation := .get (store.addressOf key) store.mapping.readPolicy
    (store.get client key).runFrom s =
      (((client.execute operation s).1.mapError .store).bind store.entityOf,
        (client.execute operation s).2) := by
  intro operation
  refine client.runFrom_perform_bind operation (fun outcome s => ?_) s
  cases outcome with
  | record found =>
    cases found with
    | none => rfl
    | some record => exact Call.runFrom_map some (.ofExcept (store.decode record.bins)) s
  | _ => rfl

omit [Entity ε] in
/-- The removal of an entity. -/
theorem runFrom_delete (store : MappedStore κ ε) (client : Client σ) (key : κ) (s : σ) :
    let operation : Operation := .delete (store.addressOf key) store.mapping.writePolicy
    (store.delete client key).runFrom s =
      (((client.execute operation s).1.mapError .store).bind removedOf,
        (client.execute operation s).2) := by
  intro operation
  refine client.runFrom_perform_bind operation (fun outcome s => ?_) s
  cases outcome <;> rfl

/-- A request under a key is a single operation at the address of the key, or it writes an entity
without bins, and fails. -/
theorem single_of_under (store : MappedStore κ ε) (h : request.Under key) :
    (∃ operation conclude, store.Single request (store.addressOf key) operation conclude) ∨
      ∃ entity e, request = .put key entity ∧ store.encode entity = .error e ∧
        ∀ {σ : Type} (client : Client σ) (s : σ),
          (store.respond client request).runFrom s = (.error e, s) := by
  cases h with
  | put entity =>
    cases hencode : store.encode entity with
    | error e =>
      refine .inr ⟨entity, e, rfl, hencode, fun client s => ?_⟩
      rw [respond, Call.runFrom_map, put_of_encode_error hencode]
      rfl
    | ok bins =>
      refine .inl ⟨.put (store.addressOf key) bins store.mapping.writePolicy,
        fun result => ((result.mapError .store).bind fun _ => .ok ()).map fun _ => .done, rfl,
        fun client s => ?_⟩
      rw [respond, Call.runFrom_map, runFrom_put_of_encode hencode client key s]
  | get =>
    refine .inl ⟨.get (store.addressOf key) store.mapping.readPolicy,
      fun result => ((result.mapError .store).bind store.entityOf).map .entity, rfl,
      fun client s => ?_⟩
    rw [respond, Call.runFrom_map, store.runFrom_get client key s]
  | delete =>
    refine .inl ⟨.delete (store.addressOf key) store.mapping.writePolicy,
      fun result => ((result.mapError .store).bind removedOf).map .found, rfl,
      fun client s => ?_⟩
    rw [respond, Call.runFrom_map, store.runFrom_delete client key s]

/-- A request under a key calls the client once, for the record at the address of the key, or it
writes an entity without bins, and does not call the client at all. -/
theorem callsOf_of_under (store : MappedStore κ ε) (h : request.Under key) (client : Client σ)
    (s : σ) :
    (∃ call, store.callsOf client request s = [call] ∧
        call.address? = some (store.addressOf key)) ∨
      store.callsOf client request s = [] ∧
        ∃ entity e, request = .put key entity ∧ store.encode entity = .error e := by
  rcases store.single_of_under h with ⟨operation, conclude, hsingle⟩ |
    ⟨entity, e, hrequest, hencode, hrun⟩
  · refine .inl ⟨.execute operation, ?_, hsingle.address⟩
    rw [callsOf, hsingle.run]
    rfl
  · refine .inr ⟨?_, entity, e, hrequest, hencode⟩
    rw [callsOf, hrun]
    rfl

/-! ## Different addresses -/

/-- A request under a key leaves the records at other addresses. -/
theorem record?_of_under (h : request.Under key) {address : RecordKey}
    (hne : address ≠ store.addressOf key) (m : Memory) :
    ((store.respond Memory.client request).runFrom m).2.record? address = m.record? address := by
  rcases store.single_of_under h with ⟨operation, conclude, hsingle⟩ | ⟨_, _, -, -, hrun⟩
  · rw [hsingle.run]
    exact Memory.record?_next_of_ne hsingle.address hne m
  · rw [hrun]

/-- A request has the same answer whether or not one at another address has come before it. -/
theorem answer_of_under (h : request.Under key) (h' : request'.Under key')
    (hne : store.addressOf key ≠ store.addressOf key') (m : Memory) :
    ((store.respond Memory.client request').runFrom
        ((store.respond Memory.client request).runFrom m).2).1 =
      ((store.respond Memory.client request').runFrom m).1 := by
  rcases store.single_of_under h' with ⟨operation', conclude', hsingle'⟩ | ⟨_, _, -, -, hrun'⟩
  · rcases store.single_of_under h with ⟨operation, conclude, hsingle⟩ | ⟨_, _, -, -, hrun⟩
    · have hapart : operation.Apart operation' :=
        ⟨_, _, hsingle.address, hsingle'.address, hne⟩
      rw [hsingle.run, hsingle'.run, hsingle'.run]
      exact congrArg conclude' (Memory.result_next hapart m)
    · rw [hrun]
  · rw [hrun', hrun']

/-! ## One address -/

/-- An entity that is accepted changes the record of its key. -/
theorem record?_ne_of_put {entity : ε}
    (h : (store.put Memory.client key entity).runFrom m = (.ok (), m')) :
    m'.record? (store.addressOf key) ≠ m.record? (store.addressOf key) := by
  obtain ⟨bins, record, -, hafter, hrecord⟩ := exists_afterWrite_of_put h
  have hleaves := Record.leaves_of_afterWrite (w := ⟨bins, store.mapping.writePolicy⟩) hafter
  rw [hrecord]
  exact hleaves.ne_some.symm

omit [Entity ε] in
/-- A removal that finds the record of its key changes it. -/
theorem record?_ne_of_delete (h : (store.delete Memory.client key).runFrom m = (.ok true, m')) :
    m'.record? (store.addressOf key) ≠ m.record? (store.addressOf key) := by
  rw [store.runFrom_delete Memory.client key m] at h
  obtain ⟨hresult, hleft⟩ := Prod.mk.inj h
  have hdeleted : (Memory.client.execute
      (.delete (store.addressOf key) store.mapping.writePolicy) m).1 = .ok (.deleted true) := by
    cases hexecute : (Memory.client.execute
        (.delete (store.addressOf key) store.mapping.writePolicy) m).1 with
    | error e =>
      rw [hexecute] at hresult
      cases hresult
    | ok outcome =>
      rw [hexecute] at hresult
      cases outcome with
      | deleted removed =>
        obtain rfl : removed = true := Except.ok.inj hresult
        rfl
      | _ => cases hresult
  obtain ⟨hstored, hnone⟩ := Memory.record?_of_deleted hdeleted
  rw [← hleft]
  exact fun hsame => hstored (hsame.symm.trans hnone)

/-! ## Keys that are read back -/

omit [Entity ε] in
/-- The addresses of two keys are the same exactly if the keys are equal. -/
theorem addressOf_inj [LawfulKey κ] : store.addressOf key = store.addressOf key' ↔ key = key' := by
  constructor
  · intro h
    have hdigest : Key.digest key = Key.digest key' := congrArg RecordKey.digest h
    exact LawfulKey.digest_inj.1 hdigest
  · rintro rfl
    rfl

/-- A request that changes the record of its own key changes no other. -/
theorem record?_ne_iff_of_under [LawfulKey κ] (h : request.Under key)
    (hleft : ((store.respond Memory.client request).runFrom m).2 = m')
    (hchanged : m'.record? (store.addressOf key) ≠ m.record? (store.addressOf key)) :
    m'.record? (store.addressOf key') ≠ m.record? (store.addressOf key') ↔ key' = key := by
  constructor
  · intro hne
    by_contra hkey
    have haddress : store.addressOf key' ≠ store.addressOf key := mt addressOf_inj.1 hkey
    have hsame := record?_of_under h haddress m
    rw [hleft] at hsame
    exact hne hsame
  · rintro rfl
    exact hchanged

end MappedStore

/-! ## Types of keys -/

/-- Keys of a type do not share records. -/
structure KeysApart (κ : Type) [Key κ] : Prop where
  /-- A key is read back from its digest. -/
  readBack (key : κ) : Key.ofDigest (Key.digest key) = .ok key
  /-- Two keys have the same digest exactly if they are equal. -/
  digests (key key' : κ) : Key.digest key = Key.digest key' ↔ key = key'
  /-- A request under a key calls the client once, for the record at the address of the key, unless
  it writes an entity without bins. -/
  calls {ε σ : Type} [Entity ε] (store : MappedStore κ ε) (client : Client σ) (s : σ)
    (request : Request κ ε) (key : κ) (h : request.Under key) :
    (∃ call, store.callsOf client request s = [call] ∧
        call.address? = some (store.addressOf key)) ∨
      store.callsOf client request s = [] ∧
        ∃ entity e, request = .put key entity ∧ store.encode entity = .error e
  /-- The addresses of two keys are the same exactly if the keys are equal. -/
  addresses {ε : Type} (store : MappedStore κ ε) (key key' : κ) :
    store.addressOf key = store.addressOf key' ↔ key = key'
  /-- An entity that is accepted under a key changes the record of another key exactly if the two
  are equal. -/
  written {ε : Type} [Entity ε] (store : MappedStore κ ε) (key key' : κ) (entity : ε)
    (m m' : Memory) (h : (store.put Memory.client key entity).runFrom m = (.ok (), m')) :
    m'.record? (store.addressOf key') ≠ m.record? (store.addressOf key') ↔ key' = key
  /-- A removal that finds a record under a key changes that of another key exactly if the two are
  equal. -/
  removed {ε : Type} [Entity ε] (store : MappedStore κ ε) (key key' : κ) (m m' : Memory)
    (h : (store.delete Memory.client key).runFrom m = (.ok true, m')) :
    m'.record? (store.addressOf key') ≠ m.record? (store.addressOf key') ↔ key' = key
  /-- No request notices one under another key before it. -/
  unnoticed {ε : Type} [Entity ε] (store : MappedStore κ ε) (key key' : κ) (hne : key ≠ key')
    (request request' : Request κ ε) (h : request.Under key) (h' : request'.Under key')
    (m : Memory) :
    ((store.respond Memory.client request').runFrom
        ((store.respond Memory.client request).runFrom m).2).1 =
      ((store.respond Memory.client request').runFrom m).1

open MappedStore in
/-- Keys that are read back from their digests do not share records. -/
theorem LawfulKey.keysApart (κ : Type) [Key κ] [LawfulKey κ] : KeysApart κ where
  readBack := ofDigest_digest
  digests _ _ := digest_inj
  calls store client s _ _ h := store.callsOf_of_under h client s
  addresses _ _ _ := addressOf_inj
  written store key _ entity m m' h := by
    have hleft : ((store.respond Memory.client (.put key entity)).runFrom m).2 = m' := by
      rw [respond, Call.runFrom_map, h]
    exact record?_ne_iff_of_under (.put entity) hleft (record?_ne_of_put h)
  removed store key _ m m' h := by
    have hleft : ((store.respond Memory.client (.delete key)).runFrom m).2 = m' := by
      rw [respond, Call.runFrom_map, h]
    exact record?_ne_iff_of_under .delete hleft (record?_ne_of_delete h)
  unnoticed _ _ _ hne _ _ h h' m := answer_of_under h h' (mt addressOf_inj.1 hne) m

/-- Keys never share records: texts, words of 64 and of 32 bits with and without sign, and the keys
of users are read back from their digests. So two of a type have the same digest exactly if they are
equal, and requests under them to write, read or remove an entity are for the same record exactly if
they are equal. -/
theorem keys_never_alias :
    KeysApart String ∧ KeysApart UInt64 ∧ KeysApart Int64 ∧ KeysApart UInt32 ∧ KeysApart Int32 ∧
      KeysApart UserKey :=
  ⟨LawfulKey.keysApart String, LawfulKey.keysApart UInt64, LawfulKey.keysApart Int64,
    LawfulKey.keysApart UInt32, LawfulKey.keysApart Int32, LawfulKey.keysApart UserKey⟩

open MappedStore in
/-- A quotation mark with a backslash before it has another record than the mark alone. -/
theorem keys_never_alias_quoted :
    ∃ m', ((docsStore .cbor).put Memory.client "\"" ⟨.empty⟩).runFrom mixedFormats = (.ok (), m') ∧
      m'.record? ((docsStore .cbor).addressOf "\"") ≠
        mixedFormats.record? ((docsStore .cbor).addressOf "\"") ∧
      m'.record? ((docsStore .cbor).addressOf "\\\"") =
        mixedFormats.record? ((docsStore .cbor).addressOf "\\\"") := by
  obtain ⟨hstring, -⟩ := keys_never_alias
  have hkeys : "\\\"" ≠ "\"" := by decide
  obtain ⟨m', hput⟩ : ∃ m',
      ((docsStore .cbor).put Memory.client "\"" ⟨.empty⟩).runFrom mixedFormats = (.ok (), m') :=
    ⟨_, rfl⟩
  have hwritten (key : String) := hstring.written (docsStore .cbor) "\"" key ⟨.empty⟩ _ m' hput
  refine ⟨m', hput, (hwritten "\"").2 rfl, ?_⟩
  by_contra hchanged
  exact hkeys ((hwritten "\\\"").1 hchanged)

end EntityStore
