import EntityStore.Proofs.Memory.Address
import EntityStore.Proofs.Store.Dialogue

/-!
# What requests keep in a memory store

Over a memory store, a request is the dialogue of its plan. So a property of memory stores that the
operations of the plan keep is kept by the request (`MappedStore.keeps_respond`).

In particular the digests in a memory store are those of keys, if only stores of one key type have
ever written to it (`Memory.keyedBy_of_reached`).
-/

namespace EntityStore

variable {κ ε : Type}

namespace MappedStore

variable [Key κ] [Entity ε] {store : MappedStore κ ε} {P : Memory → Prop}

omit [Entity ε] in
/-- A write that a store issues is at the address of a key. -/
theorem Issues.exists_addressOf {operation : Operation} (h : store.Issues operation)
    {address : RecordKey} {bins : Bins} {policy : WritePolicy}
    (hput : operation = .put address bins policy) : ∃ key, store.addressOf key = address := by
  cases h with
  | put key bins =>
    cases hput
    exact ⟨key, rfl⟩
  | _ => cases hput

/-- What the operations of its plan keep is kept by a request. -/
theorem keeps_respond {request : Request κ ε}
    (h : ∀ operation m, .execute operation ∈ store.plan request → P m → P (m.next operation)) :
    (store.respond Memory.client request).Keeps P := by
  intro m hm
  obtain ⟨_, _, m', _, hdialogue, -, hrun, -⟩ := conducts_respond Memory.client store request m []
  rw [hrun]
  refine hdialogue.keeps (fun call hcall m hm => ?_) hm
  cases call with
  | execute operation => exact h operation m hcall hm
  | metadata ns => exact hm
  | close => exact hm

/-- An entity that is accepted leaves the record that the write of its bins makes of the stored
one. -/
theorem exists_afterWrite_of_put {m m' : Memory} {key : κ} {entity : ε}
    (h : (store.put Memory.client key entity).runFrom m = (.ok (), m')) :
    ∃ bins record, store.encode entity = .ok bins ∧
      Record.afterWrite (store.addressOf key) bins store.mapping.writePolicy
        (m.record? (store.addressOf key)) = .ok record ∧
      m'.record? (store.addressOf key) = some record := by
  cases hencode : store.encode entity with
  | error e =>
    rw [put_of_encode_error hencode] at h
    cases h
  | ok bins =>
    rw [put_of_encode hencode] at h
    cases hrun : m.run (.put (store.addressOf key) bins store.mapping.writePolicy) with
    | error e =>
      rw [Memory.runFrom_perform_bind_of_error hrun] at h
      cases h
    | ok result =>
      obtain ⟨outcome, left⟩ := result
      rw [Memory.runFrom_perform_bind_of_ok hrun] at h
      obtain rfl : left = m' := congrArg Prod.snd h
      have hexecute : (Memory.client.execute
          (.put (store.addressOf key) bins store.mapping.writePolicy) m).1 = .ok outcome := by
        rw [Memory.execute_of_ok hrun]
      have hwrites := Memory.writeOf?_put_of_ok hexecute
      -- The operation is a write of the record and succeeds, so that the other cases are out.
      cases m.touch (store.addressOf key)
          (.put (store.addressOf key) bins store.mapping.writePolicy) with
      | removed hremoves => cases hremoves
      | kept _ hwrite =>
        rw [hwrites] at hwrite
        cases hwrite
      | written _ hwrite hafter hrecord =>
        rw [hwrites] at hwrite
        obtain rfl := Option.some.inj hwrite
        rw [Memory.next_of_ok hrun] at hrecord
        exact ⟨bins, _, rfl, hafter, hrecord⟩

end MappedStore

/-! ## Digests of keys -/

namespace Memory

/-- The digests in a collection are those of keys of a type. -/
def KeyedBy (κ : Type) [Key κ] (m : Memory) (ns name : String) : Prop :=
  ∀ digest record, m.record? ⟨ns, name, digest⟩ = some record → ∃ key : κ, Key.digest key = digest

/-- The states of a memory store that only mapped stores of one key type have used, with whatever
mappings, serializers and types of entities. -/
inductive ReachedBy (κ : Type) [Key κ] : Memory → Prop where
  /-- Nobody has used the store. -/
  | empty : ReachedBy κ .empty
  /-- A mapped store has answered one more request. -/
  | respond {m : Memory} {ε : Type} [Entity ε] (h : ReachedBy κ m) (store : MappedStore κ ε)
      (request : Request κ ε) : ReachedBy κ ((store.respond client request).runFrom m).2

/-- An operation of a mapped store leaves digests of keys where there were digests of keys. -/
theorem keyedBy_next [Key κ] {store : MappedStore κ ε} {operation : Operation}
    (hissues : store.Issues operation) {m : Memory} (hkeyed : ∀ ns name, m.KeyedBy κ ns name)
    (ns name : String) : (m.next operation).KeyedBy κ ns name := by
  intro digest record hrecord
  cases m.touch ⟨ns, name, digest⟩ operation with
  | removed _ _ hnone =>
    rw [hnone] at hrecord
    cases hrecord
  | kept _ _ hsame => exact hkeyed ns name digest record (hsame ▸ hrecord)
  | written _ hwrite =>
    -- Only a write writes, and the store writes the records of keys.
    obtain ⟨key, haddress⟩ := hissues.exists_addressOf (eq_put_of_writeOf? hwrite)
    exact ⟨key, congrArg RecordKey.digest haddress⟩

/-- As long as only mapped stores of one key type use a memory store, all digests are those of
keys. -/
theorem keyedBy_of_reached [Key κ] {m : Memory} (h : m.ReachedBy κ) (ns name : String) :
    m.KeyedBy κ ns name := by
  induction h generalizing ns name with
  | empty =>
    intro digest record hrecord
    cases hrecord
  | respond _ store request ih =>
    refine MappedStore.keeps_respond (P := fun m => ∀ ns name, m.KeyedBy κ ns name) ?_ _ ih ns name
    exact fun operation m hmem hkeyed => keyedBy_next (MappedStore.concerns_of_mem_plan hmem) hkeyed

end Memory

end EntityStore
