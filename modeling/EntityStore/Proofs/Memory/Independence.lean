import EntityStore.Proofs.Memory.Address
import Mathlib.Data.List.Pairwise

/-!
# Operations on different records

A write, a read or a removal concerns the record at one address (`Operation.address?`). What it
finds there is the site of the address: there may be no namespace, or no collection in it, or else
a place for the record, with or without one (`Memory.Site`). The sites of all addresses determine
the store (`Memory.ext_site`).

Such an operation visits its site (`Memory.Visits`): the result and what is left there follow from
what it finds there, whatever the rest of the store is like, and all other sites stay as they are.
So two operations at different addresses may change places, and neither notices the other. With any
number of them at pairwise different addresses the order does not matter
(`Memory.after_eq_of_perm`).
-/

namespace EntityStore

/-- The address of the record that an operation concerns, if it concerns a single one. -/
def Operation.address? : Operation → Option RecordKey
  | put key _ _ | get key _ | delete key _ => some key
  | _ => none

/-- The operations concern the records at two different addresses. -/
def Operation.Apart (a b : Operation) : Prop :=
  ∃ key key', a.address? = some key ∧ b.address? = some key' ∧ key ≠ key'

/-- It does not matter which of the two operations comes first. -/
theorem Operation.Apart.symm {a b : Operation} (h : a.Apart b) : b.Apart a := by
  obtain ⟨key, key', ha, hb, hne⟩ := h
  exact ⟨key', key, hb, ha, hne.symm⟩

instance : Std.Symm Operation.Apart := ⟨fun _ _ => Operation.Apart.symm⟩

namespace Memory

/-! ## Sites -/

/-- What a store has for the record at an address. -/
inductive Site where
  /-- The namespace does not exist. -/
  | noNamespace
  /-- The namespace exists, but not the collection in it. -/
  | noCollection
  /-- The collection exists, and may have a record there. -/
  | place (stored : Option Record)

/-- The site of an address. -/
def site (m : Memory) (key : RecordKey) : Site :=
  match m.get? key.ns with
  | none => .noNamespace
  | some collections =>
    match collections.get? key.collection with
    | none => .noCollection
    | some records => .place (records.get? key.digest)

variable {m : Memory} {key : RecordKey}

/-- Without the namespace there is no site in it. -/
theorem site_of_absent (h : m.get? key.ns = none) : m.site key = .noNamespace := by
  rw [site, h]

/-- Without the collection there is no place for the record. -/
theorem site_of_get? {collections : Namespace} (hns : m.get? key.ns = some collections)
    (hname : collections.get? key.collection = none) : m.site key = .noCollection := by
  simp only [site, hns, hname]

/-- In a collection there is a place for the record. -/
theorem site_of_collection? {records : Collection}
    (h : m.collection? key.ns key.collection = some records) :
    m.site key = .place (records.get? key.digest) := by
  obtain ⟨collections, hns, hname⟩ := collection?_eq_some_iff.1 h
  simp only [site, hns, hname]

/-- An address has no namespace, or a namespace without its collection, or a collection. -/
theorem site_cases (m : Memory) (key : RecordKey) :
    m.get? key.ns = none ∨
      (∃ collections, m.get? key.ns = some collections ∧
        collections.get? key.collection = none) ∨
      ∃ records, m.collection? key.ns key.collection = some records := by
  cases hns : m.get? key.ns with
  | none => exact .inl rfl
  | some collections =>
    cases hname : collections.get? key.collection with
    | none => exact .inr (.inl ⟨collections, rfl, hname⟩)
    | some records =>
      exact .inr (.inr ⟨records, collection?_eq_some_iff.2 ⟨collections, hns, hname⟩⟩)

/-- An address whose site has no namespace is in none. -/
theorem site_eq_noNamespace_iff : m.site key = .noNamespace ↔ m.get? key.ns = none := by
  refine ⟨fun h => ?_, site_of_absent⟩
  rcases m.site_cases key with hns | ⟨collections, hns, hname⟩ | ⟨records, hrecords⟩
  · exact hns
  · rw [site_of_get? hns hname] at h
    cases h
  · rw [site_of_collection? hrecords] at h
    cases h

/-- The sites of all addresses determine the store. -/
theorem ext_site {m m' : Memory} (h : ∀ key, m.site key = m'.site key) : m = m' := by
  refine OrderedMap.ext_get? fun ns => ?_
  have hnone : m.get? ns = none ↔ m'.get? ns = none := by
    -- Any address in the namespace tells whether it is there, also if it has no collections.
    have hsite : (RecordKey.mk ns "" "").ns = ns := rfl
    rw [← hsite, ← site_eq_noNamespace_iff, ← site_eq_noNamespace_iff, h]
  cases hns : m.get? ns with
  | none => exact (hnone.1 hns).symm
  | some collections =>
    obtain ⟨collections', hns'⟩ : ∃ collections', m'.get? ns = some collections' := by
      refine Option.ne_none_iff_exists'.1 fun hns' => ?_
      rw [hnone.2 hns'] at hns
      cases hns
    rw [hns']
    refine congrArg some (OrderedMap.ext_get? fun name => ?_)
    have hsite (digest : String) := h ⟨ns, name, digest⟩
    simp only [site, hns, hns'] at hsite
    cases hname : collections.get? name <;> cases hname' : collections'.get? name <;>
      simp only [hname, hname', Site.place.injEq, reduceCtorEq, forall_const] at hsite
    · rfl
    · exact congrArg some (OrderedMap.ext_get? hsite)

/-- With other records in one collection, a site stays as it was if its own record does. -/
theorem site_setCollection {ns name : String} {records records' : Collection}
    (h : m.collection? ns name = some records)
    (hsame : key.ns = ns → key.collection = name →
      records'.get? key.digest = records.get? key.digest) :
    (m.setCollection ns name records').site key = m.site key := by
  obtain ⟨collections, hns, hname⟩ := collection?_eq_some_iff.1 h
  rw [setCollection, OrderedMap.modify_of_get? hns]
  unfold site
  rw [OrderedMap.get?_insert]
  by_cases hkey : key.ns = ns
  · rw [if_pos hkey, hkey, hns]
    simp only [OrderedMap.get?_insert]
    by_cases hcollection : key.collection = name
    · rw [if_pos hcollection, hcollection, hname]
      simp only [hsame hkey hcollection]
    · rw [if_neg hcollection]
  · rw [if_neg hkey]

/-! ## Operations visit a site -/

/-- An operation at an address: its result and what it leaves there follow by `visit` from what it
finds there, and the other sites stay as they are. -/
structure Visits (m : Memory) (operation : Operation) (key : RecordKey)
    (visit : Site → Except StoreError Outcome × Site) : Prop where
  /-- The result and what is left at the address. -/
  here : ((client.execute operation m).1, (m.next operation).site key) = visit (m.site key)
  /-- The other addresses. -/
  elsewhere : ∀ other, other ≠ key → (m.next operation).site other = m.site other

/-- What a write makes of a site. -/
def Site.put (key : RecordKey) (bins : Bins) (policy : WritePolicy) :
    Site → Except StoreError Outcome × Site
  | .noNamespace => (.error (.namespaceNotFound key.ns), .noNamespace)
  | .noCollection => (.error (.collectionNotFound key.ns key.collection), .noCollection)
  | .place stored =>
    match Record.afterWrite key bins policy stored with
    | .ok record => (.ok .done, .place (some record))
    | .error e => (.error e, .place stored)

/-- What a read finds at a site, which it leaves as it is. -/
def Site.get (key : RecordKey) : Site → Except StoreError Outcome × Site
  | .noNamespace => (.error (.namespaceNotFound key.ns), .noNamespace)
  | .noCollection => (.ok (.record none), .noCollection)
  | .place stored => (.ok (.record stored), .place stored)

/-- What a removal makes of a site. -/
def Site.delete (key : RecordKey) : Site → Except StoreError Outcome × Site
  | .noNamespace => (.error (.namespaceNotFound key.ns), .noNamespace)
  | .noCollection => (.ok (.deleted false), .noCollection)
  | .place stored => (.ok (.deleted stored.isSome), .place none)

variable {operation : Operation} {visit : Site → Except StoreError Outcome × Site}
  {records records' : Collection}

/-- An operation that leaves the store as it was leaves the site as it was. -/
theorem visits_of_same {result : Except StoreError Outcome}
    (hexecute : client.execute operation m = (result, m))
    (hvisit : visit (m.site key) = (result, m.site key)) : m.Visits operation key visit := by
  have hnext : m.next operation = m := congrArg Prod.snd hexecute
  refine ⟨?_, fun other _ => by rw [hnext]⟩
  rw [hnext, hexecute, hvisit]

/-- An operation that changes at most one record of a collection visits the site of this record. -/
theorem visits_of_setCollection {outcome : Outcome}
    (hrecords : m.collection? key.ns key.collection = some records)
    (hrun : m.run operation = .ok (outcome, m.setCollection key.ns key.collection records'))
    (hothers : ∀ digest, digest ≠ key.digest → records'.get? digest = records.get? digest)
    (hvisit : visit (.place (records.get? key.digest)) =
      (.ok outcome, .place (records'.get? key.digest))) :
    m.Visits operation key visit := by
  have hnext := next_of_ok hrun
  refine ⟨?_, fun other hne => ?_⟩
  · rw [hnext, execute_of_ok hrun, site_of_collection? hrecords, hvisit,
      site_of_collection? (collection?_setCollection hrecords records')]
  · rw [hnext]
    refine site_setCollection hrecords fun hns hname => hothers other.digest ?_
    exact RecordKey.digest_ne hne.symm hns hname

/-- A write visits the site of its record. -/
theorem visits_put (m : Memory) (key : RecordKey) (bins : Bins) (policy : WritePolicy) :
    m.Visits (.put key bins policy) key (Site.put key bins policy) := by
  rcases m.site_cases key with hns | ⟨collections, hns, hname⟩ | ⟨records, hrecords⟩
  · have hrun : m.run (.put key bins policy) = .error (.namespaceNotFound key.ns) := by
      rw [run, findCollection_of_absent hns]
      rfl
    refine visits_of_same (execute_of_error hrun) ?_
    rw [site_of_absent hns, Site.put]
  · have hrun : m.run (.put key bins policy) =
        .error (.collectionNotFound key.ns key.collection) := by
      rw [run, findCollection_of_get? hns hname]
      rfl
    refine visits_of_same (execute_of_error hrun) ?_
    rw [site_of_get? hns hname, Site.put]
  · have hrun := run_put hrecords bins policy
    cases hafter : Record.afterWrite key bins policy (records.get? key.digest) with
    | ok record =>
      rw [hafter] at hrun
      refine visits_of_setCollection hrecords hrun (fun digest hne => ?_) ?_
      · rw [OrderedMap.get?_insert, if_neg hne]
      · rw [OrderedMap.get?_insert, if_pos rfl]
        simp only [Site.put, hafter]
    | error e =>
      rw [hafter] at hrun
      refine visits_of_same (execute_of_error hrun) ?_
      rw [site_of_collection? hrecords]
      simp only [Site.put, hafter]

/-- A read visits the site of its record. -/
theorem visits_get (m : Memory) (key : RecordKey) (policy : ReadPolicy) :
    m.Visits (.get key policy) key (Site.get key) := by
  rcases m.site_cases key with hns | ⟨collections, hns, hname⟩ | ⟨records, hrecords⟩
  · have hrun : m.run (.get key policy) = .error (.namespaceNotFound key.ns) := by
      rw [run, findNamespace_of_absent hns]
      rfl
    refine visits_of_same (execute_of_error hrun) ?_
    rw [site_of_absent hns, Site.get]
  · have hrun : m.run (.get key policy) = .ok (.record none, m) := by
      simp [run, findNamespace, hns, hname, bind, Except.bind]
    refine visits_of_same (execute_of_ok hrun) ?_
    rw [site_of_get? hns hname, Site.get]
  · refine visits_of_same (execute_of_ok (run_get hrecords policy)) ?_
    rw [site_of_collection? hrecords, Site.get]

/-- A removal visits the site of its record. -/
theorem visits_delete (m : Memory) (key : RecordKey) (policy : WritePolicy) :
    m.Visits (.delete key policy) key (Site.delete key) := by
  rcases m.site_cases key with hns | ⟨collections, hns, hname⟩ | ⟨records, hrecords⟩
  · have hrun : m.run (.delete key policy) = .error (.namespaceNotFound key.ns) := by
      rw [run, findNamespace_of_absent hns]
      rfl
    refine visits_of_same (execute_of_error hrun) ?_
    rw [site_of_absent hns, Site.delete]
  · have hrun : m.run (.delete key policy) = .ok (.deleted false, m) := by
      simp [run, findNamespace, hns, hname, bind, Except.bind]
    refine visits_of_same (execute_of_ok hrun) ?_
    rw [site_of_get? hns hname, Site.delete]
  · refine visits_of_setCollection hrecords (run_delete hrecords policy) (fun digest hne => ?_) ?_
    · rw [OrderedMap.get?_erase, if_neg hne]
    · rw [OrderedMap.get?_erase, if_pos rfl]
      rfl

/-- An operation that concerns the record at an address visits its site. -/
theorem exists_visits {operation : Operation} {key : RecordKey}
    (h : operation.address? = some key) :
    ∃ visit, ∀ m : Memory, m.Visits operation key visit := by
  cases operation with
  | put other bins policy =>
    obtain rfl := Option.some.inj h
    exact ⟨_, fun m => m.visits_put other bins policy⟩
  | get other policy =>
    obtain rfl := Option.some.inj h
    exact ⟨_, fun m => m.visits_get other policy⟩
  | delete other policy =>
    obtain rfl := Option.some.inj h
    exact ⟨_, fun m => m.visits_delete other policy⟩
  | _ => cases h

/-! ## Records and sites -/

/-- The record at an address, as the site has it. -/
def Site.record? : Site → Option Record
  | .noNamespace | .noCollection => none
  | .place stored => stored

/-- The site of an address has the record at the address. -/
theorem record?_site (m : Memory) (key : RecordKey) : (m.site key).record? = m.record? key := by
  rcases m.site_cases key with hns | ⟨collections, hns, hname⟩ | ⟨records, hrecords⟩
  · rw [site_of_absent hns, record?_of_absent hns]
    rfl
  · rw [site_of_get? hns hname, record?_eq, collection?, hns, Option.bind_some, hname]
    rfl
  · rw [site_of_collection? hrecords, record?_eq, hrecords]
    rfl

/-- An operation at an address leaves the records at other addresses. -/
theorem record?_next_of_ne {operation : Operation} {key other : RecordKey}
    (h : operation.address? = some key) (hne : other ≠ key) (m : Memory) :
    (m.next operation).record? other = m.record? other := by
  obtain ⟨visit, hvisits⟩ := exists_visits h
  rw [← record?_site, ← record?_site, (hvisits m).elsewhere other hne]

/-- A removal that finds a record leaves none. -/
theorem record?_of_deleted {m : Memory} {key : RecordKey} {policy : WritePolicy}
    (h : (client.execute (.delete key policy) m).1 = .ok (.deleted true)) :
    m.record? key ≠ none ∧ (m.next (.delete key policy)).record? key = none := by
  have hhere := (m.visits_delete key policy).here
  rw [h] at hhere
  rw [← record?_site, ← record?_site]
  cases hsite : m.site key with
  | noNamespace =>
    rw [hsite] at hhere
    cases congrArg Prod.fst hhere
  | noCollection =>
    rw [hsite] at hhere
    cases congrArg Prod.fst hhere
  | place stored =>
    rw [hsite] at hhere
    obtain ⟨hfound, hleft⟩ := Prod.mk.inj hhere
    have hstored : stored.isSome = true := by
      injection hfound with hfound
      injection hfound with hfound
      exact hfound.symm
    rw [hleft]
    exact ⟨Option.isSome_iff_ne_none.1 hstored, rfl⟩

/-! ## Operations at different addresses -/

variable {first second : Operation}

/-- An operation has the same result, and leaves the same at its address, whether or not one at
another address has come before it. -/
theorem here_next_of_ne {key' : RecordKey} (hfirst : first.address? = some key)
    (hsecond : second.address? = some key') (hne : key ≠ key') (m : Memory) :
    ((client.execute second (m.next first)).1, ((m.next first).next second).site key') =
      ((client.execute second m).1, (m.next second).site key') := by
  obtain ⟨visit, hvisits⟩ := exists_visits hfirst
  obtain ⟨visit', hvisits'⟩ := exists_visits hsecond
  -- The second operation finds the same site in both stores.
  have hsite : (m.next first).site key' = m.site key' := (hvisits m).elsewhere key' hne.symm
  rw [(hvisits' (m.next first)).here, hsite, (hvisits' m).here]

/-- An operation does not notice one at another address before it. -/
theorem result_next (h : first.Apart second) (m : Memory) :
    (client.execute second (m.next first)).1 = (client.execute second m).1 := by
  obtain ⟨key, key', hfirst, hsecond, hne⟩ := h
  exact (Prod.mk.inj (here_next_of_ne hfirst hsecond hne m)).1

/-- Two operations at different addresses leave the same store in either order. -/
theorem next_next_comm (h : first.Apart second) (m : Memory) :
    (m.next first).next second = (m.next second).next first := by
  obtain ⟨key, key', hfirst, hsecond, hne⟩ := h
  obtain ⟨visit, hvisits⟩ := exists_visits hfirst
  obtain ⟨visit', hvisits'⟩ := exists_visits hsecond
  refine ext_site fun other => ?_
  by_cases hother : other = key
  · subst hother
    obtain ⟨-, hhere⟩ := Prod.mk.inj (here_next_of_ne hsecond hfirst hne.symm m)
    exact ((hvisits' _).elsewhere other hne).trans hhere.symm
  by_cases hother' : other = key'
  · subst hother'
    obtain ⟨-, hhere⟩ := Prod.mk.inj (here_next_of_ne hfirst hsecond hne m)
    exact hhere.trans ((hvisits _).elsewhere other hother).symm
  -- Neither of the two operations is at this address.
  calc ((m.next first).next second).site other
      = (m.next first).site other := (hvisits' _).elsewhere other hother'
    _ = m.site other := (hvisits _).elsewhere other hother
    _ = (m.next second).site other := ((hvisits' _).elsewhere other hother').symm
    _ = ((m.next second).next first).site other := ((hvisits _).elsewhere other hother).symm

/-! ## Operations in any order -/

/-- The operations of a run with their results. -/
def transcript : Memory → List Operation → List (Operation × Except StoreError Outcome)
  | _, [] => []
  | m, operation :: rest =>
    (operation, (client.execute operation m).1) :: transcript (m.next operation) rest

/-- If no two operations of a run are at one address, each has the result that it has alone. -/
theorem transcript_eq_map {operations : List Operation}
    (h : operations.Pairwise Operation.Apart) (m : Memory) :
    m.transcript operations =
      operations.map fun operation => (operation, (client.execute operation m).1) := by
  induction operations generalizing m with
  | nil => rfl
  | cons first rest ih =>
    obtain ⟨hfirst, hrest⟩ := List.pairwise_cons.1 h
    have hresults : ∀ operation ∈ rest, (client.execute operation (m.next first)).1 =
        (client.execute operation m).1 := by
      intro operation hmem
      exact result_next (hfirst operation hmem) m
    rw [transcript, ih hrest, List.map_cons]
    exact congrArg _ (List.map_congr_left fun operation hmem => by rw [hresults operation hmem])

/-- A run whose operations are at different addresses leaves the same store in every order. -/
theorem after_perm {operations reordered : List Operation}
    (h : operations.Pairwise Operation.Apart) (hperm : reordered.Perm operations) (m : Memory) :
    m.after reordered = m.after operations := by
  refine hperm.foldl_eq' (fun a ha b hb m => ?_) m
  by_cases heq : a = b
  · rw [heq]
  · have ha := hperm.mem_iff.1 ha
    have hb := hperm.mem_iff.1 hb
    exact next_next_comm (h.forall ha hb heq) m

/-- Writes, reads and removals of pairwise different records leave the same store in every order,
whether they succeed or fail, and whether their namespaces and collections are there. Each has the
same result in every order, which is the one that it has alone. -/
theorem after_eq_of_perm (m : Memory) {operations reordered : List Operation}
    (h : operations.Pairwise Operation.Apart) (hperm : reordered.Perm operations) :
    m.after reordered = m.after operations ∧
      (m.transcript reordered).Perm (m.transcript operations) ∧
      ∀ operation ∈ operations, ∀ result,
        (operation, result) ∈ m.transcript reordered ↔
          result = (client.execute operation m).1 := by
  have hreordered : reordered.Pairwise Operation.Apart :=
    (hperm.pairwise_iff Operation.Apart.symm).2 h
  refine ⟨after_perm h hperm m, ?_, fun operation hmem result => ?_⟩
  · rw [transcript_eq_map hreordered, transcript_eq_map h]
    exact hperm.map _
  · rw [transcript_eq_map hreordered, List.mem_map]
    constructor
    · rintro ⟨other, -, heq⟩
      obtain ⟨rfl, rfl⟩ := Prod.mk.inj heq
      rfl
    · rintro rfl
      exact ⟨operation, hperm.mem_iff.2 hmem, rfl⟩

/-- A store with a collection that has one record, and an empty one. -/
def scattered : Memory :=
  .ofList [("app", .ofList [("logs", .empty), ("users", .ofList [("1", ⟨.empty, 1, none⟩)])])]

/-- Operations that share a namespace, a collection or a digest with one another, but never all
three, and some of which concern what does not exist. -/
def scatteredRun : List Operation :=
  [.put ⟨"app", "users", "1"⟩ .empty { existsAction := .createOnly },
    .put ⟨"app", "users", "2"⟩ (.ofList [("a", .null)]) {}, .delete ⟨"app", "logs", "1"⟩ {},
    .get ⟨"app", "gone", "1"⟩ {}, .put ⟨"gone", "users", "1"⟩ .empty {}]

/-- Backwards too they leave the same store, with the one new record in it. The creation of a record
that exists fails, and so does the write in a namespace that does not. -/
theorem after_eq_of_perm_backwards :
    scatteredRun.Pairwise Operation.Apart ∧
      scattered.after scatteredRun.reverse = scattered.after scatteredRun ∧
      ((scattered.after scatteredRun.reverse).record? ⟨"app", "users", "2"⟩).map
        Record.generation = some 1 ∧
      (.put ⟨"app", "users", "1"⟩ .empty { existsAction := .createOnly },
          .error (.recordExists "app/users/1")) ∈ scattered.transcript scatteredRun.reverse ∧
      (.put ⟨"gone", "users", "1"⟩ .empty {}, .error (.namespaceNotFound "gone")) ∈
        scattered.transcript scatteredRun.reverse := by
  have hapart : scatteredRun.Pairwise Operation.Apart := by
    simp [scatteredRun, Operation.Apart, Operation.address?]
  obtain ⟨hstore, -, hresults⟩ :=
    after_eq_of_perm scattered hapart (List.reverse_perm scatteredRun)
  refine ⟨hapart, hstore, ?_, ?_, ?_⟩
  · rw [hstore]
    rfl
  · exact (hresults _ (by simp [scatteredRun]) _).2 rfl
  · exact (hresults _ (by simp [scatteredRun]) _).2 rfl

end Memory

end EntityStore
