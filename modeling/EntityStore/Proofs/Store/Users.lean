import EntityStore.Proofs.Entity.User
import EntityStore.Proofs.Mapping.Carrying
import EntityStore.Proofs.Store.Reading

/-!
# Stores of users

A user is read from the fields it needs, and so from all bins that carry them
(`MappedStore.decode_of_carries`). A write leaves such bins, whatever its action, if a stored record
that it lays them over spares the fields of users (`MappedStore.exists_carries_of_put`). So what a
store of users writes are records that carry users, and this stays so under all requests
(`MappedStore.onlyUsers_stateAfter`).

What is accepted can be read back with one exception. The score of a user may be infinite or no
number at all; it is written as `null` then, and the user is accepted, but it cannot be read, and no
query that comes to its record succeeds (`MappedStore.reads_users`).
-/

namespace EntityStore.MappedStore

variable {κ : Type} {store : MappedStore κ User} {user : User} {bins : Bins}

/-! ## The bins of a user -/

/-- Bins that carry the fields of a user are read as the user, if its score is finite. -/
theorem decode_of_carries
    (hnames : ∀ name ∈ User.fieldNames, store.mapping.fieldOf (store.mapping.binOf name) = name)
    (h : store.mapping.Carries store.serializer user.members bins) :
    store.decode bins =
      if user.score.isFinite then .ok user
      else .error (.serialization (.shape (.wrongType .null .f64))) := by
  obtain ⟨fields, hfields, hmembers⟩ := h.exists_fields hnames fun member hmember =>
    User.preserves_of_mem_members hmember store.serializer
  have hread : Entity.ofFields fields =
      if user.score.isFinite then .ok user else .error (.wrongType .null .f64) :=
    User.ofFields_of_members hmembers
  rw [decode, hfields]
  split_ifs at hread ⊢ with hfinite
  · simp only [bind, Except.bind, hread]
    rfl
  · simp only [bind, Except.bind, hread]
    rfl

/-- The bins of an accepted user carry its fields. -/
theorem carries_of_encode (h : store.encode user = .ok bins) :
    store.mapping.Carries store.serializer user.members bins := by
  rw [encode, User.fields_eq] at h
  refine Mapping.Resolved.carries_of_binds user.distinct_members ?_
  cases hbins : store.mapping.toBins store.serializer.binOfField (.ofList user.members) with
  | ok result =>
    simp only [bind, Except.bind, hbins] at h
    obtain rfl := Except.ok.inj h
    exact Mapping.Resolved.binds_of_toBins hbins
  | error e =>
    simp only [bind, Except.bind, hbins] at h
    cases h

/-- A write of bins that carry a user leaves such bins, if a stored record that it does not replace
spares the fields of users. -/
theorem carries_of_afterWrite {address : RecordKey} {w : Write} {stored : Option Record}
    {record : Record} (h : store.mapping.Carries store.serializer user.members w.bins)
    (hstored : w.replaces = false → ∀ old, stored = some old →
      store.mapping.Spares store.serializer User.fieldNames old.bins)
    (hafter : Record.afterWrite address w.bins w.policy stored = .ok record) :
    store.mapping.Carries store.serializer user.members record.bins := by
  cases stored with
  | none =>
    obtain ⟨-, -, hbins⟩ := Record.afterWrite_none_eq_ok hafter
    rwa [hbins]
  | some old =>
    obtain ⟨-, -, -, hbins⟩ := Record.afterWrite_some_eq_ok hafter
    rw [hbins]
    cases hreplaces : w.replaces with
    | true => exact h
    | false => exact h.overlay (hstored hreplaces old rfl)

variable [Key κ] {m m' : Memory}

/-! ## Writing a user and reading it -/

/-- A user that is written is the one that the record under its key carries. -/
theorem exists_carries_of_put {key : κ}
    (hput : (store.put Memory.client key user).runFrom m = (.ok (), m'))
    (hstored : store.mapping.writePolicy.existsAction ≠ .replace →
      store.mapping.writePolicy.existsAction ≠ .replaceOnly →
      ∀ stored, m.record? (store.addressOf key) = some stored →
        store.mapping.Spares store.serializer User.fieldNames stored.bins) :
    ∃ record, m'.record? (store.addressOf key) = some record ∧
      store.mapping.Carries store.serializer user.members record.bins := by
  obtain ⟨bins, record, hencode, hafter, hrecord⟩ := exists_afterWrite_of_put hput
  have hcarries := carries_of_encode hencode
  refine ⟨record, hrecord, carries_of_afterWrite (w := ⟨bins, _⟩) hcarries ?_ hafter⟩
  intro hreplaces
  have haction : store.mapping.writePolicy.existsAction ≠ .replace ∧
      store.mapping.writePolicy.existsAction ≠ .replaceOnly := by
    simpa [Write.replaces] using hreplaces
  exact hstored haction.1 haction.2

/-! ## Collections of users -/

/-- The records of the collection are under digests of keys, and carry users. -/
def OnlyUsers (store : MappedStore κ User) (m : Memory) : Prop :=
  ∀ digest record, m.record? ⟨store.mapping.ns, store.mapping.collection, digest⟩ = some record →
    (∃ key : κ, Key.digest key = digest) ∧
      ∃ user : User, store.mapping.Carries store.serializer user.members record.bins

/-- A request leaves records that carry users where all records carried users. -/
theorem keeps_onlyUsers (store : MappedStore κ User) (request : Request κ User) :
    (store.respond Memory.client request).Keeps store.OnlyUsers := by
  refine keeps_respond fun operation m hmem honly digest record hrecord => ?_
  cases m.touch ⟨store.mapping.ns, store.mapping.collection, digest⟩ operation with
  | removed _ _ hnone =>
    rw [hnone] at hrecord
    cases hrecord
  | kept _ _ hsame => exact honly digest record (hsame ▸ hrecord)
  | written _ hwrite hafter hwritten =>
    -- Only a write writes, and the store writes the bins of users under the digests of keys.
    have hput := Memory.eq_put_of_writeOf? hwrite
    subst hput
    obtain ⟨key, user, haddress, hencode⟩ := exists_encode_of_mem_plan hmem
    rw [hwritten] at hrecord
    obtain rfl := Option.some.inj hrecord
    refine ⟨⟨key, congrArg RecordKey.digest haddress⟩, user,
      carries_of_afterWrite (carries_of_encode hencode) ?_ hafter⟩
    intro _ old hold
    obtain ⟨-, other, hother⟩ := honly digest old hold
    exact hother.spares

/-- However many requests a store of users answers, all records carry users. -/
theorem onlyUsers_stateAfter (h : store.OnlyUsers m) (requests : List (Request κ User)) :
    store.OnlyUsers (Call.stateAfter (store.respond Memory.client) requests m) :=
  Call.stateAfter_of_keeps (fun request _ => keeps_onlyUsers store request) h

variable [LawfulKey κ] {records : Collection}

/-- Where all records carry users, a query succeeds exactly if the scores of those that it comes to
are finite. -/
theorem exists_query_iff
    (hnames : ∀ name ∈ User.fieldNames, store.mapping.fieldOf (store.mapping.binOf name) = name)
    (honly : store.OnlyUsers m)
    (hrecords : m.collection? store.mapping.ns store.mapping.collection = some records)
    (q : Query) :
    (∃ pairs, ((store.query Memory.client q).runFrom m).1 = .ok pairs) ↔
      ∀ found ∈ records.entries.take (min (q.limit.getD records.size) records.size),
        ∃ user : User, user.score.isFinite = true ∧
          store.mapping.Carries store.serializer user.members found.2.bins := by
  rw [runFrom_query_of_collection? hrecords, exists_mapM_eq_ok_iff]
  refine forall₂_congr fun found hmem => ?_
  have hrecord : m.record? ⟨store.mapping.ns, store.mapping.collection, found.1⟩ =
      some found.2 := by
    rw [Memory.record?_eq, hrecords]
    exact OrderedMap.get?_eq_some_iff.2 (List.mem_of_mem_take hmem)
  obtain ⟨⟨key, hkey⟩, user, hcarries⟩ := honly found.1 found.2 hrecord
  constructor
  · rintro ⟨pair, hpair⟩
    have hread := ((pairOf_eq_ok_iff ⟨key, hkey⟩).1 hpair).2
    rw [decode_of_carries hnames hcarries] at hread
    split_ifs at hread with hfinite
    exact ⟨user, hfinite, hcarries⟩
  · rintro ⟨user', hfinite, hcarries'⟩
    have hread := decode_of_carries hnames hcarries'
    rw [if_pos hfinite] at hread
    exact ⟨(key, user'), (pairOf_eq_ok_iff ⟨key, hkey⟩).2 ⟨hkey.symm, hread⟩⟩

/-- A user that was accepted is read back exactly if its score is finite, provided that a stored
record over which it was laid spares the fields of users. A store of users leaves only records that
carry users, and where there are no others a query succeeds exactly if it comes to finite scores
only. -/
theorem reads_users (store : MappedStore κ User)
    (hnames : ∀ name ∈ User.fieldNames, store.mapping.fieldOf (store.mapping.binOf name) = name)
    (m : Memory) :
    (∀ key user m', (store.put Memory.client key user).runFrom m = (.ok (), m') →
      (store.mapping.writePolicy.existsAction ≠ .replace →
        store.mapping.writePolicy.existsAction ≠ .replaceOnly →
        ∀ stored, m.record? (store.addressOf key) = some stored →
          store.mapping.Spares store.serializer User.fieldNames stored.bins) →
      (store.get Memory.client key).runFrom m' =
        (if user.score.isFinite then .ok (some user)
          else .error (.serialization (.shape (.wrongType .null .f64))), m')) ∧
    (store.OnlyUsers m →
      (∀ requests, store.OnlyUsers (Call.stateAfter (store.respond Memory.client) requests m)) ∧
      ∀ records, m.collection? store.mapping.ns store.mapping.collection = some records →
        ∀ q, (∃ pairs, ((store.query Memory.client q).runFrom m).1 = .ok pairs) ↔
          ∀ found ∈ records.entries.take (min (q.limit.getD records.size) records.size),
            ∃ user : User, user.score.isFinite = true ∧
              store.mapping.Carries store.serializer user.members found.2.bins) := by
  constructor
  · intro key user m' hput hstored
    obtain ⟨record, hrecord, hcarries⟩ := exists_carries_of_put hput hstored
    rw [runFrom_get_of_record? hrecord, decode_of_carries hnames hcarries]
    split_ifs with hfinite
    · rfl
    · rfl
  · intro honly
    refine ⟨onlyUsers_stateAfter honly, fun records hrecords => ?_⟩
    exact exists_query_iff hnames honly hrecords

/-- A native store of users in the collection `users` of the namespace `app`, with a bin of another
name for the mail address. -/
def usersStore : MappedStore String User where
  mapping := ⟨"String", "test.User", "app", "users", .ofList [("email", "mail")], {}, {}⟩
  serializer := .native

/-- A memory store in which the schema of the users has been created. -/
def usersCreated : Memory :=
  ((usersStore.createSchema Memory.client).runFrom .empty).2

/-- A user with a finite score. -/
def finiteUser : User where
  name := "Ada"
  score := ⟨0xbff8000000000000⟩
  hits := 18446744073709551615
  floor := -1
  tags := ["admin", ""]
  attributes := .ofList [("level", 3)]

/-- A user with a finite score is read by its key and by a query. -/
theorem reads_users_finite :
    ∃ m', (usersStore.put Memory.client "a" finiteUser).runFrom usersCreated = (.ok (), m') ∧
      (usersStore.get Memory.client "a").runFrom m' = (.ok (some finiteUser), m') ∧
      ∃ pairs, ((usersStore.query Memory.client {}).runFrom m').1 = .ok pairs := by
  have hnames : ∀ name ∈ User.fieldNames,
      usersStore.mapping.fieldOf (usersStore.mapping.binOf name) = name := by decide
  have hempty : usersStore.OnlyUsers usersCreated := fun _ _ hrecord => by cases hrecord
  have hput : (usersStore.put Memory.client "a" finiteUser).runFrom usersCreated =
      (.ok (), _) := rfl
  obtain ⟨hreads, hqueries⟩ := reads_users usersStore hnames usersCreated
  refine ⟨_, hput, hreads _ _ _ hput nofun, ?_⟩
  -- The collection has the one record that was written.
  have honly := (hqueries hempty).1 [.put "a" finiteUser]
  refine (((reads_users usersStore hnames _).2 honly).2 _ rfl {}).2 fun found hmem => ?_
  obtain rfl := List.mem_singleton.1 hmem
  exact ⟨finiteUser, rfl, carries_of_encode rfl⟩

/-- A user with an infinite score is accepted, and then neither its key nor a query can be read. -/
theorem put_unreadable_score :
    ∃ m', (usersStore.put Memory.client "a" { score := .infinity false }).runFrom usersCreated =
        (.ok (), m') ∧
      ((usersStore.get Memory.client "a").runFrom m').1 =
        .error (.serialization (.shape (.wrongType .null .f64))) ∧
      ((usersStore.query Memory.client {}).runFrom m').1 =
        .error (.serialization (.shape (.wrongType .null .f64))) :=
  ⟨_, rfl, rfl, rfl⟩

end EntityStore.MappedStore
