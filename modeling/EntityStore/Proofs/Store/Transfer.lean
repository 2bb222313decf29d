import EntityStore.Proofs.Bridge.SequentialCopy
import EntityStore.Proofs.Store.Isolation
import EntityStore.Proofs.Store.Refinement
import EntityStore.Proofs.Store.Settled

/-!
# Filling one store and copying it to another

Lines of documents that are written to a store with an empty collection leave what
`Table.settled` tells (`runFrom_putAll_lines`). Copying a table to another store with an empty
collection writes each key once. So it does not matter whether the other store checks generations,
and only actions that insist on a record would fail; the copy leaves the table, or the first pairs
of it, in the other store (`runFrom_copyTo_new`).
-/

namespace EntityStore.MappedStore

variable {κ : Type} {store : MappedStore κ Document} {document : Document}

/-- The serializer takes every field of the document. -/
def Accepts (store : MappedStore κ Document) (document : Document) : Prop :=
  ∀ field json, document.fields.get? field = some json → store.serializer.accepts json = true

/-- A document is not refused if the serializer takes every field. -/
theorem Accepts.refusal?_eq_none (h : store.Accepts document) :
    store.refusal? document = none := by
  rw [refusal?, Option.map_eq_none_iff, List.find?_eq_none]
  rintro ⟨field, json⟩ hmem
  have haccepts := h field json (OrderedMap.get?_eq_some_iff.2 hmem)
  simp [haccepts]

variable [Key κ] [LawfulKey κ] [DecidableEq κ] {m : Memory} {t : Table κ}

omit [DecidableEq κ] in
/-- A query reads the pairs that it asks for, and leaves the store as it was. -/
theorem StandsFor.runFrom_query (h : store.StandsFor m (some t)) (q : Query) :
    (store.query Memory.client q).runFrom m = (.ok (Table.select q t), m) := by
  obtain ⟨result, hrun, -⟩ := store.runFrom_query q m
  obtain ⟨halike, -⟩ := agrees_table_query q m (some t) h
  rw [hrun] at halike ⊢
  exact Prod.ext halike.eq rfl

/-! ## Writing lines -/

/-- Lines that fit the store and are taken by its serializer, written into an empty collection, leave
the table that can be told without the writes, and change nothing outside the collection. -/
theorem runFrom_putAll_lines (hgeneration : store.mapping.writePolicy.generation = .ignore)
    (haction : store.mapping.writePolicy.existsAction = .update ∨
      store.mapping.writePolicy.existsAction = .replace)
    {lines : List (κ × Document)} (hfits : ∀ line ∈ lines, store.Fits line.2)
    (haccepts : ∀ line ∈ lines, store.Accepts line.2)
    (hempty : m.collection? store.mapping.ns store.mapping.collection = some .empty) :
    ∃ m', (store.putAll Memory.client lines).runFrom m = (.ok (), m') ∧
      store.StandsFor m'
        (some (Table.settled store.mapping.writePolicy.existsAction lines)) ∧
      Memory.AgreeOutside store.mapping.ns store.mapping.collection m m' := by
  have htable := Table.runFrom_putAll_nil haction fun line hmem =>
    (haccepts line hmem).refusal?_eq_none
  have hstands : store.StandsFor m (some []) := ⟨.empty, hempty, .nil⟩
  obtain ⟨halike, hleft⟩ := agrees_table_putAll hgeneration hfits m (some []) hstands
  have hwrites : Request.putAll lines ≠ .dropSchema := nofun
  have hagree := store.keeps_agreeOutside hwrites m m (.refl _ _ m)
  rw [respond, Call.runFrom_map] at hagree
  rw [htable] at halike hleft
  exact ⟨_, Prod.ext halike.eq rfl, hleft, hagree⟩

/-! ## Writing new keys -/

/-- The actions that create a record where there is none. -/
def Creates (action : ExistsAction) : Prop :=
  action = .update ∨ action = .replace ∨ action = .createOnly

/-- A document that is written under a new key is there then, whatever the store does about
generations. -/
theorem runFrom_put_new (haction : Creates store.mapping.writePolicy.existsAction)
    (hfits : store.Fits document) (haccepts : store.Accepts document) {key : κ}
    (hstands : store.StandsFor m (some t)) (hnew : t.find key = none) :
    ∃ m', (store.put Memory.client key document).runFrom m = (.ok (), m') ∧
      store.StandsFor m' (some (t.assign key document)) := by
  obtain ⟨records, hcollection, hrepresents⟩ := hstands
  have habsent : records.get? (Key.digest key) = none := by
    have hfind := hrepresents.find key
    rw [hnew] at hfind
    generalize records.get? (Key.digest key) = found at hfind ⊢
    cases hfind
    rfl
  rcases encode_of_fits hfits with ⟨e, hrefusal, -⟩ | ⟨-, bins, hencode, hholds⟩
  · rw [haccepts.refusal?_eq_none] at hrefusal
    cases hrefusal
  · have haddress : m.collection? (store.addressOf key).ns (store.addressOf key).collection =
        some records := hcollection
    have hrun := Memory.run_put haddress bins store.mapping.writePolicy
    rw [show (store.addressOf key).digest = Key.digest key from rfl, habsent,
      Record.afterWrite_none] at hrun
    have happly : store.mapping.writePolicy.existsAction.apply (store.addressOf key) bins none =
        .ok { bins := bins, generation := 1 } := by
      rcases haction with h | h | h <;> rw [h] <;> rfl
    rw [happly] at hrun
    rw [put_of_encode hencode, Memory.runFrom_perform_bind_of_ok hrun]
    refine ⟨_, rfl, StandsFor.setCollection hcollection (hrepresents.assign key ?_)⟩
    rw [Record.bins_withKey]
    exact hholds

/-- Pairs with ascending digests are all written after those that are there. -/
theorem runFrom_putAll_new (haction : Creates store.mapping.writePolicy.existsAction)
    {pairs : List (κ × Document)} (hfits : ∀ pair ∈ pairs, store.Fits pair.2)
    (haccepts : ∀ pair ∈ pairs, store.Accepts pair.2)
    (hascending : Table.Ascending (t ++ pairs)) (hstands : store.StandsFor m (some t)) :
    ∃ m', (store.putAll Memory.client pairs).runFrom m = (.ok (), m') ∧
      store.StandsFor m' (some (t ++ pairs)) := by
  induction pairs generalizing t m with
  | nil => exact ⟨m, rfl, by rwa [List.append_nil]⟩
  | cons pair rest ih =>
    obtain ⟨key, document⟩ := pair
    -- The digest of the key comes after those that are there, so that the key is a new one.
    have hlt : ∀ other ∈ t, Key.digest other.1 < Key.digest key := fun other hmem =>
      (List.pairwise_append.1 hascending).2.2 other hmem (key, document) List.mem_cons_self
    obtain ⟨hassign, hnew⟩ := Table.assign_of_forall_lt hlt document
    obtain ⟨m₁, hput, hstands₁⟩ := runFrom_put_new haction
      (hfits (key, document) List.mem_cons_self) (haccepts (key, document) List.mem_cons_self)
      hstands hnew
    have hsplit : t ++ (key, document) :: rest = t ++ [(key, document)] ++ rest := by
      rw [List.append_assoc, List.singleton_append]
    rw [hassign] at hstands₁
    rw [hsplit] at hascending ⊢
    obtain ⟨m', hrest, hstands'⟩ := ih (fun pair hmem => hfits pair (List.mem_cons_of_mem _ hmem))
      (fun pair hmem => haccepts pair (List.mem_cons_of_mem _ hmem)) hascending hstands₁
    exact ⟨m', (runFrom_putAll_cons_of_ok hput rest).trans hrest, hstands'⟩

/-! ## Copying -/

/-- Copying a table to a store with an empty collection leaves the pairs there that the query asks
for. -/
theorem runFrom_copyTo_new {input output : MappedStore κ Document} (q : Query)
    (haction : Creates output.mapping.writePolicy.existsAction)
    (hfits : ∀ pair ∈ Table.select q t, output.Fits pair.2)
    (haccepts : ∀ pair ∈ Table.select q t, output.Accepts pair.2) (hascending : t.Ascending)
    (hinput : input.StandsFor m (some t))
    (hempty : m.collection? output.mapping.ns output.mapping.collection = some .empty) :
    ∃ m', (input.copyTo Memory.client output q).runFrom m =
        (.ok (Table.select q t).length, m') ∧
      output.StandsFor m' (some (Table.select q t)) := by
  have hselected : Table.Ascending ([] ++ Table.select q t) :=
    List.Pairwise.sublist (Table.select_sublist q t) hascending
  have houtput : output.StandsFor m (some []) := ⟨.empty, hempty, .nil⟩
  obtain ⟨m', hwrite, hstands⟩ := runFrom_putAll_new haction hfits haccepts hselected houtput
  refine ⟨m', ?_, hstands⟩
  rw [copyTo, Call.runFrom_bind, hinput.runFrom_query q]
  simp only [Call.runFrom_bind, hwrite]
  rfl

end EntityStore.MappedStore
