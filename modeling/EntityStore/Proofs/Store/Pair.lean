import EntityStore.MappedStore
import EntityStore.Proofs.Entity.LawfulKey
import Mathlib.Data.List.Forall2

/-!
# Records that are read as pairs

A mapped store reads the records that a scan lists one by one, and stops at the first one that it
cannot read. `mapM_eq_ok_iff` and `mapM_eq_error_iff` say that of any list. The digest of a key can
always be read, so whether a record under it can be read depends on the bins alone
(`MappedStore.pairOf_eq_ok_iff`, `MappedStore.pairOf_eq_error_iff`).
-/

namespace EntityStore

/-! ## Lists that are read item by item -/

section Items

variable {α β ε : Type} {f : α → Except ε β} {l : List α}

/-- A list is read as the list of what its items are read as. -/
theorem mapM_eq_ok_iff {results : List β} :
    l.mapM f = .ok results ↔ List.Forall₂ (fun a b => f a = .ok b) l results := by
  induction l generalizing results with
  | nil =>
    rw [List.mapM_nil, List.forall₂_nil_left_iff]
    exact ⟨fun h => (Except.ok.inj h).symm, fun h => h ▸ rfl⟩
  | cons a rest ih =>
    rw [List.mapM_cons, List.forall₂_cons_left_iff]
    cases ha : f a with
    | error e =>
      constructor
      · intro h
        cases h
      · rintro ⟨b, results, hb, -, -⟩
        cases hb
    | ok b =>
      cases hrest : rest.mapM f with
      | error e =>
        constructor
        · intro h
          cases h
        · rintro ⟨b', results', -, hresults, -⟩
          rw [← ih, hrest] at hresults
          cases hresults
      | ok results' =>
        constructor
        · intro h
          exact ⟨b, results', rfl, ih.1 hrest, (Except.ok.inj h).symm⟩
        · rintro ⟨b', results'', hb, hresults, rfl⟩
          rw [← ih, hrest] at hresults
          obtain rfl := Except.ok.inj hb
          obtain rfl := Except.ok.inj hresults
          rfl

/-- A list is read exactly if each item is. -/
theorem exists_mapM_eq_ok_iff :
    (∃ results, l.mapM f = .ok results) ↔ ∀ a ∈ l, ∃ b, f a = .ok b := by
  simp only [mapM_eq_ok_iff]
  induction l with
  | nil => simp
  | cons a rest ih => simp [List.forall₂_cons_left_iff, ← ih]

/-- A list is not read exactly if there is an item that is not read, and the first such item says
why. -/
theorem mapM_eq_error_iff {e : ε} :
    l.mapM f = .error e ↔ ∃ earlier a later, l = earlier ++ a :: later ∧
      (∀ other ∈ earlier, ∃ b, f other = .ok b) ∧ f a = .error e := by
  induction l with
  | nil =>
    constructor
    · intro h
      cases h
    · rintro ⟨earlier, a, later, hsplit, -⟩
      exact absurd hsplit.symm (List.append_ne_nil_of_right_ne_nil _ (List.cons_ne_nil _ _))
  | cons a rest ih =>
    -- If the head is not read, it is the item in question; otherwise it is one of the earlier ones.
    rw [List.mapM_cons]
    cases ha : f a with
    | error e' =>
      constructor
      · intro h
        obtain rfl : e' = e := Except.error.inj h
        exact ⟨[], a, rest, rfl, fun _ hmem => absurd hmem List.not_mem_nil, ha⟩
      · rintro ⟨earlier, a', later, hsplit, hearlier, ha'⟩
        cases earlier with
        | nil =>
          obtain ⟨rfl, -⟩ := List.cons.inj hsplit
          rw [ha] at ha'
          exact congrArg Except.error (Except.error.inj ha')
        | cons head earlier =>
          obtain ⟨rfl, -⟩ := List.cons.inj hsplit
          obtain ⟨b, hb⟩ := hearlier a List.mem_cons_self
          rw [ha] at hb
          cases hb
    | ok b =>
      have hrest : (Except.ok b >>= fun b => do return b :: (← rest.mapM f)) = .error e ↔
          rest.mapM f = .error e := by
        cases rest.mapM f with
        | error e' => exact Iff.rfl
        | ok results =>
          constructor
          · intro h
            cases h
          · intro h
            cases h
      rw [hrest, ih]
      constructor
      · rintro ⟨earlier, a', later, rfl, hearlier, ha'⟩
        refine ⟨a :: earlier, a', later, rfl, fun other hmem => ?_, ha'⟩
        rcases List.mem_cons.1 hmem with rfl | hmem
        · exact ⟨b, ha⟩
        · exact hearlier other hmem
      · rintro ⟨earlier, a', later, hsplit, hearlier, ha'⟩
        cases earlier with
        | nil =>
          obtain ⟨rfl, -⟩ := List.cons.inj hsplit
          rw [ha] at ha'
          cases ha'
        | cons head earlier =>
          obtain ⟨-, rfl⟩ := List.cons.inj hsplit
          exact ⟨earlier, a', later, rfl,
            fun other hmem => hearlier other (List.mem_cons_of_mem _ hmem), ha'⟩

/-- An item of a list has a partner in a list that is related item by item. -/
theorem exists_of_forall₂ {R : α → β → Prop} {l' : List β} (h : List.Forall₂ R l l') {a : α}
    (ha : a ∈ l) : ∃ b ∈ l', R a b := by
  induction h with
  | nil => exact absurd ha List.not_mem_nil
  | cons hhead _ ih =>
    rcases List.mem_cons.1 ha with rfl | ha
    · exact ⟨_, List.mem_cons_self, hhead⟩
    · obtain ⟨b, hb, hrelated⟩ := ih ha
      exact ⟨b, List.mem_cons_of_mem _ hb, hrelated⟩

end Items

/-! ## Records under digests of keys -/

namespace MappedStore

variable {κ ε : Type} [Key κ] [LawfulKey κ] [Entity ε] {store : MappedStore κ ε}
  {found : String × Record}

/-- A record under the digest of a key is read as the key and the entity in the bins. -/
theorem pairOf_digest (key : κ) (record : Record) :
    store.pairOf (Key.digest key, record) = (store.decode record.bins).map fun e => (key, e) := by
  rw [pairOf, LawfulKey.ofDigest_digest]
  cases store.decode record.bins with
  | ok entity => rfl
  | error e => rfl

/-- A record under the digest of a key is read as a pair of the key and what its bins hold. -/
theorem pairOf_eq_ok_iff (hkey : ∃ key : κ, Key.digest key = found.1) {pair : κ × ε} :
    store.pairOf found = .ok pair ↔
      found.1 = Key.digest pair.1 ∧ store.decode found.2.bins = .ok pair.2 := by
  obtain ⟨digest, record⟩ := found
  obtain ⟨key, rfl⟩ := hkey
  rw [pairOf_digest, LawfulKey.digest_inj]
  cases store.decode record.bins with
  | ok entity => simp [Except.map, Prod.ext_iff]
  | error e => simp [Except.map]

/-- A record under the digest of a key is not read exactly if its bins are not. -/
theorem pairOf_eq_error_iff (hkey : ∃ key : κ, Key.digest key = found.1) {e : Error} :
    store.pairOf found = .error e ↔ store.decode found.2.bins = .error e := by
  obtain ⟨digest, record⟩ := found
  obtain ⟨key, rfl⟩ := hkey
  rw [pairOf_digest]
  cases store.decode record.bins with
  | ok entity => simp [Except.map]
  | error e' => simp [Except.map]

end MappedStore

end EntityStore
