import EntityStore.OrderedMap
import Mathlib.Data.List.Basic
import Mathlib.Data.List.Perm.Basic

/-!
# What look-ups say about maps

A look-up finds exactly the entries of a map (`get?_eq_some_iff`), so look-ups determine the map
(`ext_get?`). The remaining lemmas say what building a map from a list and laying one map over
another do to look-ups.
-/

namespace EntityStore.OrderedMap

variable {α : Type}

/-! ## Entries and look-ups -/

/-- In a list without repeated keys, a look-up finds exactly the members. -/
theorem lookupEntry_eq_some_iff {entries : List (String × α)}
    (h : entries.Pairwise fun a b => a.1 ≠ b.1) {k : String} {v : α} :
    lookupEntry k entries = some v ↔ (k, v) ∈ entries := by
  induction entries with
  | nil => simp [lookupEntry]
  | cons head rest ih =>
    obtain ⟨k', v'⟩ := head
    obtain ⟨hk, hrest⟩ := List.pairwise_cons.1 h
    rw [lookupEntry]
    split
    · next heq =>
      subst heq
      have hnot : (k, v) ∉ rest := fun hmem => hk _ hmem rfl
      simp [hnot, eq_comm]
    · next hne =>
      rw [ih hrest]
      simp [hne]

/-- The keys of a map do not repeat. -/
theorem distinct (m : OrderedMap α) : m.entries.Pairwise fun a b => a.1 ≠ b.1 := by
  refine m.sorted.imp ?_
  intro a b hlt heq
  rw [heq] at hlt
  exact String.lt_irrefl _ hlt

/-- A look-up finds exactly the entries. -/
theorem get?_eq_some_iff {m : OrderedMap α} {k : String} {v : α} :
    m.get? k = some v ↔ (k, v) ∈ m.entries :=
  lookupEntry_eq_some_iff m.distinct

/-- A key has an entry exactly if a look-up finds something. -/
theorem mem_keys_iff {m : OrderedMap α} {k : String} : k ∈ m.keys ↔ ∃ v, m.get? k = some v := by
  unfold keys
  rw [List.mem_map]
  constructor
  · rintro ⟨⟨k, v⟩, hmem, rfl⟩
    exact ⟨v, get?_eq_some_iff.2 hmem⟩
  · rintro ⟨v, hget⟩
    exact ⟨(k, v), get?_eq_some_iff.1 hget, rfl⟩

/-- Maps with the same entries are the same. -/
theorem eq_of_entries_eq {m m' : OrderedMap α} (h : m.entries = m'.entries) : m = m' := by
  cases m
  cases m'
  cases h
  rfl

/-- Look-ups determine a map. -/
theorem ext_get? {m m' : OrderedMap α} (h : ∀ k, m.get? k = m'.get? k) : m = m' := by
  have hnodup (m : OrderedMap α) : m.entries.Nodup :=
    m.distinct.imp fun hne heq => hne (congrArg Prod.fst heq)
  -- Sorted lists with the same members are the same.
  have hperm : m.entries.Perm m'.entries := by
    refine (List.perm_ext_iff_of_nodup (hnodup m) (hnodup m')).2 ?_
    rintro ⟨k, v⟩
    rw [← get?_eq_some_iff, ← get?_eq_some_iff, h]
  refine eq_of_entries_eq (hperm.eq_of_pairwise (fun a b _ _ hab hba => ?_) m.sorted m'.sorted)
  exact absurd (String.lt_trans hab hba) (String.lt_irrefl _)

/-! ## Changes at one key -/

/-- Putting the value that is at a key changes nothing. -/
theorem insert_of_get? {m : OrderedMap α} {key : String} {value : α}
    (h : m.get? key = some value) : m.insert key value = m := by
  refine ext_get? fun k => ?_
  rw [get?_insert]
  split
  · next heq => rw [heq, h]
  · rfl

/-- A value is put at a key if there is none. -/
theorem add_eq (m : OrderedMap α) (key : String) (value : α) :
    m.add key value = if m.contains key then m else m.insert key value := by
  refine ext_get? fun k => ?_
  rw [get?_add, contains]
  by_cases heq : k = key
  · subst heq
    cases hvalue : m.get? k with
    | some stored => simp [hvalue]
    | none => simp
  · cases hvalue : m.get? key <;> simp [heq]

/-- The value at a key is replaced by its image. -/
theorem modify_of_get? {m : OrderedMap α} {key : String} {value : α}
    (h : m.get? key = some value) (f : α → α) : m.modify key f = m.insert key (f value) := by
  rw [modify, h]

/-- Without a value at a key there is nothing to replace. -/
theorem modify_of_absent {m : OrderedMap α} {key : String} (h : m.get? key = none) (f : α → α) :
    m.modify key f = m := by
  rw [modify, h]

/-! ## Maps of lists -/

/-- The later entries of a list count before the first one. -/
theorem get?_ofList_cons (e : String × α) (l : List (String × α)) (k : String) :
    (ofList (e :: l)).get? k =
      ((ofList l).get? k).or (if k = e.1 then some e.2 else none) :=
  get?_add (ofList l) e.1 k e.2

/-- A look-up in the map of a list finds the last entry at the key. -/
theorem get?_ofList (l : List (String × α)) (k : String) :
    (ofList l).get? k = (l.filter fun e => e.1 = k).getLast?.map (·.2) := by
  induction l with
  | nil => rfl
  | cons e rest ih =>
    rw [get?_ofList_cons, ih]
    by_cases heq : e.1 = k
    · rw [List.filter_cons_of_pos (by simpa using heq), List.getLast?_cons, if_pos heq.symm]
      cases (rest.filter fun e => e.1 = k).getLast? <;> rfl
    · rw [List.filter_cons_of_neg (by simpa using heq), if_neg (Ne.symm heq), Option.or_none]

/-- In the map of a list without repeated keys, a look-up finds exactly the members of the list. -/
theorem get?_ofList_eq_some_iff {l : List (String × α)} (h : l.Pairwise fun a b => a.1 ≠ b.1)
    {k : String} {v : α} : (ofList l).get? k = some v ↔ (k, v) ∈ l := by
  induction l generalizing v with
  | nil => simp [ofList]
  | cons e rest ih =>
    obtain ⟨k', v'⟩ := e
    obtain ⟨hk, hrest⟩ := List.pairwise_cons.1 h
    rw [get?_ofList_cons, Option.or_eq_some_iff, ih hrest, List.mem_cons]
    constructor
    · rintro (hmem | ⟨-, hhead⟩)
      · exact .inr hmem
      · split at hhead
        · next heq =>
          cases hhead
          exact .inl (Prod.ext heq rfl)
        · cases hhead
    · rintro (heq | hmem)
      · cases heq
        refine .inr ⟨?_, if_pos rfl⟩
        rw [Option.eq_none_iff_forall_ne_some]
        intro w hw
        exact hk _ ((ih hrest).1 hw) rfl
      · exact .inl hmem

/-- A map is the map of its entries. -/
theorem ofList_entries (m : OrderedMap α) : ofList m.entries = m := by
  refine ext_get? fun k => Option.ext fun v => ?_
  rw [get?_ofList_eq_some_iff m.distinct, get?_eq_some_iff]

/-- Entries that are in the order of their keys stay as they are. -/
theorem entries_ofList {l : List (String × α)} (h : l.Pairwise fun a b => a.1 < b.1) :
    (ofList l).entries = l :=
  congrArg entries (ofList_entries ⟨l, h⟩)

/-- A key of the map of a list is a key of the list. -/
theorem mem_of_get?_ofList {l : List (String × α)} {k : String} {v : α}
    (h : (ofList l).get? k = some v) : (k, v) ∈ l := by
  induction l with
  | nil => simp [ofList] at h
  | cons e rest ih =>
    rw [get?_ofList_cons, Option.or_eq_some_iff] at h
    rcases h with h | ⟨-, h⟩
    · exact List.mem_cons_of_mem _ (ih h)
    · split at h
      · next heq =>
        cases h
        subst heq
        exact List.mem_cons_self
      · cases h

/-- Every key of a list is a key of its map. -/
theorem exists_get?_ofList {l : List (String × α)} {e : String × α} (h : e ∈ l) :
    ∃ v, (ofList l).get? e.1 = some v := by
  induction l with
  | nil => exact absurd h List.not_mem_nil
  | cons head rest ih =>
    rw [get?_ofList_cons]
    rcases List.mem_cons.1 h with rfl | h
    · cases (ofList rest).get? e.1 with
      | some v => exact ⟨v, rfl⟩
      | none => exact ⟨e.2, if_pos rfl⟩
    · obtain ⟨v, hv⟩ := ih h
      exact ⟨v, by rw [hv, Option.some_or]⟩

/-! ## One map over another -/

/-- Entries without repeated keys, put into a map one after the other, count before the map. -/
theorem get?_foldl_insert {entries : List (String × α)}
    (h : entries.Pairwise fun a b => a.1 ≠ b.1) (m : OrderedMap α) (k : String) :
    (entries.foldl (fun m e => m.insert e.1 e.2) m).get? k =
      (lookupEntry k entries).or (m.get? k) := by
  induction entries generalizing m with
  | nil => simp [lookupEntry]
  | cons e rest ih =>
    obtain ⟨hk, hrest⟩ := List.pairwise_cons.1 h
    rw [List.foldl_cons, ih hrest, get?_insert, lookupEntry]
    by_cases heq : k = e.1
    · -- The key is not put again, so what the first entry has put stays.
      have habsent : lookupEntry k rest = none := by
        rw [Option.eq_none_iff_forall_ne_some]
        intro v hv
        exact hk _ ((lookupEntry_eq_some_iff hrest).1 hv) heq.symm
      simp [heq ▸ habsent, heq]
    · simp [heq]

/-- The upper map counts before the lower one. -/
@[simp] theorem get?_overlay (lower upper : OrderedMap α) (k : String) :
    (lower.overlay upper).get? k = (upper.get? k).or (lower.get? k) :=
  get?_foldl_insert upper.distinct lower k

end EntityStore.OrderedMap
