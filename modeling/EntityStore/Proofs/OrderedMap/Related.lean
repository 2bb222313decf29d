import EntityStore.Proofs.OrderedMap
import Mathlib.Data.List.Forall2

/-!
# Maps with related values

Two maps are related by a relation of their values if they have the same keys and related values at
each of them (`OrderedMap.Related`). All updates preserve this, and related maps list their keys and
values in the same order (`Related.entries`).
-/

namespace EntityStore.OrderedMap

variable {α β : Type}

/-- The same keys, with related values. -/
def Related (R : α → β → Prop) (m : OrderedMap α) (m' : OrderedMap β) : Prop :=
  ∀ k, Option.Rel R (m.get? k) (m'.get? k)

/-- An entry of one map and one of another have the same key and related values. -/
def RelatedEntry (R : α → β → Prop) (e : String × α) (e' : String × β) : Prop :=
  e.1 = e'.1 ∧ R e.2 e'.2

variable {R : α → β → Prop} {m lower upper : OrderedMap α} {m' lower' upper' : OrderedMap β}

/-- Maps without entries are related. -/
theorem related_empty : Related R (empty : OrderedMap α) (empty : OrderedMap β) :=
  fun _ => .none

/-- Lists of entries with the same keys are related entry by entry if equal keys have related
values. -/
theorem forall₂_relatedEntry {l : List (String × α)} {l' : List (String × β)}
    (hkeys : l.map (·.1) = l'.map (·.1))
    (hvalues : ∀ e ∈ l, ∀ e' ∈ l', e.1 = e'.1 → R e.2 e'.2) :
    List.Forall₂ (RelatedEntry R) l l' := by
  induction l generalizing l' with
  | nil =>
    obtain rfl := List.map_eq_nil_iff.1 hkeys.symm
    exact .nil
  | cons e rest ih =>
    obtain ⟨e', rest', rfl, hkey, hrest⟩ := List.map_eq_cons_iff.1 hkeys.symm
    have hhead := hvalues e List.mem_cons_self e' List.mem_cons_self hkey.symm
    refine .cons ⟨hkey.symm, hhead⟩ (ih hrest.symm fun a ha b hb => ?_)
    exact hvalues a (List.mem_cons_of_mem _ ha) b (List.mem_cons_of_mem _ hb)

namespace Related

/-- At each key both maps have related values, or neither has a value. -/
theorem at_key (h : Related R m m') (k : String) :
    (∃ v v', m.get? k = some v ∧ m'.get? k = some v' ∧ R v v') ∨
      m.get? k = none ∧ m'.get? k = none := by
  have hk := h k
  generalize m.get? k = value at hk ⊢
  generalize m'.get? k = value' at hk ⊢
  cases hk with
  | some hv => exact .inl ⟨_, _, rfl, rfl, hv⟩
  | none => exact .inr ⟨rfl, rfl⟩

/-- A key that one map has, the other has too. -/
theorem contains_eq (h : Related R m m') (k : String) : m.contains k = m'.contains k := by
  unfold OrderedMap.contains
  rcases h.at_key k with ⟨v, v', hv, hv', -⟩ | ⟨hv, hv'⟩ <;> rw [hv, hv'] <;> rfl

/-- Related values may be put at a key. -/
theorem insert (h : Related R m m') (k : String) {v : α} {v' : β} (hv : R v v') :
    Related R (m.insert k v) (m'.insert k v') := by
  intro k'
  rw [get?_insert, get?_insert]
  split
  · exact .some hv
  · exact h k'

/-- A key may be removed. -/
theorem erase (h : Related R m m') (k : String) : Related R (m.erase k) (m'.erase k) := by
  intro k'
  rw [get?_erase, get?_erase]
  split
  · exact .none
  · exact h k'

/-- Related maps may be laid over related maps. -/
theorem overlay (hlower : Related R lower lower') (hupper : Related R upper upper') :
    Related R (lower.overlay upper) (lower'.overlay upper') := by
  intro k
  rw [get?_overlay, get?_overlay]
  rcases hupper.at_key k with ⟨v, v', hv, hv', h⟩ | ⟨hv, hv'⟩
  · rw [hv, hv']
    exact .some h
  · rw [hv, hv']
    exact hlower k

/-- A value may be replaced by its image, if the images of related values are related. -/
theorem modify (h : Related R m m') (k : String) {f : α → α} {f' : β → β}
    (hf : ∀ v v', R v v' → R (f v) (f' v')) : Related R (m.modify k f) (m'.modify k f') := by
  unfold OrderedMap.modify
  rcases h.at_key k with ⟨v, v', hv, hv', hrelated⟩ | ⟨hv, hv'⟩
  · rw [hv, hv']
    exact h.insert k (hf _ _ hrelated)
  · rw [hv, hv']
    exact h

/-- Related maps have the same keys. -/
theorem keys_eq (h : Related R m m') : m.keys = m'.keys := by
  have hsorted {γ : Type} (m : OrderedMap γ) : m.keys.Pairwise (· < ·) :=
    List.pairwise_map.2 m.sorted
  have hnodup {γ : Type} (m : OrderedMap γ) : m.keys.Nodup :=
    List.pairwise_map.2 m.distinct
  -- Sorted lists with the same members are the same.
  have hperm : m.keys.Perm m'.keys := by
    refine (List.perm_ext_iff_of_nodup (hnodup m) (hnodup m')).2 fun k => ?_
    rw [mem_keys_iff, mem_keys_iff]
    rcases h.at_key k with ⟨v, v', hv, hv', -⟩ | ⟨hv, hv'⟩ <;> simp [hv, hv']
  refine hperm.eq_of_pairwise (fun a b _ _ hab hba => ?_) (hsorted m) (hsorted m')
  exact absurd (String.lt_trans hab hba) (String.lt_irrefl _)

/-- Related maps have related entries in the same order. -/
theorem entries (h : Related R m m') : List.Forall₂ (RelatedEntry R) m.entries m'.entries := by
  refine forall₂_relatedEntry h.keys_eq ?_
  rintro ⟨k, v⟩ hmem ⟨k', v'⟩ hmem' rfl
  have hk := h k
  rw [get?_eq_some_iff.2 hmem, get?_eq_some_iff.2 hmem'] at hk
  cases hk with
  | some hv => exact hv

end Related

end EntityStore.OrderedMap
