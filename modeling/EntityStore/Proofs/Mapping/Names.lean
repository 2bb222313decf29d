import EntityStore.Mapping.Resolved
import EntityStore.Proofs.OrderedMap

/-!
# Field names, bin names, and back

A field goes to the bin that it is bound to, or to the bin of its own name. A bin leads back to a
field that is bound to it, the greatest of several (`fieldOf_eq_iff_of_bound`), or to the field of
its own name. The two translations need not be inverse: a field that is bound to no bin is taken for
another one if its name is the bin of that one. But the field that comes back always goes to the
same bin (`binOf_fieldOf_binOf`), so a name can only be exchanged for a name that shares its bin.
-/

namespace EntityStore.Mapping.Resolved

/-- Inserting bindings in their order leaves, at each bin, the last of the fields bound to it. -/
theorem get?_foldl_reverse (bindings : List (String × String)) (fields : OrderedMap String)
    (bin : String) :
    (bindings.foldl (fun fields binding => fields.insert binding.2 binding.1) fields).get? bin =
      ((bindings.reverse.find? fun binding => binding.2 = bin).map (·.1)).or
        (fields.get? bin) := by
  induction bindings generalizing fields with
  | nil => rfl
  | cons binding rest ih =>
    -- A later binding of the bin counts, and the first one only if there is none.
    rw [List.foldl_cons, ih, List.reverse_cons, List.find?_append, OrderedMap.get?_insert]
    cases rest.reverse.find? fun binding => binding.2 = bin with
    | some found => rfl
    | none =>
      by_cases hbin : binding.2 = bin
      · simp [hbin]
      · have hbin' : bin ≠ binding.2 := fun heq => hbin heq.symm
        simp [hbin, hbin']

/-- A bin leads back to the last field, in the order of names, that is bound to it. -/
theorem get?_reverse (m : Resolved) (bin : String) :
    m.reverse.get? bin =
      (m.bindings.entries.reverse.find? fun binding => binding.2 = bin).map (·.1) := by
  rw [reverse, get?_foldl_reverse]
  simp

/-- A bin leads back to a field that is bound to it. -/
theorem bindings_of_reverse {m : Resolved} {bin field : String}
    (h : m.reverse.get? bin = some field) : m.bindings.get? field = some bin := by
  rw [get?_reverse] at h
  obtain ⟨⟨field, bin'⟩, hfind, rfl⟩ := Option.map_eq_some_iff.1 h
  have hbin : bin' = bin := by simpa using List.find?_some hfind
  have hmem := List.mem_reverse.1 (List.mem_of_find?_eq_some hfind)
  rw [hbin] at hmem
  exact OrderedMap.get?_eq_some_iff.2 hmem

/-- A bin that some field is bound to leads back to a bound field. -/
theorem exists_reverse {m : Resolved} {bin field : String}
    (h : m.bindings.get? field = some bin) : ∃ found, m.reverse.get? bin = some found := by
  rw [get?_reverse]
  have hmem := List.mem_reverse.2 (OrderedMap.get?_eq_some_iff.1 h)
  cases hfind : m.bindings.entries.reverse.find? fun binding => binding.2 = bin with
  | some found => exact ⟨found.1, rfl⟩
  | none =>
    have habsent := List.find?_eq_none.1 hfind _ hmem
    simp at habsent

/-- No field that is bound to a bin is greater than the one that the bin leads back to. -/
theorem le_of_reverse {m : Resolved} {bin field other : String}
    (h : m.reverse.get? bin = some field) (hother : m.bindings.get? other = some bin) :
    other ≤ field := by
  rw [get?_reverse] at h
  obtain ⟨binding, hfind, rfl⟩ := Option.map_eq_some_iff.1 h
  obtain ⟨-, later, earlier, hsplit, hlater⟩ := List.find?_eq_some_iff_append.1 hfind
  have hmem := List.mem_reverse.2 (OrderedMap.get?_eq_some_iff.1 hother)
  have hsorted := List.pairwise_reverse.2 m.bindings.sorted
  rw [hsplit] at hmem hsorted
  -- The bindings are gone through from the greatest field down, and this is the first one found.
  rcases List.mem_append.1 hmem with hmem | hmem
  · have hbin := hlater _ hmem
    simp at hbin
  · rcases List.mem_cons.1 hmem with rfl | hmem
    · exact String.le_refl _
    · have hbefore := List.pairwise_cons.1 (List.pairwise_append.1 hsorted).2.1
      exact String.not_lt.1 (String.lt_asymm (hbefore.1 _ hmem))

/-- The bin of a bound field leads back to it exactly if it is the greatest field of the bin. -/
theorem fieldOf_eq_iff_of_bound {m : Resolved} {bin field : String}
    (h : m.bindings.get? field = some bin) :
    m.fieldOf bin = field ↔ ∀ other, m.bindings.get? other = some bin → other ≤ field := by
  obtain ⟨found, hfound⟩ := exists_reverse h
  have hback : m.fieldOf bin = found := by rw [fieldOf, hfound]; rfl
  rw [hback]
  constructor
  · rintro rfl other hother
    exact le_of_reverse hfound hother
  · intro hgreatest
    exact String.le_antisymm (hgreatest found (bindings_of_reverse hfound))
      (le_of_reverse hfound h)

/-- The bin with the name of an unbound field leads back to it exactly if nothing is bound to this
bin. -/
theorem fieldOf_eq_iff_of_unbound {m : Resolved} {field : String}
    (h : m.bindings.get? field = none) :
    m.fieldOf field = field ↔ ∀ other, m.bindings.get? other ≠ some field := by
  constructor
  · intro hback other hother
    -- The bin leads back to a bound field.
    obtain ⟨found, hfound⟩ := exists_reverse hother
    rw [fieldOf, hfound, Option.getD_some] at hback
    have hbound := bindings_of_reverse hfound
    rw [hback, h] at hbound
    cases hbound
  · intro hnobody
    have hnone : m.reverse.get? field = none := by
      rw [Option.eq_none_iff_forall_ne_some]
      exact fun found hfound => hnobody found (bindings_of_reverse hfound)
    rw [fieldOf, hnone, Option.getD_none]

/-- A field comes back under its own name exactly if it is bound and is the greatest of the fields
with its bin, or if it is not bound and nothing is bound to the bin of its name. -/
theorem fieldOf_binOf_eq_self_iff (m : Resolved) (field : String) :
    m.fieldOf (m.binOf field) = field ↔
      (∃ bin, m.bindings.get? field = some bin ∧
          ∀ other, m.bindings.get? other = some bin → other ≤ field) ∨
        m.bindings.get? field = none ∧ ∀ other, m.bindings.get? other ≠ some field := by
  cases hbinding : m.bindings.get? field with
  | some bin =>
    have hbin : m.binOf field = bin := by rw [binOf, hbinding]; rfl
    rw [hbin, fieldOf_eq_iff_of_bound hbinding]
    simp
  | none =>
    have hbin : m.binOf field = field := by rw [binOf, hbinding]; rfl
    rw [hbin, fieldOf_eq_iff_of_unbound hbinding]
    simp

/-- The field that comes back goes to the same bin. -/
theorem binOf_fieldOf_binOf (m : Resolved) (field : String) :
    m.binOf (m.fieldOf (m.binOf field)) = m.binOf field := by
  cases hreverse : m.reverse.get? (m.binOf field) with
  | some found =>
    have hfound : m.fieldOf (m.binOf field) = found := by rw [fieldOf, hreverse]; rfl
    rw [hfound, binOf, bindings_of_reverse hreverse]
    rfl
  | none =>
    have hfound : m.fieldOf (m.binOf field) = m.binOf field := by rw [fieldOf, hreverse]; rfl
    -- The field has no binding, since its bin would lead back to a bound field.
    have hunbound : m.bindings.get? field = none := by
      rw [Option.eq_none_iff_forall_ne_some]
      intro bin hbin
      obtain ⟨found, hsome⟩ := exists_reverse hbin
      rw [binOf, hbin, Option.getD_some, hsome] at hreverse
      cases hreverse
    have hself : m.binOf field = field := by rw [binOf, hunbound]; rfl
    rw [hfound, hself, hself]

end EntityStore.Mapping.Resolved
