import EntityStore.Proofs.Mapping.Names
import EntityStore.Serializer.Basic
import Mathlib.Data.List.Pairwise

/-!
# Binding fields to bins

`Mapping.Resolved.bindInto` goes through the fields with the bins so far and their owners. When it
succeeds no two fields share a bin, every field has its converted value in its own bin, and no bin
has another origin (`bindInto_eq_ok`); `Binds` is what remains of this for all fields together.

Going back, every bin leads to a field with its value converted back, and every field that comes
back has a bin (`ofBins_eq_ok`). So bins lead back to the very fields that they were made of exactly
if each of these names survives the way to its bin and back (`ofBins_eq_ok_iff`).
-/

namespace EntityStore.Mapping.Resolved

variable {m : Resolved} {convert : String → Json → Except SerializationError Value}

/-- Bins hold the converted values of fields, each in the bin of the field, and nothing else. -/
structure Binds (m : Resolved) (convert : String → Json → Except SerializationError Value)
    (fields : OrderedMap Json) (bins : Bins) : Prop where
  /-- No two fields share a bin. -/
  injective : ∀ {f g v w}, fields.get? f = some v → fields.get? g = some w →
    m.binOf f = m.binOf g → f = g
  /-- Every field has its value in its bin. -/
  stored : ∀ {f v}, fields.get? f = some v →
    ∃ value, convert (m.binOf f) v = .ok value ∧ bins.get? (m.binOf f) = some value
  /-- Every bin is the bin of a field. -/
  found : ∀ {bin value}, bins.get? bin = some value →
    ∃ f v, fields.get? f = some v ∧ m.binOf f = bin

/-- What the fields that are still to be bound add to the bins and owners so far. -/
theorem bindInto_eq_ok {owners : OrderedMap String} {bins result : Bins}
    {fields : List (String × Json)} (h : m.bindInto convert owners bins fields = .ok result) :
    (∀ e ∈ fields, owners.get? (m.binOf e.1) = none) ∧
      (fields.Pairwise fun a b => m.binOf a.1 ≠ m.binOf b.1) ∧
      (∀ e ∈ fields, ∃ value, convert (m.binOf e.1) e.2 = .ok value ∧
        result.get? (m.binOf e.1) = some value) ∧
      ∀ bin, (∀ e ∈ fields, m.binOf e.1 ≠ bin) → result.get? bin = bins.get? bin := by
  induction fields generalizing owners bins with
  | nil =>
    obtain rfl := Except.ok.inj h
    simp
  | cons e rest ih =>
    obtain ⟨field, json⟩ := e
    rw [bindInto] at h
    split at h
    · cases h
    · next howner =>
      split at h
      · next value hconvert =>
        obtain ⟨howners, hpairwise, hstored, hrest⟩ := ih h
        -- The bin of this field has an owner from here on, and those of the others do not.
        have hne : ∀ e ∈ rest, m.binOf field ≠ m.binOf e.1 := by
          intro e he heq
          have hnone := howners e he
          rw [OrderedMap.get?_insert, if_pos heq.symm] at hnone
          cases hnone
        refine ⟨?_, List.pairwise_cons.2 ⟨hne, hpairwise⟩, ?_, ?_⟩
        · intro e he
          rcases List.mem_cons.1 he with rfl | he
          · exact howner
          · have hnone := howners e he
            rwa [OrderedMap.get?_insert, if_neg fun heq => hne e he heq.symm] at hnone
        · intro e he
          rcases List.mem_cons.1 he with rfl | he
          · refine ⟨value, hconvert, ?_⟩
            rw [hrest _ fun e he => (hne e he).symm, OrderedMap.get?_insert, if_pos rfl]
          · exact hstored e he
        · intro bin hbin
          have hother := hbin _ List.mem_cons_self
          rw [hrest bin fun e he => hbin e (List.mem_cons_of_mem _ he), OrderedMap.get?_insert,
            if_neg fun heq => hother heq.symm]
      · cases h

/-- Bins that an entity is accepted with hold its fields and nothing else. -/
theorem binds_of_toBins {fields : OrderedMap Json} {bins : Bins}
    (h : m.toBins convert fields = .ok bins) : m.Binds convert fields bins := by
  obtain ⟨-, hpairwise, hstored, hrest⟩ := bindInto_eq_ok h
  refine ⟨?_, ?_, ?_⟩
  · intro f g v w hf hg heq
    by_contra hne
    have hf := OrderedMap.get?_eq_some_iff.1 hf
    have hg := OrderedMap.get?_eq_some_iff.1 hg
    have hdistinct : ((f, v) : String × Json) ≠ (g, w) := fun h => hne (congrArg Prod.fst h)
    have hsymm : Std.Symm fun a b : String × Json => m.binOf a.1 ≠ m.binOf b.1 :=
      ⟨fun _ _ hab hba => hab hba.symm⟩
    exact hpairwise.forall hf hg hdistinct heq
  · intro f v hf
    exact hstored _ (OrderedMap.get?_eq_some_iff.1 hf)
  · intro bin value hbin
    by_contra hnone
    push Not at hnone
    have habsent := hrest bin fun e he => hnone e.1 e.2 (OrderedMap.get?_eq_some_iff.2 he)
    rw [hbin] at habsent
    cases habsent

/-! ## From bins back to fields -/

/-- Conversions that all succeed give a list of results. -/
theorem mapM_eq_ok {α β ε : Type} {f : α → Except ε β} {l : List α}
    (h : ∀ a ∈ l, ∃ b, f a = .ok b) :
    ∃ results, l.mapM f = .ok results ∧ ∀ b, b ∈ results ↔ ∃ a ∈ l, f a = .ok b := by
  induction l with
  | nil => exact ⟨[], rfl, by simp⟩
  | cons a rest ih =>
    obtain ⟨b, hb⟩ := h a List.mem_cons_self
    obtain ⟨results, hresults, hmem⟩ := ih fun a ha => h a (List.mem_cons_of_mem _ ha)
    refine ⟨b :: results, ?_, fun c => ?_⟩
    · rw [List.mapM_cons, hb, hresults]
      rfl
    · rw [List.mem_cons, hmem, List.exists_mem_cons_iff, hb, Except.ok.injEq, eq_comm]

/-- Bins whose values can all be converted lead back to fields: each field that comes back has a bin
that leads to it, and each bin leads to a field that comes back. -/
theorem ofBins_eq_ok {back : String → Value → Except SerializationError Json} {bins : Bins}
    (h : ∀ bin value, bins.get? bin = some value → ∃ v, back bin value = .ok v) :
    ∃ fields, m.ofBins back bins = .ok fields ∧
      (∀ f v, fields.get? f = some v →
        ∃ bin value, bins.get? bin = some value ∧ m.fieldOf bin = f ∧ back bin value = .ok v) ∧
      ∀ bin value, bins.get? bin = some value → ∃ v, fields.get? (m.fieldOf bin) = some v := by
  -- Several bins may lead to one field, so that the fields are those of a list with repetitions.
  obtain ⟨named, hnamed, hmem⟩ := mapM_eq_ok
    (f := fun e : String × Value => (back e.1 e.2).map fun json => (m.fieldOf e.1, json))
    (l := bins.entries) (by
      intro e he
      obtain ⟨v, hv⟩ := h e.1 e.2 (OrderedMap.get?_eq_some_iff.2 he)
      exact ⟨(m.fieldOf e.1, v), by rw [hv]; rfl⟩)
  refine ⟨.ofList named, ?_, ?_, ?_⟩
  · show Except.map OrderedMap.ofList (bins.entries.mapM _) = _
    rw [hnamed]
    rfl
  · intro f v hf
    obtain ⟨e, he, hback⟩ := (hmem _).1 (OrderedMap.mem_of_get?_ofList hf)
    obtain ⟨w, hw⟩ := h e.1 e.2 (OrderedMap.get?_eq_some_iff.2 he)
    rw [hw] at hback
    obtain ⟨hfield, hvalue⟩ := Prod.mk.inj (Except.ok.inj hback)
    exact ⟨e.1, e.2, OrderedMap.get?_eq_some_iff.2 he, hfield, hvalue ▸ hw⟩
  · intro bin value hbin
    obtain ⟨v, hv⟩ := h bin value hbin
    have hresult : (m.fieldOf bin, v) ∈ named :=
      (hmem _).2 ⟨(bin, value), OrderedMap.get?_eq_some_iff.1 hbin, by simp only [hv]; rfl⟩
    exact OrderedMap.exists_get?_ofList hresult

/-- Bins lead back to the fields they hold exactly if every field's name survives the way to its bin
and back. -/
theorem ofBins_eq_ok_iff {back : String → Value → Except SerializationError Json}
    {fields : OrderedMap Json} {bins : Bins} (hbinds : m.Binds convert fields bins)
    (hback : ∀ f v value, fields.get? f = some v → convert (m.binOf f) v = .ok value →
      back (m.binOf f) value = .ok v) :
    m.ofBins back bins = .ok fields ↔ ∀ f ∈ fields.keys, m.fieldOf (m.binOf f) = f := by
  have hvalue : ∀ bin value, bins.get? bin = some value →
      ∃ f v, fields.get? f = some v ∧ m.binOf f = bin ∧ back bin value = .ok v := by
    intro bin value hbin
    obtain ⟨f, v, hf, rfl⟩ := hbinds.found hbin
    obtain ⟨stored, hconvert, hstored⟩ := hbinds.stored hf
    rw [hbin] at hstored
    obtain rfl := Option.some.inj hstored
    exact ⟨f, v, hf, rfl, hback f v value hf hconvert⟩
  have hreadable : ∀ bin value, bins.get? bin = some value → ∃ v, back bin value = .ok v := by
    intro bin value hbin
    obtain ⟨f, v, -, -, hv⟩ := hvalue bin value hbin
    exact ⟨v, hv⟩
  obtain ⟨result, hresult, horigin, harrival⟩ := ofBins_eq_ok (m := m) hreadable
  rw [hresult, Except.ok.injEq]
  constructor
  · -- A field that came back under another name would share its bin with that field.
    rintro rfl f hf
    obtain ⟨v, hget⟩ := OrderedMap.mem_keys_iff.1 hf
    obtain ⟨value, -, hstored⟩ := hbinds.stored hget
    obtain ⟨w, hw⟩ := harrival _ _ hstored
    exact hbinds.injective hw hget (m.binOf_fieldOf_binOf f)
  · -- With names that survive, what comes back has the origin that it had, and nothing is missing.
    intro hnames
    have hname : ∀ {f v}, fields.get? f = some v → m.fieldOf (m.binOf f) = f :=
      fun hget => hnames _ (OrderedMap.mem_keys_iff.2 ⟨_, hget⟩)
    have hsound : ∀ f v, result.get? f = some v → fields.get? f = some v := by
      intro f v hget
      obtain ⟨bin, value, hbin, hfield, hv⟩ := horigin f v hget
      obtain ⟨g, w, hg, rfl, hw⟩ := hvalue bin value hbin
      rw [hname hg] at hfield
      rw [hv] at hw
      rw [← hfield, hg, Except.ok.inj hw]
    refine OrderedMap.ext_get? fun f => ?_
    cases hresult : result.get? f with
    | some v => rw [hsound f v hresult]
    | none =>
      symm
      rw [Option.eq_none_iff_forall_ne_some]
      intro v hget
      obtain ⟨value, -, hstored⟩ := hbinds.stored hget
      obtain ⟨w, hw⟩ := harrival _ _ hstored
      rw [hname hget, hresult] at hw
      cases hw

end EntityStore.Mapping.Resolved
