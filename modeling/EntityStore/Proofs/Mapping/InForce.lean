import EntityStore.Proofs.Mapping.Names
import EntityStore.Proofs.Text.Order
import Mathlib.Data.Set.Function

/-!
# Bindings in force

A class may bind a field more than once. The last of the bindings of a field is in force
(`Mapping.ClassDeclaration.InForce`), and the mapping that the class resolves to has the bindings in
force and no others (`Mapping.Document.get?_bindings`). So the translation of names is a matter of
the bindings in force alone, and what is known of the names that come back can be said in terms of
the declaration (`Mapping.Document.fieldOf_binOf_declared`).
-/

namespace EntityStore.Mapping

/-- The binding is the last one of its field. -/
def ClassDeclaration.InForce (c : ClassDeclaration) (b : FieldBinding) : Prop :=
  (c.fields.filter fun other => other.field = b.field).getLast? = some b

instance (c : ClassDeclaration) (b : FieldBinding) : Decidable (c.InForce b) :=
  inferInstanceAs (Decidable (_ = _))

/-- A binding in force is one of the class. -/
theorem ClassDeclaration.InForce.mem {c : ClassDeclaration} {b : FieldBinding} (h : c.InForce b) :
    b ∈ c.fields :=
  List.mem_of_mem_filter (List.mem_of_getLast? h)

/-- Mappings with the same bindings translate names alike. -/
theorem Resolved.translation_eq_of_bindings {m m' : Resolved} (h : m'.bindings = m.bindings) :
    m'.binOf = m.binOf ∧ m'.fieldOf = m.fieldOf := by
  constructor
  · funext field
    rw [binOf, binOf, h]
  · funext bin
    rw [fieldOf, fieldOf, reverse, reverse, h]

namespace Document

variable {d d' : Document} {keyType entityType keyType' entityType' : String}
  {c c' : ClassDeclaration} {m m' : Resolved}

/-- What a mapping that a document resolves to is made of. -/
theorem resolve_eq_ok_iff :
    d.resolve keyType entityType = .ok m ↔
      ∃ c ns, d.class? keyType entityType = some c ∧ Text.present? c.ns = some ns ∧
        m = {
          keyType, entityType, ns
          collection := (Text.present? c.collection).getD (TypeName.lastSegment entityType)
          bindings := .ofList (c.fields.map fun b => (b.field, b.bin))
          readPolicy := d.readPolicy
          writePolicy := d.writePolicy } := by
  unfold resolve
  cases hclass : d.class? keyType entityType with
  | none => simp
  | some c =>
    cases hns : Text.present? c.ns with
    | none => simp [hns]
    | some ns => simp [hns, eq_comm]

/-- A mapping has the bindings of the class that it comes from, the later ones over the earlier
ones. -/
theorem bindings_of_resolve (hclass : d.class? keyType entityType = some c)
    (hresolve : d.resolve keyType entityType = .ok m) :
    m.bindings = .ofList (c.fields.map fun b => (b.field, b.bin)) := by
  obtain ⟨c', ns, hclass', -, rfl⟩ := resolve_eq_ok_iff.1 hresolve
  obtain rfl := Option.some.inj (hclass.symm.trans hclass')
  rfl

/-- The bindings of a mapping are the bindings in force of the class. -/
theorem get?_bindings (hclass : d.class? keyType entityType = some c)
    (hresolve : d.resolve keyType entityType = .ok m) {field bin : String} :
    m.bindings.get? field = some bin ↔ c.InForce ⟨field, bin⟩ := by
  rw [bindings_of_resolve hclass hresolve, OrderedMap.get?_ofList, List.filter_map,
    List.getLast?_map, ClassDeclaration.InForce]
  show Option.map _ (Option.map _ (c.fields.filter fun b => b.field = field).getLast?) = _ ↔ _
  cases hlast : (c.fields.filter fun b => b.field = field).getLast? with
  | none => simp
  | some last =>
    -- The last binding of the field is one of the field.
    have hfield : last.field = field := by
      simpa using (List.mem_filter.1 (List.mem_of_getLast? hlast)).2
    cases last
    simp_all

/-- A mapping has no binding of a field exactly if the class has none. -/
theorem get?_bindings_eq_none_iff (hclass : d.class? keyType entityType = some c)
    (hresolve : d.resolve keyType entityType = .ok m) {field : String} :
    m.bindings.get? field = none ↔ ∀ b ∈ c.fields, b.field ≠ field := by
  rw [bindings_of_resolve hclass hresolve, OrderedMap.get?_ofList]
  simp

/-- Classes with the same bindings in force give mappings that translate names alike. -/
theorem translation_eq_of_inForce (hclass : d.class? keyType entityType = some c)
    (hresolve : d.resolve keyType entityType = .ok m)
    (hclass' : d'.class? keyType' entityType' = some c')
    (hresolve' : d'.resolve keyType' entityType' = .ok m')
    (h : ∀ b, c'.InForce b ↔ c.InForce b) : m'.binOf = m.binOf ∧ m'.fieldOf = m.fieldOf := by
  have hbindings : m'.bindings = m.bindings := by
    refine OrderedMap.ext_get? fun field => Option.ext fun bin => ?_
    rw [get?_bindings hclass' hresolve', get?_bindings hclass hresolve, h]
  exact Resolved.translation_eq_of_bindings hbindings

/-- A field comes back under its own name exactly if its binding in force is that of the greatest
field with this bin, or if it has no binding and no binding in force has its name as the bin. -/
theorem fieldOf_binOf_declared_iff (hclass : d.class? keyType entityType = some c)
    (hresolve : d.resolve keyType entityType = .ok m) (field : String) :
    m.fieldOf (m.binOf field) = field ↔
      (∃ bin, c.InForce ⟨field, bin⟩ ∧
          ∀ other, c.InForce ⟨other, bin⟩ → Text.octets other ≤ Text.octets field) ∨
        (∀ b ∈ c.fields, b.field ≠ field) ∧ ∀ other, ¬c.InForce ⟨other, field⟩ := by
  rw [m.fieldOf_binOf_eq_self_iff, get?_bindings_eq_none_iff hclass hresolve]
  simp only [ne_eq, get?_bindings hclass hresolve, Text.octets_le_octets_iff]

/-- Names survive the way to their bins and back exactly if they are bound and the greatest ones of
their bins, or unbound and not the bin of another field; only bindings in force count. So if the
bins in force are distinct and none of them is an unbound one of certain names, the two translations
are inverse to one another on these names. -/
theorem fieldOf_binOf_declared (hclass : d.class? keyType entityType = some c)
    (hresolve : d.resolve keyType entityType = .ok m) :
    (∀ field, m.fieldOf (m.binOf field) = field ↔
      (∃ bin, c.InForce ⟨field, bin⟩ ∧
          ∀ other, c.InForce ⟨other, bin⟩ → Text.octets other ≤ Text.octets field) ∨
        (∀ b ∈ c.fields, b.field ≠ field) ∧ ∀ other, ¬c.InForce ⟨other, field⟩) ∧
    (∀ (d' : Document) (keyType' entityType' : String) (c' : ClassDeclaration) (m' : Resolved),
      d'.class? keyType' entityType' = some c' → d'.resolve keyType' entityType' = .ok m' →
      (∀ b, c'.InForce b ↔ c.InForce b) → m'.binOf = m.binOf ∧ m'.fieldOf = m.fieldOf) ∧
    ∀ names : Set String,
      (∀ field other bin, c.InForce ⟨field, bin⟩ → c.InForce ⟨other, bin⟩ → field = other) →
      (∀ field ∈ names, (∀ b ∈ c.fields, b.field ≠ field) → ∀ other, ¬c.InForce ⟨other, field⟩) →
      Set.InvOn m.fieldOf m.binOf names (m.binOf '' names) := by
  have hself := fieldOf_binOf_declared_iff hclass hresolve
  refine ⟨hself, fun d' keyType' entityType' c' m' hclass' hresolve' h =>
    translation_eq_of_inForce hclass hresolve hclass' hresolve' h, ?_⟩
  intro names hdistinct hunbound
  constructor
  · intro field hfield
    rw [hself]
    cases hbinding : m.bindings.get? field with
    | some bin =>
      -- The field is the only one with its bin.
      have hforce := (get?_bindings hclass hresolve).1 hbinding
      refine .inl ⟨bin, hforce, fun other hother => ?_⟩
      rw [hdistinct field other bin hforce hother]
      exact List.le_refl _
    | none =>
      have hnot := (get?_bindings_eq_none_iff hclass hresolve).1 hbinding
      exact .inr ⟨hnot, hunbound field hfield hnot⟩
  · rintro - ⟨field, -, rfl⟩
    exact m.binOf_fieldOf_binOf field

/-- A class that binds one field twice, two fields to one bin, and a field to the bin that has the
name of an unbound one. -/
def tangledClass : ClassDeclaration where
  entityType := some "app.Item"
  keyType := some "String"
  ns := some "app"
  fields := [⟨"a", "x"⟩, ⟨"b", "y"⟩, ⟨"c", "d"⟩, ⟨"a", "y"⟩]

/-- The greater field of the shared bin comes back and the smaller one does not, the unbound field
whose name is a bin does not come back either, and the bin of the binding that is not in force does
not matter. -/
theorem fieldOf_binOf_declared_tangled :
    ∃ m, (⟨[], [tangledClass]⟩ : Document).resolve "String" "app.Item" = .ok m ∧
      m.fieldOf (m.binOf "b") = "b" ∧ m.fieldOf (m.binOf "a") ≠ "a" ∧
      m.fieldOf (m.binOf "d") ≠ "d" ∧ m.fieldOf (m.binOf "x") = "x" := by
  have hclass : (⟨[], [tangledClass]⟩ : Document).class? "String" "app.Item" = some tangledClass :=
    rfl
  refine ⟨_, rfl, ?_⟩
  obtain ⟨hself, -⟩ := fieldOf_binOf_declared hclass rfl
  refine ⟨(hself "b").2 (.inl ⟨"y", by decide, fun other hother => ?_⟩), fun ha => ?_,
    fun hd => ?_, (hself "x").2 (.inr ⟨by decide, fun other hother => ?_⟩)⟩
  · have hmem : other = "b" ∨ other = "a" := by simpa [tangledClass] using hother.mem
    rcases hmem with rfl | rfl <;> decide
  · rcases (hself "a").1 ha with ⟨bin, hforce, hgreatest⟩ | ⟨hunbound, -⟩
    · have hmem : bin = "x" ∨ bin = "y" := by simpa [tangledClass] using hforce.mem
      rcases hmem with rfl | rfl
      · exact absurd hforce (by decide)
      · exact absurd (hgreatest "b" (by decide)) (by decide)
    · exact absurd hunbound (by decide)
  · rcases (hself "d").1 hd with ⟨bin, hforce, -⟩ | ⟨-, hnobody⟩
    · have hmem := hforce.mem
      simp [tangledClass] at hmem
    · exact hnobody "c" (by decide)
  · have hmem : other = "a" := by simpa [tangledClass] using hother.mem
    subst hmem
    exact absurd hother (by decide)

end Document

end EntityStore.Mapping
