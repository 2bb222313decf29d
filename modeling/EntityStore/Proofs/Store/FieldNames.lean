import EntityStore.Entity.Untyped
import EntityStore.MappedStore
import EntityStore.Proofs.Mapping.Binding
import EntityStore.Proofs.Serializer.Codec

/-!
# Documents in bins

A document is its fields, so a mapped store encodes it by binding its fields to bins and decodes it
by going back. An accepted document is read back exactly if each of its field names survives the way
to its bin and back (`decode_encode_iff`). A store does not look at that when it accepts a document,
and a field that is bound to no bin but has the name of another field's bin comes back under the
name of that other field (`decode_unbound_field`).
-/

namespace EntityStore.MappedStore

variable {κ : Type}

/-- The fields of a document are those it has. -/
theorem fields_document (document : Document) : Entity.fields document = .ok document.fields :=
  congrArg Except.ok (OrderedMap.ofList_entries document.fields)

/-- The bins of a document are those of its fields. -/
theorem encode_document (store : MappedStore κ Document) (document : Document) :
    store.encode document =
      (store.mapping.toBins store.serializer.binOfField document.fields).mapError
        .serialization := by
  rw [encode, fields_document]
  rfl

/-- The document in bins has the fields that the bins lead back to. -/
theorem decode_document (store : MappedStore κ Document) (bins : Bins) :
    store.decode bins =
      ((store.mapping.ofBins store.serializer.fieldOfBin bins).map Document.mk).mapError
        .serialization := by
  rw [decode]
  cases store.mapping.ofBins store.serializer.fieldOfBin bins <;> rfl

/-- Bins that a document is accepted with hold its fields. -/
theorem binds_of_encode {store : MappedStore κ Document} {document : Document} {bins : Bins}
    (h : store.encode document = .ok bins) :
    store.mapping.Binds store.serializer.binOfField document.fields bins := by
  rw [encode_document] at h
  cases hbins : store.mapping.toBins store.serializer.binOfField document.fields with
  | ok result =>
    rw [hbins] at h
    obtain rfl := Except.ok.inj h
    exact Mapping.Resolved.binds_of_toBins hbins
  | error e =>
    rw [hbins] at h
    cases h

/-- Bins that hold the fields of a document are read as this document exactly if the names of the
fields survive. -/
theorem decode_eq_ok_iff {store : MappedStore κ Document} {document : Document} {bins : Bins}
    (hbinds : store.mapping.Binds store.serializer.binOfField document.fields bins)
    (hpreserves : ∀ f v, document.fields.get? f = some v → store.serializer.Preserves v) :
    store.decode bins = .ok document ↔
      ∀ field ∈ document.fields.keys,
        store.mapping.fieldOf (store.mapping.binOf field) = field := by
  -- The values come back, so that only the names can make a difference.
  have hback : ∀ f v value, document.fields.get? f = some v →
      store.serializer.binOfField (store.mapping.binOf f) v = .ok value →
      store.serializer.fieldOfBin (store.mapping.binOf f) value = .ok v := by
    intro f v value hget hconvert
    obtain ⟨haccepts, rfl⟩ := Serializer.binOfField_eq_ok_iff.1 hconvert
    exact Serializer.fieldOfBin_toValue haccepts (hpreserves f v hget) _
  rw [← Mapping.Resolved.ofBins_eq_ok_iff hbinds hback, decode_document]
  cases store.mapping.ofBins store.serializer.fieldOfBin bins with
  | ok fields =>
    simp only [Except.map, Except.mapError, Except.ok.injEq]
    constructor
    · rintro rfl
      rfl
    · rintro rfl
      rfl
  | error e => simp [Except.map, Except.mapError]

/-- A document that the native serializer accepts is read back from its bins exactly if each of its
field names is the one that its bin leads back to. -/
theorem decode_encode_iff (store : MappedStore κ Document) (document : Document) (bins : Bins)
    (hserializer : store.serializer = .native) (h : store.encode document = .ok bins) :
    store.decode bins = .ok document ↔
      ∀ field ∈ document.fields.keys,
        store.mapping.fieldOf (store.mapping.binOf field) = field := by
  refine decode_eq_ok_iff (binds_of_encode h) fun _ _ _ => ?_
  rw [hserializer]
  trivial

/-- A mapping document that declares documents in the namespace `app`, with the bindings of a
list. -/
def boundDocuments (fields : List Mapping.FieldBinding) : Mapping.Document where
  classes := [{
    entityType := some "polystore.Document"
    keyType := some "String"
    ns := some "app"
    fields }]

/-- Fields that go to each other's bins are both read back. -/
theorem decode_encode_swapped_bins :
    ∃ mapping, (boundDocuments [⟨"a", "b"⟩, ⟨"b", "a"⟩]).resolve "String" "polystore.Document" =
        .ok mapping ∧
      ∃ bins, (⟨mapping, .native⟩ : MappedStore String Document).encode
          ⟨.ofList [("a", .bool true), ("b", .null)]⟩ = .ok bins ∧
        (⟨mapping, .native⟩ : MappedStore String Document).decode bins =
          .ok (⟨.ofList [("a", .bool true), ("b", .null)]⟩ : Document) :=
  ⟨_, rfl, _, rfl, (decode_encode_iff _ _ _ rfl rfl).2 (by decide)⟩

/-- A field that is bound to no bin, but has the name of the bin of another field, is accepted and
comes back under the name of that other field. -/
theorem decode_unbound_field :
    ∃ mapping, (boundDocuments [⟨"a", "b"⟩]).resolve "String" "polystore.Document" = .ok mapping ∧
      ∃ bins, (⟨mapping, .native⟩ : MappedStore String Document).encode
          ⟨.ofList [("b", .bool true)]⟩ = .ok bins ∧
        (⟨mapping, .native⟩ : MappedStore String Document).decode bins =
          .ok (⟨.ofList [("a", .bool true)]⟩ : Document) ∧
        (⟨mapping, .native⟩ : MappedStore String Document).decode bins ≠
          .ok (⟨.ofList [("b", .bool true)]⟩ : Document) := by
  refine ⟨_, rfl, _, rfl, rfl, fun h => ?_⟩
  -- What comes back has another name than what was put in.
  have hnames := congrArg (fun document => document.fields.keys) (Except.ok.inj h)
  exact absurd hnames (by decide)

end EntityStore.MappedStore
