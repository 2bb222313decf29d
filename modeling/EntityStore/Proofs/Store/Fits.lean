import EntityStore.Proofs.Store.FieldNames
import EntityStore.Proofs.Store.Table

/-!
# Documents that fit a store

A document fits a store if the names of its fields survive the way to their bins and back, and the
serializer preserves its values (`MappedStore.Fits`). A fitting document is encoded to bins that
hold it, unless a field of it is refused for its size (`encode_of_fits`), and bins are decoded to
the document that they hold (`Holds.decode`). Since names survive, no field goes to the bin of
another one, not even of another document, so that new bins over old ones hold the new document over
the old one (`Holds.overlay`).
-/

namespace EntityStore

namespace MappedStore

variable {κ : Type} {store : MappedStore κ Document} {document old new : Document}
  {bins bins' : Bins}

/-! ## Documents that fit a store -/

/-- The names of the fields survive the way to their bins and back, and the serializer preserves the
values. -/
structure Fits (store : MappedStore κ Document) (document : Document) : Prop where
  /-- Each field is the one that its bin leads back to. -/
  names : ∀ field ∈ document.fields.keys,
    store.mapping.fieldOf (store.mapping.binOf field) = field
  /-- The serializer is made for each value. -/
  values : ∀ field json, document.fields.get? field = some json → store.serializer.Preserves json

/-- A field of a fitting document is the one that its bin leads back to. -/
theorem Fits.name (h : store.Fits document) {field : String} {json : Json}
    (hget : document.fields.get? field = some json) :
    store.mapping.fieldOf (store.mapping.binOf field) = field :=
  h.names field (OrderedMap.mem_keys_iff.2 ⟨json, hget⟩)

/-- Fields of fitting documents with the same bin are the same. -/
theorem Fits.eq_of_binOf_eq (h : store.Fits old) (h' : store.Fits new) {f g : String} {v w : Json}
    (hf : old.fields.get? f = some v) (hg : new.fields.get? g = some w)
    (heq : store.mapping.binOf f = store.mapping.binOf g) : f = g := by
  rw [← h.name hf, heq, h'.name hg]

/-- A document with one field fits if the name of the field survives and its value is preserved. -/
theorem fits_singleton {field : String} {json : Json}
    (hname : store.mapping.fieldOf (store.mapping.binOf field) = field)
    (hvalue : store.serializer.Preserves json) : store.Fits ⟨.ofList [(field, json)]⟩ := by
  constructor
  · intro f hf
    obtain rfl : f = field := List.mem_singleton.1 hf
    exact hname
  · intro f v hget
    obtain ⟨rfl, rfl⟩ := Prod.mk.inj (List.mem_singleton.1 (OrderedMap.mem_of_get?_ofList hget))
    exact hvalue

/-- A field of one document over another is a field of one of them. -/
theorem get?_overlay_cases {f : String} {v : Json}
    (h : (old.fields.overlay new.fields).get? f = some v) :
    new.fields.get? f = some v ∨ new.fields.get? f = none ∧ old.fields.get? f = some v := by
  rw [OrderedMap.get?_overlay] at h
  cases hnew : new.fields.get? f with
  | some w =>
    rw [hnew, Option.some_or] at h
    exact .inl h
  | none =>
    rw [hnew, Option.none_or] at h
    exact .inr ⟨rfl, h⟩

/-- A fitting document over a fitting one fits. -/
theorem Fits.overlay (h : store.Fits old) (h' : store.Fits new) :
    store.Fits ⟨old.fields.overlay new.fields⟩ := by
  constructor
  · intro field hmem
    obtain ⟨json, hget⟩ := OrderedMap.mem_keys_iff.1 hmem
    rcases get?_overlay_cases hget with hnew | ⟨-, hold⟩
    · exact h'.name hnew
    · exact h.name hold
  · intro field json hget
    rcases get?_overlay_cases hget with hnew | ⟨-, hold⟩
    · exact h'.values field json hnew
    · exact h.values field json hold

/-! ## Bins that hold a document -/

/-- The bins hold the fields of a fitting document and nothing else. -/
structure Holds (store : MappedStore κ Document) (document : Document) (bins : Bins) : Prop where
  /-- The fields are in their bins. -/
  binds : store.mapping.Binds store.serializer.binOfField document.fields bins
  /-- The document fits. -/
  fits : store.Fits document

/-- Bins are decoded to the document that they hold. -/
theorem Holds.decode (h : store.Holds document bins) : store.decode bins = .ok document :=
  (decode_eq_ok_iff h.binds h.fits.values).2 h.fits.names

/-- New bins over old ones hold the new document over the old one. -/
theorem Holds.overlay (h : store.Holds old bins) (h' : store.Holds new bins') :
    store.Holds ⟨old.fields.overlay new.fields⟩ (bins.overlay bins') := by
  have hfits := h.fits.overlay h'.fits
  refine ⟨⟨fun hf hg heq => hfits.eq_of_binOf_eq hfits hf hg heq, ?_, ?_⟩, hfits⟩
  · intro f v hget
    rcases get?_overlay_cases hget with hnew | ⟨habsent, hold⟩
    · obtain ⟨value, hconvert, hstored⟩ := h'.binds.stored hnew
      exact ⟨value, hconvert, by rw [OrderedMap.get?_overlay, hstored, Option.some_or]⟩
    · obtain ⟨value, hconvert, hstored⟩ := h.binds.stored hold
      -- A new bin of that name would hold a new field of that name.
      have hfree : bins'.get? (store.mapping.binOf f) = none := by
        rw [Option.eq_none_iff_forall_ne_some]
        intro other hother
        obtain ⟨g, w, hg, heq⟩ := h'.binds.found hother
        rw [h'.fits.eq_of_binOf_eq h.fits hg hold heq, habsent] at hg
        cases hg
      exact ⟨value, hconvert, by rw [OrderedMap.get?_overlay, hfree, Option.none_or, hstored]⟩
  · intro bin value hbin
    rw [OrderedMap.get?_overlay, Option.or_eq_some_iff] at hbin
    rcases hbin with hbin | ⟨-, hbin⟩
    · obtain ⟨f, v, hf, heq⟩ := h'.binds.found hbin
      exact ⟨f, v, by rw [OrderedMap.get?_overlay, hf, Option.some_or], heq⟩
    · obtain ⟨f, v, hf, heq⟩ := h.binds.found hbin
      cases hnew : new.fields.get? f with
      | some w => exact ⟨f, w, by rw [OrderedMap.get?_overlay, hnew, Option.some_or], heq⟩
      | none => exact ⟨f, v, by rw [OrderedMap.get?_overlay, hnew, Option.none_or, hf], heq⟩

/-- Fields that go to bins of their own are bound, or the first one that is too long is refused. -/
theorem bindInto_eq_refusal (m : Mapping.Resolved) (s : Serializer) (owners : OrderedMap String)
    (bins : Bins) {fields : List (String × Json)}
    (hdistinct : fields.Pairwise fun a b => m.binOf a.1 ≠ m.binOf b.1)
    (hfree : ∀ e ∈ fields, owners.get? (m.binOf e.1) = none) :
    (∃ e, fields.find? (fun e => !s.accepts e.2) = some e ∧
      m.bindInto s.binOfField owners bins fields = .error (.oversizedBin (m.binOf e.1))) ∨
      fields.find? (fun e => !s.accepts e.2) = none ∧
        ∃ result, m.bindInto s.binOfField owners bins fields = .ok result := by
  induction fields generalizing owners bins with
  | nil => exact .inr ⟨rfl, bins, rfl⟩
  | cons e rest ih =>
    obtain ⟨field, json⟩ := e
    obtain ⟨hhead, hrest⟩ := List.pairwise_cons.1 hdistinct
    rw [Mapping.Resolved.bindInto]
    simp only [hfree _ List.mem_cons_self, Serializer.binOfField_eq]
    cases haccepts : s.accepts json with
    -- A field that is too long ends the way through the fields.
    | false => exact .inl ⟨(field, json), by simp [haccepts], by simp⟩
    | true =>
      -- The bin of this field now has an owner, but it is not the bin of another field.
      have hfree' : ∀ e ∈ rest,
          (owners.insert (m.binOf field) field).get? (m.binOf e.1) = none := by
        intro e he
        rw [OrderedMap.get?_insert, if_neg (hhead e he).symm]
        exact hfree e (List.mem_cons_of_mem _ he)
      have hnext := ih _ (bins.insert (m.binOf field) (s.toValue json)) hrest hfree'
      simpa [haccepts] using hnext

/-- A fitting document is encoded to bins that hold it, or is refused for its size. -/
theorem encode_of_fits (h : store.Fits document) :
    (∃ e, store.refusal? document = some e ∧ store.encode document = .error e) ∨
      store.refusal? document = none ∧
        ∃ bins, store.encode document = .ok bins ∧ store.Holds document bins := by
  have hdistinct : document.fields.entries.Pairwise fun a b =>
      store.mapping.binOf a.1 ≠ store.mapping.binOf b.1 := by
    refine document.fields.distinct.imp_of_mem fun ha hb hne heq => hne ?_
    exact h.eq_of_binOf_eq h (OrderedMap.get?_eq_some_iff.2 ha) (OrderedMap.get?_eq_some_iff.2 hb)
      heq
  have hencode := encode_document store document
  unfold Mapping.Resolved.toBins at hencode
  unfold refusal?
  rcases bindInto_eq_refusal store.mapping store.serializer .empty .empty hdistinct
    (fun _ _ => rfl) with ⟨e, hfind, hbind⟩ | ⟨hfind, result, hbind⟩
  · rw [hbind] at hencode
    exact .inl ⟨_, by rw [hfind]; rfl, hencode⟩
  · rw [hbind] at hencode
    exact .inr ⟨by rw [hfind]; rfl, result, hencode, binds_of_encode hencode, h⟩

/-- A write of a fitting document that is refused fails before it reaches the client. -/
theorem put_of_refusal {σ : Type} [Key κ] (client : Client σ) (h : store.Fits document) {e : Error}
    (hrefusal : store.refusal? document = some e) (key : κ) :
    store.put client key document = throw e := by
  rcases encode_of_fits h with ⟨e', hrefusal', hencode⟩ | ⟨hrefusal', -⟩
  · rw [hrefusal] at hrefusal'
    obtain rfl := Option.some.inj hrefusal'
    rw [put, hencode]
    rfl
  · rw [hrefusal] at hrefusal'
    cases hrefusal'

end MappedStore

end EntityStore
