import EntityStore.Command.Lines
import EntityStore.Proofs.Json.Canonical
import EntityStore.Proofs.Serializer.Codec

/-!
# What the lines of a file give

A document on a line is read from a JSON text, so its fields are values that either serializer is
made for: objects list their members in order, and nothing nests deeper than the reader goes, which
is not as deep as the CBOR reader does. So a file of documents never brings a value that is lost for
its shape (`preserves_of_readDocuments`).
-/

namespace EntityStore.Command

/-- Both serializers are made for the fields of a document on a line. -/
theorem preserves_of_documentOf? {line key : String} {document : Document}
    (h : documentOf? line = some (key, document)) (serializer : Serializer) {field : String}
    {json : Json} (hget : document.fields.get? field = some json) : serializer.Preserves json := by
  cases serializer with
  | native => trivial
  | cbor =>
    unfold documentOf? at h
    obtain ⟨written, -, h⟩ := Option.bind_eq_some_iff.1 h
    obtain ⟨parts, -, h⟩ := Option.bind_eq_some_iff.1 h
    split at h
    · next writtenKey writtenValue =>
      obtain ⟨value, hvalue, h⟩ := Option.bind_eq_some_iff.1 h
      split at h
      · next fields =>
        obtain ⟨_, -, heq⟩ := Option.bind_eq_some_iff.1 h
        obtain ⟨-, rfl⟩ := Prod.mk.inj (Option.some.inj heq)
        -- The document is an object inside the line, and its fields are inside the document.
        obtain ⟨hcanonical, hnesting⟩ := writtenValue.canonical_of_toJson? maxValueDepth hvalue
        have hmem := OrderedMap.mem_of_get?_ofList hget
        have hdepth : maxValueDepth ≤ Cbor.maxDepth := by decide
        have hfields : Json.membersNesting fields ≤ maxValueDepth :=
          Nat.le_of_succ_le (show Json.membersNesting fields + 1 ≤ maxValueDepth from hnesting)
        exact ⟨Json.canonicalMembers_iff.1 hcanonical.2 _ hmem,
          Nat.le_trans (Json.membersNesting_le_iff.1 hfields _ hmem) hdepth⟩
      · cases h
    · cases h

/-- Every document that is read from lines is on one of them. -/
theorem exists_documentOf? {path : String} {read : Nat} {lines : List (List UInt8)}
    {documents : List (String × Document)} (h : documentsOf path read lines = .ok documents)
    {document : String × Document} (hmem : document ∈ documents) :
    ∃ line, documentOf? line = some document := by
  induction lines generalizing read documents with
  | nil =>
    obtain rfl := Except.ok.inj h
    cases hmem
  | cons octets rest ih =>
    rw [documentsOf] at h
    split at h
    · cases h
    · next line _ =>
      split at h
      · exact ih h hmem
      · split at h
        · cases h
        · next first hfirst =>
          cases hrest : documentsOf path (read + 1) rest with
          | error e =>
            rw [hrest] at h
            cases h
          | ok others =>
            rw [hrest] at h
            obtain rfl := Except.ok.inj h
            rcases List.mem_cons.1 hmem with rfl | hmem
            · exact ⟨line, hfirst⟩
            · exact ih hrest hmem

/-- Both serializers are made for the fields of all documents in a file. -/
theorem preserves_of_readDocuments {files : FileTree} {path : String}
    {documents : List (String × Document)} (h : readDocuments files path = .ok documents)
    {document : String × Document} (hmem : document ∈ documents) (serializer : Serializer)
    {field : String} {json : Json} (hget : document.2.fields.get? field = some json) :
    serializer.Preserves json := by
  unfold readDocuments at h
  split at h
  · cases h
  · obtain ⟨line, hline⟩ := exists_documentOf? h hmem
    exact preserves_of_documentOf? hline serializer hget

end EntityStore.Command
