import EntityStore.Entity.Untyped
import EntityStore.Proofs.Serializer.Codec
import EntityStore.Proofs.Store.Request

/-!
# The table that a store of documents stands for

A `Table` is a finite map from keys to documents. It knows nothing of bins, records or encodings:
`Table.respond` says what each request does to it, and what its answer is.

A write lays the fields of the new document over those of the stored one, or puts the new document
in its place, or fails, as the action of the write policy says (`Table.written`). What a table takes
from the store it stands for is the names that errors mention, and the limit of the serializer: a
document with a field whose encoding is too long is refused (`MappedStore.refusal?`).
-/

namespace EntityStore

/-- A finite map from keys to documents: its pairs, in the order of the digests of the keys. -/
abbrev Table (κ : Type) := List (κ × Document)

/-- Why a store refuses a document: the first field, in the order of names, whose encoding is too
long for its bin. -/
def MappedStore.refusal? {κ : Type} (store : MappedStore κ Document) (document : Document) :
    Option Error :=
  (document.fields.entries.find? fun e => !store.serializer.accepts e.2).map fun e =>
    .serialization (.oversizedBin (store.mapping.binOf e.1))

namespace Table

variable {κ α : Type} [DecidableEq κ]

/-- The document under a key. -/
def find (t : Table κ) (key : κ) : Option Document :=
  (t.find? fun pair => pair.1 = key).map (·.2)

/-- The table without a key. -/
def remove (t : Table κ) (key : κ) : Table κ :=
  t.filter fun pair => pair.1 ≠ key

/-- The document that a write leaves where `stored` may have been, or why it fails. -/
def written (action : ExistsAction) (address : RecordKey) (document : Document) :
    Option Document → Except StoreError Document
  | some stored =>
    match action with
    | .update | .updateOnly => .ok ⟨stored.fields.overlay document.fields⟩
    | .replace | .replaceOnly => .ok document
    | .createOnly => .error (.recordExists address.display)
  | none =>
    match action with
    | .update | .replace | .createOnly => .ok document
    | .updateOnly | .replaceOnly => .error (.recordNotFound address.display)

variable [Key κ]

/-- The table with a document under a key. -/
def assign (t : Table κ) (key : κ) (document : Document) : Table κ :=
  match t with
  | [] => [(key, document)]
  | (k, d) :: rest =>
    if Key.digest key < Key.digest k then (key, document) :: (k, d) :: rest
    else if key = k then (key, document) :: rest
    else (k, d) :: assign rest key document

/-- A document is found under the key that it was assigned to, and the others where they were. -/
theorem find_assign (t : Table κ) (key k : κ) (document : Document) :
    (t.assign key document).find k = if k = key then some document else t.find k := by
  induction t with
  | nil => grind [assign, find]
  | cons pair rest ih =>
    obtain ⟨k', d⟩ := pair
    grind [assign, find]

/-! ## Requests -/

/-- A change of the table, which fails if the schema has been dropped. -/
def within (store : MappedStore κ Document) (change : Table κ → Except Error α × Table κ) :
    Call (Option (Table κ)) α :=
  .ofState fun
    | none => (.error (.store (.namespaceNotFound store.mapping.ns)), none)
    | some t => ((change t).1, some (change t).2)

/-- Writes a document into the table, or leaves it as it is. -/
def write (store : MappedStore κ Document) (key : κ) (document : Document) (t : Table κ) :
    Except Error Unit × Table κ :=
  match written store.mapping.writePolicy.existsAction (store.addressOf key) document
      (t.find key) with
  | .ok result => (.ok (), t.assign key result)
  | .error e => (.error (.store e), t)

/-- Writes a document, if it is not refused. -/
def put (store : MappedStore κ Document) (key : κ) (document : Document) :
    Call (Option (Table κ)) Unit :=
  match store.refusal? document with
  | some e => throw e
  | none => within store (write store key document)

/-- Writes documents one after the other, up to the first one that fails. -/
def putAll (store : MappedStore κ Document) : List (κ × Document) → Call (Option (Table κ)) Unit
  | [] => pure ()
  | (key, document) :: rest => do
    put store key document
    putAll store rest

/-- Reads a document. -/
def get (store : MappedStore κ Document) (key : κ) : Call (Option (Table κ)) (Option Document) :=
  within store fun t => (.ok (t.find key), t)

/-- Removes a document, and tells whether there was one. -/
def delete (store : MappedStore κ Document) (key : κ) : Call (Option (Table κ)) Bool :=
  within store fun t => (.ok (t.find key).isSome, t.remove key)

omit [DecidableEq κ] [Key κ] in
/-- The pairs that a query asks for: all, or the first ones. -/
def select (q : Query) (t : Table κ) : List (κ × Document) :=
  match q.limit with
  | some n => t.take n
  | none => t

/-- Answers a request. The state is the table, or nothing while the schema is dropped. -/
def respond (store : MappedStore κ Document) :
    Request κ Document → Call (Option (Table κ)) (Answer κ Document)
  | .createSchema => .ofState fun t => (.ok .done, some (t.getD []))
  | .dropSchema => .ofState fun _ => (.ok .done, none)
  | .hasSchema => .ofState fun t => (.ok (.found t.isSome), t)
  | .clear => (fun _ => .done) <$> within store fun _ => (.ok (), [])
  | .put key document => (fun _ => .done) <$> put store key document
  | .putAll pairs => (fun _ => .done) <$> putAll store pairs
  | .get key => .entity <$> get store key
  | .delete key => .found <$> delete store key
  | .query q => .pairs <$> within store fun t => (.ok (select q t), t)

end Table

end EntityStore
