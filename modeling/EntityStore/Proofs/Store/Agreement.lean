import EntityStore.Proofs.Memory.Related
import EntityStore.Proofs.Store.FieldNames
import EntityStore.Proofs.Store.Request

/-!
# The serializer does not show

An application cannot tell a native store from a CBOR store by the answers to its requests, as long
as the values it writes are ones that both serializers keep (`Json.Portable`): `answers_native_cbor`
compares the two, each on a memory store of its own that starts empty, for any mapping, any types of
keys and entities, and any requests.

The two memory stores are related by `SameField`: where one has the native value of a portable JSON
value, the other has the octets of its encoding. Encoding an entity gives related bins or the same
error, related bins are decoded to the same entity or the same error, and the memory store does not
look at values, so each call preserves the relation.
-/

namespace EntityStore

/-- The values that both serializers keep: those that the CBOR serializer is made for and does not
refuse. -/
structure Json.Portable (json : Json) : Prop where
  /-- Objects list their members in the order of their names. -/
  canonical : json.Canonical
  /-- Arrays and objects are at most 127 levels inside one another. -/
  nesting_le : json.nesting ≤ Cbor.maxDepth
  /-- The encoding has at most `2 ^ 20` octets. -/
  length_le : (Cbor.write json).length ≤ fieldLimit

/-- The two store values of one portable JSON value. -/
def SameField (value value' : Value) : Prop :=
  ∃ json : Json, json.Portable ∧ value = Serializer.native.toValue json ∧
    value' = Serializer.cbor.toValue json

/-! ## Fields and bins -/

namespace Serializer

/-- Both serializers keep a portable value. -/
theorem alike_binOfField {json : Json} (h : json.Portable) (bin : String) :
    Alike SameField (native.binOfField bin json) (cbor.binOfField bin json) := by
  have hlength : cbor.accepts json = true := by simpa [accepts] using h.length_le
  rw [binOfField_eq, binOfField_eq, if_pos hlength]
  exact .ok ⟨json, h, rfl, rfl⟩

/-- Both serializers read the same JSON value. -/
theorem fieldOfBin_eq {value value' : Value} (h : SameField value value') (bin : String) :
    native.fieldOfBin bin value = cbor.fieldOfBin bin value' := by
  obtain ⟨json, hportable, rfl, rfl⟩ := h
  have hlength : cbor.accepts json = true := by simpa [accepts] using hportable.length_le
  have haccepts : native.accepts json = true := rfl
  have hnative := fieldOfBin_toValue haccepts trivial bin
  have hcbor := fieldOfBin_toValue hlength ⟨hportable.canonical, hportable.nesting_le⟩ bin
  rw [hnative, hcbor]

end Serializer

/-- Functions with equal results on related members give equal results on related lists. -/
theorem mapM_eq_of_forall₂ {α β γ ε : Type} {P : α → β → Prop} {f : α → Except ε γ}
    {g : β → Except ε γ} (hfg : ∀ a b, P a b → f a = g b) {l : List α} {l' : List β}
    (h : List.Forall₂ P l l') : l.mapM f = l'.mapM g := by
  induction h with
  | nil => rfl
  | cons hab _ ih => rw [List.mapM_cons, List.mapM_cons, hfg _ _ hab, ih]

namespace Mapping.Resolved

variable {V : Value → Value → Prop}

/-- Fields with related values go to related bins, or to none for the same reason. -/
theorem alike_bindInto (m : Resolved)
    {convert convert' : String → Json → Except SerializationError Value}
    {owners : OrderedMap String} {fields : List (String × Json)} {bins bins' : Bins}
    (hfields : ∀ e ∈ fields, ∀ bin, Alike V (convert bin e.2) (convert' bin e.2))
    (hbins : OrderedMap.Related V bins bins') :
    Alike (OrderedMap.Related V) (m.bindInto convert owners bins fields)
      (m.bindInto convert' owners bins' fields) := by
  induction fields generalizing owners bins bins' with
  | nil => exact .ok hbins
  | cons e rest ih =>
    obtain ⟨field, json⟩ := e
    have hrest := fun e he => hfields e (List.mem_cons_of_mem _ he)
    have hvalue := hfields _ List.mem_cons_self (m.binOf field)
    rw [bindInto, bindInto]
    cases owners.get? (m.binOf field) with
    | some owner => exact .error _
    | none =>
      -- Both conversions succeed or both fail, and a failure ends the way through the fields.
      generalize convert (m.binOf field) json = result at hvalue ⊢
      generalize convert' (m.binOf field) json = result' at hvalue ⊢
      cases hvalue with
      | ok hv => exact ih hrest (hbins.insert _ hv)
      | error e => exact .error _

/-- Related bins lead back to the same fields. -/
theorem ofBins_eq_of_related (m : Resolved)
    {back back' : String → Value → Except SerializationError Json} {bins bins' : Bins}
    (hback : ∀ bin value value', V value value' → back bin value = back' bin value')
    (h : OrderedMap.Related V bins bins') : m.ofBins back bins = m.ofBins back' bins' := by
  unfold ofBins
  congr 1
  -- Related bins have the same names in the same order.
  refine mapM_eq_of_forall₂ ?_ h.entries
  rintro ⟨bin, value⟩ ⟨bin', value'⟩ ⟨rfl, hvalue⟩
  simp only [hback bin value value' hvalue]

end Mapping.Resolved

/-! ## Entities -/

/-- Every field of an entity has a portable value. -/
def PortableEntity {ε : Type} [Entity ε] (entity : ε) : Prop :=
  ∀ fields, Entity.fields entity = .ok fields →
    ∀ name json, fields.get? name = some json → json.Portable

namespace MappedStore

variable {κ ε : Type}

/-- The store with a mapping that keeps native values. -/
abbrev ofNative (mapping : Mapping.Resolved) : MappedStore κ ε :=
  ⟨mapping, .native⟩

/-- The store with a mapping that keeps CBOR. -/
abbrev ofCbor (mapping : Mapping.Resolved) : MappedStore κ ε :=
  ⟨mapping, .cbor⟩

variable [Entity ε] (mapping : Mapping.Resolved)

/-- Both stores encode an entity with portable fields alike. -/
theorem alike_encode {entity : ε} (h : PortableEntity entity) :
    Alike (OrderedMap.Related SameField) ((ofNative mapping : MappedStore κ ε).encode entity)
      ((ofCbor mapping : MappedStore κ ε).encode entity) := by
  refine Alike.mapError _ ?_
  cases hfields : Entity.fields entity with
  | error e => exact .error e
  | ok fields =>
    refine mapping.alike_bindInto (fun e he bin => ?_) OrderedMap.related_empty
    have hget := OrderedMap.get?_eq_some_iff.2 he
    exact Serializer.alike_binOfField (h fields hfields _ _ hget) bin

/-- Both stores decode related bins to the same entity, or fail with the same error. -/
theorem decode_eq_of_related {bins bins' : Bins} (h : OrderedMap.Related SameField bins bins') :
    (ofNative mapping : MappedStore κ ε).decode bins =
      (ofCbor mapping : MappedStore κ ε).decode bins' := by
  have hfields := mapping.ofBins_eq_of_related (V := SameField)
    (fun bin _ _ hvalue => Serializer.fieldOfBin_eq hvalue bin) h
  simp only [decode, hfields]

/-! ## Requests -/

variable [Key κ]

/-- Writing an entity with portable fields. -/
theorem agrees_put {entity : ε} (h : PortableEntity entity) (key : κ) :
    Call.Agrees (Memory.Related SameField) (fun _ _ => True)
      ((ofNative mapping).put Memory.client key entity)
      ((ofCbor mapping).put Memory.client key entity) := by
  refine (Call.Agrees.ofExcept (alike_encode mapping h)).bind fun bins bins' hbins => ?_
  exact (Memory.agrees_perform (.put _ hbins _)).bind fun _ _ _ => .pure trivial

/-- Writing pairs whose entities have portable fields. -/
theorem agrees_putAll {pairs : List (κ × ε)} (h : ∀ pair ∈ pairs, PortableEntity pair.2) :
    Call.Agrees (Memory.Related SameField) (fun _ _ => True)
      ((ofNative mapping).putAll Memory.client pairs)
      ((ofCbor mapping).putAll Memory.client pairs) := by
  induction pairs with
  | nil => exact .pure trivial
  | cons pair rest ih =>
    refine (agrees_put mapping (h pair List.mem_cons_self) pair.1).bind fun _ _ _ => ?_
    exact ih fun pair hmem => h pair (List.mem_cons_of_mem _ hmem)

/-- Reading an entity. -/
theorem agrees_get (key : κ) :
    Call.Agrees (Memory.Related SameField) (· = ·)
      ((ofNative mapping : MappedStore κ ε).get Memory.client key)
      ((ofCbor mapping : MappedStore κ ε).get Memory.client key) := by
  refine (Memory.agrees_perform (.other rfl)).bind fun outcome outcome' houtcome => ?_
  cases houtcome with
  | done h => cases h
  | record _ _ h =>
    cases h with
    | some hrecord =>
      refine (Call.Agrees.ofExcept (.of_eq ?_)).map fun _ _ hentity => congrArg some hentity
      exact decode_eq_of_related mapping hrecord.bins
    | none => exact .pure rfl

omit [Entity ε] in
/-- Removing an entity. -/
theorem agrees_delete (key : κ) :
    Call.Agrees (Memory.Related SameField) (· = ·)
      ((ofNative mapping : MappedStore κ ε).delete Memory.client key)
      ((ofCbor mapping : MappedStore κ ε).delete Memory.client key) := by
  refine (Memory.agrees_perform (.other rfl)).bind fun outcome outcome' houtcome => ?_
  cases houtcome with
  | done h => cases h
  | deleted _ _ removed => exact .pure rfl

/-- Reading the pairs. -/
theorem agrees_query (q : Query) :
    Call.Agrees (Memory.Related SameField) (· = ·)
      ((ofNative mapping : MappedStore κ ε).query Memory.client q)
      ((ofCbor mapping : MappedStore κ ε).query Memory.client q) := by
  refine (Memory.agrees_perform (.other rfl)).bind fun outcome outcome' houtcome => ?_
  cases houtcome with
  | done h => cases h
  | records _ _ _ _ hfound =>
    refine .ofExcept (.of_eq (mapM_eq_of_forall₂ ?_ hfound))
    rintro ⟨digest, record⟩ ⟨digest', record'⟩ ⟨rfl, hrecord⟩
    simp only [pairOf, decode_eq_of_related mapping hrecord.bins]

omit [Entity ε] [Key κ] in
/-- Operations of the schema write no values. -/
theorem agrees_schema {operation : Operation} {f g : Outcome → Call Memory Unit}
    (hput : operation.isPut = false)
    (hnext : ∀ outcome outcome',
      Call.Agrees (Memory.Related SameField) (fun _ _ => True) (f outcome) (g outcome')) :
    Call.Agrees (Memory.Related SameField) (fun _ _ => True)
      (Memory.client.perform operation >>= f) (Memory.client.perform operation >>= g) :=
  (Memory.agrees_perform (.other hput)).bind fun _ _ _ => hnext _ _

/-- Each request with portable fields is answered alike. -/
theorem agrees_respond {request : Request κ ε}
    (h : ∀ entity ∈ request.entities, PortableEntity entity) :
    Call.Agrees (Memory.Related SameField) (· = ·)
      ((ofNative mapping).respond Memory.client request)
      ((ofCbor mapping).respond Memory.client request) := by
  have hdone : ∀ (_ _ : Unit), True → (Answer.done : Answer κ ε) = .done := fun _ _ _ => rfl
  cases request with
  | createSchema =>
    exact (agrees_schema rfl fun _ _ => agrees_schema rfl fun _ _ => .pure trivial).map hdone
  | dropSchema =>
    exact (agrees_schema rfl fun _ _ => agrees_schema rfl fun _ _ => .pure trivial).map hdone
  | clear => exact (agrees_schema rfl fun _ _ => .pure trivial).map hdone
  | hasSchema =>
    -- The metadata counts records and does not show their values.
    refine Call.Agrees.map (Q := (· = ·)) ?_ fun _ _ hfound => congrArg Answer.found hfound
    refine (Memory.agrees_inspect mapping.ns).bind ?_
    rintro found _ rfl
    cases found with
    | some found => exact .pure rfl
    | none => exact .pure rfl
  | put key entity =>
    exact (agrees_put mapping (h entity List.mem_cons_self) key).map hdone
  | putAll pairs =>
    refine (agrees_putAll mapping fun pair hmem => ?_).map hdone
    exact h pair.2 (List.mem_map_of_mem hmem)
  | get key => exact (agrees_get mapping key).map fun _ _ hfound => congrArg Answer.entity hfound
  | delete key =>
    exact (agrees_delete mapping key).map fun _ _ hfound => congrArg Answer.found hfound
  | query q => exact (agrees_query mapping q).map fun _ _ hfound => congrArg Answer.pairs hfound

/-- A native store and a CBOR store with the same mapping give the same answers to all requests that
write portable fields, each on a memory store of its own that starts empty. -/
theorem answers_native_cbor (requests : List (Request κ ε))
    (h : ∀ request ∈ requests, ∀ entity ∈ request.entities, PortableEntity entity) :
    Call.answers ((ofNative mapping).respond Memory.client) requests (.empty : Memory) =
      Call.answers ((ofCbor mapping).respond Memory.client) requests (.empty : Memory) :=
  Call.answers_eq_of_agrees (fun request hmem => agrees_respond mapping (h request hmem))
    OrderedMap.related_empty

/-- A list with a truth value, under the name of the bin that another field is bound to, is portable
and is answered alike although it comes back under the name of that other field. -/
theorem answers_native_cbor_unbound :
    PortableEntity (⟨.ofList [("b", .array [.bool true])]⟩ : Document) ∧
      Call.answers ((ofNative ⟨"String", "polystore.Document", "app", "docs",
          .ofList [("a", "b")], {}, {}⟩).respond Memory.client)
        [.createSchema, .put "k" (⟨.ofList [("b", .array [.bool true])]⟩ : Document), .get "k"]
        (.empty : Memory) =
      Call.answers ((ofCbor ⟨"String", "polystore.Document", "app", "docs",
          .ofList [("a", "b")], {}, {}⟩).respond Memory.client)
        [.createSchema, .put "k" (⟨.ofList [("b", .array [.bool true])]⟩ : Document), .get "k"]
        (.empty : Memory) := by
  have hportable : PortableEntity (⟨.ofList [("b", .array [.bool true])]⟩ : Document) := by
    intro fields hfields name json hget
    rw [fields_document] at hfields
    obtain rfl := Except.ok.inj hfields
    obtain ⟨-, rfl⟩ : name = "b" ∧ json = .array [.bool true] := by
      simpa using OrderedMap.mem_of_get?_ofList hget
    exact ⟨⟨trivial, trivial⟩, by decide, by decide⟩
  refine ⟨hportable, answers_native_cbor _ _ fun request hrequest entity hentity => ?_⟩
  simp only [List.mem_cons, List.not_mem_nil, or_false] at hrequest
  rcases hrequest with rfl | rfl | rfl
  · exact absurd hentity List.not_mem_nil
  · exact List.mem_singleton.1 hentity ▸ hportable
  · exact absurd hentity List.not_mem_nil

end MappedStore

end EntityStore
