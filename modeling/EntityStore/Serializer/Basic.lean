import EntityStore.Cbor.Reader
import EntityStore.Cbor.Writer
import EntityStore.Mapping.Resolved
import EntityStore.Serializer.Native

/-!
# Fields as bins

A serializer turns each field of an entity into a value of the bin that the mapping gives it, and
back. There are two: the native one keeps typed values, the CBOR one keeps the octets of an
encoding, which a bin may hold up to a length.

Two fields must not go to the same bin, since only one of them could be read back.

`Serializer` mirrors `SerializerKind`, with `resolve` as `ofName`; `toBins` mirrors `bind_fields`,
and the CBOR cases of `binOfField` and `fieldOfBin` mirror `encode_field` and `decode_field`.
-/

namespace EntityStore

/-- A way to keep the values of fields in bins. -/
inductive Serializer where
  /-- As typed values of the store. -/
  | native
  /-- As the octets of their CBOR encoding. -/
  | cbor
  deriving DecidableEq

namespace Serializer

/-- All serializers. -/
def all : List Serializer := [native, cbor]

/-- The name of a serializer. -/
def name : Serializer → String
  | native => "native"
  | cbor => "cbor"

/-- The serializer with a name, in any case and between blanks, the native one if there is none. -/
def ofName (name : String) : Serializer :=
  (all.find? fun s => s.name = (Text.trim name).toLower).getD native

/-- The value that a bin gets for a field. -/
def binOfField (s : Serializer) (bin : String) (value : Json) :
    Except SerializationError Value :=
  match s with
  | native => .ok (Native.ofJson value)
  | cbor =>
    let octets := Cbor.write value
    if octets.length ≤ fieldLimit then .ok (.bytes octets) else .error (.oversizedBin bin)

/-- The value of a field that a bin holds. -/
def fieldOfBin (s : Serializer) (bin : String) (value : Value) :
    Except SerializationError Json :=
  match s with
  | native => .ok (Native.toJson value)
  | cbor =>
    match value.bytes? with
    | none => .error (.untypedBin bin value)
    | some octets =>
      if octets.length ≤ fieldLimit then
        match Cbor.read? octets with
        | some json => .ok json
        | none => .error (.undecodableBin bin)
      else .error (.oversizedBin bin)

end Serializer

namespace Mapping.Resolved

/-- Puts fields into their bins, after those that went into `bins` before and own them. -/
def bindInto (m : Resolved) (convert : String → Json → Except SerializationError Value)
    (owners : OrderedMap String) (bins : Bins) :
    List (String × Json) → Except SerializationError Bins
  | [] => .ok bins
  | (field, json) :: rest =>
    let bin := m.binOf field
    match owners.get? bin with
    | some owner => .error (.sharedBin owner field m.entityType bin)
    | none =>
      match convert bin json with
      | .ok value => bindInto m convert (owners.insert bin field) (bins.insert bin value) rest
      | .error e => .error e

/-- The bins that fields go to, with the values converted. -/
def toBins (m : Resolved) (convert : String → Json → Except SerializationError Value)
    (fields : OrderedMap Json) : Except SerializationError Bins :=
  m.bindInto convert .empty .empty fields.entries

/-- The fields that bins lead back to, with the values converted. Of two bins that lead to one field
the later one counts. -/
def ofBins (m : Resolved) (convert : String → Value → Except SerializationError Json)
    (bins : Bins) : Except SerializationError (OrderedMap Json) :=
  (bins.entries.mapM fun (bin, value) =>
    (convert bin value).map fun json => (m.fieldOf bin, json)).map OrderedMap.ofList

end Mapping.Resolved

end EntityStore
