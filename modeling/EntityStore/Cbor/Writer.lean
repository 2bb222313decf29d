import EntityStore.Json.Basic
import EntityStore.Text.Octets

/-!
# Writing CBOR

`Cbor.write` encodes a JSON value. An item begins with a head, which is its major type and a number:
the number itself of an integer, the length of a text, or the count of a collection. Heads are as
short as they can be, lengths are always given in advance, the members of an object stand in their
order, and a floating-point number takes half, single or double precision, the first of them that
holds it exactly.
-/

namespace EntityStore.Cbor

open Binary

/-- The octets of a number, the highest first. -/
def bigEndian (n : Nat) : Nat → List UInt8
  | 0 => []
  | width + 1 => UInt8.ofNat (n / Nat.pow 256 width) :: bigEndian n width

/-- The head of an item. -/
def head (major n : Nat) : List UInt8 :=
  if n < 24 then [UInt8.ofNat (32 * major + n)]
  else if n < 256 then UInt8.ofNat (32 * major + 24) :: bigEndian n 1
  else if n < 65536 then UInt8.ofNat (32 * major + 25) :: bigEndian n 2
  else if n < 4294967296 then UInt8.ofNat (32 * major + 26) :: bigEndian n 4
  else UInt8.ofNat (32 * major + 27) :: bigEndian n 8

/-- A text. -/
def writeText (s : String) : List UInt8 :=
  let octets := Text.octets s
  head 3 octets.length ++ octets

/-- An integer. A negative one `n` is written as the number `-1 - n`. -/
def writeInt (n : WideInt) : List UInt8 :=
  if 0 ≤ n.val then head 0 n.val.toNat else head 1 (-1 - n.val).toNat

/-- A floating-point number. -/
def writeFloat (x : Double) : List UInt8 :=
  match x.narrow? .half with
  | some word => 0xf9 :: bigEndian word 2
  | none =>
    match x.narrow? .single with
    | some word => 0xfa :: bigEndian word 4
    | none => 0xfb :: bigEndian x.bits.toNat 8

mutual

/-- The octets of a value. -/
def write : Json → List UInt8
  | .null => [0xf6]
  | .bool true => [0xf5]
  | .bool false => [0xf4]
  | .int n => writeInt n
  | .float x => writeFloat x.val
  | .string s => writeText s
  | .array items => head 4 items.length ++ writeItems items
  | .object members => head 5 members.length ++ writeMembers members

/-- The octets of the items of an array. -/
def writeItems : List Json → List UInt8
  | [] => []
  | item :: rest => write item ++ writeItems rest

/-- The octets of the members of an object. -/
def writeMembers : List (String × Json) → List UInt8
  | [] => []
  | (name, value) :: rest => writeText name ++ (write value ++ writeMembers rest)

end

end EntityStore.Cbor
