import EntityStore.Json.Basic
import EntityStore.Text.Octets

/-!
# Reading CBOR

`Cbor.read?` decodes a JSON value from octets and accepts more than `Cbor.write` produces: heads of
any width, collections and texts without a length in advance, tags, which do not count, and
`undefined`, which is `null` like the floating-point numbers that JSON does not have. Of two members
with one name the later one counts.

It refuses octet strings, keys that are not texts, integers below `-2 ^ 63`, other simple values,
texts that are not UTF-8, octets after the value, and more than 127 arrays, objects and tags inside
one another. The first key of an object has to be a text; for later keys octets that form a text are
enough.
-/

namespace EntityStore.Cbor

open Binary

/-- Reads something from the start of octets, and returns the octets after it. -/
abbrev Reader (α : Type) := List UInt8 → Option (α × List UInt8)

/-- The number that octets write, the highest first, after a number read so far. -/
def bigEndianValue (read : Nat) : List UInt8 → Nat
  | [] => read
  | b :: rest => bigEndianValue (256 * read + b.toNat) rest

/-- Reads octets. -/
def octets (count : Nat) : Reader (List UInt8) := fun bytes =>
  let read := bytes.take count
  if read.length = count then some (read, bytes.drop count) else none

/-- Reads the octets of a number. -/
def word (width : Nat) : Reader Nat := fun bytes => do
  let (read, rest) ← octets width bytes
  some (bigEndianValue 0 read, rest)

/-- Reads the rest of a head, after the low five bits of its first octet. -/
def argument (low : Nat) : Reader Nat := fun bytes =>
  if low < 24 then some (low, bytes)
  else if low = 24 then word 1 bytes
  else if low = 25 then word 2 bytes
  else if low = 26 then word 4 bytes
  else if low = 27 then word 8 bytes
  else none

/-- Reads the pieces of a text or of octets of a major type that has no length in advance. Pieces
are listed latest first. -/
def pieces (major : Nat) (read : List (List UInt8)) : Nat → Reader (List UInt8)
  | 0, _ => none
  | fuel + 1, bytes =>
    match bytes with
    | 0xff :: rest => some (read.reverse.flatten, rest)
    | first :: rest =>
      if first.toNat / 32 = major then do
        let (length, rest) ← argument (first.toNat % 32) rest
        let (piece, rest) ← octets length rest
        pieces major (piece :: read) fuel rest
      else none
    | [] => none

/-- Reads a text or octets of a major type, after the first octet of the head. -/
def content (major low : Nat) : Reader (List UInt8) := fun bytes =>
  if low = 31 then pieces major [] (bytes.length + 1) bytes
  else do
    let (length, rest) ← argument low bytes
    octets length rest

/-- Reads a key. Octets in place of a text are accepted if `loose`. -/
def key (loose : Bool) : Nat → Reader String
  | _, [] => none
  | depth, first :: rest =>
    let major := first.toNat / 32
    if major = 3 ∨ major = 2 ∧ loose then do
      let (octets, rest) ← content major (first.toNat % 32) rest
      some (← Text.ofOctets? octets, rest)
    else if major = 6 then
      match depth with
      | 0 => none
      | depth + 1 => do
        let (_, rest) ← argument (first.toNat % 32) rest
        key loose depth rest
    else none

/-- Reads `count` items. Items are listed latest first. -/
def items (item : Reader Json) (read : List Json) : Nat → Reader Json
  | 0, bytes => some (.array read.reverse, bytes)
  | count + 1, bytes =>
    match item bytes with
    | some (value, rest) => items item (value :: read) count rest
    | none => none

/-- Reads items up to the end of an array. -/
def openItems (item : Reader Json) (read : List Json) : Nat → Reader Json
  | 0, _ => none
  | fuel + 1, bytes =>
    match bytes with
    | 0xff :: rest => some (.array read.reverse, rest)
    | bytes =>
      match item bytes with
      | some (value, rest) => openItems item (value :: read) fuel rest
      | none => none

/-- Reads a member of an object. -/
def member (name : Bool → Reader String) (item : Reader Json) (loose : Bool) :
    Reader (String × Json) := fun bytes =>
  match name loose bytes with
  | some (name, rest) =>
    match item rest with
    | some (value, rest) => some ((name, value), rest)
    | none => none
  | none => none

/-- Reads `count` members. Members are listed latest first. -/
def members (name : Bool → Reader String) (item : Reader Json) (read : List (String × Json)) :
    Nat → Reader Json
  | 0, bytes => some (.ofMembers read.reverse, bytes)
  | count + 1, bytes =>
    match member name item (!read.isEmpty) bytes with
    | some (m, rest) => members name item (m :: read) count rest
    | none => none

/-- Reads members up to the end of an object. -/
def openMembers (name : Bool → Reader String) (item : Reader Json)
    (read : List (String × Json)) : Nat → Reader Json
  | 0, _ => none
  | fuel + 1, bytes =>
    match bytes with
    | 0xff :: rest => some (.ofMembers read.reverse, rest)
    | bytes =>
      match member name item (!read.isEmpty) bytes with
      | some (m, rest) => openMembers name item (m :: read) fuel rest
      | none => none

/-- Reads a simple value or a floating-point number, after its first octet. -/
def simple (low : Nat) : Reader Json := fun bytes =>
  match low with
  | 20 => some (.bool false, bytes)
  | 21 => some (.bool true, bytes)
  | 22 | 23 => some (.null, bytes)
  | 25 => do
    let (n, rest) ← word 2 bytes
    some (.ofDouble (Double.widen .half n), rest)
  | 26 => do
    let (n, rest) ← word 4 bytes
    some (.ofDouble (Double.widen .single n), rest)
  | 27 => do
    let (n, rest) ← word 8 bytes
    some (.ofDouble ⟨UInt64.ofNat n⟩, rest)
  | _ => none

/-- Reads an integer, after the first octet of its head. -/
def integer (negative : Bool) (low : Nat) : Reader Json := fun bytes => do
  let (n, rest) ← argument low bytes
  let value ← WideInt.ofInt? (if negative then -1 - (n : Int) else n)
  some (.int value, rest)

/-- Reads an array, an object or an item with a tag, after the first octet of its head. -/
def nested (major low : Nat) (name : Bool → Reader String) (item : Reader Json) :
    Reader Json := fun bytes =>
  if major = 6 then do
    let (_, rest) ← argument low bytes
    item rest
  else if low = 31 then
    if major = 4 then openItems item [] (bytes.length + 1) bytes
    else openMembers name item [] (bytes.length + 1) bytes
  else do
    let (count, rest) ← argument low bytes
    if major = 4 then items item [] count rest else members name item [] count rest

/-- Reads an item in which at most `depth` arrays, objects and tags are inside one another. -/
def item : Nat → Reader Json
  | _, [] => none
  | depth, first :: rest =>
    let major := first.toNat / 32
    let low := first.toNat % 32
    if major < 2 then integer (major = 1) low rest
    else if major = 2 then none
    else if major = 3 then do
      let (octets, rest) ← content 3 low rest
      some (.string (← Text.ofOctets? octets), rest)
    else if major = 7 then simple low rest
    else
      match depth with
      | 0 => none
      | depth + 1 => nested major low (fun loose => key loose depth) (item depth) rest

/-- The greatest number of arrays, objects and tags inside one another. -/
def maxDepth : Nat := 127

/-- The value that octets encode, if they encode one and nothing else. -/
def read? (bytes : List UInt8) : Option Json :=
  match item maxDepth bytes with
  | some (value, []) => some value
  | _ => none

end EntityStore.Cbor
