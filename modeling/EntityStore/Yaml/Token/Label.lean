import EntityStore.Yaml.Token.Basic

/-!
# Anchors, tags and directives

The tokens that begin with an ampersand, an asterisk, an exclamation mark or a percent sign. An
octet of a tag may be written as a percent sign with two digits. The octets so written have to come
in groups of the shape of a UTF-8 character, a first octet that tells the number of the later ones,
but need not be one. A NUL among the octets ends the tag.
-/

namespace EntityStore.Yaml.Token

/-- Reads the name of an anchor. Only certain characters may follow it. -/
def anchorName? (c : Cursor) : Option (String × Cursor) :=
  let (name, after) := c.span isNameChar
  let ends := after.spaceAt 0 ||
    ['?', ':', ',', ']', '}', '%', '@', '\x60'].any fun ch => after.has ch
  if name.isEmpty || !ends then none else some (String.ofList name, after)

/-- The value of a digit of base sixteen. -/
def hexValue? (ch : Char) : Option Nat :=
  if ch.isDigit then some (ch.toNat - '0'.toNat)
  else if 'a' ≤ ch ∧ ch ≤ 'f' then some (ch.toNat - 'a'.toNat + 10)
  else if 'A' ≤ ch ∧ ch ≤ 'F' then some (ch.toNat - 'A'.toNat + 10)
  else none

/-- Reads an octet that is written as a percent sign with two digits. -/
def percentOctet? : List Char → Option (UInt8 × List Char)
  | '%' :: high :: low :: rest => do
    some (UInt8.ofNat (16 * (← hexValue? high) + (← hexValue? low)), rest)
  | _ => none

/-- Reads the octets of a group after its first one. -/
def laterOctets? : Nat → List Char → Option (List UInt8 × List Char)
  | 0, cs => some ([], cs)
  | count + 1, cs => do
    let (octet, rest) ← percentOctet? cs
    if octet.toNat / 64 = 2 then
      let (later, rest) ← laterOctets? count rest
      some (octet :: later, rest)
    else none

/-- The number of octets of a group after its first one. -/
def laterCount? (first : UInt8) : Option Nat :=
  let n := first.toNat
  if n < 0x80 then some 0
  else if n / 32 = 6 then some 1
  else if n / 16 = 14 then some 2
  else if n / 8 = 30 then some 3
  else none

/-- Reads a group of octets that are written as percent signs with digits. -/
def percentGroup? (cs : List Char) : Option (List UInt8 × List Char) := do
  let (first, rest) ← percentOctet? cs
  let (later, rest) ← laterOctets? (← laterCount? first) rest
  some (first :: later, rest)

/-- May a tag contain the character? Commas and brackets are only for tags in full. -/
def isTagChar (inFull : Bool) (ch : Char) : Bool :=
  isNameChar ch ||
    [';', '/', '?', ':', '@', '&', '=', '+', '$', '.', '!', '~', '*', '\'', '(', ')'].contains ch ||
    (inFull && [',', '[', ']'].contains ch)

/-- Reads the octets of a tag. -/
def tagOctets? (inFull : Bool) (c : Cursor) : Nat → Option (List UInt8 × Cursor)
  | 0 => some ([], c)
  | fuel + 1 =>
    match c.head? with
    | some '%' => do
      let (group, rest) ← percentGroup? c.rest
      let (read, after) ← tagOctets? inFull (c.advance (c.rest.length - rest.length)) fuel
      some (group ++ read, after)
    | some ch =>
      if isTagChar inFull ch then do
        let (read, after) ← tagOctets? inFull (c.advance 1) fuel
        some (UInt8.ofNat ch.toNat :: read, after)
      else some ([], c)
    | none => some ([], c)

/-- The octets before the first NUL. -/
def beforeNul (octets : List UInt8) : List UInt8 :=
  octets.takeWhile (· ≠ 0)

/-- Reads a tag handle: an exclamation mark, a name, and perhaps a second exclamation mark. -/
def tagHandle? (c : Cursor) : Option (List Char × Cursor) :=
  if c.has '!' then
    let (name, after) := (c.advance 1).span isNameChar
    if after.has '!' then some ('!' :: (name ++ ['!']), after.advance 1)
    else some ('!' :: name, after)
  else none

/-- Reads a tag: in full between angle brackets, behind a handle, or behind the exclamation mark
alone. A lone exclamation mark is a tag of its own, without a handle. -/
def tagText? (c : Cursor) : Option (TagText × Cursor) := do
  if c.hasAt 1 '<' then
    let (read, after) ← tagOctets? true (c.advance 2) c.rest.length
    if read.isEmpty || !after.has '>' then none
    else some (⟨"", beforeNul read⟩, after.advance 1)
  else
    let (handle, after) ← tagHandle? c
    let (read, afterTag) ← tagOctets? false after c.rest.length
    if 2 ≤ handle.length ∧ handle.getLast? = some '!' then
      if read.isEmpty then none
      else some (⟨String.ofList handle, beforeNul read⟩, afterTag)
    else
      match (handle.drop 1).map (fun ch => UInt8.ofNat ch.toNat) ++ beforeNul read with
      | [] => some (⟨"", Tag.localStart⟩, afterTag)
      | suffix => some (⟨"!", suffix⟩, afterTag)

/-- Reads a tag and checks what follows it. -/
def tag? (inFlow : Bool) (c : Cursor) : Option (Token × Cursor) := do
  let (text, after) ← tagText? c
  if after.spaceAt 0 || (inFlow && after.has ',') then some (.tag text, after) else none

/-- Reads a number of at most nine digits. -/
def versionNumber? (c : Cursor) : Option (Nat × Cursor) :=
  let (digits, after) := c.span Char.isDigit
  if digits.isEmpty || 9 < digits.length then none
  else some (digits.foldl (fun n ch => 10 * n + (ch.toNat - '0'.toNat)) 0, after)

/-- Reads the rest of a version directive. -/
def versionDirective? (c : Cursor) : Option (Token × Cursor) := do
  let (major, after) ← versionNumber? c.skipBlanks
  if after.has '.' then
    let (minor, after) ← versionNumber? (after.advance 1)
    some (.version major minor, after)
  else none

/-- Reads the rest of a tag directive. -/
def tagDirective? (c : Cursor) : Option (Token × Cursor) := do
  let (handle, after) ← tagHandle? c.skipBlanks
  if handle.length ≠ 1 ∧ handle.getLast? ≠ some '!' then none
  else if !after.blankAt 0 then none
  else
    let (start, after) ← tagOctets? true after.skipBlanks c.rest.length
    if start.isEmpty || !after.spaceAt 0 then none
    else some (.tagPrefix (String.ofList handle) (beforeNul start), after)

/-- Reads a directive and the rest of its line. -/
def directive? (c : Cursor) : Option (Token × Cursor) := do
  let (name, after) := (c.advance 1).span isNameChar
  if !after.spaceAt 0 then none
  else
    let (token, after) ←
      if name = ['Y', 'A', 'M', 'L'] then versionDirective? after
      else if name = ['T', 'A', 'G'] then tagDirective? after
      else none
    let lineEnd := after.skipBlanks.skipComment
    if lineEnd.breakAt 0 then some (token, lineEnd.nextLine)
    else if lineEnd.atEnd then some (token, lineEnd)
    else none

end EntityStore.Yaml.Token
