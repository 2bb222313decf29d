import EntityStore.Yaml.Node.Basic
import EntityStore.Yaml.Token.Stream

/-!
# Documents from tokens

`Node.ofText?` reads a stream with one document. A stream without any document is the only one that
has no node. Directives may come before the document, and nothing but its end after it.

A key, a value or an item that is not written is an empty scalar.
-/

namespace EntityStore.Yaml.Node

/-- What is known while a document is read. -/
structure Reading where
  /-- The tokens to come. -/
  tokens : List Token
  /-- The names of the anchors so far, with their numbers. -/
  anchors : List (String × Nat) := []

/-- A part of reading a document. -/
abbrev Reader := StateT Reading Option

namespace Reader

/-- The next token. -/
def next : Reader Token := do
  match (← get).tokens with
  | token :: _ => pure token
  | [] => failure

/-- Goes past the next token. -/
def skip : Reader Unit :=
  modify fun s => { s with tokens := s.tokens.tail }

/-- Goes past the next token, which has to be this one. -/
def expect (token : Token) : Reader Unit := do
  if (← next) = token then skip else failure

/-- Gives an anchor its number: the number of names that there are before it. -/
def define (name : Option String) : Reader (Option Nat) := do
  match name with
  | none => pure none
  | some name =>
    let anchors := (← get).anchors
    let number := anchors.length
    let others := anchors.filter fun a => a.1 ≠ name
    modify fun s => { s with anchors := (name, number) :: others }
    pure (some number)

/-- The number of the anchor that an alias names. -/
def target (name : String) : Reader Nat := do
  match (← get).anchors.lookup name with
  | some number => pure number
  | none => failure

/-- A tag in full. -/
def resolve (prefixes : List (String × List UInt8)) (tag : TagText) : Reader Tag :=
  if tag.handle = "" then pure ⟨tag.suffix⟩
  else
    match prefixes.lookup tag.handle with
    | some start => pure ⟨start ++ tag.suffix⟩
    | none => failure

/-- Reads the anchor and the tag before a node, in either order. -/
def properties (prefixes : List (String × List UInt8)) : Reader (Option String × Option Tag) := do
  match ← next with
  | .anchor name =>
    skip
    match ← next with
    | .tag t =>
      skip
      pure (some name, some (← resolve prefixes t))
    | _ => pure (some name, none)
  | .tag t =>
    skip
    let tag ← resolve prefixes t
    match ← next with
    | .anchor name =>
      skip
      pure (some name, some tag)
    | _ => pure (none, some tag)
  | _ => pure (none, none)

mutual

/-- Reads a node. Block collections are possible outside of flow collections only, and a sequence
that is not indented in the entries of block mappings only. -/
def node (prefixes : List (String × List UInt8)) (block unindented : Bool) : Nat → Reader Node
  | 0 => failure
  | fuel + 1 => do
    match ← next with
    | .reference name =>
      skip
      pure (.reference (← target name))
    | _ =>
      let (name, tag) ← properties prefixes
      match ← next with
      | .scalar text style =>
        skip
        pure (.scalar (← define name) tag style text)
      | .flowSequenceStart =>
        skip
        let anchor ← define name
        pure (.sequence anchor (← flowItems prefixes true fuel))
      | .flowMappingStart =>
        skip
        let anchor ← define name
        pure (.mapping anchor (← flowEntries prefixes true fuel))
      | token =>
        if unindented && token = .blockEntry then
          let anchor ← define name
          pure (.sequence anchor (← unindentedItems prefixes fuel))
        else if block && token = .blockSequenceStart then
          skip
          let anchor ← define name
          pure (.sequence anchor (← blockItems prefixes fuel))
        else if block && token = .blockMappingStart then
          skip
          let anchor ← define name
          pure (.mapping anchor (← blockEntries prefixes fuel))
        else if name.isSome || tag.isSome then
          pure (.scalar (← define name) tag .plain "")
        else failure

/-- Reads a node, or an empty one where one of certain tokens comes next. -/
def nodeUnless (prefixes : List (String × List UInt8)) (block unindented : Bool)
    (ends : List Token) : Nat → Reader Node
  | 0 => failure
  | fuel + 1 => do
    if ends.contains (← next) then pure .empty else node prefixes block unindented fuel

/-- Reads the items of a block sequence, up to its end. -/
def blockItems (prefixes : List (String × List UInt8)) : Nat → Reader (List Node)
  | 0 => failure
  | fuel + 1 => do
    match ← next with
    | .blockEntry =>
      skip
      let item ← nodeUnless prefixes true false [.blockEntry, .blockEnd] fuel
      pure (item :: (← blockItems prefixes fuel))
    | .blockEnd =>
      skip
      pure []
    | _ => failure

/-- Reads the items of a sequence that is not indented. Nothing marks its end. -/
def unindentedItems (prefixes : List (String × List UInt8)) : Nat → Reader (List Node)
  | 0 => failure
  | fuel + 1 => do
    match ← next with
    | .blockEntry =>
      skip
      let item ← nodeUnless prefixes true false [.blockEntry, .key, .value, .blockEnd] fuel
      pure (item :: (← unindentedItems prefixes fuel))
    | _ => pure []

/-- Reads the entries of a block mapping, up to its end. -/
def blockEntries (prefixes : List (String × List UInt8)) : Nat → Reader (List (Node × Node))
  | 0 => failure
  | fuel + 1 => do
    match ← next with
    | .key =>
      skip
      let key ← nodeUnless prefixes true true [.key, .value, .blockEnd] fuel
      let value ←
        if (← next) = .value then do
          skip
          nodeUnless prefixes true true [.key, .value, .blockEnd] fuel
        else pure .empty
      pure ((key, value) :: (← blockEntries prefixes fuel))
    | .blockEnd =>
      skip
      pure []
    | _ => failure

/-- Reads the items of a flow sequence, up to its end. An item with a colon in it is a mapping with
one entry. Where its key is not written, the token in place of the key is part of it. -/
def flowItems (prefixes : List (String × List UInt8)) (first : Bool) : Nat → Reader (List Node)
  | 0 => failure
  | fuel + 1 => do
    if (← next) = .flowSequenceEnd then do
      skip
      pure []
    else
      if !first then expect .flowEntry
      match ← next with
      | .flowSequenceEnd =>
        skip
        pure []
      | .key =>
        skip
        let key ←
          if [.value, .flowEntry, .flowSequenceEnd].contains (← next) then do
            skip
            pure .empty
          else node prefixes false false fuel
        let value ←
          if (← next) = .value then do
            skip
            nodeUnless prefixes false false [.flowEntry, .flowSequenceEnd] fuel
          else pure .empty
        pure (.mapping none [(key, value)] :: (← flowItems prefixes false fuel))
      | _ =>
        let item ← node prefixes false false fuel
        pure (item :: (← flowItems prefixes false fuel))

/-- Reads the entries of a flow mapping, up to its end. An entry without a colon has an empty
value. -/
def flowEntries (prefixes : List (String × List UInt8)) (first : Bool) :
    Nat → Reader (List (Node × Node))
  | 0 => failure
  | fuel + 1 => do
    if (← next) = .flowMappingEnd then do
      skip
      pure []
    else
      if !first then expect .flowEntry
      match ← next with
      | .flowMappingEnd =>
        skip
        pure []
      | .key =>
        skip
        let key ← nodeUnless prefixes false false [.value, .flowEntry, .flowMappingEnd] fuel
        let value ←
          if (← next) = .value then do
            skip
            nodeUnless prefixes false false [.flowEntry, .flowMappingEnd] fuel
          else pure .empty
        pure ((key, value) :: (← flowEntries prefixes false fuel))
      | _ =>
        let key ← node prefixes false false fuel
        pure ((key, .empty) :: (← flowEntries prefixes false fuel))

end

/-- Reads the directives before a document: at most one version, which has to be 1.1 or 1.2, and tag
prefixes for different handles. -/
def directives (version : Bool) (prefixes : List (String × List UInt8)) :
    Nat → Reader (List (String × List UInt8))
  | 0 => failure
  | fuel + 1 => do
    match ← next with
    | .version major minor =>
      skip
      if !version && major = 1 && (minor = 1 || minor = 2) then directives true prefixes fuel
      else failure
    | .tagPrefix handle start =>
      skip
      if (prefixes.lookup handle).isSome then failure
      else directives version (prefixes ++ [(handle, start)]) fuel
    | _ => pure prefixes

/-- The prefixes that two handles abbreviate without a directive. -/
def standardPrefixes : List (String × List UInt8) :=
  [("!", Tag.localStart), ("!!", Tag.standardStart)]

/-- Goes past document ends up to the end of the stream. -/
def streamEnd : Nat → Reader Unit
  | 0 => failure
  | fuel + 1 => do
    match ← next with
    | .documentEnd =>
      skip
      streamEnd fuel
    | .streamEnd => pure ()
    | _ => failure

/-- Is the token a directive or the start of a document? -/
def startsDocument : Token → Bool
  | .version .. | .tagPrefix .. | .documentStart => true
  | _ => false

/-- Is there no node at the token, directly after the start of a document? -/
def endsDocument (token : Token) : Bool :=
  startsDocument token || token = .documentEnd || token = .streamEnd

/-- Reads a stream with at most one document. -/
def stream (fuel : Nat) : Reader (Option Node) := do
  let token ← next
  if token = .streamEnd then pure none
  else
    let root ←
      if startsDocument token then do
        let prefixes ← directives false [] fuel
        expect .documentStart
        if endsDocument (← next) then pure .empty
        else node (prefixes ++ standardPrefixes) true false fuel
      else node standardPrefixes true false fuel
    streamEnd fuel
    pure (some root)

end Reader

/-- The document in a text, if it is a stream with at most one document. -/
def ofText? (text : String) : Option (Option Node) := do
  let tokens ← Token.ofText? text
  let (root, _) ← (Reader.stream (4 * tokens.length + 4)).run { tokens }
  some root

end EntityStore.Yaml.Node
