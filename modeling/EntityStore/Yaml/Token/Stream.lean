import EntityStore.Yaml.Token.Block
import EntityStore.Yaml.Token.Plain
import EntityStore.Yaml.Token.Quoted

/-!
# The tokens of a stream

`Token.ofText?` divides a stream into tokens. Indentation opens and closes block collections, and a
colon makes a key of the node before it: where a key may begin, the place is remembered, and when
the colon comes the mark of the key is put in there afterwards. Such a key has to end on the line it
began on and within 1024 octets. The first node on a line in a block mapping has to be a key.
-/

namespace EntityStore.Yaml

/-- A place where a key may have begun. -/
structure KeyPlace where
  /-- Does it have to be a key? -/
  required : Bool
  /-- The number of tokens before it. -/
  tokenCount : Nat
  /-- Its offset in the stream. -/
  offset : Nat
  /-- Its line. -/
  line : Nat
  /-- Its column. -/
  column : Nat

/-- What is known after a part of a stream. -/
structure Scan where
  /-- The place in the stream. -/
  cursor : Cursor
  /-- The tokens so far. -/
  tokens : Array Token := #[]
  /-- May a key or an entry of a block collection begin here? -/
  keyAllowed : Bool := true
  /-- For each open flow collection, innermost first, and at the end for the block collections: the
  place where a key may have begun. -/
  keyPlaces : List (Option KeyPlace) := [none]
  /-- The column of the innermost block collection, -1 outside of all. -/
  indent : Int := -1
  /-- The columns of the block collections around it. -/
  outerIndents : List Int := []

namespace Scan

/-- Is a flow collection open? -/
def inFlow (s : Scan) : Bool :=
  1 < s.keyPlaces.length

/-- Adds a token. -/
def emit (s : Scan) (token : Token) : Scan :=
  { s with tokens := s.tokens.push token }

/-- Puts a token in before the ones from a certain number on. -/
def emitAt (s : Scan) (n : Nat) (token : Token) : Scan :=
  { s with tokens := s.tokens.insertIdxIfInBounds n token }

/-- Skips `n` characters of a line. -/
def advance (s : Scan) (n : Nat) : Scan :=
  { s with cursor := s.cursor.advance n }

/-- Skips spaces, comments and line breaks up to the next token. Tabs count as spaces where no block
collection can begin. After a line break in a block collection a key may begin. -/
def toNextToken (s : Scan) : Nat → Scan
  | 0 => s
  | fuel + 1 =>
    let c := s.cursor
    let c := if c.column == 0 && c.has '\ufeff' then c.advance 1 else c
    let tabs := s.inFlow || !s.keyAllowed
    let c := (c.skip fun ch => ch == ' ' || (tabs && ch == '\t')).skipComment
    if c.breakAt 0 then
      toNextToken { s with cursor := c.nextLine, keyAllowed := s.keyAllowed || !s.inFlow } fuel
    else { s with cursor := c }

/-- Gives up a place where a key may have begun but can no longer end. Fails if there has to be a
key. -/
def expire? (c : Cursor) (place : Option KeyPlace) : Option (Option KeyPlace) :=
  match place with
  | some p =>
    if p.line < c.line || p.offset + 1024 < c.offset then
      if p.required then none else some none
    else some (some p)
  | none => some none

/-- Gives up all such places. -/
def expireKeys? (s : Scan) : Option Scan := do
  some { s with keyPlaces := ← s.keyPlaces.mapM (expire? s.cursor) }

/-- Gives up the innermost place where a key may have begun. Fails if there has to be a key. -/
def dropKey? (s : Scan) : Option Scan :=
  match s.keyPlaces with
  | some p :: outer => if p.required then none else some { s with keyPlaces := none :: outer }
  | _ => some s

/-- Remembers that a key may begin here, if it may. -/
def markKey? (s : Scan) : Option Scan := do
  if s.keyAllowed then
    let required := !s.inFlow && s.indent == s.cursor.column
    let s ← s.dropKey?
    let c := s.cursor
    let place : KeyPlace := ⟨required, s.tokens.size, c.offset, c.line, c.column⟩
    some { s with keyPlaces := some place :: s.keyPlaces.tail }
  else some s

/-- Closes the block collections that are indented more than `column`. -/
def closeBlocks (s : Scan) (column : Int) : Nat → Scan
  | 0 => s
  | fuel + 1 =>
    if column < s.indent then
      match s.outerIndents with
      | outer :: rest =>
        closeBlocks { s.emit .blockEnd with indent := outer, outerIndents := rest } column fuel
      | [] => s
    else s

/-- Closes the block collections that are indented more than `column`, outside of flow
collections. -/
def dedent (s : Scan) (column : Int) : Scan :=
  if s.inFlow then s else s.closeBlocks column (s.outerIndents.length + 1)

/-- Opens a block collection at a column that is indented more than the others, with its mark before
the tokens from a certain number on. -/
def indentTo (s : Scan) (column : Nat) (tokenCount : Nat) (mark : Token) : Scan :=
  if !s.inFlow && s.indent < (column : Int) then
    { s.emitAt tokenCount mark with indent := column, outerIndents := s.indent :: s.outerIndents }
  else s

/-- Reads the end of the stream. -/
def readEnd? (s : Scan) : Option Scan := do
  let s ← (s.dedent (-1)).dropKey?
  some (s.emit .streamEnd)

/-- Reads a directive. -/
def readDirective? (s : Scan) : Option Scan := do
  let s ← (s.dedent (-1)).dropKey?
  let (token, cursor) ← Token.directive? s.cursor
  some { s.emit token with cursor, keyAllowed := false }

/-- Reads a document marker. -/
def readMarker? (s : Scan) (token : Token) : Option Scan := do
  let s ← (s.dedent (-1)).dropKey?
  some { (s.emit token).advance 3 with keyAllowed := false }

/-- Reads an opening mark of a flow collection. -/
def openFlow? (s : Scan) (token : Token) : Option Scan := do
  let s ← s.markKey?
  some { (s.emit token).advance 1 with keyAllowed := true, keyPlaces := none :: s.keyPlaces }

/-- Reads a closing mark of a flow collection. -/
def closeFlow? (s : Scan) (token : Token) : Option Scan := do
  let s ← s.dropKey?
  let keyPlaces := if s.inFlow then s.keyPlaces.tail else s.keyPlaces
  some { (s.emit token).advance 1 with keyAllowed := false, keyPlaces }

/-- Reads the comma of a flow collection. -/
def readFlowEntry? (s : Scan) : Option Scan := do
  let s ← s.dropKey?
  some { (s.emit .flowEntry).advance 1 with keyAllowed := true }

/-- Opens a block collection for an indicator here, where one may stand. -/
def openBlock? (s : Scan) (mark : Token) : Option Scan :=
  if s.inFlow then some s
  else if s.keyAllowed then some (s.indentTo s.cursor.column s.tokens.size mark)
  else none

/-- Reads the hyphen of a block sequence. -/
def readBlockEntry? (s : Scan) : Option Scan := do
  let s ← (← s.openBlock? .blockSequenceStart).dropKey?
  some { (s.emit .blockEntry).advance 1 with keyAllowed := true }

/-- Reads the question mark before a key. -/
def readKey? (s : Scan) : Option Scan := do
  let s ← (← s.openBlock? .blockMappingStart).dropKey?
  some { (s.emit .key).advance 1 with keyAllowed := !s.inFlow }

/-- Reads the colon before a value. If a key may have begun before it, it has. -/
def readValue? (s : Scan) : Option Scan := do
  match s.keyPlaces with
  | some p :: outer =>
    let s := (s.emitAt p.tokenCount .key).indentTo p.column p.tokenCount .blockMappingStart
    some { (s.emit .value).advance 1 with keyPlaces := none :: outer, keyAllowed := false }
  | _ =>
    let s ← s.openBlock? .blockMappingStart
    some { (s.emit .value).advance 1 with keyAllowed := !s.inFlow }

/-- Reads a node, or a property of one, that a key may begin with. -/
def readNode? (s : Scan) (read : Scan → Option (Token × Cursor)) : Option Scan := do
  let s ← s.markKey?
  let (token, cursor) ← read s
  some { s.emit token with cursor, keyAllowed := false }

/-- Reads a block scalar. -/
def readBlock? (s : Scan) (folded : Bool) : Option Scan := do
  let s ← s.dropKey?
  let (token, cursor) ← Token.block? s.indent folded s.cursor
  some { s.emit token with cursor, keyAllowed := true }

/-- Reads a plain scalar. If line breaks follow it, a key may begin after them. -/
def readPlain? (s : Scan) : Option Scan := do
  let s ← s.markKey?
  let (token, overLines, cursor) ← Token.plain? s.inFlow s.indent s.cursor
  some { s.emit token with cursor, keyAllowed := overLines }

/-- Reads the name of an anchor or alias, after its first character. -/
def readName? (s : Scan) (token : String → Token) : Option Scan :=
  s.readNode? fun s => (Token.anchorName? (s.cursor.advance 1)).map fun (n, c) => (token n, c)

/-- Reads a token that begins here. -/
def readToken? (s : Scan) (ch : Char) : Option Scan :=
  let c := s.cursor
  let indicates := s.inFlow || c.spaceAt 1
  if c.column == 0 && ch == '%' then s.readDirective?
  else if c.marksDocument '-' then s.readMarker? .documentStart
  else if c.marksDocument '.' then s.readMarker? .documentEnd
  else if ch == '[' then s.openFlow? .flowSequenceStart
  else if ch == '{' then s.openFlow? .flowMappingStart
  else if ch == ']' then s.closeFlow? .flowSequenceEnd
  else if ch == '}' then s.closeFlow? .flowMappingEnd
  else if ch == ',' then s.readFlowEntry?
  else if ch == '-' && c.spaceAt 1 then s.readBlockEntry?
  else if ch == '?' && indicates then s.readKey?
  else if ch == ':' && indicates then s.readValue?
  else if ch == '*' then s.readName? .reference
  else if ch == '&' then s.readName? .anchor
  else if ch == '!' then s.readNode? fun s => Token.tag? s.inFlow s.cursor
  else if (ch == '|' || ch == '>') && !s.inFlow then s.readBlock? (ch == '>')
  else if ch == '\'' || ch == '"' then s.readNode? fun s => Token.quoted? ch s.cursor
  else if Token.startsPlain s.inFlow c then s.readPlain?
  else none

/-- Reads the rest of a stream. -/
def tokens? (s : Scan) : Nat → Option (List Token)
  | 0 => none
  | fuel + 1 => do
    let s ← (s.toNextToken (s.cursor.rest.length + 1)).expireKeys?
    let s := s.dedent s.cursor.column
    match s.cursor.head? with
    | some ch => (← s.readToken? ch).tokens? fuel
    | none => (← s.readEnd?).tokens.toList

end Scan

/-- The tokens of a stream, if it can be divided into tokens. -/
def Token.ofText? (text : String) : Option (List Token) :=
  let cs := text.toList
  if cs.all isAllowed then Scan.tokens? { cursor := { rest := cs } } (cs.length + 1) else none

end EntityStore.Yaml
