import EntityStore.Yaml.Token.Basic

/-!
# Plain scalars

A scalar without quotes goes on until a colon before a space, a comment, a mark of a flow collection
inside of one, a document marker, or a line that is not indented enough. Its line breaks are folded.
-/

namespace EntityStore.Yaml.Token

/-- Is the character a mark that ends a plain scalar in a flow collection? -/
def isFlowMark (ch : Char) : Bool :=
  [',', '[', ']', '{', '}'].contains ch

/-- May a plain scalar begin here? -/
def startsPlain (inFlow : Bool) (c : Cursor) : Bool :=
  match c.head? with
  | none => false
  | some ch =>
    let indicators := ['-', '?', ':', ',', '[', ']', '{', '}', '#', '&', '*', '!', '|', '>', '\'',
      '"', '%', '@', '\x60']
    (!(isBlank ch || isBreak ch) && !indicators.contains ch) ||
      (ch == '-' && !c.blankAt 1) ||
      (!inFlow && (ch == '?' || ch == ':') && !c.spaceAt 1)

/-- Reads the characters of a word, before those read so far, latest first. -/
def plainWord? (inFlow : Bool) (read : List Char) (c : Cursor) : Nat → Option (List Char × Cursor)
  | 0 => some (read, c)
  | fuel + 1 =>
    match c.head? with
    | none => some (read, c)
    | some ch =>
      if isBlank ch || isBreak ch then some (read, c)
      else if inFlow && ch == ':' &&
          [',', '?', '[', ']', '{', '}'].any (fun mark => c.hasAt 1 mark) then none
      else if (ch == ':' && c.spaceAt 1) || (inFlow && isFlowMark ch) then some (read, c)
      else plainWord? inFlow (ch :: read) (c.advance 1) fuel

/-- Reads the words of a plain scalar. `fold` is what stands between the words read so far and the
next one; its line breaks are also reported at the end of the scalar. -/
def plainWords? (inFlow : Bool) (indent : Int) (read : List Char) (fold : Fold) (c : Cursor) :
    Nat → Option (List Char × Bool × Cursor)
  | 0 => none
  | fuel + 1 =>
    if c.atDocumentMarker || c.has '#' then some (read, fold.overLines, c)
    else do
      let (word, c) ← plainWord? inFlow [] c c.rest.length
      let (read, fold) :=
        if word.isEmpty then (read, fold) else (word ++ (fold.text.reverse ++ read), {})
      if c.blankAt 0 || c.breakAt 0 then
        let (fold, c) ← Fold.read? (some indent) fold c c.rest.length
        if !inFlow && (c.column : Int) < indent then some (read, fold.overLines, c)
        else plainWords? inFlow indent read fold c fuel
      else some (read, fold.overLines, c)

/-- Reads a plain scalar in a block collection of a certain indentation. Also tells whether line
breaks follow the scalar. -/
def plain? (inFlow : Bool) (outer : Int) (c : Cursor) : Option (Token × Bool × Cursor) := do
  let (read, overLines, after) ←
    plainWords? inFlow (outer + 1) [] {} c (c.rest.length + 1)
  some (.scalar (String.ofList read.reverse) .plain, overLines, after)

end EntityStore.Yaml.Token
