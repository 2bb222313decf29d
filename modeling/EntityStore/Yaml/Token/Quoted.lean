import EntityStore.Yaml.Token.Label

/-!
# Quoted scalars

In single quotes only the quote itself is special, and is written twice. In double quotes a
backslash begins an escape, or joins a line to the next one without a space. In both, line breaks
are folded, and a document marker may not begin a line.
-/

namespace EntityStore.Yaml.Token

/-- Reads `count` digits of base sixteen. -/
def hexNumber? (c : Cursor) (count : Nat) : Option (Nat × Cursor) := do
  let digits := c.rest.take count
  if digits.length = count then
    let code ← digits.foldlM (fun n ch => (hexValue? ch).map (16 * n + ·)) 0
    some (code, c.advance count)
  else none

/-- The character that a letter stands for after a backslash. -/
def escaped? : Char → Option Char
  | '0' => some '\x00'
  | 'a' => some '\x07'
  | 'b' => some '\x08'
  | 't' | '\t' => some '\t'
  | 'n' => some '\n'
  | 'v' => some '\x0b'
  | 'f' => some '\x0c'
  | 'r' => some '\r'
  | 'e' => some '\x1b'
  | ' ' => some ' '
  | '"' => some '"'
  | '/' => some '/'
  | '\\' => some '\\'
  | 'N' => some '\u0085'
  | '_' => some '\u00a0'
  | 'L' => some '\u2028'
  | 'P' => some '\u2029'
  | _ => none

/-- The number of digits that follow a letter after a backslash. -/
def escapeDigits? : Char → Option Nat
  | 'x' => some 2
  | 'u' => some 4
  | 'U' => some 8
  | _ => none

/-- Reads an escape, after its backslash. -/
def escape? (c : Cursor) : Option (Char × Cursor) := do
  let ch ← c.head?
  match escapeDigits? ch with
  | some count =>
    let (code, after) ← hexNumber? (c.advance 1) count
    if code.isValidChar then some (Char.ofNat code, after) else none
  | none => some (← escaped? ch, c.advance 1)

/-- Reads the characters up to a blank, a line break or the closing quote, before those read so far,
latest first. The flag tells that an escaped line break has been read. -/
def quotedWord? (quote : Char) (read : List Char) (c : Cursor) :
    Nat → Option (List Char × Cursor × Bool)
  | 0 => some (read, c, false)
  | fuel + 1 =>
    match c.head? with
    | none => some (read, c, false)
    | some ch =>
      if isBlank ch || isBreak ch then some (read, c, false)
      else if ch = quote then
        if quote = '\'' ∧ c.hasAt 1 '\'' then quotedWord? quote (ch :: read) (c.advance 2) fuel
        else some (read, c, false)
      else if ch = '\\' ∧ quote = '"' then
        if c.breakAt 1 then some (read, (c.advance 1).nextLine, true)
        else do
          let (e, after) ← escape? (c.advance 1)
          quotedWord? quote (e :: read) after fuel
      else quotedWord? quote (ch :: read) (c.advance 1) fuel

/-- Reads a quoted scalar, after its opening quote. -/
def quotedText? (quote : Char) (read : List Char) (c : Cursor) : Nat → Option (List Char × Cursor)
  | 0 => none
  | fuel + 1 =>
    if c.atDocumentMarker || c.atEnd then none
    else do
      let (read, c, escapedBreak) ← quotedWord? quote read c c.rest.length
      if c.has quote then some (read.reverse, c.advance 1)
      else
        let (fold, c) ← Fold.read? none { overLines := escapedBreak } c c.rest.length
        quotedText? quote (fold.text.reverse ++ read) c fuel

/-- Reads a quoted scalar. -/
def quoted? (quote : Char) (c : Cursor) : Option (Token × Cursor) := do
  let (text, after) ← quotedText? quote [] (c.advance 1) (c.rest.length + 1)
  let style := if quote = '"' then Style.doubleQuoted else .singleQuoted
  some (.scalar (String.ofList text) style, after)

end EntityStore.Yaml.Token
