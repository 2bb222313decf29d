/-!
# Characters and positions of a YAML stream

A `Cursor` is a place in a stream: the characters from there on, and the offset, the line and the
column that the block structure depends on. An offset counts octets, a column characters. A line
break is one of five characters, or a carriage return with the line feed after it, which count as
one break.
-/

namespace EntityStore.Yaml

/-- May a stream contain the character? -/
def isAllowed (c : Char) : Bool :=
  let n := c.toNat
  n == 0x09 || n == 0x0A || n == 0x0D || (0x20 ≤ n && n ≤ 0x7E) || n == 0x85 ||
    (0xA0 ≤ n && n ≤ 0xD7FF) || (0xE000 ≤ n && n ≤ 0xFFFD) || 0x10000 ≤ n

/-- Does the character end a line? -/
def isBreak (c : Char) : Bool :=
  c == '\n' || c == '\r' || c == '\u0085' || c == '\u2028' || c == '\u2029'

/-- Is the character a space or a tab? -/
def isBlank (c : Char) : Bool :=
  c == ' ' || c == '\t'

/-- May the character be part of a name? -/
def isNameChar (c : Char) : Bool :=
  c.isAlphanum || c == '_' || c == '-'

/-- The number of octets that the characters take in a stream. -/
def octetCount (cs : List Char) : Nat :=
  cs.foldl (fun n ch => n + ch.utf8Size) 0

/-- A place in a stream. -/
structure Cursor where
  /-- The characters from here on. -/
  rest : List Char
  /-- The number of octets before. -/
  offset : Nat := 0
  /-- The number of lines before. -/
  line : Nat := 0
  /-- The number of characters before on the same line. -/
  column : Nat := 0

namespace Cursor

/-- The next character. -/
def head? (c : Cursor) : Option Char :=
  c.rest.head?

/-- Is the character `n` places ahead this one? -/
def hasAt (c : Cursor) (n : Nat) (ch : Char) : Bool :=
  c.rest[n]? == some ch

/-- Is the next character this one? -/
def has (c : Cursor) (ch : Char) : Bool :=
  c.hasAt 0 ch

/-- Does the stream end here? -/
def atEnd (c : Cursor) : Bool :=
  c.rest.isEmpty

/-- Is there a space or a tab `n` places ahead? -/
def blankAt (c : Cursor) (n : Nat) : Bool :=
  match c.rest[n]? with
  | some ch => isBlank ch
  | none => false

/-- Is there a line break `n` places ahead? -/
def breakAt (c : Cursor) (n : Nat) : Bool :=
  match c.rest[n]? with
  | some ch => isBreak ch
  | none => false

/-- Is there a space, a tab, a line break or the end of the stream `n` places ahead? -/
def spaceAt (c : Cursor) (n : Nat) : Bool :=
  match c.rest[n]? with
  | some ch => isBlank ch || isBreak ch
  | none => true

/-- The place `n` characters ahead on the same line. -/
def advance (c : Cursor) (n : Nat) : Cursor :=
  { c with
    rest := c.rest.drop n
    offset := c.offset + octetCount (c.rest.take n)
    column := c.column + n }

/-- The start of the next line, from a line break. -/
def nextLine (c : Cursor) : Cursor :=
  match c.rest with
  | '\r' :: '\n' :: rest => { rest, offset := c.offset + 2, line := c.line + 1 }
  | ch :: rest => { rest, offset := c.offset + ch.utf8Size, line := c.line + 1 }
  | [] => c

/-- The characters that a line break contributes to a text: a line feed, or the separator itself. -/
def breakText (c : Cursor) : List Char :=
  match c.rest with
  | '\u2028' :: _ => ['\u2028']
  | '\u2029' :: _ => ['\u2029']
  | ch :: _ => if isBreak ch then ['\n'] else []
  | [] => []

/-- The characters of the line from here on that satisfy a condition, and the place after them. The
condition must not admit line breaks. -/
def span (c : Cursor) (p : Char → Bool) : List Char × Cursor :=
  let read := c.rest.takeWhile p
  (read, c.advance read.length)

/-- The place after the characters of the line that satisfy a condition. -/
def skip (c : Cursor) (p : Char → Bool) : Cursor :=
  (c.span p).2

/-- The place after spaces and tabs. -/
def skipBlanks (c : Cursor) : Cursor :=
  c.skip isBlank

/-- The end of the line, past a comment if there is one here. -/
def skipComment (c : Cursor) : Cursor :=
  if c.has '#' then c.skip fun ch => !isBreak ch else c

/-- Do three characters and then a space or an end start the line here? -/
def marksDocument (c : Cursor) (ch : Char) : Bool :=
  c.column == 0 && c.hasAt 0 ch && c.hasAt 1 ch && c.hasAt 2 ch && c.spaceAt 3

/-- Does a line with a document marker start here? -/
def atDocumentMarker (c : Cursor) : Bool :=
  c.marksDocument '-' || c.marksDocument '.'

end Cursor

/-- Blanks and line breaks between the words of a text that may go over several lines. -/
structure Fold where
  /-- The blanks, if no line break follows them. -/
  blanks : List Char := []
  /-- The first line break. -/
  firstBreak : List Char := []
  /-- The line breaks after the first one. -/
  laterBreaks : List Char := []
  /-- Has a line ended? -/
  overLines : Bool := false

namespace Fold

/-- The fold with a blank added to it. Blanks at the start of a line do not count. -/
def addBlank (f : Fold) (ch : Char) : Fold :=
  if f.overLines then f else { f with blanks := f.blanks ++ [ch] }

/-- The fold with a line break added to it. -/
def addBreak (f : Fold) (text : List Char) : Fold :=
  if f.overLines then { f with laterBreaks := f.laterBreaks ++ text }
  else { blanks := [], firstBreak := text, overLines := true }

/-- The characters that stand for the fold: its blanks, or its line breaks, of which a single line
feed becomes a space and the first of several is dropped. -/
def text (f : Fold) : List Char :=
  if f.overLines then
    if f.firstBreak = ['\n'] then
      if f.laterBreaks.isEmpty then [' '] else f.laterBreaks
    else f.firstBreak ++ f.laterBreaks
  else f.blanks

/-- Reads blanks and line breaks. If `indent` is given, a tab to the left of it after a line break
is refused. -/
def read? (indent : Option Int) (f : Fold) (c : Cursor) : Nat → Option (Fold × Cursor)
  | 0 => some (f, c)
  | fuel + 1 =>
    match c.head? with
    | some ch =>
      if isBlank ch then
        if f.overLines && ch == '\t' && indent.any (fun i => (c.column : Int) < i) then none
        else read? indent (f.addBlank ch) (c.advance 1) fuel
      else if isBreak ch then read? indent (f.addBreak c.breakText) c.nextLine fuel
      else some (f, c)
    | none => some (f, c)

end Fold

end EntityStore.Yaml
