import EntityStore.Yaml.Token.Basic

/-!
# Block scalars

A literal or folded block: a header with the chomping of the last line breaks and perhaps the
indentation, and the indented lines. Without an indentation in the header that of the first line
that is not empty counts.
-/

namespace EntityStore.Yaml.Token

/-- What becomes of the line breaks at the end of a block. -/
inductive Chomping where
  /-- The last one stays. -/
  | clip
  /-- None stays. -/
  | strip
  /-- All stay. -/
  | keep
  deriving DecidableEq

/-- Reads an indicator of the chomping, if there is one. -/
def chomping (c : Cursor) : Option Chomping × Cursor :=
  if c.has '+' then (some .keep, c.advance 1)
  else if c.has '-' then (some .strip, c.advance 1)
  else (none, c)

/-- Reads an indicator of the indentation, if there is one. Zero is refused. -/
def indentation? (c : Cursor) : Option (Option Nat × Cursor) :=
  match c.head? with
  | some ch =>
    if ch = '0' then none
    else if ch.isDigit then some (some (ch.toNat - '0'.toNat), c.advance 1)
    else some (none, c)
  | none => some (none, c)

/-- Reads the header of a block, after its first character: the two indicators in either order, and
the rest of the line. -/
def blockHeader? (c : Cursor) : Option (Chomping × Option Nat × Cursor) := do
  let (first, c) := chomping c
  let (increment, c) ← indentation? c
  let (last, c) := if first.isNone && increment.isSome then chomping c else (none, c)
  let c := c.skipBlanks.skipComment
  let mode := (first <|> last).getD .clip
  if c.breakAt 0 then some (mode, increment, c.nextLine)
  else if c.atEnd then some (mode, increment, c)
  else none

/-- Reads the empty lines before a line of a block, up to its indentation if that is known. Returns
the line breaks and the greatest column reached. A tab in the indentation is refused. -/
def blockBreaks? (indent : Option Nat) (greatest : Nat) (read : List Char) (c : Cursor) :
    Nat → Option (List Char × Nat × Cursor)
  | 0 => some (read, greatest, c)
  | fuel + 1 =>
    let spaces := (c.rest.takeWhile (· == ' ')).length
    let c := c.advance <| match indent with
      | some n => min spaces (n - c.column)
      | none => spaces
    let greatest := max greatest c.column
    if c.has '\t' && indent.all (fun n => c.column < n) then none
    else if c.breakAt 0 then blockBreaks? indent greatest (read ++ c.breakText) c.nextLine fuel
    else some (read, greatest, c)

/-- Reads the lines of a block. `lastBreak` is the break of the line before, `breaks` those of the
empty lines after it, and `blankBefore` tells that the line before began with a blank. -/
def blockLines? (folded : Bool) (indent : Nat) (read lastBreak breaks : List Char)
    (blankBefore : Bool) (c : Cursor) : Nat → Option (List Char × List Char × List Char × Cursor)
  | 0 => some (read, lastBreak, breaks, c)
  | fuel + 1 =>
    if c.column = indent ∧ !c.atEnd then do
      let blank := c.blankAt 0
      let joined :=
        if folded && lastBreak == ['\n'] && !blankBefore && !blank then
          if breaks.isEmpty then [' '] else []
        else lastBreak
      let (line, lineEnd) := c.span fun ch => !isBreak ch
      let next := if lineEnd.atEnd then lineEnd else lineEnd.nextLine
      let (breaks', _, c) ← blockBreaks? (some indent) 0 [] next (next.rest.length + 1)
      blockLines? folded indent (read ++ (joined ++ breaks ++ line)) lineEnd.breakText breaks' blank
        c fuel
    else some (read, lastBreak, breaks, c)

/-- Reads a block scalar in a block collection of a certain indentation, which is negative outside
of all collections. -/
def block? (outer : Int) (folded : Bool) (c : Cursor) : Option (Token × Cursor) := do
  let (mode, increment, c) ← blockHeader? (c.advance 1)
  let given := increment.map fun n => (max outer 0).toNat + n
  let (breaks, greatest, c) ← blockBreaks? given 0 [] c (c.rest.length + 1)
  let indent := given.getD (max greatest (max (outer + 1) 1).toNat)
  let (read, lastBreak, breaks, c) ←
    blockLines? folded indent [] [] breaks false c (c.rest.length + 1)
  let text := match mode with
    | .strip => read
    | .clip => read ++ lastBreak
    | .keep => read ++ lastBreak ++ breaks
  some (.scalar (String.ofList text) (if folded then .folded else .literal), c)

end EntityStore.Yaml.Token
