import EntityStore.Decimal.Layout
import EntityStore.Json.Basic

/-!
# Writing JSON

`Json.compact` writes a value without white space; record keys and document lines have this form.
`Json.pretty` puts every member and item on a line of its own. In a text only quotes, backslashes
and the control characters below the space are escaped.
-/

namespace EntityStore.Json

/-- A digit of base sixteen, with lower-case letters. -/
def hexDigit (n : Nat) : Char :=
  if n < 10 then Char.ofNat ('0'.toNat + n) else Char.ofNat ('a'.toNat + n - 10)

/-- How a character stands inside a quoted text. -/
def escape (c : Char) : List Char :=
  if c = '"' then ['\\', '"']
  else if c = '\\' then ['\\', '\\']
  else if c = '\x08' then ['\\', 'b']
  else if c = '\t' then ['\\', 't']
  else if c = '\n' then ['\\', 'n']
  else if c = '\x0c' then ['\\', 'f']
  else if c = '\r' then ['\\', 'r']
  else if c.toNat < 0x20 then
    ['\\', 'u', '0', '0', hexDigit (c.toNat / 16), hexDigit (c.toNat % 16)]
  else [c]

/-- A text in quotes. -/
def quote (s : String) : List Char :=
  '"' :: (s.toList.flatMap escape ++ ['"'])

mutual

/-- The characters of a value written without white space. -/
def compactChars : Json → List Char
  | null => ['n', 'u', 'l', 'l']
  | bool true => ['t', 'r', 'u', 'e']
  | bool false => ['f', 'a', 'l', 's', 'e']
  | int n => (Decimal.intText n.val).toList
  | float x => (Decimal.Layout.json.text x.val).toList
  | string s => quote s
  | array items => '[' :: (compactItems items ++ [']'])
  | object members => '{' :: (compactMembers members ++ ['}'])

/-- The items of an array, with commas between them. -/
def compactItems : List Json → List Char
  | [] => []
  | [item] => compactChars item
  | item :: rest => compactChars item ++ ',' :: compactItems rest

/-- The members of an object, with commas between them. -/
def compactMembers : List (String × Json) → List Char
  | [] => []
  | [(name, value)] => quote name ++ ':' :: compactChars value
  | (name, value) :: rest => quote name ++ ':' :: (compactChars value ++ ',' :: compactMembers rest)

end

/-- A value written without white space. -/
def compact (value : Json) : String :=
  String.ofList (compactChars value)

/-- The start of a line at a depth. -/
def newline (depth : Nat) : List Char :=
  '\n' :: List.replicate (2 * depth) ' '

mutual

/-- The characters of a value at a depth, with two spaces for each level. -/
def prettyChars (depth : Nat) : Json → List Char
  | array (item :: rest) =>
    '[' :: (prettyItems (depth + 1) (item :: rest) ++ newline depth ++ [']'])
  | object (member :: rest) =>
    '{' :: (prettyMembers (depth + 1) (member :: rest) ++ newline depth ++ ['}'])
  | value => compactChars value

/-- Items, each on a line of its own. -/
def prettyItems (depth : Nat) : List Json → List Char
  | [] => []
  | [item] => newline depth ++ prettyChars depth item
  | item :: rest => newline depth ++ (prettyChars depth item ++ ',' :: prettyItems depth rest)

/-- Members, each on a line of its own. -/
def prettyMembers (depth : Nat) : List (String × Json) → List Char
  | [] => []
  | [(name, value)] => newline depth ++ (quote name ++ ':' :: ' ' :: prettyChars depth value)
  | (name, value) :: rest =>
    newline depth ++
      (quote name ++ ':' :: ' ' :: (prettyChars depth value ++ ',' :: prettyMembers depth rest))

end

/-- A value written over several lines. -/
def pretty (value : Json) : String :=
  String.ofList (prettyChars 0 value)

end EntityStore.Json
