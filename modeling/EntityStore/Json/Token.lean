import EntityStore.Json.Numeral

/-!
# JSON tokens

A JSON text is a sequence of punctuation marks, words, numerals and quoted texts, with white space
between them. `Token.ofChars?` divides it up, one character at a time. A quoted text is kept as the
pieces it is written with, because an escape may write half of a surrogate pair, which only counts
as a mistake where the text is used: `Piece.text?`.
-/

namespace EntityStore.Json

/-- A piece of a quoted text. -/
inductive Piece where
  /-- A character that stands for itself, or a short escape of one. -/
  | char (c : Char)
  /-- The UTF-16 unit that an escape writes in four digits. -/
  | unit (code : Nat)
  deriving DecidableEq

/-- The characters that pieces write, if their surrogates come in pairs. -/
def Piece.chars? : List Piece → Option (List Char)
  | [] => some []
  | .char c :: rest => (chars? rest).map (c :: ·)
  | .unit high :: rest =>
    if 0xD800 ≤ high ∧ high < 0xDC00 then
      match rest with
      | .unit low :: rest =>
        if 0xDC00 ≤ low ∧ low < 0xE000 then
          (chars? rest).map (Char.ofNat (0x10000 + (high - 0xD800) * 0x400 + (low - 0xDC00)) :: ·)
        else none
      | _ => none
    else if 0xDC00 ≤ high ∧ high < 0xE000 then none
    else (chars? rest).map (Char.ofNat high :: ·)

/-- The text that pieces write, if their surrogates come in pairs. -/
def Piece.text? (pieces : List Piece) : Option String :=
  (chars? pieces).map String.ofList

/-- A token of a JSON text. -/
inductive Token where
  /-- The start of an array. -/
  | openBracket
  /-- The end of an array. -/
  | closeBracket
  /-- The start of an object. -/
  | openBrace
  /-- The end of an object. -/
  | closeBrace
  /-- What separates items and members. -/
  | comma
  /-- What separates a name from its value. -/
  | colon
  /-- The word `null`. -/
  | null
  /-- The word `true` or `false`. -/
  | bool (value : Bool)
  /-- A number. -/
  | numeral (n : Numeral)
  /-- A quoted text. -/
  | text (pieces : List Piece)

namespace Token

/-- What the characters read last belong to. Characters and pieces are listed latest first. -/
inductive Part where
  /-- Nothing: a token may begin. -/
  | gap
  /-- A numeral. -/
  | numeral (read : List Char)
  /-- A word. -/
  | word (read : List Char)
  /-- A quoted text. -/
  | text (read : List Piece)
  /-- A backslash in a quoted text. -/
  | escape (read : List Piece)
  /-- An escape in a quoted text that still lacks some of its digits. -/
  | digits (read : List Piece) (missing : Nat) (code : Nat)

/-- May a numeral contain the character? -/
def inNumeral (c : Char) : Bool :=
  ('0' ≤ c && c ≤ '9') || c == '-' || c == '+' || c == '.' || c == 'e' || c == 'E'

/-- Is the character a lower-case letter? -/
def inWord (c : Char) : Bool :=
  'a' ≤ c && c ≤ 'z'

/-- The value of a digit of base sixteen. -/
def hexValue? (c : Char) : Option Nat :=
  if '0' ≤ c ∧ c ≤ '9' then some (c.toNat - '0'.toNat)
  else if 'a' ≤ c ∧ c ≤ 'f' then some (c.toNat - 'a'.toNat + 10)
  else if 'A' ≤ c ∧ c ≤ 'F' then some (c.toNat - 'A'.toNat + 10)
  else none

/-- The character that a letter stands for after a backslash. -/
def escaped? : Char → Option Char
  | '"' => some '"'
  | '\\' => some '\\'
  | '/' => some '/'
  | 'b' => some '\x08'
  | 'f' => some '\x0c'
  | 'n' => some '\n'
  | 'r' => some '\r'
  | 't' => some '\t'
  | _ => none

/-- The token of a word. -/
def ofWord? : List Char → Option Token
  | ['n', 'u', 'l', 'l'] => some .null
  | ['t', 'r', 'u', 'e'] => some (.bool true)
  | ['f', 'a', 'l', 's', 'e'] => some (.bool false)
  | _ => none

/-- Reads a character where a token may begin. Tokens are listed latest first. -/
def begin? (tokens : List Token) (c : Char) : Option (Part × List Token) :=
  match c with
  | ' ' | '\t' | '\n' | '\r' => some (.gap, tokens)
  | '[' => some (.gap, .openBracket :: tokens)
  | ']' => some (.gap, .closeBracket :: tokens)
  | '{' => some (.gap, .openBrace :: tokens)
  | '}' => some (.gap, .closeBrace :: tokens)
  | ',' => some (.gap, .comma :: tokens)
  | ':' => some (.gap, .colon :: tokens)
  | '"' => some (.text [], tokens)
  | c =>
    if inNumeral c then some (.numeral [c], tokens)
    else if inWord c then some (.word [c], tokens)
    else none

/-- Reads a character. -/
def step? (part : Part) (tokens : List Token) (c : Char) : Option (Part × List Token) :=
  match part with
  | .gap => begin? tokens c
  | .numeral read =>
    if inNumeral c then some (.numeral (c :: read), tokens)
    else (Numeral.ofChars? read.reverse).bind fun n => begin? (.numeral n :: tokens) c
  | .word read =>
    if inWord c then some (.word (c :: read), tokens)
    else (ofWord? read.reverse).bind fun t => begin? (t :: tokens) c
  | .text read =>
    if c = '"' then some (.gap, .text read.reverse :: tokens)
    else if c = '\\' then some (.escape read, tokens)
    else if c.toNat < 0x20 then none
    else some (.text (.char c :: read), tokens)
  | .escape read =>
    if c = 'u' then some (.digits read 4 0, tokens)
    else (escaped? c).map fun e => (.text (.char e :: read), tokens)
  | .digits read missing code =>
    (hexValue? c).map fun d =>
      if missing ≤ 1 then (.text (.unit (16 * code + d) :: read), tokens)
      else (.digits read (missing - 1) (16 * code + d), tokens)

/-- The tokens of a text that ends here, in their order. -/
def finish? (part : Part) (tokens : List Token) : Option (List Token) :=
  match part with
  | .gap => some tokens.reverse
  | .numeral read => (Numeral.ofChars? read.reverse).map fun n => (.numeral n :: tokens).reverse
  | .word read => (ofWord? read.reverse).map fun t => (t :: tokens).reverse
  | _ => none

/-- Reads the rest of a text. -/
def read? (part : Part) (tokens : List Token) : List Char → Option (List Token)
  | [] => finish? part tokens
  | c :: rest =>
    match step? part tokens c with
    | some (part, tokens) => read? part tokens rest
    | none => none

/-- The tokens of a text, if it is made of tokens. -/
def ofChars? (cs : List Char) : Option (List Token) :=
  read? .gap [] cs

end Token

end EntityStore.Json
