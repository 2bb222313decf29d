import EntityStore.Json.Token

/-!
# JSON values as they are written

`Written` is a value whose numerals and quoted texts are kept as they are written; any text that
follows the grammar has one, however deep it nests. `Written.ofTokens?` builds it token by token on
a stack of the arrays and objects that are still open.

What the parts of a value mean is decided by who uses them. `Written.toJson?` reads a whole value:
it refuses unpaired surrogates, numbers too great for a double, and values that nest deeper than
allowed. Of two members with one name the later one counts.
-/

namespace EntityStore.Json

/-- A JSON value as it is written. -/
inductive Written where
  /-- `null` -/
  | null
  /-- `true` or `false` -/
  | bool (value : Bool)
  /-- A number. -/
  | numeral (n : Numeral)
  /-- A quoted text. -/
  | text (pieces : List Piece)
  /-- A list of values. -/
  | array (items : List Written)
  /-- A list of named values. -/
  | object (members : List (List Piece × Written))

namespace Written

/-- An array or object that is still open. Items and members are listed latest first. -/
inductive Frame where
  /-- An array. -/
  | array (items : List Written)
  /-- An object, between two members. -/
  | object (members : List (List Piece × Written))
  /-- An object, after the name of a member. -/
  | member (members : List (List Piece × Written)) (name : List Piece)

/-- What may come next. -/
inductive Expectation where
  /-- A value. -/
  | value
  /-- A value, or the end of an array without items. -/
  | valueOrEnd
  /-- The name of a member. -/
  | name
  /-- The name of a member, or the end of an object without members. -/
  | nameOrEnd
  /-- The colon after a name. -/
  | colon (name : List Piece)
  /-- What follows a value: a comma, the end of what it is in, or the end of the text. -/
  | after (value : Written)

/-- Reads a token where a value may begin. -/
def beginValue? (stack : List Frame) : Token → Option (Expectation × List Frame)
  | .null => some (.after .null, stack)
  | .bool b => some (.after (.bool b), stack)
  | .numeral n => some (.after (.numeral n), stack)
  | .text pieces => some (.after (.text pieces), stack)
  | .openBracket => some (.valueOrEnd, .array [] :: stack)
  | .openBrace => some (.nameOrEnd, .object [] :: stack)
  | _ => none

/-- Reads a token. -/
def step? (expected : Expectation) (stack : List Frame) (token : Token) :
    Option (Expectation × List Frame) :=
  match expected, token, stack with
  | .value, token, stack => beginValue? stack token
  | .valueOrEnd, .closeBracket, .array _ :: rest => some (.after (.array []), rest)
  | .valueOrEnd, token, stack => beginValue? stack token
  | .nameOrEnd, .closeBrace, .object _ :: rest => some (.after (.object []), rest)
  | .nameOrEnd, .text name, stack => some (.colon name, stack)
  | .name, .text name, stack => some (.colon name, stack)
  | .colon name, .colon, .object members :: rest => some (.value, .member members name :: rest)
  | .after v, .comma, .array items :: rest => some (.value, .array (v :: items) :: rest)
  | .after v, .closeBracket, .array items :: rest =>
    some (.after (.array (v :: items).reverse), rest)
  | .after v, .comma, .member members name :: rest =>
    some (.name, .object ((name, v) :: members) :: rest)
  | .after v, .closeBrace, .member members name :: rest =>
    some (.after (.object ((name, v) :: members).reverse), rest)
  | _, _, _ => none

/-- Reads the remaining tokens. -/
def build? (expected : Expectation) (stack : List Frame) : List Token → Option Written
  | [] =>
    match expected, stack with
    | .after v, [] => some v
    | _, _ => none
  | token :: rest =>
    match step? expected stack token with
    | some (expected, stack) => build? expected stack rest
    | none => none

/-- The value that tokens write, if they follow the grammar. -/
def ofTokens? (tokens : List Token) : Option Written :=
  build? .value [] tokens

/-- The value that a text writes, if it follows the grammar. -/
def ofText? (text : String) : Option Written :=
  (Token.ofChars? text.toList).bind ofTokens?

mutual

/-- The value that is written, if its arrays and objects nest at most `depth` levels. -/
def toJson? (depth : Nat) : Written → Option Json
  | null => some .null
  | bool b => some (.bool b)
  | numeral n => n.value?
  | text pieces => (Piece.text? pieces).map .string
  | array items =>
    match depth with
    | 0 => none
    | depth + 1 => (itemsToJson? depth items).map .array
  | object members =>
    match depth with
    | 0 => none
    | depth + 1 => (membersToJson? depth members).map .ofMembers

/-- The values of a list. -/
def itemsToJson? (depth : Nat) : List Written → Option (List Json)
  | [] => some []
  | item :: rest =>
    match toJson? depth item with
    | some value => (itemsToJson? depth rest).map (value :: ·)
    | none => none

/-- The members of a list. -/
def membersToJson? (depth : Nat) :
    List (List Piece × Written) → Option (List (String × Json))
  | [] => some []
  | (name, value) :: rest =>
    match Piece.text? name, toJson? depth value with
    | some name, some value => (membersToJson? depth rest).map ((name, value) :: ·)
    | _, _ => none

end

/-- The text that is written, of a value that is one. -/
def toText? : Written → Option String
  | text pieces => Piece.text? pieces
  | _ => none

/-- The integer that is written, of a value that is one of 64 bits. -/
def toInt? : Written → Option Int
  | numeral n => n.intValue?.map (·.val)
  | _ => none

/-- The values of the named members of an object, in the order of `names`. A member of another name
does not count, whatever its value; a name must not occur twice, and none may be missing. -/
def select? (names : List String) (members : List (List Piece × Written)) :
    Option (List Written) := do
  let named ← members.mapM fun m => (Piece.text? m.1).map (·, m.2)
  names.mapM fun name =>
    match named.filter (·.1 = name) with
    | [member] => some member.2
    | _ => none

/-- The values of a structure with named parts: the members of an object, or the items of an array
in the order of `names`. -/
def parts? (names : List String) : Written → Option (List Written)
  | object members => select? names members
  | array items => if items.length = names.length then some items else none
  | _ => none

end Written

end EntityStore.Json
