import EntityStore.Text.Blank

/-!
# Names of key and entity types

A type has a canonical name, such as `shop.model.Order` or `app::model::User`. Its last segment
names the collection that its entities go to when a mapping names none. Bridge jobs carry the names
of a key type and an entity type as a `TypePair`.

`TypeName.lastSegment` mirrors `simple_name`, and `TypePair.isNamed` mirrors `is_complete`.
-/

namespace EntityStore

namespace TypeName

/-- What follows the last occurrence of a separator, if there is an occurrence. -/
def afterLast? (separator : List Char) : List Char → Option (List Char)
  | [] => none
  | c :: rest =>
    match afterLast? separator rest with
    | some suffix => some suffix
    | none =>
      if separator.isPrefixOf (c :: rest) then some ((c :: rest).drop separator.length) else none

/-- What follows the last occurrence of a separator, or everything if it does not occur. -/
def afterLast (separator cs : List Char) : List Char :=
  (afterLast? separator cs).getD cs

/-- The last segment of a canonical name, whose separators are `.` and `::`. -/
def lastSegment (name : String) : String :=
  String.ofList (afterLast ['.'] (afterLast [':', ':'] name.toList))

end TypeName

/-- The canonical names of a key type and an entity type. -/
structure TypePair where
  /-- The name of the key type. -/
  key : String
  /-- The name of the entity type. -/
  entity : String
  deriving DecidableEq

namespace TypePair

/-- Are both names more than blanks? -/
def isNamed (types : TypePair) : Bool :=
  !Text.isAllBlank types.key && !Text.isAllBlank types.entity

/-- Both names in parentheses. -/
def display (types : TypePair) : String :=
  "(" ++ types.key ++ ", " ++ types.entity ++ ")"

end TypePair

end EntityStore
