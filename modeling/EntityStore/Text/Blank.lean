/-!
# White space around a text

Option texts, type names and limits are read without the white space around them. White space is
the Unicode property `White_Space`, which is wider than the four characters that the core library
calls white space.
-/

namespace EntityStore.Text

/-- The characters with the Unicode property `White_Space`. -/
def isBlank (c : Char) : Bool :=
  let n := c.toNat
  (9 ≤ n && n ≤ 13) || n == 0x20 || n == 0x85 || n == 0xA0 || n == 0x1680 ||
    (0x2000 ≤ n && n ≤ 0x200A) || n == 0x2028 || n == 0x2029 || n == 0x202F || n == 0x205F ||
    n == 0x3000

/-- The characters without the blanks at either end. -/
def trimChars (cs : List Char) : List Char :=
  ((cs.dropWhile isBlank).reverse.dropWhile isBlank).reverse

/-- The text without the blanks at either end. -/
def trim (s : String) : String :=
  String.ofList (trimChars s.toList)

/-- Has the text no character but blanks? -/
def isAllBlank (s : String) : Bool :=
  s.toList.all isBlank

/-- The text of an optional one that is not all blank, without the blanks around it. -/
def present? (s : Option String) : Option String :=
  match s with
  | some text => if isAllBlank text then none else some (trim text)
  | none => none

end EntityStore.Text
