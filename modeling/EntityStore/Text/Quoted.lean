import EntityStore.Text.Shown

/-!
# Quoted texts

Messages show a text between double quotes. The quote and the backslash have a backslash before
them, the tab, the line feed, the carriage return and the null character a letter after one, and a
character that has no glyph of its own is written as its code point in braces.
-/

namespace EntityStore.Text

/-- How a character stands between the quotes. -/
def quoteChar (c : Char) : List Char :=
  match c with
  | '"' => ['\\', '"']
  | '\\' => ['\\', '\\']
  | '\t' => ['\\', 't']
  | '\n' => ['\\', 'n']
  | '\r' => ['\\', 'r']
  | '\x00' => ['\\', '0']
  | c => if isShown c then [c] else '\\' :: 'u' :: '{' :: (Nat.toDigits 16 c.toNat ++ ['}'])

/-- A text between double quotes. -/
def quoted (s : String) : String :=
  String.ofList ('"' :: (s.toList.flatMap quoteChar ++ ['"']))

end EntityStore.Text
