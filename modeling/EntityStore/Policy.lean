import EntityStore.Decimal.Natural
import EntityStore.Text.Blank

/-!
# Read and write policies

A write policy says which stored generation a write accepts, what it does when the record exists or
does not, whether the user key travels with it, and how long it may take; a read policy has the
last two. Mapping documents spell each option as free text. Reading an option is total: letters
may have either case, a hyphen stands for an underscore, blanks around the text do not count, and a
text that names no option stands for the default.

The policies mirror `ReadPolicy` and `WritePolicy`, and the options are read as
`resolve_generation`, `resolve_exists`, `resolve_key_mode` and `resolve_timeout` read them, the
first three after `normalize`.
-/

namespace EntityStore

/-- How the generation of a stored record is checked before it is written over. -/
inductive GenerationPolicy where
  /-- The generation is not checked. -/
  | ignore
  /-- The stored generation has to be the expected one. -/
  | expectEqual
  /-- The expected generation has to be above the stored one. -/
  | expectGreater
  deriving DecidableEq

/-- What a write does with a record that exists, and with one that does not. -/
inductive ExistsAction where
  /-- Creates the record or lays the new bins over its bins. -/
  | update
  /-- Lays the new bins over those of a record that has to exist. -/
  | updateOnly
  /-- Creates the record or puts the new bins in place of its bins. -/
  | replace
  /-- Puts the new bins in place of those of a record that has to exist. -/
  | replaceOnly
  /-- Creates a record that must not exist. -/
  | createOnly
  deriving DecidableEq

/-- Whether the user key travels with an operation, or only its digest. -/
inductive KeyMode where
  /-- Only the digest travels. -/
  | digest
  /-- The user key travels too, and the record keeps it. -/
  | send
  deriving DecidableEq

/-- The options of a read. -/
structure ReadPolicy where
  /-- Whether the user key travels. -/
  keyMode : KeyMode := .digest
  /-- The time limit in milliseconds, zero for the store's own. -/
  timeout : UInt32 := 0
  deriving DecidableEq

/-- The options of a write. -/
structure WritePolicy where
  /-- The check of the stored generation. -/
  generation : GenerationPolicy := .ignore
  /-- The generation that the check compares with. -/
  expectedGeneration : UInt32 := 0
  /-- What becomes of a record that exists or does not. -/
  existsAction : ExistsAction := .update
  /-- Whether the user key travels. -/
  keyMode : KeyMode := .digest
  /-- The time limit in milliseconds, zero for the store's own. -/
  timeout : UInt32 := 0
  deriving DecidableEq

namespace Policy

/-- An option text in the spelling of the option names: upper case, with underscores. -/
def optionName (text : String) : String :=
  String.ofList ((Text.trim text).toList.map fun c => if c = '-' then '_' else c.toUpper)

end Policy

namespace GenerationPolicy

/-- The check that a text names, no check if it names none. -/
def ofText (text : String) : GenerationPolicy :=
  match Policy.optionName text with
  | "EQ" => .expectEqual
  | "GT" => .expectGreater
  | _ => .ignore

/-- The name of the check in reports. -/
def name : GenerationPolicy → String
  | .ignore => "Ignore"
  | .expectEqual => "ExpectEqual"
  | .expectGreater => "ExpectGreater"

end GenerationPolicy

namespace ExistsAction

/-- The action that a text names, an update if it names none. -/
def ofText (text : String) : ExistsAction :=
  match Policy.optionName text with
  | "UPDATE_ONLY" => .updateOnly
  | "REPLACE" => .replace
  | "REPLACE_ONLY" => .replaceOnly
  | "CREATE_ONLY" => .createOnly
  | _ => .update

/-- The name of the action in reports. -/
def name : ExistsAction → String
  | .update => "Update"
  | .updateOnly => "UpdateOnly"
  | .replace => "Replace"
  | .replaceOnly => "ReplaceOnly"
  | .createOnly => "CreateOnly"

end ExistsAction

namespace KeyMode

/-- The mode that a text names, the digest alone if it names none. -/
def ofText (text : String) : KeyMode :=
  match Policy.optionName text with
  | "SEND" => .send
  | _ => .digest

/-- The name of the mode in reports. -/
def name : KeyMode → String
  | .digest => "Digest"
  | .send => "Send"

end KeyMode

namespace Policy

/-- The time limit in milliseconds that a text writes in decimal, zero if it writes none below
`2 ^ 32`. -/
def timeoutOfText (text : String) : UInt32 :=
  match Decimal.natural? UInt32.size (Text.trimChars text.toList) with
  | some n => UInt32.ofNat n
  | none => 0

end Policy

end EntityStore
