import EntityStore.Decimal.Natural

/-!
# Command lines

A command line is the name of a command and options with values. A value is the next argument, or it
is attached to the option, after an equals sign if the option has its long name. The next argument
is no value if it looks like an option. No option may be given twice, and there are no other
arguments.

`Command.ofArguments` reads a command line, or says whether it asks for help or is a misuse.
Arguments are read in their order, so a fault before a request for help is a misuse.

The commands mirror `Command` of the program, and the options its `Args`.
-/

namespace EntityStore

/-- What describes the mapping to check. -/
inductive CheckSubject where
  /-- The store configuration in a file. -/
  | config (path : String)
  /-- The mapping document in a file. -/
  | mapping (path : String)
  /-- Nothing was given. -/
  | missing
  deriving DecidableEq

/-- What the program is asked to do. -/
inductive Command where
  /-- To resolve the mapping of two types and show it, with the configured serializer or another. -/
  | check (subject : CheckSubject) (keyType entityType : String) (serializer : Option String)
  /-- To write documents to one store and copy them to another, through a channel with room for a
  number of messages. -/
  | copy (source target input : String) (capacity : Nat)
  /-- To list the serializers. -/
  | serializers
  deriving DecidableEq

namespace Command

/-- Why a command line names no command to execute. -/
inductive Refusal where
  /-- It asks for help. -/
  | help
  /-- It is not a command line of the program. -/
  | misuse
  deriving DecidableEq

/-- An option of a command. -/
structure Flag where
  /-- The long name. -/
  long : String
  /-- The short name, if there is one. -/
  short : Option Char := none
  /-- May the option have the value? -/
  accepts : String → Bool

/-- May the text be the path of a file? -/
def isPath (value : String) : Bool :=
  !value.isEmpty

/-- The number of messages that a text writes. -/
def capacity? (value : String) : Option Nat :=
  Decimal.natural? UInt64.size value.toList

/-- The options of a check. -/
def checkFlags : List Flag := [
  ⟨"config", some 'c', isPath⟩, ⟨"mapping", some 'm', isPath⟩, ⟨"key-type", none, fun _ => true⟩,
  ⟨"entity-type", none, fun _ => true⟩, ⟨"serializer", none, fun _ => true⟩]

/-- The options of a copy. -/
def copyFlags : List Flag := [
  ⟨"from", none, isPath⟩, ⟨"to", none, isPath⟩, ⟨"input", some 'i', isPath⟩,
  ⟨"channel-capacity", none, fun value => (capacity? value).isSome⟩]

/-- What an argument is. -/
inductive Argument where
  /-- An option with the value that is attached to it. -/
  | attached (flag : Flag) (value : String)
  /-- An option whose value is the next argument. -/
  | awaiting (flag : Flag)
  /-- A request for help. -/
  | help
  /-- The sign that no more options follow. -/
  | separator
  /-- Nothing that the command knows. -/
  | unknown

/-- The option with a long name. -/
def longFlag? (flags : List Flag) (name : List Char) : Option Flag :=
  flags.find? fun flag => flag.long.toList = name

/-- Reads the characters of an argument that follow two hyphens. -/
def longArgument (flags : List Flag) (cs : List Char) : Argument :=
  match longFlag? flags (cs.takeWhile (· ≠ '=')), cs.dropWhile (· ≠ '=') with
  | some flag, [] => .awaiting flag
  | some flag, _ :: value => .attached flag (String.ofList value)
  | none, _ => if cs = "help".toList then .help else .unknown

/-- Reads the characters of an argument that follow one hyphen. -/
def shortArgument (flags : List Flag) (letter : Char) (rest : List Char) : Argument :=
  match flags.find? fun flag => flag.short = some letter, rest with
  | some flag, [] => .awaiting flag
  | some flag, '=' :: value => .attached flag (String.ofList value)
  | some flag, value => .attached flag (String.ofList value)
  | none, _ => if letter = 'h' then .help else .unknown

/-- What an argument is to a command with certain options. -/
def Argument.ofText (flags : List Flag) (argument : String) : Argument :=
  match argument.toList with
  | ['-', '-'] => .separator
  | '-' :: '-' :: cs => longArgument flags cs
  | '-' :: letter :: rest => shortArgument flags letter rest
  | _ => .unknown

/-- Does an argument look like an option, so that it is not the value of one? -/
def looksLikeFlag (argument : String) : Bool :=
  match argument.toList with
  | '-' :: _ :: _ => true
  | _ => false

/-- The values of options by their long names. -/
abbrev Values := List (String × String)

/-- The values with that of another option. -/
def Values.add (values : Values) (flag : Flag) (value : String) : Except Refusal Values :=
  if flag.accepts value && (values.lookup flag.long).isNone then .ok ((flag.long, value) :: values)
  else .error .misuse

/-- Reads the options of a command after those that have been read. -/
def readValues (flags : List Flag) (values : Values) : List String → Except Refusal Values
  | [] => .ok values
  | argument :: rest =>
    match Argument.ofText flags argument with
    | .attached flag value => do readValues flags (← values.add flag value) rest
    | .awaiting flag =>
      match rest with
      | [] => .error .misuse
      | value :: rest =>
        if looksLikeFlag value then .error .misuse
        else do readValues flags (← values.add flag value) rest
    | .help => .error .help
    | .separator => if rest.isEmpty then .ok values else .error .misuse
    | .unknown => .error .misuse

/-- The value of an option that must be given. -/
def required (values : Values) (name : String) : Except Refusal String :=
  match values.lookup name with
  | some value => .ok value
  | none => .error .misuse

/-- The check that options describe. -/
def checkOf (values : Values) : Except Refusal Command := do
  let subject ← match values.lookup "config", values.lookup "mapping" with
    | some path, none => pure (.config path)
    | none, some path => pure (.mapping path)
    | none, none => pure .missing
    | some _, some _ => throw .misuse
  return .check subject (← required values "key-type") (← required values "entity-type")
    (values.lookup "serializer")

/-- The copy that options describe. Channels have room for eight messages by default. -/
def copyOf (values : Values) : Except Refusal Command :=
  return .copy (← required values "from") (← required values "to") (← required values "input")
    (((values.lookup "channel-capacity").bind capacity?).getD 8)

/-- The names of the commands. -/
def names : List String := ["check", "copy", "serializers", "help"]

/-- The command that arguments name. -/
def ofArguments : List String → Except Refusal Command
  | "check" :: rest => do checkOf (← readValues checkFlags [] rest)
  | "copy" :: rest => do copyOf (← readValues copyFlags [] rest)
  | "serializers" :: rest => do
    let _ ← readValues [] [] rest
    return .serializers
  | ["help"] => .error .help
  | ["help", name] => .error (if names.contains name then .help else .misuse)
  | argument :: _ =>
    match Argument.ofText [] argument with
    | .help => .error .help
    | _ => .error .misuse
  | [] => .error .misuse

end Command

end EntityStore
