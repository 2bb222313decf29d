import EntityStore.Error

/-!
# Why a command fails

The wording of a failure tells the file that could not be used, and otherwise the cause.
-/

namespace EntityStore.Command

/-- Why a command fails. -/
inductive Failure where
  /-- A check was given neither a configuration nor a mapping. -/
  | noSubject
  /-- A store configuration cannot be used. -/
  | unusableConfig (path : String)
  /-- The file of documents is not there. -/
  | missingInput (path : String)
  /-- A line of the file of documents is not a text. -/
  | undecodableLine
  /-- A line of the file of documents is not a document. -/
  | invalidLine (path : String) (number : Nat)
  /-- A call failed. -/
  | cause (error : Error)

/-- The wording of a failure. -/
def Failure.message : Failure → String
  | noSubject => "either --config or --mapping is required"
  | unusableConfig path => "loading store config " ++ path
  | missingInput path => "opening " ++ path
  | undecodableLine => "stream did not contain valid UTF-8"
  | invalidLine path number => path ++ ":" ++ Decimal.toText number ++ ": invalid document line"
  | cause error => error.message

/-- The exit code of a failure. A panic has a code of its own, and so has the end of the program for
want of memory. -/
def Failure.code : Failure → UInt8
  | cause (.panic _) => 101
  | cause (.outOfMemory _) => 134
  | _ => 1

end EntityStore.Command
