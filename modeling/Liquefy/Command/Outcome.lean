import Liquefy.Conversion.Basic
import Liquefy.Disk
import Liquefy.Json.Fault
import Liquefy.Styled

/-!
# What a command comes to

A command may write to both outputs and to a file, and may fail. Its texts stay styled until it is
known whether there are colours.
-/

namespace Liquefy.Command

/-- Why a command fails. -/
inductive Error where
  | unreadable (path : String) (fault : FileFault)
  | undecodable (path : String) (fault : Json.Fault)
  | unconvertible (path : String) (failure : Failure)
  | uncreatable (path : String) (fault : FileFault)
  /-- There is nothing to check. -/
  | noFiles
  /-- Some of the files to check fail. -/
  | rejected (failed total : Nat)

namespace Error

/-- What the command was doing. -/
def context : Error → String
  | .unreadable path _ => "Failed to read parsed template: " ++ path
  | .undecodable path _ => "Failed to decode parsed template: " ++ path
  | .unconvertible path _ => "Failed to convert " ++ path
  | .uncreatable path _ => "Failed to create output file: " ++ path
  | .noFiles => "No files specified for checking"
  | .rejected failed total =>
      toString failed ++ " of " ++ toString total ++ " file(s) failed to convert"

/-- Why it could not be done, where that is another's message. -/
def cause? : Error → Option String
  | .unreadable _ fault => some fault.message
  | .undecodable _ fault => some fault.message
  | .unconvertible _ failure => some failure.message
  | .uncreatable _ fault => some fault.message
  | .noFiles => none
  | .rejected _ _ => none

/-- The context and the cause. -/
def message (error : Error) : String :=
  match error.cause? with
  | some cause => error.context ++ ": " ++ cause
  | none => error.context

/-- The error as it is shown. -/
def styled (error : Error) : Styled :=
  Styled.bold .red "Error:" ++ Styled.plain (" " ++ error.message)

end Error

/-- The announcement of a success. -/
def success (message : String) : Styled :=
  Styled.bold .green "Success:" ++ Styled.plain (" " ++ message)

/-- A styled text as a line of its own. -/
def line (styled : Styled) : Styled := styled ++ Styled.plain "\n"

/-- What a command leaves behind. -/
structure Outcome where
  error? : Option Error
  stdout : Styled
  stderr : Styled
  disk : Disk

end Liquefy.Command
