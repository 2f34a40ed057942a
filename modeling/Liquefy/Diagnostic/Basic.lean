import Liquefy.Conversion.Basic
import Liquefy.Diagnostic.Code
import Liquefy.Json.Tree
import Liquefy.Styled

/-!
# Diagnostics

A diagnostic says what is wrong with a document: how severe it is, its code, a message, and if
there is any the input to blame and some advice. It is shown on one line, or on several with
colours, and exchanged as JSON.
-/

namespace Liquefy

/-- How severe a finding is. -/
inductive Severity where
  /-- The document cannot be converted. -/
  | error
  /-- The document converts but needs attention. -/
  | warning
  deriving DecidableEq, Repr

namespace Severity

/-- The word for a severity. -/
def word : Severity → String
  | .error => "error"
  | .warning => "warning"

/-- The name under which a severity is exchanged. -/
def name : Severity → String
  | .error => "Error"
  | .warning => "Warning"

/-- All severities. -/
def all : List Severity := [.error, .warning]

/-- The severity of a name. -/
def ofName? (name : String) : Option Severity := all.find? fun severity => severity.name == name

/-- The colour of a severity. -/
def color : Severity → Color
  | .error => .red
  | .warning => .yellow

end Severity

/-- A finding about a document. -/
structure Diagnostic where
  severity : Severity
  code : Code
  message : String
  /-- The input to blame. -/
  subject : Option String
  /-- Advice. -/
  help : Option String
  deriving DecidableEq, Repr

namespace Diagnostic

/-- A finding with the advice that belongs to its code. -/
def ofCode (severity : Severity) (code : Code) (message : String) : Diagnostic where
  severity := severity
  code := code
  message := message
  subject := none
  help := code.help?

/-- An error with the advice that belongs to its code. -/
def error (code : Code) (message : String) : Diagnostic := ofCode .error code message

/-- A warning with the advice that belongs to its code. -/
def warning (code : Code) (message : String) : Diagnostic := ofCode .warning code message

/-- Whether the document cannot be converted. -/
def isError (diagnostic : Diagnostic) : Bool := diagnostic.severity = .error

/-- The finding on one line. -/
def shown (diagnostic : Diagnostic) : String :=
  diagnostic.severity.word ++ ": " ++ diagnostic.code.shown ++ " - " ++ diagnostic.message
    ++ (match diagnostic.subject with
        | some subject => " in " ++ subject
        | none => "")

/-- The finding on several lines, with colours. -/
def styled (diagnostic : Diagnostic) : Styled :=
  Styled.bold diagnostic.severity.color
      (diagnostic.severity.word ++ "[" ++ diagnostic.code.shown ++ "]")
    ++ Styled.plain (": " ++ diagnostic.message)
    ++ (match diagnostic.subject with
        | some subject =>
            Styled.plain "\n  " ++ Styled.bold .blue "-->" ++ Styled.plain (" " ++ subject)
        | none => [])
    ++ (match diagnostic.help with
        | some help =>
            Styled.plain "\n  " ++ Styled.colored .cyan "help:" ++ Styled.plain (" " ++ help)
        | none => [])

/-- A string that may be missing, as a tree. -/
def treeOfOption : Option String → Json.Tree
  | some s => .string s
  | none => .null

/-- The tree of a diagnostic, with every field written. -/
def tree (diagnostic : Diagnostic) : Json.Tree :=
  .object
    [("severity", .string diagnostic.severity.name),
     ("code", .number (.integer diagnostic.code.number.toNat)),
     ("message", .string diagnostic.message),
     ("subject", treeOfOption diagnostic.subject),
     ("help", treeOfOption diagnostic.help)]

/-- The compact text of a diagnostic. -/
def encode (diagnostic : Diagnostic) : String := diagnostic.tree.text

end Diagnostic

namespace Failure

/-- The code of a failure. -/
def code : Failure → Code
  | .unsupported _ => .unsupportedSegment
  | .malformed _ _ _ => .malformedShape
  | .unbalanced => .unbalancedScope

/-- The finding about a document that fails to convert. -/
def toDiagnostic (failure : Failure) : Diagnostic :=
  { Diagnostic.error failure.code failure.message with
    subject := failure.segment?.map Segment.encode }

end Failure

end Liquefy
