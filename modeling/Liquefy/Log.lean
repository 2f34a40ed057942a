import Liquefy.Text.Controls

/-!
# Log lines

An entry has a level, the part of the program it comes from, and a message. Entries above the
threshold are written as lines; a message of several lines is indented from the second on, and
what only controls a terminal is left out.
-/

namespace Liquefy.Log

/-- How important an entry is. -/
inductive Level where
  | error
  | warn
  | info
  | debug
  | trace
  deriving DecidableEq, Repr

namespace Level

/-- The place of a level, the most important first. -/
def rank : Level → Nat
  | .error => 1
  | .warn => 2
  | .info => 3
  | .debug => 4
  | .trace => 5

/-- The level as it is written, padded to five characters. -/
def label : Level → String
  | .error => "ERROR"
  | .warn => "WARN "
  | .info => "INFO "
  | .debug => "DEBUG"
  | .trace => "TRACE"

end Level

/-- The least important level that is written, if any is. -/
abbrev Threshold := Option Level

/-- The threshold of a name, in upper or lower case. Other names switch the log off. -/
def Threshold.ofName (name : String) : Threshold :=
  match name.map Char.toLower with
  | "error" => some .error
  | "warn" => some .warn
  | "info" => some .info
  | "debug" => some .debug
  | "trace" => some .trace
  | _ => none

/-- An entry of the log. -/
structure Entry where
  level : Level
  origin : String
  message : String
  deriving DecidableEq, Repr

namespace Entry

/-- Whether an entry is written. -/
def passes (threshold : Threshold) (entry : Entry) : Bool :=
  threshold.any fun level => entry.level.rank ≤ level.rank

/-- Indent the lines of a message after the first. -/
def indented (message : String) : String :=
  String.ofList (message.toList.flatMap fun c => if c = '\n' then "\n    ".toList else [c])

/-- The entry as a line. -/
def line (entry : Entry) : String :=
  Text.withoutControls
    ("[" ++ entry.level.label ++ " " ++ entry.origin ++ "] " ++ indented entry.message ++ "\n")

end Entry

/-- The lines of the entries that pass the threshold. -/
def lines (threshold : Threshold) (entries : List Entry) : String :=
  String.join ((entries.filter (Entry.passes threshold)).map Entry.line)

end Liquefy.Log
