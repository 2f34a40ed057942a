import Liquefy.Command.Outcome
import Liquefy.Conversion.Log
import Liquefy.Segment.Reading

/-!
# The command `convert`

One document is loaded and converted. The Liquid text goes to standard output or to a file; the
file is created only once the text is complete.
-/

namespace Liquefy.Command

/-- The document in a file. -/
def load (disk : Disk) (path : String) : Except Error Template :=
  match disk.readText path with
  | .error fault => .error (.unreadable path fault)
  | .ok text =>
      match Template.decode text with
      | .error fault => .error (.undecodable path fault)
      | .ok template => .ok template

/-- The Liquid text of the document in a file. -/
def convertFile (disk : Disk) (path : String) : Except Error String :=
  match load disk path with
  | .error error => .error error
  | .ok template =>
      match template.toLiquid.1 with
      | .error failure => .error (.unconvertible path failure)
      | .ok liquid => .ok liquid

/-- The entry for a document that was loaded. -/
def loadEntry (path : String) (template : Template) : Log.Entry :=
  ⟨.debug, "sktl_liquid::cli::input",
    "loaded " ++ toString template.segments.length ++ " top-level segment(s) from " ++ path⟩

/-- The log of loading and converting. -/
def convertLog (disk : Disk) (path : String) : List Log.Entry :=
  match load disk path with
  | .error _ => []
  | .ok template => loadEntry path template :: template.log

/-- Convert a file, to standard output or to the file of the given path. -/
def convert (threshold : Log.Threshold) (disk : Disk) (path : String) (output : Option String) :
    Outcome :=
  let log := Styled.plain (Log.lines threshold (convertLog disk path))
  match convertFile disk path with
  | .error error => ⟨some error, [], log, disk⟩
  | .ok liquid =>
      match output with
      | none => ⟨none, Styled.plain liquid, log, disk⟩
      | some target =>
          match disk.writeText target liquid with
          | .error fault => ⟨some (.uncreatable target fault), [], log, disk⟩
          | .ok disk' =>
              ⟨none, [], log ++ line (success ("Output written to " ++ target)), disk'⟩

end Liquefy.Command
