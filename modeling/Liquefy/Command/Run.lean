import Liquefy.Command.Check
import Liquefy.Command.Convert
import Liquefy.Command.Help

/-!
# A run of the program

A run takes the words of the command line, the log setting of the environment and the files. It
ends with an exit code, what stands on the two outputs, and the files afterwards. The code is 0
for success, 1 for a command that fails and 2 for a command line that is not understood.
-/

namespace Liquefy.Command

/-- The end of a run. -/
structure Result where
  exit : Nat
  stdout : String
  stderr : String
  disk : Disk

/-- Whether there are colours: `always` asks for them and `never` for none, in letters of either
case. `auto`, like every other word, leaves it to the terminal, and neither output is a terminal, so
it gives none either. -/
def wantsColors (word : String) : Bool := word.map Char.toLower = "always"

/-- What is logged: as the environment says, or else depending on verbosity. -/
def threshold (setting : Option String) (verbose : Bool) : Log.Threshold :=
  match setting with
  | some name => Log.Threshold.ofName name
  | none => if verbose then some .debug else some .warn

/-- Carry out a command. -/
def perform (invocation : Invocation) (setting : Option String) (disk : Disk) : Outcome :=
  let level := threshold setting invocation.verbose
  match invocation.task with
  | .convert file output => convert level disk file output
  | .check files strict => check level invocation.verbose disk files strict

/-- The end of a run that carried out a command; an error is the last that is said. -/
def Outcome.result (colours : Bool) (outcome : Outcome) : Result :=
  match outcome.error? with
  | none => ⟨0, outcome.stdout.render colours, outcome.stderr.render colours, outcome.disk⟩
  | some error =>
      ⟨1, outcome.stdout.render colours, (outcome.stderr ++ line error.styled).render colours,
        outcome.disk⟩

/-- Run the program. -/
def run (words : List String) (setting : Option String) (disk : Disk) : Result :=
  match parse words with
  | .error .usage => ⟨2, "", usageText, disk⟩
  | .error (.help topic) => ⟨0, helpText topic, "", disk⟩
  | .error .version => ⟨0, versionText, "", disk⟩
  | .ok invocation =>
      (perform invocation setting disk).result (wantsColors invocation.color)

end Liquefy.Command
