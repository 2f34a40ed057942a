import Liquefy.Command.Outcome
import Liquefy.Conversion.Log
import Liquefy.Report

/-!
# The command `check`

Every file is converted and the result thrown away. A line for each file says how it fares, with
the findings below it, and at the end stands the count. No file is changed.
-/

namespace Liquefy.Command

/-- The log of checking a file. -/
def checkLog (disk : Disk) (path : String) : List Log.Entry :=
  match disk.readText path with
  | .error _ => []
  | .ok text =>
      match Template.decode text with
      | .error _ => []
      | .ok template => template.log

/-- What is written while a file is checked. -/
def progress (threshold : Log.Threshold) (verbose : Bool) (disk : Disk) (path : String) : Styled :=
  (if verbose then line (Styled.plain ("Checking: " ++ path)) else [])
    ++ Styled.plain (Log.lines threshold (checkLog disk path))

/-- The mark of a file. -/
def mark (report : Report) : Styled :=
  if report.findings = [] then Styled.colored .green "✓"
  else if report.errors > 0 then Styled.colored .red "✗"
  else Styled.colored .yellow "!"

/-- The lines for a file. -/
def reportLines (report : Report) : Styled :=
  line (mark report ++ Styled.plain (" " ++ report.path))
    ++ report.findings.flatMap fun finding => line (Styled.plain "  " ++ finding.styled)

/-- The last line when no file fails. -/
def summary (reports : List Report) (warnings : Nat) : Styled :=
  line (success
    ("All " ++ toString reports.length ++ " file(s) converted successfully"
      ++ (if warnings > 0 then " (" ++ toString warnings ++ " warning(s))" else "")))

/-- The notice that warnings count as errors. -/
def strictNotice (strict : Bool) (warnings : Nat) : Styled :=
  if strict ∧ warnings > 0 then
    line (Styled.colored .yellow "Strict mode: treating warnings as errors")
  else []

/-- Check files. -/
def check (threshold : Log.Threshold) (verbose : Bool) (disk : Disk) (paths : List String)
    (strict : Bool) : Outcome :=
  if paths = [] then ⟨some .noFiles, [], [], disk⟩
  else
    let reports := paths.map (Report.ofFile disk)
    let log := paths.flatMap (progress threshold verbose disk)
    let listing := reports.flatMap reportLines ++ Styled.plain "\n"
    let failed := reports.countP (Report.failed strict)
    let warnings := Report.allWarnings reports
    if failed = 0 then ⟨none, listing ++ summary reports warnings, log, disk⟩
    else
      ⟨some (.rejected failed reports.length), listing, log ++ strictNotice strict warnings, disk⟩

end Liquefy.Command
