import Liquefy.Conversion.Rules
import Liquefy.Diagnostic.Basic
import Liquefy.Disk
import Liquefy.Segment.Reading

/-!
# Checking a document

A document is checked by trying to convert it. There is at most one finding: the file cannot be
read, it is not a template, it does not convert, or it converts and leaves blocks open.
-/

namespace Liquefy

/-- The warning of blocks left open. -/
def openBlocks (scopes : Scopes) : Diagnostic :=
  .warning .unclosedScope
    (toString scopes.depth ++ " block(s) left open: "
      ++ ", ".intercalate (scopes.toList.map Block.name))

/-- The findings about a template. -/
def Template.findings (template : Template) : List Diagnostic :=
  match template.toLiquid with
  | (.error failure, _) => [failure.toDiagnostic]
  | (.ok _, scopes) => if scopes.isEmpty then [] else [openBlocks scopes]

/-- The findings about a file with the given content. -/
def findings (content : Except FileFault String) : List Diagnostic :=
  match content with
  | .error fault => [.error .unreadableFile fault.message]
  | .ok text =>
      match Template.decode text with
      | .error fault => [.error .invalidDocument fault.message]
      | .ok template => template.findings

/-- What was found about a file. -/
structure Report where
  path : String
  findings : List Diagnostic

namespace Report

/-- The report on the file that a path leads to. -/
def ofFile (disk : Disk) (path : String) : Report := ⟨path, Liquefy.findings (disk.readText path)⟩

/-- The number of errors. -/
def errors (report : Report) : Nat := report.findings.countP Diagnostic.isError

/-- The number of warnings. -/
def warnings (report : Report) : Nat := report.findings.length - report.errors

/-- The number of warnings in several reports. -/
def allWarnings (reports : List Report) : Nat :=
  reports.foldr (fun report n => report.warnings + n) 0

/-- Whether the file fails the check; in strict mode warnings count too. -/
def failed (strict : Bool) (report : Report) : Bool :=
  report.errors > 0 || (strict && report.warnings > 0)

end Report

end Liquefy
