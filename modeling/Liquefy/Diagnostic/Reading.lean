import Liquefy.Diagnostic.Basic
import Liquefy.Json.Record

/-!
# Reading diagnostics

A diagnostic is a record of its five fields. Subject and advice may be missing in the object form.
-/

namespace Liquefy

open Json

/-- A severity by its name. -/
def severityVariants : Variants Severity Severity where
  names := Severity.all.map Severity.name
  ofName? := Severity.ofName?
  bare := .ok
  payload severity := null severity

/-- The fields of a diagnostic read so far. -/
structure DiagnosticDraft where
  severity : Option Severity
  code : Option Code
  message : Option String
  subject : Option (Option String)
  help : Option (Option String)

/-- A code by its number. -/
def Code.read : Reader Code := shortNumber.map Code.mk

/-- The fields of a diagnostic; the budget is what is left inside its bracket. -/
def diagnosticFields (budget : Nat) : List (Json.Field DiagnosticDraft) :=
  [{ name := "severity", isSet := fun draft => draft.severity.isSome
     read := (severityVariants.reader budget).map
       fun severity draft => { draft with severity := some severity }
     mayEnd := false },
   { name := "code", isSet := fun draft => draft.code.isSome
     read := Code.read.map fun code draft => { draft with code := some code }, mayEnd := false },
   { name := "message", isSet := fun draft => draft.message.isSome
     read := string.map fun message draft => { draft with message := some message }
     mayEnd := false },
   { name := "subject", isSet := fun draft => draft.subject.isSome
     read := (optional string).map fun subject draft => { draft with subject := some subject }
     mayEnd := false },
   { name := "help", isSet := fun draft => draft.help.isSome
     read := (optional string).map fun help draft => { draft with help := some help }
     mayEnd := false }]

/-- What the fields of a diagnostic make. -/
def DiagnosticDraft.finish (draft : DiagnosticDraft) : Except Fault Diagnostic := do
  let severity ← required "severity" draft.severity
  let code ← required "code" draft.code
  let message ← required "message" draft.message
  .ok ⟨severity, code, message, draft.subject.getD none, draft.help.getD none⟩

/-- A diagnostic: a record of its fields. -/
def diagnosticRecord (budget : Nat) : Record DiagnosticDraft Diagnostic where
  name := "Diagnostic"
  fields := diagnosticFields budget
  blank := ⟨none, none, none, none, none⟩
  finish := DiagnosticDraft.finish

/-- The code that a text stands for. -/
def Code.decode (text : String) : Except Fault Code := Json.decode Code.read text

/-- The diagnostic that a text stands for. -/
def Diagnostic.decode (text : String) : Except Fault Diagnostic :=
  Json.decode ((diagnosticRecord (maxDepth - 1)).reader maxDepth) text

end Liquefy
