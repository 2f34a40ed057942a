import Liquefy.Command.Check
import Liquefy.Command.Convert
import Liquefy.Proofs.Conversion.Documents
import Liquefy.Proofs.Segment.RoundTrip

/-!
# Checking agrees with converting

The two commands read, decode and convert a file by themselves. `Refused` says why a file does not
convert; it decides both the error with which converting fails and the one finding of the check.
A file that converts has no finding but the warning of the blocks that it leaves open, and the
verdict on a list of files counts those that are refused.
-/

namespace Liquefy.Command

/-- Why a file is not converted: the error of the command, with the code of the reason. -/
inductive Refused (disk : Disk) (path : String) : Error → Code → Prop
  | unreadable {fault : FileFault} (unread : disk.readText path = .error fault) :
      Refused disk path (.unreadable path fault) .unreadableFile
  | undecodable {text : String} {fault : Json.Fault} (read : disk.readText path = .ok text)
      (undecoded : Template.decode text = .error fault) :
      Refused disk path (.undecodable path fault) .invalidDocument
  | unconvertible {text : String} {template : Template} {failure : Failure}
      (read : disk.readText path = .ok text) (decoded : Template.decode text = .ok template)
      (unconverted : template.toLiquid.1 = .error failure) :
      Refused disk path (.unconvertible path failure) failure.code

/-- A file that is converted, with its Liquid text and the blocks that it leaves open. -/
inductive Converted (disk : Disk) (path : String) : String → Scopes → Prop
  | intro {text : String} {template : Template} {liquid : String} {scopes : Scopes}
      (read : disk.readText path = .ok text) (decoded : Template.decode text = .ok template)
      (converted : template.toLiquid = (.ok liquid, scopes)) : Converted disk path liquid scopes

theorem refused_or_converted (disk : Disk) (path : String) :
    (∃ error code, Refused disk path error code) ∨
      ∃ liquid scopes, Converted disk path liquid scopes := by
  cases read : disk.readText path with
  | error fault => exact .inl ⟨_, _, .unreadable read⟩
  | ok text =>
      cases decoded : Template.decode text with
      | error fault => exact .inl ⟨_, _, .undecodable read decoded⟩
      | ok template =>
          rcases converted : template.toLiquid with ⟨failure | liquid, scopes⟩
          · exact .inl ⟨_, _, .unconvertible read decoded (by rw [converted])⟩
          · exact .inr ⟨liquid, scopes, .intro read decoded converted⟩

/-- The blocks that a file leaves open, outermost first; none if it does not convert. -/
def leftOpen (disk : Disk) (path : String) : List Block :=
  match load disk path with
  | .error _ => []
  | .ok template =>
      match template.toLiquid with
      | (.error _, _) => []
      | (.ok _, scopes) => scopes.toList

/-- Whether a file fails the check: it does not convert or, in strict mode, leaves a block open. -/
def rejects (strict : Bool) (disk : Disk) (path : String) : Bool :=
  match convertFile disk path with
  | .error _ => true
  | .ok _ => strict && !(leftOpen disk path).isEmpty

/-- The message of the warning about open blocks. -/
def openMessage (blocks : List Block) : String :=
  toString blocks.length ++ " block(s) left open: " ++ ", ".intercalate (blocks.map Block.name)

variable {disk : Disk} {path : String}

/-! ### One file -/

namespace Refused

variable {error : Error} {code : Code}

theorem convertFile_eq (refused : Refused disk path error code) :
    convertFile disk path = .error error := by
  cases refused with
  | unreadable unread => simp [convertFile, load, unread]
  | undecodable read undecoded => simp [convertFile, load, read, undecoded]
  | unconvertible read decoded unconverted =>
      simp [convertFile, load, read, decoded, unconverted]

/-- The one finding about a file that is refused has the code of the reason, and its message is
the cause of the error. -/
theorem exists_finding (refused : Refused disk path error code) :
    ∃ finding, (Report.ofFile disk path).findings = [finding] ∧ finding.severity = .error ∧
      finding.code = code ∧ error.cause? = some finding.message := by
  cases refused with
  | @unreadable fault unread =>
      refine ⟨.error .unreadableFile fault.message, ?_, rfl, rfl, rfl⟩
      simp only [Report.ofFile, findings, unread]
  | @undecodable text fault read undecoded =>
      refine ⟨.error .invalidDocument fault.message, ?_, rfl, rfl, rfl⟩
      simp only [Report.ofFile, findings, read, undecoded]
  | @unconvertible text template failure read decoded unconverted =>
      refine ⟨failure.toDiagnostic, ?_, rfl, rfl, rfl⟩
      have converted : template.toLiquid = (.error failure, template.toLiquid.2) := by
        rw [← unconverted]
      simp only [Report.ofFile, findings, read, decoded]
      rw [Template.findings, converted]

/-- A file is refused for a reason of the input or of the conversion. -/
theorem code_range (refused : Refused disk path error code) :
    code.isConversion = true ∨ code.isInput = true := by
  cases refused with
  | unreadable unread => exact .inr (by decide)
  | undecodable read undecoded => exact .inr (by decide)
  | @unconvertible text template failure read decoded unconverted =>
      left
      cases failure <;> rfl

end Refused

namespace Converted

variable {liquid : String} {scopes : Scopes}

theorem convertFile_eq (converted : Converted disk path liquid scopes) :
    convertFile disk path = .ok liquid := by
  obtain ⟨read, decoded, finished⟩ := converted
  simp [convertFile, load, read, decoded, finished]

theorem leftOpen_eq (converted : Converted disk path liquid scopes) :
    leftOpen disk path = scopes.toList := by
  obtain ⟨read, decoded, finished⟩ := converted
  simp [leftOpen, load, read, decoded, finished]

/-- A file that converts has no finding, or one warning of the blocks that it leaves open. -/
theorem findings_eq (converted : Converted disk path liquid scopes) :
    (Report.ofFile disk path).findings =
      if leftOpen disk path = [] then []
      else [.warning .unclosedScope (openMessage (leftOpen disk path))] := by
  rw [converted.leftOpen_eq]
  obtain ⟨read, decoded, finished⟩ := converted
  obtain ⟨blocks⟩ := scopes
  simp only [Report.ofFile, findings, read, decoded]
  rw [Template.findings, finished]
  simp [openBlocks, openMessage, Scopes.isEmpty, Scopes.toList, Scopes.depth]

end Converted

theorem rejects_eq_false_iff {strict : Bool} :
    rejects strict disk path = false ↔
      (∃ liquid, convertFile disk path = .ok liquid) ∧
        (strict = true → leftOpen disk path = []) := by
  cases converted : convertFile disk path with
  | error error => simp [rejects, converted]
  | ok liquid => cases strict <;> simp [rejects, converted]

/-- A file fails the check when it does not convert or, in strict mode, leaves a block open. -/
theorem failed_ofFile (strict : Bool) (disk : Disk) (path : String) :
    Report.failed strict (Report.ofFile disk path) = rejects strict disk path := by
  obtain ⟨error, code, refused⟩ | ⟨liquid, scopes, converted⟩ := refused_or_converted disk path
  · obtain ⟨finding, found, severe, -, -⟩ := refused.exists_finding
    have isError : finding.isError = true := by simp [Diagnostic.isError, severe]
    simp [Report.failed, Report.errors, found, isError, rejects, refused.convertFile_eq]
  · have found := converted.findings_eq
    by_cases closed : leftOpen disk path = []
    · rw [if_pos closed] at found
      simp [Report.failed, Report.errors, Report.warnings, found, rejects,
        converted.convertFile_eq, closed]
    · rw [if_neg closed] at found
      have warned : (Diagnostic.warning .unclosedScope
          (openMessage (leftOpen disk path))).isError = false := rfl
      simp [Report.failed, Report.errors, Report.warnings, found, warned, rejects,
        converted.convertFile_eq, closed]

/-! ### Lists of files -/

/-- Of a list that is not empty, the files that are rejected are counted. -/
theorem error?_check (threshold : Log.Threshold) (verbose : Bool) (disk : Disk)
    {paths : List String} (given : paths ≠ []) (strict : Bool) :
    (check threshold verbose disk paths strict).error? =
      if paths.countP (rejects strict disk) = 0 then none
      else some (.rejected (paths.countP (rejects strict disk)) paths.length) := by
  have counted : (paths.map (Report.ofFile disk)).countP (Report.failed strict) =
      paths.countP (rejects strict disk) := by
    rw [List.countP_map]
    apply List.countP_congr
    intro path _
    rw [Function.comp_apply, failed_ofFile]
  simp only [check, if_neg given, counted, List.length_map]
  split
  · rfl
  · rfl

theorem error?_check_eq_none_iff {threshold : Log.Threshold} {verbose : Bool} {disk : Disk}
    {paths : List String} {strict : Bool} :
    (check threshold verbose disk paths strict).error? = none ↔
      paths ≠ [] ∧ ∀ path ∈ paths, rejects strict disk path = false := by
  by_cases given : paths = []
  · simp [check, given]
  · rw [error?_check threshold verbose disk given strict]
    simp [given, List.countP_eq_zero]

/-- Checking a file and converting it agree. There is at most one finding: an error exactly when
the file does not convert, with the code of the reason and the message that follows the context in
the error of the conversion, or a warning exactly when the file converts and leaves blocks open. A
list of files passes if it is not empty and all its files do, and otherwise those that do not are
counted. -/
theorem check_agrees_with_convert :
    (∀ (disk : Disk) (path : String),
      (Report.ofFile disk path).findings.length ≤ 1 ∧
      ((∃ finding ∈ (Report.ofFile disk path).findings, finding.severity = .error) ↔
        ∃ error, convertFile disk path = .error error) ∧
      (∀ error, convertFile disk path = .error error →
        ∃ finding, (Report.ofFile disk path).findings = [finding] ∧ finding.severity = .error ∧
          Refused disk path error finding.code ∧ error.cause? = some finding.message ∧
          error.message = error.context ++ ": " ++ finding.message) ∧
      ((∃ finding ∈ (Report.ofFile disk path).findings, finding.severity = .warning) ↔
        (∃ liquid, convertFile disk path = .ok liquid) ∧ leftOpen disk path ≠ []) ∧
      (∀ finding ∈ (Report.ofFile disk path).findings, finding.severity = .warning →
        finding.code = .unclosedScope ∧ finding.message = openMessage (leftOpen disk path)) ∧
      (∀ finding ∈ (Report.ofFile disk path).findings,
        (finding.severity = .error →
          finding.code.isConversion = true ∨ finding.code.isInput = true) ∧
        (finding.severity = .warning → finding.code.isLint = true))) ∧
    (Code.unreadableFile.shown = "SKL0101" ∧ Code.invalidDocument.shown = "SKL0100" ∧
      Code.unclosedScope.shown = "SKL0200") ∧
    ∀ (threshold : Log.Threshold) (verbose : Bool) (disk : Disk) (paths : List String)
      (strict : Bool),
      ((check threshold verbose disk paths strict).error? = none ↔
        paths ≠ [] ∧ ∀ path ∈ paths, (∃ liquid, convertFile disk path = .ok liquid) ∧
          (strict = true → leftOpen disk path = [])) ∧
      (paths ≠ [] → (check threshold verbose disk paths strict).error? ≠ none →
        ∃ error, (check threshold verbose disk paths strict).error? = some error ∧
          error.message = toString (paths.countP (rejects strict disk)) ++ " of " ++
            toString paths.length ++ " file(s) failed to convert") := by
  refine ⟨?_, by decide +kernel, ?_⟩
  · intro disk path
    obtain ⟨error, code, refused⟩ | ⟨liquid, scopes, converted⟩ := refused_or_converted disk path
    · obtain ⟨finding, found, severe, rfl, cause⟩ := refused.exists_finding
      have shown : error.message = error.context ++ ": " ++ finding.message := by
        rw [Error.message, cause]
      simp only [found, refused.convertFile_eq, List.length_singleton, List.mem_singleton]
      refine ⟨Nat.le_refl 1, ?_, ?_, ?_, ?_, ?_⟩
      · simp [severe]
      · rintro _ ⟨⟩
        exact ⟨finding, rfl, severe, refused, cause, shown⟩
      · simp [severe]
      · simp [severe]
      · simpa [severe] using refused.code_range
    · have found := converted.findings_eq
      by_cases closed : leftOpen disk path = []
      · rw [if_pos closed] at found
        simp [found, converted.convertFile_eq, closed]
      · rw [if_neg closed] at found
        have lint : Code.unclosedScope.isLint = true := by decide
        simp [found, converted.convertFile_eq, closed, Diagnostic.warning, Diagnostic.ofCode, lint]
  · intro threshold verbose disk paths strict
    constructor
    · simp only [error?_check_eq_none_iff, rejects_eq_false_iff]
    · intro given failed
      rw [error?_check threshold verbose disk given strict] at failed ⊢
      split at failed
      · exact absurd rfl failed
      · rename_i counted
        rw [if_neg counted]
        exact ⟨_, rfl, rfl⟩

/-- A file that leaves a block open, and one that closes a block too many. -/
def unevenFiles : Disk :=
  .ofFiles
    [("open", (Template.mk [.call "unless" (.one (.reference "a"))]).encode.toUTF8),
     ("over", (Template.mk [.ending]).encode.toUTF8)]

/-- A file that is given twice is counted twice. -/
theorem check_agrees_with_convert_uneven_files :
    convertFile unevenFiles "over" = .error (.unconvertible "over" .unbalanced) ∧
      (∃ finding, (Report.ofFile unevenFiles "over").findings = [finding] ∧
        finding.code = .unbalancedScope ∧ finding.message = "`end` without an open block") ∧
      (∃ finding ∈ (Report.ofFile unevenFiles "open").findings, finding.severity = .warning) ∧
      ∃ error, (check none false unevenFiles ["open", "over", "absent", "over"] false).error? =
          some error ∧
        error.message = "3 of 4 file(s) failed to convert" := by
  have encoded : ∀ template : Template, Json.nesting template.encode ≤ Json.maxDepth →
      Template.decode template.encode = .ok template := by
    intro template fits
    rw [Template.decode_encode, if_pos fits]
  have leaves : ∃ liquid, Converted unevenFiles "open" liquid ⟨[.negatedConditional]⟩ :=
    ⟨_, .intro rfl (encoded _ (by decide +kernel)) (Template.toLiquid_of_ok rfl)⟩
  have surplus : Refused unevenFiles "over" (.unconvertible "over" .unbalanced) .unbalancedScope :=
    .unconvertible rfl (encoded _ (by decide +kernel)) rfl
  have absent : Refused unevenFiles "absent" (.unreadable "absent" .notFound) .unreadableFile :=
    .unreadable rfl
  obtain ⟨liquid, converted⟩ := leaves
  have counted : ["open", "over", "absent", "over"].countP (rejects false unevenFiles) = 3 := by
    simp [rejects, converted.convertFile_eq, surplus.convertFile_eq, absent.convertFile_eq]
  refine ⟨surplus.convertFile_eq, ?_, ?_, ?_⟩
  · obtain ⟨finding, found, -, refused, cause, -⟩ :=
      (check_agrees_with_convert.1 unevenFiles "over").2.2.1 _ surplus.convertFile_eq
    refine ⟨finding, found, ?_, (Option.some.inj cause).symm⟩
    generalize finding.code = code at refused ⊢
    cases refused
    rfl
  · apply (check_agrees_with_convert.1 unevenFiles "open").2.2.2.1.2
    refine ⟨⟨liquid, converted.convertFile_eq⟩, ?_⟩
    rw [converted.leftOpen_eq]
    decide
  · obtain ⟨passed, counts⟩ := check_agrees_with_convert.2.2 none false unevenFiles
      ["open", "over", "absent", "over"] false
    have failed : (check none false unevenFiles ["open", "over", "absent", "over"] false).error? ≠
        none := by
      intro clean
      obtain ⟨text, ok⟩ := ((passed.1 clean).2 "over" (by simp)).1
      rw [surplus.convertFile_eq] at ok
      cases ok
    obtain ⟨error, shown, message⟩ := counts (by simp) failed
    refine ⟨error, shown, ?_⟩
    rw [message, counted]
    decide

end Liquefy.Command
