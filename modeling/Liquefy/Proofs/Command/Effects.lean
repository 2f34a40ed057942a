import Liquefy.Command.Run
import Liquefy.Proofs.Command.Verdicts
import Liquefy.Proofs.Disk.Writing
import Liquefy.Proofs.Idiom.FixedPoints

/-!
# What a run leaves behind

A conversion ends in one of four ways, which `Leaves` lists: the file is refused, its text is
printed, it is written, or it cannot be written. Only the third touches a file, and only the second
prints; whatever else is said goes to the other output. A run is all or nothing because each way
is, under every setting of colours and log.
-/

namespace Liquefy

@[simp]
theorem Styled.render_nil (colours : Bool) : Styled.render colours [] = "" := rfl

@[simp]
theorem Styled.render_plain (colours : Bool) (text : String) :
    (Styled.plain text).render colours = text := by
  simp [Styled.plain, Styled.render, Span.render]

namespace Command

/-! ### The ends of a run -/

namespace Outcome

variable (colours : Bool) (outcome : Outcome)

@[simp]
theorem stdout_result : (outcome.result colours).stdout = outcome.stdout.render colours := by
  unfold result
  cases outcome.error? with
  | none => rfl
  | some error => rfl

@[simp]
theorem disk_result : (outcome.result colours).disk = outcome.disk := by
  unfold result
  cases outcome.error? with
  | none => rfl
  | some error => rfl

theorem exit_result_eq_zero_iff : (outcome.result colours).exit = 0 ↔ outcome.error? = none := by
  unfold result
  cases outcome.error? with
  | none => simp
  | some error => simp

end Outcome

theorem run_of_parse {words : List String} {invocation : Invocation}
    (understood : parse words = .ok invocation) (setting : Option String) (disk : Disk) :
    run words setting disk =
      (perform invocation setting disk).result (wantsColors invocation.color) := by
  unfold run
  rw [understood]

/-! ### The ends of a command -/

theorem Refused.not_converted {disk : Disk} {path : String} {error : Error} {code : Code}
    (refused : Refused disk path error code) :
    ¬ ∃ liquid scopes, Converted disk path liquid scopes := by
  rintro ⟨liquid, scopes, converted⟩
  have both := refused.convertFile_eq.symm.trans converted.convertFile_eq
  cases both

/-- What a conversion can leave behind, by what becomes of its file. -/
inductive Leaves (disk : Disk) (path : String) : Option String → Outcome → Prop
  | refused {output : Option String} {outcome : Outcome} {error : Error} {code : Code}
      (reason : Refused disk path error code) (failed : outcome.error? = some error)
      (silent : outcome.stdout = []) (kept : outcome.disk = disk) : Leaves disk path output outcome
  | printed {outcome : Outcome} {liquid : String} {scopes : Scopes}
      (converted : Converted disk path liquid scopes) (done : outcome.error? = none)
      (shown : outcome.stdout = .plain liquid) (kept : outcome.disk = disk) :
      Leaves disk path none outcome
  | uncreatable {outcome : Outcome} {target : String} {fault : FileFault}
      (unwritten : disk.locateNew target = .error fault)
      (failed : outcome.error? = some (.uncreatable target fault)) (silent : outcome.stdout = [])
      (kept : outcome.disk = disk) : Leaves disk path (some target) outcome
  | written {outcome : Outcome} {target liquid : String} {scopes : Scopes}
      (converted : Converted disk path liquid scopes) (done : outcome.error? = none)
      (silent : outcome.stdout = [])
      (rewritten : disk.Rewritten target liquid outcome.disk) :
      Leaves disk path (some target) outcome

theorem convert_leaves (threshold : Log.Threshold) (disk : Disk) (path : String)
    (output : Option String) :
    Leaves disk path output (convert threshold disk path output) := by
  obtain ⟨error, code, refused⟩ | ⟨liquid, scopes, converted⟩ := refused_or_converted disk path
  · simp only [convert, refused.convertFile_eq]
    exact .refused refused rfl rfl rfl
  · simp only [convert, converted.convertFile_eq]
    cases output with
    | none => exact .printed converted rfl rfl rfl
    | some target =>
        simp only [Disk.writeText]
        cases leads : disk.locateNew target with
        | error fault => exact .uncreatable leads rfl rfl rfl
        | ok route => exact .written converted rfl rfl (Disk.rewritten_put leads liquid)

namespace Leaves

variable {disk : Disk} {path : String} {output : Option String} {outcome : Outcome}

theorem of_failed (leaves : Leaves disk path output outcome) (failed : outcome.error? ≠ none) :
    outcome.stdout = [] ∧ outcome.disk = disk := by
  cases leaves with
  | refused _ _ silent kept => exact ⟨silent, kept⟩
  | printed _ done => exact absurd done failed
  | uncreatable _ _ silent kept => exact ⟨silent, kept⟩
  | written _ done => exact absurd done failed

theorem of_done (leaves : Leaves disk path output outcome) (done : outcome.error? = none) :
    ∃ liquid scopes, Converted disk path liquid scopes ∧
      (output = none ∧ outcome.stdout = .plain liquid ∧ outcome.disk = disk ∨
        ∃ target, output = some target ∧ outcome.stdout = [] ∧
          disk.Rewritten target liquid outcome.disk) := by
  cases leaves with
  | refused _ failed => simp [failed] at done
  | printed converted _ shown kept => exact ⟨_, _, converted, .inl ⟨rfl, shown, kept⟩⟩
  | uncreatable _ failed => simp [failed] at done
  | written converted _ silent rewritten =>
      exact ⟨_, _, converted, .inr ⟨_, rfl, silent, rewritten⟩⟩

/-- A conversion succeeds if its file converts and there is a place for the output. -/
theorem done_iff (leaves : Leaves disk path output outcome) :
    outcome.error? = none ↔
      (∃ liquid scopes, Converted disk path liquid scopes) ∧
        ∀ target, output = some target → ∃ route, disk.locateNew target = .ok route := by
  cases leaves with
  | refused reason failed =>
      simp [failed, reason.not_converted]
  | printed converted done =>
      simp only [done, true_iff]
      exact ⟨⟨_, _, converted⟩, by simp⟩
  | @uncreatable _ target fault unwritten failed => simp [failed, unwritten]
  | @written _ target liquid scopes converted done _ rewritten =>
      obtain ⟨route, leads, -⟩ := rewritten.files
      simp only [done, true_iff]
      refine ⟨⟨_, _, converted⟩, ?_⟩
      rintro _ ⟨⟩
      exact ⟨route, leads⟩

end Leaves

/-- Checking changes no file. -/
theorem disk_check (threshold : Log.Threshold) (verbose : Bool) (disk : Disk)
    (paths : List String) (strict : Bool) :
    (check threshold verbose disk paths strict).disk = disk := by
  unfold check
  by_cases none : paths = []
  · rw [if_pos none]
  · rw [if_neg none]
    simp only
    split
    · rfl
    · rfl

/-! ### All or nothing -/

/-- A conversion that fails prints nothing and changes no file. One that succeeds has converted
its file, and either prints the text and changes no file or puts the text into the output file,
changes no other and prints nothing; it succeeds whenever the file converts and the output has a
place. Colours and log play no part. A check changes no file. -/
theorem runs_are_all_or_nothing (words : List String) (setting : Option String)
    (disk : Disk) (invocation : Invocation) (understood : parse words = .ok invocation)
    (result : Result) (ran : run words setting disk = result) :
    (∀ (file : String) (output : Option String), invocation.task = .convert file output →
      (result.exit ≠ 0 → result.stdout = "" ∧ result.disk = disk) ∧
      (result.exit = 0 → ∃ liquid scopes, Converted disk file liquid scopes ∧
        (output = none ∧ result.stdout = liquid ∧ result.disk = disk ∨
          ∃ target, output = some target ∧ result.stdout = "" ∧
            disk.Rewritten target liquid result.disk)) ∧
      (result.exit = 0 ↔ (∃ liquid scopes, Converted disk file liquid scopes) ∧
        ∀ target, output = some target → ∃ route, disk.locateNew target = .ok route)) ∧
    ∀ (files : List String) (strict : Bool), invocation.task = .check files strict →
      result.disk = disk := by
  rw [run_of_parse understood] at ran
  subst ran
  constructor
  · intro file output task
    have leaves : Leaves disk file output (perform invocation setting disk) := by
      simp only [perform, task]
      exact convert_leaves _ disk file output
    simp only [ne_eq, Outcome.exit_result_eq_zero_iff, Outcome.stdout_result, Outcome.disk_result]
    refine ⟨?_, ?_, leaves.done_iff⟩
    · intro failed
      obtain ⟨silent, kept⟩ := leaves.of_failed failed
      rw [silent, Styled.render_nil]
      exact ⟨rfl, kept⟩
    · intro done
      obtain ⟨liquid, scopes, converted, ⟨asked, shown, kept⟩ | ⟨target, asked, silent, rewritten⟩⟩ :=
        leaves.of_done done
      · refine ⟨liquid, scopes, converted, .inl ⟨asked, ?_, kept⟩⟩
        rw [shown, Styled.render_plain]
      · refine ⟨liquid, scopes, converted, .inr ⟨target, asked, ?_, rewritten⟩⟩
        rw [silent, Styled.render_nil]
  · intro files strict task
    rw [Outcome.disk_result]
    simp only [perform, task]
    exact disk_check _ invocation.verbose disk files strict

/-- A document that leaves a block open. -/
def openPage : Template := ⟨[.text "a", .call "if" (.one (.reference "b"))]⟩

/-- A disk with one document. -/
def onePage : Disk := .ofFiles [("page", openPage.encode.toUTF8)]

theorem onePage_converted : ∃ scopes, Converted onePage "page" "a\x7b% if b %\x7d" scopes := by
  have decoded : Template.decode openPage.encode = .ok openPage :=
    Template.decode_encode_of_depth_le (by decide)
  have unchanged : Idiom.replaceAll "a\x7b% if b %\x7d" = "a\x7b% if b %\x7d" := by
    apply Idiom.replaceAll_eq_self_iff.2
    simp only [Idiom.all, List.forall_mem_cons]
    decide +kernel
  have joined : convertAll openPage.segments .empty =
      (.ok "a\x7b% if b %\x7d", ⟨[.conditional]⟩) := rfl
  have finished := Template.toLiquid_of_ok joined
  rw [unchanged] at finished
  exact ⟨⟨[.conditional]⟩, .intro (Disk.readText_of_locate rfl rfl) decoded finished⟩

/-- A document that is converted onto itself with everything logged, and one that is not there. -/
theorem runs_are_all_or_nothing_onto_their_input :
    ((run ["-v", "convert", "page", "-o", "page", "--color=always"] (some "trace") onePage).exit =
        0 ∧
      (run ["-v", "convert", "page", "-o", "page", "--color=always"] (some "trace")
        onePage).stdout = "" ∧
      (run ["-v", "convert", "page", "-o", "page", "--color=always"] (some "trace")
        onePage).disk.readText "page" = .ok "a\x7b% if b %\x7d") ∧
    (run ["convert", "absent", "-o", "page"] none onePage).exit ≠ 0 ∧
    (run ["convert", "absent", "-o", "page"] none onePage).disk = onePage := by
  constructor
  · obtain ⟨scopes, page⟩ := onePage_converted
    obtain ⟨-, succeeds, exits⟩ := (runs_are_all_or_nothing
      ["-v", "convert", "page", "-o", "page", "--color=always"] (some "trace") onePage
      ⟨true, "always", .convert "page" (some "page")⟩ rfl _ rfl).1 "page" (some "page") rfl
    have done := exits.2 ⟨⟨_, scopes, page⟩, by
      rintro _ ⟨⟩
      exact ⟨["page"], rfl⟩⟩
    obtain ⟨liquid, scopes', converted, ⟨asked, -, -⟩ | ⟨target, asked, silent, rewritten⟩⟩ :=
      succeeds done
    · cases asked
    · cases asked
      have same := page.convertFile_eq.symm.trans converted.convertFile_eq
      rw [← Except.ok.inj same] at rewritten
      exact ⟨done, silent, rewritten.holds⟩
  · obtain ⟨fails, -, exits⟩ := (runs_are_all_or_nothing
      ["convert", "absent", "-o", "page"] none onePage
      ⟨false, "auto", .convert "absent" (some "page")⟩ rfl _ rfl).1 "absent" (some "page") rfl
    have absent : Refused onePage "absent" (.unreadable "absent" .notFound) .unreadableFile :=
      .unreadable rfl
    have failed : (run ["convert", "absent", "-o", "page"] none onePage).exit ≠ 0 := by
      intro done
      exact absent.not_converted (exits.1 done).1
    exact ⟨failed, (fails failed).2⟩

end Command

end Liquefy
