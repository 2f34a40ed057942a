import Liquefy.Proofs.Command.Effects
import Liquefy.Proofs.Command.Recoloring

/-!
# Colours are nothing but escape sequences

`stripEscapes` takes the escape sequences out of a text. Of a styled text with colours it leaves the
text without colours, if this has no escape character of its own. What a command does and says does
not depend on the colours, so two runs that differ in them differ in the sequences alone.
-/

namespace Liquefy

/-! ### Escape sequences -/

/-- The characters without those of escape sequences. A sequence goes from an escape character and
the bracket after it to the next `m`. -/
def withoutEscapes : List Char → List Char
  | [] => []
  | c :: cs =>
      if c = '\x1b' ∧ cs.head? = some '[' ∧ 'm' ∈ cs then
        withoutEscapes (cs.dropWhile (· ≠ 'm')).tail
      else c :: withoutEscapes cs
  termination_by cs => cs.length
  decreasing_by
    · have shorter := (List.dropWhile_suffix (l := cs) (· ≠ 'm')).length_le
      simp only [List.length_tail, List.length_cons]
      omega
    · simp

/-- The text without its escape sequences. -/
def stripEscapes (text : String) : String := String.ofList (withoutEscapes text.toList)

theorem withoutEscapes_append {cs : List Char} (clean : '\x1b' ∉ cs) (rest : List Char) :
    withoutEscapes (cs ++ rest) = cs ++ withoutEscapes rest := by
  induction cs with
  | nil => rfl
  | cons c cs ih =>
      obtain ⟨other, clean⟩ : c ≠ '\x1b' ∧ '\x1b' ∉ cs := by
        simpa [eq_comm] using clean
      rw [List.cons_append, withoutEscapes, if_neg (fun escape => other escape.1), ih clean,
        List.cons_append]

theorem withoutEscapes_sequence {codes : List Char} (inside : 'm' ∉ codes) (rest : List Char) :
    withoutEscapes ('\x1b' :: '[' :: (codes ++ 'm' :: rest)) = withoutEscapes rest := by
  have ends : ('[' :: (codes ++ 'm' :: rest)).dropWhile (· ≠ 'm') = 'm' :: rest := by
    have passed : ∀ c ∈ '[' :: codes, decide (c ≠ 'm') = true := by
      intro c member
      have other : c ≠ 'm' := by
        rintro rfl
        exact inside (by simpa using member)
      exact decide_eq_true other
    rw [← List.cons_append, List.dropWhile_append_of_pos passed]
    simp
  rw [withoutEscapes, if_pos ⟨rfl, rfl, by simp⟩, ends]
  rfl

theorem stripEscapes_of_clean {text : String} (clean : '\x1b' ∉ text.toList) :
    stripEscapes text = text := by
  have same := withoutEscapes_append clean []
  rw [List.append_nil, withoutEscapes, List.append_nil] at same
  rw [stripEscapes, same, String.ofList_toList]

/-! ### Styled text -/

theorem Style.codes_clean (style : Style) : 'm' ∉ style.codes.toList := by
  obtain ⟨bold, color⟩ := style
  cases bold <;> cases color <;> decide

theorem Span.render_false (span : Span) : span.render false = span.text := by
  unfold render
  cases span.style with
  | none => rfl
  | some style => rfl

theorem Span.withoutEscapes_render {span : Span} (clean : '\x1b' ∉ span.text.toList)
    (rest : List Char) :
    withoutEscapes ((span.render true).toList ++ rest) = span.text.toList ++ withoutEscapes rest := by
  unfold render
  cases span.style with
  | none => exact withoutEscapes_append clean rest
  | some style =>
      have shown : ("\x1b[" ++ style.codes ++ "m" ++ span.text ++ "\x1b[0m").toList ++ rest =
          '\x1b' :: '[' :: (style.codes.toList ++
            'm' :: (span.text.toList ++ '\x1b' :: '[' :: (['0'] ++ 'm' :: rest))) := by
        simp
      simp only [if_true, shown]
      rw [withoutEscapes_sequence style.codes_clean, withoutEscapes_append clean,
        withoutEscapes_sequence (by decide)]

namespace Styled

theorem render_cons (colours : Bool) (span : Span) (styled : Styled) :
    Styled.render colours (span :: styled) = span.render colours ++ styled.render colours := by
  simp [render]

theorem withoutEscapes_render {styled : Styled} (clean : '\x1b' ∉ (styled.render false).toList) :
    withoutEscapes (styled.render true).toList = (styled.render false).toList := by
  induction styled with
  | nil => simp [withoutEscapes]
  | cons span styled ih =>
      rw [render_cons, String.toList_append, Span.render_false, List.mem_append, not_or] at clean
      rw [render_cons, render_cons, String.toList_append, String.toList_append,
        Span.withoutEscapes_render clean.1, Span.render_false, ih clean.2]

theorem stripEscapes_render {styled : Styled} (clean : '\x1b' ∉ (styled.render false).toList) :
    stripEscapes (styled.render true) = styled.render false := by
  rw [stripEscapes, withoutEscapes_render clean, String.ofList_toList]

end Styled

/-! ### Runs -/

namespace Command

/-- The two results differ in escape sequences alone. -/
structure Result.Strips (colored bare : Result) : Prop where
  exit_eq : colored.exit = bare.exit
  disk_eq : colored.disk = bare.disk
  stdout_eq : stripEscapes colored.stdout = bare.stdout
  stderr_eq : stripEscapes colored.stderr = bare.stderr

theorem Result.Strips.refl {result : Result} (quiet : '\x1b' ∉ result.stdout.toList)
    (quiet' : '\x1b' ∉ result.stderr.toList) : result.Strips result :=
  ⟨rfl, rfl, stripEscapes_of_clean quiet, stripEscapes_of_clean quiet'⟩

theorem Outcome.result_strips {outcome : Outcome}
    (quiet : '\x1b' ∉ (outcome.result false).stdout.toList)
    (quiet' : '\x1b' ∉ (outcome.result false).stderr.toList) :
    (outcome.result true).Strips (outcome.result false) := by
  unfold result at quiet quiet' ⊢
  cases failed : outcome.error? with
  | none =>
      simp only [failed] at quiet quiet' ⊢
      exact ⟨rfl, rfl, Styled.stripEscapes_render quiet, Styled.stripEscapes_render quiet'⟩
  | some error =>
      simp only [failed] at quiet quiet' ⊢
      exact ⟨rfl, rfl, Styled.stripEscapes_render quiet, Styled.stripEscapes_render quiet'⟩

/-- The colour plays no part in what a command does. -/
theorem Invocation.Recolored.perform_eq {color color' : String} {invocation invocation' : Invocation}
    (same : invocation.Recolored color color' invocation') (setting : Option String) (disk : Disk) :
    perform invocation' setting disk = perform invocation setting disk := by
  simp only [perform, same.verbose_eq, same.task_eq]

/-- If a command line is understood and the run without colours prints no escape character, then the
run with colours ends with the same code and the same files, and what it prints is the same up to
escape sequences. The option stands anywhere before the names that are set off by dashes. -/
theorem colors_add_only_escapes (before after : List String) (joined : Bool)
    (setting : Option String) (disk : Disk) (invocation : Invocation) (options : "--" ∉ before)
    (understood : parse (before ++ (colorOption joined "never" ++ after)) = .ok invocation)
    (bare colored : Result)
    (ran : run (before ++ (colorOption joined "never" ++ after)) setting disk = bare)
    (ran' : run (before ++ (colorOption joined "always" ++ after)) setting disk = colored)
    (quiet : '\x1b' ∉ bare.stdout.toList) (quiet' : '\x1b' ∉ bare.stderr.toList) :
    colored.exit = bare.exit ∧ colored.disk = bare.disk ∧
      stripEscapes colored.stdout = bare.stdout ∧ stripEscapes colored.stderr = bare.stderr := by
  suffices strips : colored.Strips bare from
    ⟨strips.exit_eq, strips.disk_eq, strips.stdout_eq, strips.stderr_eq⟩
  have another : ∃ invocation',
      parse (before ++ (colorOption joined "always" ++ after)) = .ok invocation' ∧
        invocation.Recolored "never" "always" invocation' :=
    parse_another_color rfl rfl options understood
  obtain ⟨invocation', understood', same⟩ := another
  rw [run_of_parse understood] at ran
  rw [run_of_parse understood', same.perform_eq] at ran'
  subst ran ran'
  obtain kept | ⟨never, always⟩ := same.color_eq
  · rw [kept]
    exact .refl quiet quiet'
  · have words : wantsColors "never" = false ∧ wantsColors "always" = true := by decide +kernel
    rw [never, words.1] at quiet quiet' ⊢
    rw [always, words.2]
    exact Outcome.result_strips quiet quiet'

/-- A document with a partial that has no name. -/
def unnamedPartial : Template := ⟨[.call "partial" .none]⟩

/-- A disk with this document as its only file. -/
def faultyPage : Disk := .ofFiles [("page", unnamedPartial.encode.toUTF8)]

/-- The finding about it. -/
def unnamedFinding : Diagnostic :=
  (Segment.failure (.call "partial" .none) .inclusion .partialName).toDiagnostic

/-- What the check of the document comes to if everything is logged. -/
def faultyOutcome : Outcome where
  error? := some (.rejected 1 1)
  stdout := reportLines ⟨"page", [unnamedFinding]⟩ ++ Styled.plain "\n"
  stderr := Styled.plain (Log.lines (some .trace) [visitEntry (.call "partial" .none)])
  disk := faultyPage

theorem run_check_faultyPage {color : String}
    (understood : parse ["check", "page", "--color", color] =
      .ok ⟨false, color, .check ["page"] false⟩) :
    run ["check", "page", "--color", color] (some "trace") faultyPage =
      faultyOutcome.result (wantsColors color) := by
  have read : faultyPage.readText "page" = .ok unnamedPartial.encode :=
    Disk.readText_of_locate rfl rfl
  have decoded : Template.decode unnamedPartial.encode = .ok unnamedPartial :=
    Template.decode_encode_of_depth_le (by decide)
  have found : findings (faultyPage.readText "page") = [unnamedFinding] := by
    simp only [findings, read, decoded]
    rfl
  have logged : checkLog faultyPage "page" = [visitEntry (.call "partial" .none)] := by
    simp only [checkLog, read, decoded]
    rfl
  have level : threshold (some "trace") false = some .trace := by decide +kernel
  rw [run_of_parse understood]
  simp only [perform, check, level, progress, Report.ofFile, found, logged, List.map,
    List.flatMap_cons, List.flatMap_nil]
  rfl

/-- The check of a document that is refused, with the option behind its name and everything
logged. -/
theorem colors_add_only_escapes_to_diagnostic :
    (run ["check", "page", "--color", "always"] (some "trace") faultyPage).stdout =
        "\x1b[31m✗\x1b[0m page\n" ++ "  \x1b[1;31merror[SKL0002]\x1b[0m: "
          ++ "Malformed partial segment: expected one string literal\n"
          ++ "  \x1b[1;34m-->\x1b[0m \x7b\"call\":\x7b\"name\":\"partial\"\x7d\x7d\n"
          ++ "  \x1b[36mhelp:\x1b[0m The segment was recognised "
          ++ "but its arguments do not have the expected form\n\n" ∧
      stripEscapes (run ["check", "page", "--color", "always"] (some "trace") faultyPage).stdout =
        "✗ page\n" ++ "  error[SKL0002]: "
          ++ "Malformed partial segment: expected one string literal\n"
          ++ "  --> \x7b\"call\":\x7b\"name\":\"partial\"\x7d\x7d\n"
          ++ "  help: The segment was recognised "
          ++ "but its arguments do not have the expected form\n\n" ∧
      stripEscapes (run ["check", "page", "--color", "always"] (some "trace") faultyPage).stderr =
        "[TRACE sktl_liquid_convert::converter] " ++ "converting call segment as partial\n"
          ++ "Error: 1 of 1 file(s) failed to convert\n" := by
  have words : wantsColors "never" = false ∧ wantsColors "always" = true := by decide +kernel
  have bare : run ["check", "page", "--color", "never"] (some "trace") faultyPage =
      faultyOutcome.result false := by
    rw [run_check_faultyPage rfl, words.1]
  have colored : run ["check", "page", "--color", "always"] (some "trace") faultyPage =
      faultyOutcome.result true := by
    rw [run_check_faultyPage rfl, words.2]
  have listed : (faultyOutcome.result false).stdout =
      "✗ page\n" ++ "  error[SKL0002]: "
        ++ "Malformed partial segment: expected one string literal\n"
        ++ "  --> \x7b\"call\":\x7b\"name\":\"partial\"\x7d\x7d\n"
        ++ "  help: The segment was recognised "
        ++ "but its arguments do not have the expected form\n\n" := by
    decide +kernel
  have said : (faultyOutcome.result false).stderr =
      "[TRACE sktl_liquid_convert::converter] " ++ "converting call segment as partial\n"
        ++ "Error: 1 of 1 file(s) failed to convert\n" := by
    decide +kernel
  have quiet : '\x1b' ∉ (faultyOutcome.result false).stdout.toList := by
    simp only [listed, String.toList_append, List.mem_append, not_or]
    decide +kernel
  have quiet' : '\x1b' ∉ (faultyOutcome.result false).stderr.toList := by
    simp only [said, String.toList_append, List.mem_append, not_or]
    decide +kernel
  obtain ⟨-, -, stdout, stderr⟩ := colors_add_only_escapes ["check", "page"] [] false
    (some "trace") faultyPage ⟨false, "never", .check ["page"] false⟩ (by decide) rfl _ _ bare
    colored quiet quiet'
  rw [colored]
  exact ⟨by decide +kernel, stdout.trans listed, stderr.trans said⟩

end Command

end Liquefy
