import Liquefy.Command.Line

/-!
# Another word for the colours

Where a command line is understood, it is understood as well with another value of `--color`, and
nothing but the colour comes out differently. `Reads` says what the words of a stretch can be. Up to
the option both lines are read alike, and from there on what has been given differs in the colour
alone, which no later word depends on.
-/

namespace Liquefy.Command

/-! ### The words of a stretch -/

/-- What an option comes to, from its first dash on. -/
def readOption (stretch : Stretch) (given : Given) (word : String) : Except Stop Reading :=
  match word.toList with
  | '-' :: c :: cs =>
      if c = '-' then readLong stretch given cs else readLetters stretch given (c :: cs)
  | _ => .error .usage

/-- The words that a stretch can have, with what they give and what is left of the line. -/
inductive Reads (stretch : Stretch) :
    Given → List String → Given → Option (String × List String) → Prop
  | done {given : Given} : Reads stretch given [] given none
  | names {given given' : Given} {words : List String}
      (added : addNames stretch given words = .ok given') :
      Reads stretch given ("--" :: words) given' none
  | option {given middle given' : Given} {word : String} {words : List String}
      {rest : Option (String × List String)} (dash : isValue word = false) (other : word ≠ "--")
      (read : readOption stretch given word = .ok (.taken middle))
      (later : Reads stretch middle words given' rest) :
      Reads stretch given (word :: words) given' rest
  | valued {given before middle given' : Given} {switch : Switch} {word value : String}
      {words : List String} {rest : Option (String × List String)} (dash : isValue word = false)
      (other : word ≠ "--") (read : readOption stretch given word = .ok (.awaits before switch))
      (plain : isValue value = true) (assigned : before.assign switch value = .ok middle)
      (later : Reads stretch middle words given' rest) :
      Reads stretch given (word :: value :: words) given' rest
  | command {given : Given} {word : String} {words : List String} (first : stretch = .program)
      (plain : isValue word = true) :
      Reads stretch given (word :: words) given (some (word, words))
  | name {given middle given' : Given} {word : String} {words : List String}
      {rest : Option (String × List String)} (inside : stretch ≠ .program)
      (plain : isValue word = true) (added : given.addName stretch word = .ok middle)
      (later : Reads stretch middle words given' rest) :
      Reads stretch given (word :: words) given' rest

section Words

variable {stretch : Stretch} {given : Given} {word : String} {words : List String}

theorem isValue_eq_false_iff : isValue word = false ↔ ∃ c cs, word.toList = '-' :: c :: cs := by
  rw [isValue]
  split
  · rename_i c cs dash
    simp [dash]
  · rename_i other
    simp only [Bool.true_eq_false, false_iff]
    rintro ⟨c, cs, dash⟩
    exact other c cs dash

theorem isValue_of_forall_ne (other : ∀ c cs, word.toList = '-' :: c :: cs → False) :
    isValue word = true := by
  rw [isValue]
  split
  · rename_i c cs dash
    exact (other c cs dash).elim
  · rfl

theorem eq_dashes_iff : word = "--" ↔ word.toList = ['-', '-'] := by
  rw [← String.toList_inj]
  rfl

theorem readOption_eq {c : Char} {cs : List Char} (dash : word.toList = '-' :: c :: cs) :
    readOption stretch given word =
      if c = '-' then readLong stretch given cs else readLetters stretch given (c :: cs) := by
  rw [readOption, dash]
  rfl

theorem readWords_of_option (dash : isValue word = false) (other : word ≠ "--") :
    readWords stretch given (word :: words) =
      match readOption stretch given word with
      | .error stop => .error stop
      | .ok (.taken given') => readWords stretch given' words
      | .ok (.awaits given' switch) =>
          match words with
          | [] => .error .usage
          | value :: words' =>
              if isValue value then
                match given'.assign switch value with
                | .error stop => .error stop
                | .ok given'' => readWords stretch given'' words'
              else .error .usage := by
  obtain ⟨c, cs, dash⟩ := isValue_eq_false_iff.1 dash
  rw [readWords, readOption_eq dash]
  split
  · rename_i dashes
    exact absurd (eq_dashes_iff.2 dashes) other
  · rename_i c' cs' _ dash'
    rw [dash] at dash'
    cases dash'
    rfl
  · rename_i plain
    exact (plain c cs dash).elim

theorem readWords_of_value (plain : isValue word = true) :
    readWords stretch given (word :: words) =
      if stretch = .program then .ok (given, some (word, words))
      else
        match given.addName stretch word with
        | .error stop => .error stop
        | .ok given' => readWords stretch given' words := by
  have other {c : Char} {cs : List Char} (dash : word.toList = '-' :: c :: cs) : False := by
    simp [isValue_eq_false_iff.2 ⟨c, cs, dash⟩] at plain
  rw [readWords]
  split
  · rename_i dashes
    exact (other dashes).elim
  · rename_i dash
    exact (other dash).elim
  · rfl

theorem readWords_eq_ok_iff {given' : Given} {rest : Option (String × List String)} :
    readWords stretch given words = .ok (given', rest) ↔ Reads stretch given words given' rest := by
  constructor
  · intro read
    fun_induction readWords stretch given words with
    | case1 given =>
        cases read
        exact .done
    | case2 given word words dashes =>
        obtain rfl := eq_dashes_iff.2 dashes
        cases added : addNames stretch given words with
        | error stop => simp [added, Except.map] at read
        | ok given =>
            simp only [added, Except.map, Except.ok.injEq, Prod.mk.injEq] at read
            obtain ⟨rfl, rfl⟩ := read
            exact .names added
    | case4 given word words c cs other dash middle option ih =>
        have more : word ≠ "--" := by simpa [eq_dashes_iff, dash] using other
        exact .option (isValue_eq_false_iff.2 ⟨c, cs, dash⟩) more
          ((readOption_eq dash).trans option) (ih read)
    | case7 given word c cs other dash before switch option value words plain middle assigned ih =>
        have more : word ≠ "--" := by simpa [eq_dashes_iff, dash] using other
        exact .valued (isValue_eq_false_iff.2 ⟨c, cs, dash⟩) more
          ((readOption_eq dash).trans option) plain assigned (ih read)
    | case9 given word words first _ other =>
        cases read
        exact .command first (isValue_of_forall_ne other)
    | case11 given word words inside middle added _ other ih =>
        exact .name inside (isValue_of_forall_ne other) added (ih read)
    | _ => simp at read
  · intro reads
    induction reads with
    | done => rfl
    | names added =>
        rw [readWords]
        simp [added, Except.map]
    | option dash other read later ih =>
        rw [readWords_of_option dash other, read]
        exact ih
    | valued dash other read plain assigned later ih =>
        rw [readWords_of_option dash other, read]
        simp only [plain, if_true, assigned]
        exact ih
    | command first plain => rw [readWords_of_value plain, if_pos first]
    | name inside plain added later ih =>
        rw [readWords_of_value plain, if_neg inside, added]
        exact ih

end Words

/-! ### What has been given -/

/-- What has been given is the same but for the colour, which is given on both sides. -/
def Given.Recolored (color color' : String) (given given' : Given) : Prop :=
  given.color = some color ∧ given' = { given with color := some color' }

/-- Readings that are the same but for the colour. -/
inductive Reading.Recolored (color color' : String) : Reading → Reading → Prop
  | taken {given given' : Given} (same : given.Recolored color color' given') :
      Recolored color color' (.taken given) (.taken given')
  | awaits {given given' : Given} (same : given.Recolored color color' given') (switch : Switch) :
      Recolored color color' (.awaits given switch) (.awaits given' switch)

theorem ok_of_ite {p : Prop} [Decidable p] {stop : Stop} {given taken : Given}
    (passed : (if p then .error stop else .ok given) = Except.ok taken) : ¬p ∧ given = taken := by
  split at passed
  · cases passed
  · rename_i allowed
    exact ⟨allowed, Except.ok.inj passed⟩

section Recoloring

variable {stretch : Stretch} {color color' : String} {given given' taken : Given}
  (same : given.Recolored color color' given')

include same

theorem set_recolored {switch : Switch} (set : given.set stretch switch = .ok taken) :
    ∃ taken', given'.set stretch switch = .ok taken' ∧ taken.Recolored color color' taken' := by
  obtain ⟨colored, rfl⟩ := same
  cases switch with
  | verbose =>
      obtain ⟨new, rfl⟩ := ok_of_ite set
      exact ⟨_, if_neg new, colored, rfl⟩
  | strict =>
      obtain ⟨new, rfl⟩ := ok_of_ite set
      exact ⟨_, if_neg new, colored, rfl⟩
  | _ => simp [Given.set] at set

/-- A second colour is refused, so the value that is assigned is another's. -/
theorem assign_recolored {switch : Switch} {value : String}
    (assigned : given.assign switch value = .ok taken) :
    ∃ taken', given'.assign switch value = .ok taken' ∧ taken.Recolored color color' taken' := by
  obtain ⟨colored, rfl⟩ := same
  cases switch with
  | color => simp [Given.assign, colored] at assigned
  | output =>
      obtain ⟨new, rfl⟩ := ok_of_ite assigned
      exact ⟨_, if_neg new, colored, rfl⟩
  | _ => simp [Given.assign] at assigned

theorem addName_recolored {name : String} (added : given.addName stretch name = .ok taken) :
    ∃ taken', given'.addName stretch name = .ok taken' ∧ taken.Recolored color color' taken' := by
  obtain ⟨colored, rfl⟩ := same
  simp only [Given.addName] at added ⊢
  split at added
  · cases added
  · rename_i named
    rw [if_neg named]
    split at added
    · cases added
    · cases added
    · cases added
      exact ⟨_, rfl, colored, rfl⟩

theorem addNames_recolored {names : List String} (added : addNames stretch given names = .ok taken) :
    ∃ taken', addNames stretch given' names = .ok taken' ∧ taken.Recolored color color' taken' := by
  induction names generalizing given given' with
  | nil =>
      cases added
      exact ⟨given', rfl, same⟩
  | cons name names ih =>
      rw [addNames] at added
      cases first : given.addName stretch name with
      | error stop => simp [first] at added
      | ok middle =>
          obtain ⟨middle', first', same⟩ := addName_recolored same first
          rw [first] at added
          rw [addNames, first']
          exact ih same added

omit same in
/-- What was taken comes to a reading. -/
theorem map_taken_recolored {result result' : Except Stop Given} {reading : Reading}
    (follows : ∀ taken, result = .ok taken →
      ∃ taken', result' = .ok taken' ∧ taken.Recolored color color' taken')
    (read : result.map Reading.taken = .ok reading) :
    ∃ reading', result'.map Reading.taken = .ok reading' ∧
      reading.Recolored color color' reading' := by
  cases result with
  | error stop => cases read
  | ok taken =>
      obtain ⟨taken', rfl, same⟩ := follows taken rfl
      cases read
      exact ⟨_, rfl, .taken same⟩

theorem readLetters_recolored {cs : List Char} {reading : Reading}
    (read : readLetters stretch given cs = .ok reading) :
    ∃ reading', readLetters stretch given' cs = .ok reading' ∧
      reading.Recolored color color' reading' := by
  induction cs generalizing given given' with
  | nil =>
      cases read
      exact ⟨_, rfl, .taken same⟩
  | cons c cs ih =>
      rw [readLetters] at read ⊢
      cases found : stretch.ofLetter? c with
      | none => simp [found] at read
      | some switch =>
          simp only [found] at read ⊢
          by_cases valued : switch.takesValue = true
          · rw [if_pos valued] at read ⊢
            split at read
            · cases read
              exact ⟨_, rfl, .awaits same switch⟩
            · exact map_taken_recolored (fun _ => assign_recolored same) read
            · exact map_taken_recolored (fun _ => assign_recolored same) read
          · rw [if_neg valued] at read ⊢
            cases set : given.set stretch switch with
            | error stop => simp [set] at read
            | ok middle =>
                obtain ⟨middle', set', same⟩ := set_recolored same set
                rw [set] at read
                rw [set']
                exact ih same read

theorem readLong_recolored {cs : List Char} {reading : Reading}
    (read : readLong stretch given cs = .ok reading) :
    ∃ reading', readLong stretch given' cs = .ok reading' ∧
      reading.Recolored color color' reading' := by
  simp only [readLong] at read ⊢
  cases found : stretch.ofLongName? (String.ofList (cs.takeWhile (· ≠ '='))) with
  | none => simp only [found, reduceCtorEq] at read
  | some switch =>
      simp only [found] at read ⊢
      by_cases valued : switch.takesValue = true
      · simp only [if_pos valued] at read ⊢
        split at read
        · cases read
          exact ⟨_, rfl, .awaits same switch⟩
        · exact map_taken_recolored (fun _ => assign_recolored same) read
      · simp only [if_neg valued] at read ⊢
        split at read
        · exact map_taken_recolored (fun _ => set_recolored same) read
        · cases read

theorem readOption_recolored {word : String} {reading : Reading}
    (read : readOption stretch given word = .ok reading) :
    ∃ reading', readOption stretch given' word = .ok reading' ∧
      reading.Recolored color color' reading' := by
  unfold readOption at read ⊢
  split at read
  · split at read
    · rename_i dash
      rw [if_pos dash]
      exact readLong_recolored same read
    · rename_i letter
      rw [if_neg letter]
      exact readLetters_recolored same read
  · cases read

/-- The words after the option are read alike. -/
theorem Reads.recolored {words : List String} {rest : Option (String × List String)}
    (reads : Reads stretch given words taken rest) :
    ∃ taken', Reads stretch given' words taken' rest ∧ taken.Recolored color color' taken' := by
  induction reads generalizing given' with
  | done => exact ⟨given', .done, same⟩
  | names added =>
      obtain ⟨taken', added', last⟩ := addNames_recolored same added
      exact ⟨taken', .names added', last⟩
  | option dash other read _ ih =>
      obtain ⟨_, read', ⟨next⟩⟩ := readOption_recolored same read
      obtain ⟨taken', later, last⟩ := ih next
      exact ⟨taken', .option dash other read' later, last⟩
  | valued dash other read plain assigned _ ih =>
      obtain ⟨_, read', waits⟩ := readOption_recolored same read
      cases waits with
      | awaits waiting =>
          obtain ⟨middle, assigned', next⟩ := assign_recolored waiting assigned
          obtain ⟨taken', later, last⟩ := ih next
          exact ⟨taken', .valued dash other read' plain assigned' later, last⟩
  | command first plain => exact ⟨given', .command first plain, same⟩
  | name inside plain added _ ih =>
      obtain ⟨middle, added', next⟩ := addName_recolored same added
      obtain ⟨taken', later, last⟩ := ih next
      exact ⟨taken', .name inside plain added' later, last⟩

end Recoloring

/-! ### The option for colours -/

/-- The option for colours, with its value in the same word or in the next. -/
def colorOption (joined : Bool) (color : String) : List String :=
  if joined then ["--color=" ++ color] else ["--color", color]

section Option

variable {stretch : Stretch} {given : Given} {joined : Bool} {color color' : String}
  {after : List String}

theorem readOption_color : readOption stretch given "--color" = .ok (.awaits given .color) := by
  cases stretch <;> rfl

theorem readOption_color_joined :
    readOption stretch given ("--color=" ++ color) = (given.assign .color color).map .taken := by
  have dash : ("--color=" ++ color).toList = '-' :: '-' :: ("color=".toList ++ color.toList) := by
    simp
  rw [readOption_eq dash]
  cases stretch <;> simp [readLong, Stretch.ofLongName?, Stretch.switches, Switch.longName,
    Switch.takesValue]

theorem isValue_colorOption (joined : Bool) (color : String) :
    ∃ word words, colorOption joined color = word :: words ∧ isValue word = false := by
  cases joined with
  | false => exact ⟨_, _, rfl, rfl⟩
  | true => exact ⟨_, _, rfl, isValue_eq_false_iff.2 ⟨'-', _, String.toList_append⟩⟩

/-- Whatever its value, the option is taken unless it has been given before. -/
theorem reads_colorOption_iff (plain : isValue color = true) {taken : Given}
    {rest : Option (String × List String)} :
    Reads stretch given (colorOption joined color ++ after) taken rest ↔
      given.color = none ∧ Reads stretch { given with color := some color } after taken rest := by
  have read : readWords stretch given (colorOption joined color ++ after) =
      if given.color.isSome then .error .usage
      else readWords stretch { given with color := some color } after := by
    cases joined with
    | false =>
        have words : colorOption false color ++ after = "--color" :: color :: after := rfl
        rw [words, readWords_of_option rfl (by decide), readOption_color]
        simp only [plain, if_true, Given.assign]
        by_cases again : given.color.isSome = true
        · simp only [if_pos again]
        · simp only [if_neg again]
    | true =>
        have words : colorOption true color ++ after = ("--color=" ++ color) :: after := rfl
        have dash : isValue ("--color=" ++ color) = false :=
          isValue_eq_false_iff.2 ⟨'-', _, String.toList_append⟩
        have other : "--color=" ++ color ≠ "--" := by
          simp [eq_dashes_iff]
        rw [words, readWords_of_option dash other, readOption_color_joined, Given.assign]
        by_cases again : given.color.isSome = true
        · simp only [if_pos again, Except.map]
        · simp only [if_neg again, Except.map]
  rw [← readWords_eq_ok_iff, ← readWords_eq_ok_iff, read]
  cases given.color with
  | none => simp
  | some other => simp

/-- How a stretch ends with the one colour and with the other. Either the option stands in the
stretch, and the colour is what differs, or the command comes first and the option is left. -/
inductive SameEnd (joined : Bool) (color color' : String) (after : List String) :
    Given → Option (String × List String) → Given → Option (String × List String) → Prop
  | inside {taken taken' : Given} (same : taken.Recolored color color' taken')
      (rest : Option (String × List String)) :
      SameEnd joined color color' after taken rest taken' rest
  | behind (taken : Given) (name : String) {others : List String} (options : "--" ∉ others) :
      SameEnd joined color color' after
        taken (some (name, others ++ (colorOption joined color ++ after)))
        taken (some (name, others ++ (colorOption joined color' ++ after)))

/-- A stretch with the option is read alike with another colour. -/
theorem Reads.another_color {before : List String} (plain : isValue color = true)
    (plain' : isValue color' = true) (options : "--" ∉ before) {taken : Given}
    {rest : Option (String × List String)}
    (reads : Reads stretch given (before ++ (colorOption joined color ++ after)) taken rest) :
    ∃ taken' rest',
      Reads stretch given (before ++ (colorOption joined color' ++ after)) taken' rest' ∧
        SameEnd joined color color' after taken rest taken' rest' := by
  induction size : before.length using Nat.strongRecOn generalizing before given with
  | ind n ih =>
      subst size
      rcases before with _ | ⟨word, before⟩
      · obtain ⟨new, later⟩ := (reads_colorOption_iff plain).1 reads
        obtain ⟨taken', later', last⟩ := later.recolored ⟨rfl, rfl⟩
        exact ⟨taken', rest, (reads_colorOption_iff plain').2 ⟨new, later'⟩, .inside last rest⟩
      · obtain ⟨proper, options⟩ : word ≠ "--" ∧ "--" ∉ before := by
          simpa [eq_comm] using options
        rw [List.cons_append] at reads
        generalize tail : before ++ (colorOption joined color ++ after) = words at reads
        cases reads with
        | names => exact absurd rfl proper
        | option dash other read later =>
            subst tail
            obtain ⟨taken', rest', later', same⟩ := ih before.length (by simp) options later rfl
            exact ⟨taken', rest', .option dash other read later', same⟩
        | valued dash other read plain assigned later =>
            rcases before with _ | ⟨value, before⟩
            · -- The option itself cannot be the value of the word before it.
              obtain ⟨first, second, words, dashed⟩ := isValue_colorOption joined color
              rw [List.nil_append, words, List.cons_append] at tail
              cases tail
              simp [plain] at dashed
            · cases tail
              have options : "--" ∉ before := fun among => options (.tail _ among)
              obtain ⟨taken', rest', later', same⟩ :=
                ih before.length (by simp only [List.length_cons]; omega) options later rfl
              exact ⟨taken', rest', .valued dash other read plain assigned later', same⟩
        | command first plain =>
            subst tail
            exact ⟨_, _, .command first plain, .behind _ word options⟩
        | name inside plain added later =>
            subst tail
            obtain ⟨taken', rest', later', same⟩ := ih before.length (by simp) options later rfl
            exact ⟨taken', rest', .name inside plain added later', same⟩

end Option

/-! ### Whole command lines -/

/-- The same invocation, but for the colour if it is given. -/
structure Invocation.Recolored (color color' : String) (invocation invocation' : Invocation) :
    Prop where
  verbose_eq : invocation'.verbose = invocation.verbose
  task_eq : invocation'.task = invocation.task
  color_eq : invocation'.color = invocation.color ∨
    invocation.color = color ∧ invocation'.color = color'

section Lines

variable {color color' : String} {outer outer' inner inner' : Given} {task : Task}

/-- A colour before the command counts unless there is one behind it. -/
theorem combine_recolored_outer (same : outer.Recolored color color' outer') :
    (combine outer inner task).Recolored color color' (combine outer' inner task) := by
  obtain ⟨colored, rfl⟩ := same
  refine ⟨rfl, rfl, ?_⟩
  cases behind : inner.color with
  | none => exact .inr ⟨by simp [combine, behind, colored], by simp [combine, behind]⟩
  | some other => exact .inl (by simp [combine, behind])

theorem combine_recolored_inner (same : inner.Recolored color color' inner') :
    (combine outer inner task).Recolored color color' (combine outer inner' task) := by
  obtain ⟨colored, rfl⟩ := same
  exact ⟨rfl, rfl, .inr ⟨by simp [combine, colored], by simp [combine]⟩⟩

theorem taskOf_recolored {stretch : Stretch} (same : inner.Recolored color color' inner') :
    taskOf stretch inner' = taskOf stretch inner := by
  obtain ⟨-, rfl⟩ := same
  rfl

theorem parse_eq_ok_iff {words : List String} {invocation : Invocation} :
    parse words = .ok invocation ↔
      ∃ outer name words' stretch inner rest task,
        Reads .program .nothing words outer (some (name, words')) ∧
        Stretch.ofCommand? name = some stretch ∧ Reads stretch .nothing words' inner rest ∧
        taskOf stretch inner = .ok task ∧ combine outer inner task = invocation := by
  simp only [← readWords_eq_ok_iff]
  constructor
  · intro understood
    rw [parse] at understood
    split at understood
    · cases understood
    · cases understood
    · rename_i outer name words' read
      split at understood
      · rename_i stretch command
        rw [readCommand] at understood
        split at understood
        · cases understood
        · rename_i inner rest read'
          cases made : taskOf stretch inner with
          | error stop => simp [made, Except.map] at understood
          | ok task =>
              refine ⟨outer, name, words', stretch, inner, rest, task, read, command, read', made, ?_⟩
              simpa [made, Except.map] using understood
      · cases understood
  · rintro ⟨outer, name, words', stretch, inner, rest, task, read, command, read', made, rfl⟩
    simp only [parse, read, command, readCommand, read', made, Except.map]

/-- A command line that is understood is understood with another colour, and to the same effect but
for the colour. -/
theorem parse_another_color {before after : List String} {joined : Bool} {invocation : Invocation}
    (plain : isValue color = true) (plain' : isValue color' = true) (options : "--" ∉ before)
    (understood : parse (before ++ (colorOption joined color ++ after)) = .ok invocation) :
    ∃ invocation', parse (before ++ (colorOption joined color' ++ after)) = .ok invocation' ∧
      invocation.Recolored color color' invocation' := by
  obtain ⟨outer, name, words, stretch, inner, rest, task, reads, command, inside, made, rfl⟩ :=
    parse_eq_ok_iff.1 understood
  obtain ⟨outer', rest', reads', end'⟩ := reads.another_color plain plain' options
  cases end' with
  | inside same =>
      refine ⟨combine outer' inner task, parse_eq_ok_iff.2 ?_, combine_recolored_outer same⟩
      exact ⟨outer', name, words, stretch, inner, rest, task, reads', command, inside, made, rfl⟩
  | behind _ proper =>
      obtain ⟨inner', rest', inside', end'⟩ := inside.another_color plain plain' proper
      cases end' with
      | inside same =>
          refine ⟨combine outer inner' task, parse_eq_ok_iff.2 ?_, combine_recolored_inner same⟩
          exact ⟨outer, name, _, stretch, inner', rest, task, reads', command, inside',
            (taskOf_recolored same).trans made, rfl⟩
      | behind =>
          refine ⟨combine outer inner task, parse_eq_ok_iff.2 ?_, rfl, rfl, .inl rfl⟩
          exact ⟨outer, name, _, stretch, inner, _, task, reads', command, inside', made, rfl⟩

end Lines

end Liquefy.Command
