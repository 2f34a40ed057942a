import Liquefy.Proofs.Json.Outline

/-!
# What is passed over

Passing over a value accepts the text of every outline and no other text, however deep its
brackets are nested. The open brackets are kept as frames, so what follows a value has to end them
all: `Closes` says this of a text, and each step of the machine turns it into the same question
about a shorter text.
-/

namespace Liquefy.Json

/-! ### Words, numbers and strings -/

theorem readWord_eq_ok_iff {α : Type} {a b : α} {letters cs rest : List Char} :
    readWord a letters cs = .ok (b, rest) ↔ a = b ∧ cs = letters ++ rest := by
  induction letters generalizing cs with
  | nil => simp [readWord]
  | cons w letters ih =>
      cases cs with
      | nil => simp [readWord]
      | cons c cs =>
          rw [readWord]
          split
          · rename_i same
            simp [ih, same]
          · rename_i other
            simp [other]

theorem numeral_eq_ok_iff {negative : Bool} {cs rest : List Char} {n : Numeral} :
    numeral negative cs = .ok (n, rest) ↔
      ∃ spelling, scanNumeral cs = .ok (spelling, rest) ∧ spelling.value negative = .ok n := by
  rw [numeral]
  rcases scanNumeral cs with fault | ⟨spelling, rest'⟩
  · simp
  · cases value : spelling.value negative with
    | error fault => grind
    | ok x => grind

theorem skimNumeral_eq_ok_iff {cs rest : List Char} :
    skimNumeral cs = .ok rest ↔ ∃ spelling, scanNumeral cs = .ok (spelling, rest) := by
  rw [skimNumeral]
  rcases scanNumeral cs with fault | ⟨spelling, rest'⟩ <;> simp

theorem quoted_eq_ok_iff {cs rest : List Char} {s : String} :
    quoted.run cs = .ok (s, rest) ↔ skimCharacters cs = .ok rest ∧ textValue? cs = some s := by
  rw [quoted_run_eq_ok_iff, textValue?_eq_some_iff]
  constructor
  · intro spelled
    exact ⟨skimCharacters_eq_ok_iff.2 spelled.shaped, rest, spelled⟩
  · rintro ⟨skimmed, rest', spelled⟩
    have skimmed' := skimCharacters_eq_ok_iff.2 spelled.shaped
    obtain rfl : rest = rest' := Except.ok.inj (skimmed.symm.trans skimmed')
    exact spelled

/-! ### Frames -/

theorem readColon_eq_ok_iff {cs rest : List Char} :
    readColon cs = .ok rest ↔ afterBlanks cs = ':' :: rest := by
  rw [readColon]
  split
  · rename_i empty
    simp [empty]
  · rename_i c rest' begins
    rw [begins]
    split
    · rename_i colon
      simp [colon]
    · rename_i other
      simp [other]

/-- In an object a key and a colon stand before a value. -/
theorem Frame.toValue_object_eq_ok_iff {cs rest : List Char} :
    Frame.object.toValue cs = .ok rest ↔
      ∃ cs₁ cs₂, afterBlanks cs = '"' :: cs₁ ∧ skimCharacters cs₁ = .ok cs₂ ∧
        afterBlanks cs₂ = ':' :: rest := by
  rw [Frame.toValue]
  constructor
  · intro found
    split at found
    · simp at found
    · rename_i c cs₁ begins
      split at found
      · rename_i quote
        subst quote
        split at found
        · simp at found
        · rename_i cs₂ key
          exact ⟨cs₁, cs₂, begins, key, readColon_eq_ok_iff.1 found⟩
      · simp at found
  · rintro ⟨cs₁, cs₂, quote, key, colon⟩
    simp only [quote, key, if_true]
    exact readColon_eq_ok_iff.2 colon

/-- An entry does not begin like the end of its frame. -/
theorem Frame.head_of_toValue {frame : Frame} {cs cs' rest : List Char} {outline : Outline}
    (entry : frame.toValue cs = .ok cs') (value : outline.Spelled cs' rest) :
    ∃ c cs₁, afterBlanks cs = c :: cs₁ ∧ c ≠ frame.closer := by
  cases frame with
  | list =>
      cases entry
      obtain ⟨c, cs₁, begins, -, other⟩ := value.head
      exact ⟨c, cs₁, begins, other .list⟩
  | object =>
      obtain ⟨cs₁, cs₂, quote, -⟩ := Frame.toValue_object_eq_ok_iff.1 entry
      exact ⟨'"', cs₁, quote, by decide⟩

theorem Frame.exists_toValue_afterBlanks {frame : Frame} {cs rest : List Char} {outline : Outline} :
    (∃ cs', frame.toValue (afterBlanks cs) = .ok cs' ∧ outline.Spelled cs' rest) ↔
      ∃ cs', frame.toValue cs = .ok cs' ∧ outline.Spelled cs' rest := by
  cases frame with
  | list => simp [Frame.toValue, Outline.spelled_afterBlanks_iff]
  | object => simp [Frame.toValue]

/-- After a value inside the frame, the text goes on to the end of the frame. -/
inductive Frame.Ends (frame : Frame) : List Char → List Char → Prop
  | closed {cs rest : List Char} (close : afterBlanks cs = frame.closer :: rest) :
      Ends frame cs rest
  | comma {outline : Outline} {cs cs₁ cs₂ middle rest : List Char}
      (comma : afterBlanks cs = ',' :: cs₁) (entry : frame.toValue cs₁ = .ok cs₂)
      (value : outline.Spelled cs₂ middle) (others : Ends frame middle rest) : Ends frame cs rest

/-- After a value inside the frames, the text ends them all. -/
inductive Closes : List Frame → List Char → List Char → Prop
  | done (rest : List Char) : Closes [] rest rest
  | frame {frame : Frame} {frames : List Frame} {cs middle rest : List Char}
      (ends : frame.Ends cs middle) (outer : Closes frames middle rest) :
      Closes (frame :: frames) cs rest

/-- What is due after a round leads to the end of the given text. -/
def Due.LeadsTo : Due → List Char → List Char → Prop
  | none, cs, rest => cs = rest
  | some frames, cs, rest =>
      ∃ (outline : Outline) (middle : List Char),
        outline.Spelled cs middle ∧ Closes frames middle rest

/-- A round leads to the end of the given text. -/
def Finishes (round : Result Due) (rest : List Char) : Prop :=
  ∃ due cs, round = .ok (due, cs) ∧ due.LeadsTo cs rest

@[simp]
theorem finishes_error {fault : Fault} {rest : List Char} : ¬ Finishes (.error fault) rest := by
  simp [Finishes]

@[simp]
theorem finishes_ok {due : Due} {cs rest : List Char} :
    Finishes (.ok (due, cs)) rest ↔ due.LeadsTo cs rest := by
  constructor
  · rintro ⟨due', cs', same, leads⟩
    cases same
    exact leads
  · intro leads
    exact ⟨due, cs, rfl, leads⟩

/-- Settling a value leads to the end of a text that closes all frames, and to no other. -/
theorem finishes_settle {frames : List Frame} {cs rest : List Char} :
    Finishes (settle frames cs) rest ↔ Closes frames cs rest := by
  induction frames generalizing cs with
  | nil =>
      rw [settle, finishes_ok]
      constructor
      · rintro rfl
        exact .done cs
      · rintro ⟨⟩
        rfl
  | cons frame frames ih =>
      have separate : ',' ≠ frame.closer := by cases frame <;> decide
      rw [settle]
      constructor
      · intro finishes
        split at finishes
        · simp at finishes
        · rename_i c rest₁ begins
          split at finishes
          · rename_i comma
            subst comma
            split at finishes
            · simp at finishes
            · rename_i rest₂ entry
              obtain ⟨outline, middle, value, closes⟩ := finishes_ok.1 finishes
              cases closes with
              | frame ends outer => exact .frame (.comma begins entry value ends) outer
          · split at finishes
            · rename_i close
              subst close
              exact .frame (.closed begins) (ih.1 finishes)
            · simp at finishes
      · intro closes
        cases closes with
        | frame ends outer =>
          cases ends with
          | closed close =>
              simp only [close, separate.symm, if_false, if_true]
              exact ih.2 outer
          | comma comma entry value others =>
              simp only [comma, if_true, entry]
              exact finishes_ok.2 ⟨_, _, value, .frame others outer⟩

/-- A bracket has been opened, and the text goes on to its end. -/
inductive Frame.Holds (frame : Frame) : List Char → List Char → Prop
  | nothing {cs rest : List Char} (close : afterBlanks cs = frame.closer :: rest) :
      Holds frame cs rest
  | something {outline : Outline} {cs cs' middle rest : List Char}
      (entry : frame.toValue cs = .ok cs') (value : outline.Spelled cs' middle)
      (others : frame.Ends middle rest) : Holds frame cs rest

theorem finishes_enter {frame : Frame} {frames : List Frame} {cs rest : List Char} :
    Finishes (enter frame frames cs) rest ↔
      ∃ middle, frame.Holds cs middle ∧ Closes frames middle rest := by
  rw [enter]
  constructor
  · intro finishes
    split at finishes
    · simp at finishes
    · rename_i c rest₁ begins
      split at finishes
      · rename_i close
        subst close
        exact ⟨rest₁, .nothing begins, finishes_settle.1 finishes⟩
      · split at finishes
        · simp at finishes
        · rename_i rest₂ entry
          obtain ⟨outline, middle, value, closes⟩ := finishes_ok.1 finishes
          rw [← begins] at entry
          obtain ⟨cs', entry, value⟩ := Frame.exists_toValue_afterBlanks.1 ⟨rest₂, entry, value⟩
          cases closes with
          | frame ends outer => exact ⟨_, .something entry value ends, outer⟩
  · rintro ⟨middle, holds, closes⟩
    cases holds with
    | nothing close =>
        simp only [close, if_true]
        exact finishes_settle.2 closes
    | something entry value others =>
        obtain ⟨c, cs₁, begins, other⟩ := Frame.head_of_toValue entry value
        obtain ⟨rest₂, entry, value⟩ := Frame.exists_toValue_afterBlanks.2 ⟨_, entry, value⟩
        rw [begins] at entry
        simp only [begins, other, if_false, entry]
        exact finishes_ok.2 ⟨_, _, value, .frame others closes⟩

/-! ### Frames are read as the grammar says -/

theorem Frame.ends_list_iff {cs rest : List Char} :
    Frame.list.Ends cs rest ↔ ∃ items, Tail .list Outline.Spelled items cs rest := by
  constructor
  · intro ends
    induction ends with
    | closed close => exact ⟨[], .closed close⟩
    | comma comma entry value others ih =>
        cases entry
        obtain ⟨items, tail⟩ := ih
        exact ⟨_, .comma comma value tail⟩
  · rintro ⟨items, tail⟩
    induction tail with
    | closed close => exact .closed close
    | comma comma next others ih => exact .comma comma rfl next ih

theorem Frame.ends_object_iff {cs rest : List Char} :
    Frame.object.Ends cs rest ↔
      ∃ members, Tail .object (Member Outline.Spelled) members cs rest := by
  constructor
  · intro ends
    induction ends with
    | closed close => exact ⟨[], .closed close⟩
    | comma comma entry value others ih =>
        obtain ⟨cs₁, cs₂, quote, key, colon⟩ := Frame.toValue_object_eq_ok_iff.1 entry
        obtain ⟨members, tail⟩ := ih
        exact ⟨_, .comma comma (.keyed quote key colon value) tail⟩
  · rintro ⟨members, tail⟩
    induction tail with
    | closed close => exact .closed close
    | comma comma next others ih =>
        cases next with
        | keyed quote key colon given =>
            exact .comma comma (Frame.toValue_object_eq_ok_iff.2 ⟨_, _, quote, key, colon⟩) given ih

theorem Frame.holds_list_iff {cs rest : List Char} :
    Frame.list.Holds cs rest ↔ ∃ items, Entries .list Outline.Spelled items cs rest := by
  constructor
  · rintro (close | ⟨entry, value, others⟩)
    · exact ⟨[], .none close⟩
    · cases entry
      obtain ⟨items, tail⟩ := Frame.ends_list_iff.1 others
      exact ⟨_, .some value tail⟩
  · rintro ⟨items, close | ⟨first, others⟩⟩
    · exact .nothing close
    · exact .something rfl first (Frame.ends_list_iff.2 ⟨_, others⟩)

theorem Frame.holds_object_iff {cs rest : List Char} :
    Frame.object.Holds cs rest ↔
      ∃ members, Entries .object (Member Outline.Spelled) members cs rest := by
  constructor
  · rintro (close | ⟨entry, value, others⟩)
    · exact ⟨[], .none close⟩
    · obtain ⟨cs₁, cs₂, quote, key, colon⟩ := Frame.toValue_object_eq_ok_iff.1 entry
      obtain ⟨members, tail⟩ := Frame.ends_object_iff.1 others
      exact ⟨_, .some (.keyed quote key colon value) tail⟩
  · rintro ⟨members, close | ⟨first, others⟩⟩
    · exact .nothing close
    · cases first with
      | keyed quote key colon given =>
          exact .something (Frame.toValue_object_eq_ok_iff.2 ⟨_, _, quote, key, colon⟩) given
            (Frame.ends_object_iff.2 ⟨_, others⟩)

/-! ### Rounds -/

theorem finishes_settleAfter {frames : List Frame} {skimmed : Except Fault (List Char)}
    {rest : List Char} :
    Finishes (settleAfter frames skimmed) rest ↔
      ∃ middle, skimmed = .ok middle ∧ Closes frames middle rest := by
  cases skimmed with
  | error fault => simp [settleAfter]
  | ok middle => simp [settleAfter, finishes_settle]

theorem map_readWord_eq_ok_iff {letters cs rest : List Char} :
    (readWord () letters cs).map Prod.snd = .ok rest ↔ cs = letters ++ rest := by
  rcases found : readWord () letters cs with fault | ⟨_, rest'⟩
  · have none (read : readWord () letters cs = .ok ((), rest)) : False := by simp [found] at read
    simpa [Except.map, readWord_eq_ok_iff] using none
  · obtain ⟨-, rfl⟩ := readWord_eq_ok_iff.1 found
    simp [Except.map]

section Round

variable {frames : List Frame} {cs middle rest : List Char}

theorem spelled_of_finishes (finishes : Finishes (skimRound frames cs) rest) :
    ∃ (outline : Outline) (middle : List Char),
      outline.Spelled cs middle ∧ Closes frames middle rest := by
  rw [skimRound] at finishes
  rcases begins : afterBlanks cs with _ | ⟨c, rest₁⟩
  · simp [begins] at finishes
  simp only [begins] at finishes
  by_cases null : c = 'n'
  · rw [if_pos null] at finishes
    obtain ⟨middle, word, closes⟩ := finishes_settleAfter.1 finishes
    obtain rfl := map_readWord_eq_ok_iff.1 word
    exact ⟨.null, middle, .null (by rw [begins, null]; rfl), closes⟩
  rw [if_neg null] at finishes
  by_cases yes : c = 't'
  · rw [if_pos yes] at finishes
    obtain ⟨middle, word, closes⟩ := finishes_settleAfter.1 finishes
    obtain rfl := map_readWord_eq_ok_iff.1 word
    exact ⟨.boolean true, middle, .yes (by rw [begins, yes]; rfl), closes⟩
  rw [if_neg yes] at finishes
  by_cases no : c = 'f'
  · rw [if_pos no] at finishes
    obtain ⟨middle, word, closes⟩ := finishes_settleAfter.1 finishes
    obtain rfl := map_readWord_eq_ok_iff.1 word
    exact ⟨.boolean false, middle, .no (by rw [begins, no]; rfl), closes⟩
  rw [if_neg no] at finishes
  by_cases minus : c = '-'
  · rw [if_pos minus] at finishes
    obtain ⟨middle, number, closes⟩ := finishes_settleAfter.1 finishes
    obtain ⟨spelling, digits⟩ := skimNumeral_eq_ok_iff.1 number
    rw [minus] at begins
    exact ⟨_, middle, .negative begins digits, closes⟩
  rw [if_neg minus] at finishes
  by_cases digit : isDigit c
  · rw [if_pos digit] at finishes
    obtain ⟨middle, number, closes⟩ := finishes_settleAfter.1 finishes
    obtain ⟨spelling, digits⟩ := skimNumeral_eq_ok_iff.1 number
    rw [← begins] at digits
    exact ⟨_, middle, .positive digits, closes⟩
  rw [if_neg digit] at finishes
  by_cases quote : c = '"'
  · rw [if_pos quote] at finishes
    obtain ⟨middle, characters, closes⟩ := finishes_settleAfter.1 finishes
    rw [quote] at begins
    exact ⟨_, middle, .string begins characters, closes⟩
  rw [if_neg quote] at finishes
  by_cases bracket : c = '['
  · rw [if_pos bracket] at finishes
    obtain ⟨middle, holds, closes⟩ := finishes_enter.1 finishes
    obtain ⟨items, entries⟩ := Frame.holds_list_iff.1 holds
    rw [bracket] at begins
    exact ⟨_, middle, .array begins entries, closes⟩
  rw [if_neg bracket] at finishes
  by_cases brace : c = '\x7b'
  · rw [if_pos brace] at finishes
    obtain ⟨middle, holds, closes⟩ := finishes_enter.1 finishes
    obtain ⟨members, entries⟩ := Frame.holds_object_iff.1 holds
    rw [brace] at begins
    exact ⟨_, middle, .object begins entries, closes⟩
  rw [if_neg brace] at finishes
  simp at finishes

theorem finishes_of_spelled {outline : Outline} (spelled : outline.Spelled cs middle)
    (closes : Closes frames middle rest) : Finishes (skimRound frames cs) rest := by
  rw [skimRound]
  have settled {skimmed : Except Fault (List Char)} (ended : skimmed = .ok middle) :
      Finishes (settleAfter frames skimmed) rest := finishes_settleAfter.2 ⟨middle, ended, closes⟩
  cases spelled with
  | null word =>
      simp only [word, Char.reduceEq, if_true, if_false]
      exact settled rfl
  | yes word =>
      simp only [word, Char.reduceEq, if_true, if_false]
      exact settled rfl
  | no word =>
      simp only [word, Char.reduceEq, if_true, if_false]
      exact settled rfl
  | negative minus digits =>
      rw [minus]
      exact settled (skimNumeral_eq_ok_iff.2 ⟨_, digits⟩)
  | positive digits =>
      obtain ⟨c, cs', begins, digit⟩ := head_of_scanNumeral digits
      have other {d : Char} (plain : isDigit d = false) := ne_of_isDigit digit plain
      rw [begins] at digits ⊢
      simp only [other (show isDigit 'n' = false by decide),
        other (show isDigit 't' = false by decide), other (show isDigit 'f' = false by decide),
        other (show isDigit '-' = false by decide), digit, if_true, if_false]
      exact settled (skimNumeral_eq_ok_iff.2 ⟨_, digits⟩)
  | string quote characters =>
      rw [quote]
      exact settled characters
  | array bracket entries =>
      rw [bracket]
      exact finishes_enter.2 ⟨middle, Frame.holds_list_iff.2 ⟨_, entries⟩, closes⟩
  | object brace entries =>
      rw [brace]
      exact finishes_enter.2 ⟨middle, Frame.holds_object_iff.2 ⟨_, entries⟩, closes⟩

theorem finishes_skimRound :
    Finishes (skimRound frames cs) rest ↔
      ∃ (outline : Outline) (middle : List Char),
        outline.Spelled cs middle ∧ Closes frames middle rest := by
  constructor
  · exact spelled_of_finishes
  · rintro ⟨outline, middle, spelled, closes⟩
    exact finishes_of_spelled spelled closes

end Round

theorem skimFrom_eq_ok_iff {frames : List Frame} {cs rest : List Char} :
    skimFrom frames cs = .ok rest ↔
      ∃ (outline : Outline) (middle : List Char),
        outline.Spelled cs middle ∧ Closes frames middle rest := by
  rw [← finishes_skimRound]
  fun_induction skimFrom frames cs with
  | case1 frames cs fault round => simp [round]
  | case2 frames cs rest' round => simp [round, Due.LeadsTo]
  | case3 frames cs frames' rest' round _ ih =>
      rw [ih, round, finishes_ok, finishes_skimRound]
      rfl

/-- A value is passed over exactly if the text has an outline. -/
theorem skim_eq_ok_iff {cs rest : List Char} :
    skim.run cs = .ok ((), rest) ↔ ∃ outline : Outline, outline.Spelled cs rest := by
  have whole : skim.run cs = .ok ((), rest) ↔ skimFrom [] cs = .ok rest := by
    simp only [skim]
    rcases skimFrom [] cs with fault | rest' <;> simp
  rw [whole, skimFrom_eq_ok_iff]
  constructor
  · rintro ⟨outline, middle, spelled, closes⟩
    cases closes
    exact ⟨outline, spelled⟩
  · rintro ⟨outline, spelled⟩
    exact ⟨outline, rest, spelled, .done rest⟩

end Liquefy.Json
