import Liquefy.Proofs.Json.Passing
import Mathlib.Data.List.Forall2

/-!
# What a reader takes

A reader sees the characters of a text, but whether it takes the text and what it makes of it
depends on the outline alone. `Reader.Means` says so: the texts that the reader takes are exactly
those of the outlines with a meaning. Every way to build a reader has its lemma here, and each of
them is an equivalence, so that nothing is lost between a text and its outline.
-/

namespace Liquefy.Json

/-- The reader takes exactly the texts of the outlines that mean something, and it gives what they
mean. -/
def Reader.Means {α : Type} (reader : Reader α) (meaning : Outline → α → Prop) : Prop :=
  ∀ cs a rest, reader.run cs = .ok (a, rest) ↔
    ∃ outline : Outline, outline.Spelled cs rest ∧ meaning outline a

/-! ### Values that are known -/

theorem toOption_eq_some_iff {α : Type} {result : Except Fault α} {a : α} :
    result.toOption = some a ↔ result = .ok a := by
  cases result <;> simp [Except.toOption]

theorem Outline.spelled_string_iff {s : String} {cs rest : List Char} :
    (Outline.string (some s)).Spelled cs rest ↔
      ∃ cs', afterBlanks cs = '"' :: cs' ∧ quoted.run cs' = .ok (s, rest) := by
  constructor
  · intro spelled
    generalize shown : Outline.string (some s) = outline at spelled
    cases spelled with
    | string quote characters =>
        have value := (Outline.string.inj shown).symm
        exact ⟨_, quote, quoted_eq_ok_iff.2 ⟨characters, value⟩⟩
    | _ => simp at shown
  · rintro ⟨cs', quote, read⟩
    obtain ⟨characters, value⟩ := quoted_eq_ok_iff.1 read
    rw [← value]
    exact .string quote characters

theorem Outline.spelled_number_iff {n : Numeral} {cs rest : List Char} :
    (Outline.number (some n)).Spelled cs rest ↔
      (∃ cs', afterBlanks cs = '-' :: cs' ∧ numeral true cs' = .ok (n, rest)) ∨
        numeral false (afterBlanks cs) = .ok (n, rest) := by
  simp only [numeral_eq_ok_iff]
  constructor
  · intro spelled
    generalize shown : Outline.number (some n) = outline at spelled
    cases spelled with
    | negative minus digits =>
        have value := toOption_eq_some_iff.1 (Outline.number.inj shown).symm
        exact .inl ⟨_, minus, _, digits, value⟩
    | positive digits =>
        have value := toOption_eq_some_iff.1 (Outline.number.inj shown).symm
        exact .inr ⟨_, digits, value⟩
    | _ => simp at shown
  · rintro (⟨cs', minus, spelling, digits, value⟩ | ⟨spelling, digits, value⟩)
    · rw [← toOption_eq_some_iff.2 value]
      exact .negative minus digits
    · rw [← toOption_eq_some_iff.2 value]
      exact .positive digits

theorem member_some_iff {α : Type} {value : α → List Char → List Char → Prop} {key : String} {a : α}
    {cs rest : List Char} :
    Member value (some key, a) cs rest ↔
      ∃ cs₁ cs₂ cs₃, afterBlanks cs = '"' :: cs₁ ∧ quoted.run cs₁ = .ok (key, cs₂) ∧
        afterBlanks cs₂ = ':' :: cs₃ ∧ value a cs₃ rest := by
  constructor
  · intro member
    generalize shown : (some key, a) = pair at member
    cases member with
    | keyed quote characters colon given =>
        obtain ⟨text, rfl⟩ := Prod.mk.inj shown
        exact ⟨_, _, _, quote, quoted_eq_ok_iff.2 ⟨characters, text.symm⟩, colon, given⟩
  · rintro ⟨cs₁, cs₂, cs₃, quote, read, colon, given⟩
    obtain ⟨characters, text⟩ := quoted_eq_ok_iff.1 read
    rw [← text]
    exact .keyed quote characters colon given

/-! ### Readers of simple shapes -/

section Simple

variable {α β : Type} {reader : Reader α} {meaning : Outline → α → Prop}

theorem Reader.Means.congr {meaning' : Outline → α → Prop} (means : reader.Means meaning)
    (same : ∀ outline a, meaning outline a ↔ meaning' outline a) : reader.Means meaning' := by
  intro cs a rest
  simp only [means cs a rest, same]

theorem Reader.Means.map (means : reader.Means meaning) (f : α → β) :
    (reader.map f).Means fun outline b => ∃ a, meaning outline a ∧ f a = b := by
  intro cs b rest
  simp only [Reader.map, Result.onValue_eq_ok_iff, means cs]
  constructor
  · rintro ⟨a, ⟨outline, spelled, given⟩, made⟩
    exact ⟨outline, spelled, a, given, made⟩
  · rintro ⟨outline, spelled, a, given, made⟩
    exact ⟨a, ⟨outline, spelled, given⟩, made⟩

theorem Reader.Means.checked (means : reader.Means meaning) (check : α → Except Fault β) :
    (reader.checked check).Means fun outline b => ∃ a, meaning outline a ∧ check a = .ok b := by
  intro cs b rest
  simp only [Reader.checked, Result.checked_eq_ok_iff, means cs]
  constructor
  · rintro ⟨a, ⟨outline, spelled, given⟩, passed⟩
    exact ⟨outline, spelled, a, given, passed⟩
  · rintro ⟨outline, spelled, a, given, passed⟩
    exact ⟨a, ⟨outline, spelled, given⟩, passed⟩

theorem refuse_means (fault : Fault) :
    (Reader.refuse fault : Reader α).Means fun _ _ => False := by
  intro cs a rest
  simp [Reader.refuse]

theorem Reader.byFirst_eq_ok_iff {dispatch : Char → List Char → Result α}
    {law : ∀ {c cs a rest}, dispatch c cs = .ok (a, rest) → rest.length ≤ cs.length}
    {cs rest : List Char} {a : α} :
    (Reader.byFirst dispatch @law).run cs = .ok (a, rest) ↔
      ∃ c cs', afterBlanks cs = c :: cs' ∧ dispatch c cs' = .ok (a, rest) := by
  simp only [Reader.byFirst]
  split
  · rename_i empty
    simp [empty]
  · rename_i c cs' begins
    constructor
    · intro read
      exact ⟨c, cs', begins, read⟩
    · rintro ⟨d, cs'', begins', read⟩
      rw [begins] at begins'
      cases begins'
      exact read

theorem string_means : string.Means fun outline s => outline = .string (some s) := by
  intro cs s rest
  rw [string, Reader.byFirst_eq_ok_iff]
  constructor
  · rintro ⟨c, cs', begins, read⟩
    split at read
    · rename_i quote
      subst quote
      exact ⟨_, Outline.spelled_string_iff.2 ⟨cs', begins, read⟩, rfl⟩
    · simp at read
  · rintro ⟨outline, spelled, rfl⟩
    obtain ⟨cs', quote, read⟩ := Outline.spelled_string_iff.1 spelled
    exact ⟨'"', cs', quote, read⟩

theorem null_means (a : α) : (null a).Means fun outline b => outline = .null ∧ a = b := by
  intro cs b rest
  rw [null, Reader.byFirst_eq_ok_iff]
  constructor
  · rintro ⟨c, cs', begins, read⟩
    split at read
    · rename_i first
      obtain ⟨rfl, rfl⟩ := readWord_eq_ok_iff.1 read
      exact ⟨.null, .null (by rw [begins, first]; rfl), rfl, rfl⟩
    · simp at read
  · rintro ⟨outline, spelled, rfl, rfl⟩
    cases spelled with
    | null word => exact ⟨'n', _, word, readWord_eq_ok_iff.2 ⟨rfl, rfl⟩⟩

/-- Only `null` begins with its first letter. -/
theorem Outline.Spelled.eq_null {outline : Outline} {cs cs' rest : List Char}
    (spelled : outline.Spelled cs rest) (first : afterBlanks cs = 'n' :: cs') :
    outline = .null := by
  obtain ⟨c, cs'', begins, shape, -⟩ := spelled.head
  rw [first] at begins
  cases begins
  cases outline with
  | null => rfl
  | _ => simp [Shape.ofFirst, Outline.shape] at shape

theorem optional_means (means : reader.Means meaning) :
    (optional reader).Means fun outline found =>
      (outline = .null ∧ found = none) ∨
        (outline ≠ .null ∧ ∃ a, meaning outline a ∧ found = some a) := by
  intro cs found rest
  simp only [optional]
  constructor
  · intro read
    split at read
    · rename_i cs' first
      obtain ⟨rfl, rfl⟩ := readWord_eq_ok_iff.1 read
      exact ⟨.null, .null first, .inl ⟨rfl, rfl⟩⟩
    · rename_i other
      obtain ⟨a, read, made⟩ := Result.onValue_eq_ok_iff.1 read
      obtain ⟨outline, spelled, given⟩ := (means cs a rest).1 read
      refine ⟨outline, spelled, .inr ⟨?_, a, given, made.symm⟩⟩
      rintro rfl
      cases spelled with
      | null word => exact other _ word
  · rintro ⟨outline, spelled, ⟨rfl, rfl⟩ | ⟨present, a, given, rfl⟩⟩
    · cases spelled with
      | null word =>
          rw [word]
          exact readWord_eq_ok_iff.2 ⟨rfl, rfl⟩
    · split
      · rename_i cs' first
        exact absurd (spelled.eq_null first) present
      · exact Result.onValue_eq_ok_iff.2 ⟨a, (means cs a rest).2 ⟨outline, spelled, given⟩, rfl⟩

end Simple

/-! ### Lists -/

section Lists

variable {α : Type} {item : Reader α} {meaning : Outline → α → Prop} {items : List Outline}
  {cs rest : List Char}

/-- The items that a list has from the step on. -/
def Step.Items (items : List Outline) (rest : List Char) : Step → Prop
  | .done rest' => items = [] ∧ rest' = rest
  | .more cs =>
      ∃ first others middle, items = first :: others ∧ first.Spelled cs middle ∧
        Tail .list Outline.Spelled others middle rest

theorem firstElement_items :
    (∃ step, firstElement cs = .ok step ∧ step.Items items rest) ↔
      Entries .list Outline.Spelled items cs rest := by
  rw [firstElement]
  constructor
  · rintro ⟨step, found, listed⟩
    split at found
    · simp at found
    · rename_i c cs' begins
      split at found
      · rename_i close
        subst close
        cases found
        obtain ⟨rfl, rfl⟩ := listed
        exact .none begins
      · cases found
        obtain ⟨first, others, middle, rfl, spelled, tail⟩ := listed
        rw [← begins] at spelled
        exact .some (Outline.spelled_afterBlanks_iff.1 spelled) tail
  · intro entries
    cases entries with
    | none close => exact ⟨.done rest, by simp [close, Frame.closer], rfl, rfl⟩
    | some first others =>
        obtain ⟨c, cs', begins, -, other⟩ := first.head
        refine ⟨.more (afterBlanks cs), ?_, _, _, _, rfl,
          Outline.spelled_afterBlanks_iff.2 first, others⟩
        simp [begins, show c ≠ ']' from other .list]

theorem nextElement_items :
    (∃ step, nextElement cs = .ok step ∧ step.Items items rest) ↔
      Tail .list Outline.Spelled items cs rest := by
  rw [nextElement]
  constructor
  · rintro ⟨step, found, listed⟩
    split at found
    · simp at found
    · rename_i c cs' begins
      split at found
      · rename_i close
        subst close
        cases found
        obtain ⟨rfl, rfl⟩ := listed
        exact .closed begins
      · split at found
        · rename_i comma
          subst comma
          split at found
          · simp at found
          · rename_i d cs'' begins'
            split at found
            · simp at found
            · cases found
              obtain ⟨first, others, middle, rfl, spelled, tail⟩ := listed
              rw [← begins'] at spelled
              exact .comma begins (Outline.spelled_afterBlanks_iff.1 spelled) tail
        · simp at found
  · intro tail
    cases tail with
    | closed close => exact ⟨.done rest, by simp [close, Frame.closer], rfl, rfl⟩
    | @comma _ _ _ cs' _ _ comma next others =>
        obtain ⟨c, cs'', begins, -, other⟩ := next.head
        refine ⟨.more (afterBlanks cs'), ?_, _, _, _, rfl,
          Outline.spelled_afterBlanks_iff.2 next, others⟩
        simp [comma, begins, show c ≠ ']' from other .list]

/-- What the loop over a list does at an item that is there and means something. -/
theorem Step.Items.reads (means : item.Means meaning) {found : List α}
    (listed : (Step.more cs).Items items rest) (given : List.Forall₂ meaning items found) :
    ∃ a middle step others later, item.run cs = .ok (a, middle) ∧ nextElement middle = .ok step ∧
      found = a :: later ∧ step.Items others rest ∧ List.Forall₂ meaning others later := by
  obtain ⟨first, others, middle, rfl, spelled, tail⟩ := listed
  obtain ⟨step, next, listed⟩ := nextElement_items.2 tail
  cases given with
  | @cons _ a _ later head given =>
      have read := (means cs a middle).2 ⟨first, spelled, head⟩
      exact ⟨a, middle, step, others, later, read, next, rfl, listed, given⟩

theorem elements_eq_ok_iff (means : item.Means meaning) {taken as : List α} {step : Step} :
    elements item taken step = .ok (as, rest) ↔
      ∃ items found, as = taken.reverse ++ found ∧ step.Items items rest ∧
        List.Forall₂ meaning items found := by
  fun_induction elements item taken step with
  | case1 taken rest' =>
      constructor
      · intro same
        cases same
        exact ⟨[], [], by simp, ⟨rfl, rfl⟩, .nil⟩
      · rintro ⟨items, found, rfl, ⟨rfl, rfl⟩, ⟨⟩⟩
        simp
  | case4 taken cs a middle readItem step' readStep _ ih =>
      rw [ih]
      constructor
      · rintro ⟨items, found, rfl, listed, given⟩
        obtain ⟨first, spelled, head⟩ := (means cs a middle).1 readItem
        have tail := nextElement_items.1 ⟨step', readStep, listed⟩
        exact ⟨first :: items, a :: found, by simp,
          ⟨first, items, middle, rfl, spelled, tail⟩, .cons head given⟩
      · rintro ⟨items, found, rfl, listed, given⟩
        obtain ⟨b, middle', step, others, later, read, next, rfl, listed', given'⟩ :=
          listed.reads means given
        rw [readItem] at read
        cases read
        rw [readStep] at next
        cases next
        exact ⟨others, later, by simp, listed', given'⟩
  | _ =>
      -- The loop has failed where the list has an item.
      simp only [reduceCtorEq, false_iff]
      rintro ⟨items, found, -, listed, given⟩
      obtain ⟨a, middle, step, others, later, read, next, -⟩ := listed.reads means given
      simp_all

theorem readList_eq_ok_iff (means : item.Means meaning) {as : List α} :
    readList item cs = .ok (as, rest) ↔
      ∃ items, Entries .list Outline.Spelled items cs rest ∧ List.Forall₂ meaning items as := by
  rw [readList]
  constructor
  · intro read
    split at read
    · simp at read
    · rename_i step first
      obtain ⟨items, found, rfl, listed, given⟩ := (elements_eq_ok_iff means).1 read
      exact ⟨items, firstElement_items.1 ⟨step, first, listed⟩, given⟩
  · rintro ⟨items, entries, given⟩
    obtain ⟨step, first, listed⟩ := firstElement_items.2 entries
    rw [first]
    exact (elements_eq_ok_iff means).2 ⟨items, as, rfl, listed, given⟩

theorem list_means (means : item.Means meaning) (budget : Nat) :
    (list budget item).Means fun outline as =>
      0 < budget ∧ ∃ items, outline = .array items ∧ List.Forall₂ meaning items as := by
  intro cs as rest
  rw [list, Reader.byFirst_eq_ok_iff]
  constructor
  · rintro ⟨c, cs', begins, read⟩
    split at read
    · rename_i bracket
      subst bracket
      split at read
      · simp at read
      · rename_i room
        obtain ⟨items, entries, given⟩ := (readList_eq_ok_iff means).1 read
        exact ⟨_, .array begins entries, Nat.pos_of_ne_zero room, items, rfl, given⟩
    · simp at read
  · rintro ⟨outline, spelled, room, items, rfl, given⟩
    cases spelled with
    | array bracket entries =>
        refine ⟨'[', _, bracket, ?_⟩
        rw [if_pos rfl, if_neg (Nat.ne_of_gt room)]
        exact (readList_eq_ok_iff means).2 ⟨items, entries, given⟩

end Lists

/-! ### Objects -/

section Objects

variable {α : Type} {value : Reader α} {meaning : Outline → α → Prop}
  {outlines : List (Option String × Outline)} {cs rest : List Char}

/-- The members that an object has from the step on. The opening quote of the first key is already
taken. -/
def Step.Members (outlines : List (Option String × Outline)) (rest : List Char) : Step → Prop
  | .done rest' => outlines = [] ∧ rest' = rest
  | .more cs =>
      ∃ given others cs₁ cs₂ middle, outlines = (textValue? cs, given) :: others ∧
        skimCharacters cs = .ok cs₁ ∧ afterBlanks cs₁ = ':' :: cs₂ ∧ given.Spelled cs₂ middle ∧
        Tail .object (Member Outline.Spelled) others middle rest

theorem firstMember_members :
    (∃ step, firstMember cs = .ok step ∧ step.Members outlines rest) ↔
      Entries .object (Member Outline.Spelled) outlines cs rest := by
  rw [firstMember]
  constructor
  · rintro ⟨step, found, listed⟩
    split at found
    · simp at found
    · rename_i c cs' begins
      split at found
      · rename_i close
        subst close
        cases found
        obtain ⟨rfl, rfl⟩ := listed
        exact .none begins
      · split at found
        · rename_i quote
          subst quote
          cases found
          obtain ⟨given, others, cs₁, cs₂, middle, rfl, key, colon, spelled, tail⟩ := listed
          exact .some (.keyed begins key colon spelled) tail
        · simp at found
  · intro entries
    cases entries with
    | none close => exact ⟨.done rest, by simp [close, Frame.closer], rfl, rfl⟩
    | some first others =>
        cases first with
        | keyed quote key colon spelled =>
            exact ⟨.more _, by simp [quote], _, _, _, _, _, rfl, key, colon, spelled, others⟩

theorem nextMember_members :
    (∃ step, nextMember cs = .ok step ∧ step.Members outlines rest) ↔
      Tail .object (Member Outline.Spelled) outlines cs rest := by
  rw [nextMember]
  constructor
  · rintro ⟨step, found, listed⟩
    split at found
    · simp at found
    · rename_i c cs' begins
      split at found
      · rename_i close
        subst close
        cases found
        obtain ⟨rfl, rfl⟩ := listed
        exact .closed begins
      · split at found
        · rename_i comma
          subst comma
          split at found
          · simp at found
          · rename_i d cs'' begins'
            split at found
            · rename_i quote
              subst quote
              cases found
              obtain ⟨given, others, cs₁, cs₂, middle, rfl, key, colon, spelled, tail⟩ := listed
              exact .comma begins (.keyed begins' key colon spelled) tail
            · split at found <;> simp at found
        · simp at found
  · intro tail
    cases tail with
    | closed close => exact ⟨.done rest, by simp [close, Frame.closer], rfl, rfl⟩
    | comma comma next others =>
        cases next with
        | keyed quote key colon spelled =>
            exact ⟨.more _, by simp [comma, quote], _, _, _, _, _, rfl, key, colon, spelled, others⟩

/-- A member that a reader takes: the key can be read as well. -/
def KeyedBy (meaning : Outline → α → Prop) (outline : Option String × Outline)
    (found : String × α) : Prop :=
  outline.1 = some found.1 ∧ meaning outline.2 found.2

/-- What the loop over an object does at a member that is there and means something. -/
theorem Step.Members.reads (means : value.Means meaning) {found : List (String × α)}
    (listed : (Step.more cs).Members outlines rest)
    (given : List.Forall₂ (KeyedBy meaning) outlines found) :
    ∃ key a cs₁ cs₂ middle step others later, quoted.run cs = .ok (key, cs₁) ∧
      readColon cs₁ = .ok cs₂ ∧ value.run cs₂ = .ok (a, middle) ∧ nextMember middle = .ok step ∧
      found = (key, a) :: later ∧ step.Members others rest ∧
      List.Forall₂ (KeyedBy meaning) others later := by
  obtain ⟨first, others, cs₁, cs₂, middle, rfl, skimmed, colon, spelled, tail⟩ := listed
  obtain ⟨step, next, listed⟩ := nextMember_members.2 tail
  cases given with
  | @cons _ member _ later head given =>
      obtain ⟨key, a⟩ := member
      exact ⟨key, a, cs₁, cs₂, middle, step, others, later,
        quoted_eq_ok_iff.2 ⟨skimmed, head.1⟩, readColon_eq_ok_iff.2 colon,
        (means cs₂ a middle).2 ⟨first, spelled, head.2⟩, next, rfl, listed, given⟩

theorem members_eq_ok_iff (means : value.Means meaning) {taken found : List (String × α)}
    {step : Step} :
    members value taken step = .ok (found, rest) ↔
      ∃ outlines later, found = taken.reverse ++ later ∧ step.Members outlines rest ∧
        List.Forall₂ (KeyedBy meaning) outlines later := by
  fun_induction members value taken step with
  | case1 taken rest' =>
      constructor
      · intro same
        cases same
        exact ⟨[], [], by simp, ⟨rfl, rfl⟩, .nil⟩
      · rintro ⟨outlines, later, rfl, ⟨rfl, rfl⟩, ⟨⟩⟩
        simp
  | case6 taken cs key cs₁ readKey cs₂ colon a middle readValue step' readStep _ ih =>
      rw [ih]
      constructor
      · rintro ⟨outlines, later, rfl, listed, given⟩
        obtain ⟨skimmed, value⟩ := quoted_eq_ok_iff.1 readKey
        obtain ⟨first, spelled, head⟩ := (means cs₂ a middle).1 readValue
        have tail := nextMember_members.1 ⟨step', readStep, listed⟩
        exact ⟨(textValue? cs, first) :: outlines, (key, a) :: later, by simp,
          ⟨first, outlines, cs₁, cs₂, middle, rfl, skimmed, readColon_eq_ok_iff.1 colon, spelled,
            tail⟩, .cons ⟨value, head⟩ given⟩
      · rintro ⟨outlines, later, rfl, listed, given⟩
        obtain ⟨key', b, cs₁', cs₂', middle', step, others, later, readKey', colon', read, next,
          rfl, listed', given'⟩ := listed.reads means given
        rw [readKey] at readKey'
        cases readKey'
        rw [colon] at colon'
        cases colon'
        rw [readValue] at read
        cases read
        rw [readStep] at next
        cases next
        exact ⟨others, later, by simp, listed', given'⟩
  | _ =>
      simp only [reduceCtorEq, false_iff]
      rintro ⟨outlines, later, -, listed, given⟩
      obtain ⟨key, a, cs₁, cs₂, middle, step, others, later, readKey, colon, read, next, -⟩ :=
        listed.reads means given
      simp_all

theorem readObject_eq_ok_iff (means : value.Means meaning) {found : List (String × α)} :
    readObject value cs = .ok (found, rest) ↔
      ∃ outlines, Entries .object (Member Outline.Spelled) outlines cs rest ∧
        List.Forall₂ (KeyedBy meaning) outlines found := by
  rw [readObject]
  constructor
  · intro read
    split at read
    · simp at read
    · rename_i step first
      obtain ⟨outlines, later, rfl, listed, given⟩ := (members_eq_ok_iff means).1 read
      exact ⟨outlines, firstMember_members.1 ⟨step, first, listed⟩, given⟩
  · rintro ⟨outlines, entries, given⟩
    obtain ⟨step, first, listed⟩ := firstMember_members.2 entries
    rw [first]
    exact (members_eq_ok_iff means).2 ⟨outlines, found, rfl, listed, given⟩

end Objects

/-! ### Trees -/

namespace Tree

mutual

/-- The outline of a tree: nothing in it is unknown. -/
def outline : Tree → Outline
  | .null => .null
  | .boolean b => .boolean b
  | .number n => .number (some n)
  | .string s => .string (some s)
  | .array items => .array (outlines items)
  | .object members => .object (memberOutlines members)

/-- The outlines of trees. -/
def outlines : List Tree → List Outline
  | [] => []
  | item :: items => item.outline :: outlines items

/-- The outlines of members. -/
def memberOutlines : List (String × Tree) → List (Option String × Outline)
  | [] => []
  | (key, value) :: members => (some key, value.outline) :: memberOutlines members

end

theorem outlines_eq_map (items : List Tree) : outlines items = items.map outline := by
  induction items with
  | nil => rfl
  | cons item items ih => simp [outlines, ih]

theorem memberOutlines_eq_map (members : List (String × Tree)) :
    memberOutlines members = members.map fun member => (some member.1, member.2.outline) := by
  induction members with
  | nil => rfl
  | cons member members ih => simp [memberOutlines, ih]

variable {budget : Nat}

theorem depthOfItems_lt_iff {items : List Tree} :
    depthOfItems items < budget ↔ 0 < budget ∧ ∀ item ∈ items, item.depth < budget := by
  induction items with
  | nil => simp [depthOfItems]
  | cons item items ih =>
      simp only [depthOfItems, Nat.max_lt, ih, List.forall_mem_cons]
      exact and_left_comm

theorem depthOfMembers_lt_iff {members : List (String × Tree)} :
    depthOfMembers members < budget ↔ 0 < budget ∧ ∀ member ∈ members, member.2.depth < budget := by
  induction members with
  | nil => simp [depthOfMembers]
  | cons member members ih =>
      obtain ⟨key, value⟩ := member
      simp only [depthOfMembers, Nat.max_lt, ih, List.forall_mem_cons]
      exact and_left_comm

theorem depth_lt_of_mem_items {items : List Tree} {item : Tree} (member : item ∈ items) :
    item.depth < (array items).depth :=
  (depthOfItems_lt_iff.1 (Nat.lt_succ_self _)).2 item member

theorem depth_lt_of_mem_members {members : List (String × Tree)} {pair : String × Tree}
    (member : pair ∈ members) : pair.2.depth < (object members).depth :=
  (depthOfMembers_lt_iff.1 (Nat.lt_succ_self _)).2 pair member

/-- The outline is that of the tree, which opens fewer brackets than the budget inside one
another. -/
def Below (budget : Nat) (outline : Outline) (tree : Tree) : Prop :=
  outline = tree.outline ∧ tree.depth < budget

theorem forall₂_below_iff {found : List Outline} {items : List Tree} :
    List.Forall₂ (Below budget) found items ↔
      found = outlines items ∧ ∀ item ∈ items, item.depth < budget := by
  induction items generalizing found with
  | nil => simp [outlines]
  | cons item items ih =>
      rw [List.forall₂_cons_right_iff, outlines, List.forall_mem_cons]
      constructor
      · rintro ⟨first, others, ⟨rfl, small⟩, later, rfl⟩
        obtain ⟨rfl, rest⟩ := ih.1 later
        exact ⟨rfl, small, rest⟩
      · rintro ⟨rfl, small, rest⟩
        exact ⟨_, _, ⟨rfl, small⟩, ih.2 ⟨rfl, rest⟩, rfl⟩

theorem forall₂_keyedBy_below_iff {found : List (Option String × Outline)}
    {members : List (String × Tree)} :
    List.Forall₂ (KeyedBy (Below budget)) found members ↔
      found = memberOutlines members ∧ ∀ member ∈ members, member.2.depth < budget := by
  induction members generalizing found with
  | nil => simp [memberOutlines]
  | cons member members ih =>
      obtain ⟨key, value⟩ := member
      rw [List.forall₂_cons_right_iff, memberOutlines, List.forall_mem_cons]
      constructor
      · rintro ⟨⟨text, first⟩, others, ⟨rfl, rfl, small⟩, later, rfl⟩
        obtain ⟨rfl, rest⟩ := ih.1 later
        exact ⟨rfl, small, rest⟩
      · rintro ⟨rfl, small, rest⟩
        exact ⟨(some key, value.outline), _, ⟨rfl, rfl, small⟩, ih.2 ⟨rfl, rest⟩, rfl⟩

theorem dispatch_digit {inner : Reader Tree} {c : Char} (digit : isDigit c = true)
    (cs : List Char) :
    dispatch budget inner c cs = (numeral false (c :: cs)).onValue .number := by
  have other {d : Char} (plain : isDigit d = false) := ne_of_isDigit digit plain
  rw [dispatch, if_neg (other (by decide)), if_neg (other (by decide)), if_neg (other (by decide)),
    if_neg (other (by decide)), if_pos digit]

/-- A bracket is read only if the budget has room for it. -/
theorem spent_eq_ok_iff {α : Type} {result : Result α} {wrap : α → Tree} {fault : Fault}
    {tree : Tree} {rest : List Char} :
    (if budget = 0 then .error fault else result.onValue wrap) = .ok (tree, rest) ↔
      0 < budget ∧ ∃ a, result = .ok (a, rest) ∧ wrap a = tree := by
  by_cases spent : budget = 0
  · simp [spent]
  · rw [if_neg spent, Result.onValue_eq_ok_iff]
    simp [Nat.pos_of_ne_zero spent]

section Dispatch

variable {inner : Reader Tree} {c : Char} {cs cs' rest : List Char} {tree : Tree}

theorem spelled_of_dispatch (means : inner.Means (Below budget))
    (begins : afterBlanks cs = c :: cs') (read : dispatch budget inner c cs' = .ok (tree, rest)) :
    tree.outline.Spelled cs rest ∧ tree.depth ≤ budget := by
  rw [dispatch] at read
  by_cases null : c = 'n'
  · rw [if_pos null] at read
    obtain ⟨rfl, rfl⟩ := readWord_eq_ok_iff.1 read
    exact ⟨.null (by rw [begins, null]; rfl), Nat.zero_le _⟩
  rw [if_neg null] at read
  by_cases yes : c = 't'
  · rw [if_pos yes] at read
    obtain ⟨rfl, rfl⟩ := readWord_eq_ok_iff.1 read
    exact ⟨.yes (by rw [begins, yes]; rfl), Nat.zero_le _⟩
  rw [if_neg yes] at read
  by_cases no : c = 'f'
  · rw [if_pos no] at read
    obtain ⟨rfl, rfl⟩ := readWord_eq_ok_iff.1 read
    exact ⟨.no (by rw [begins, no]; rfl), Nat.zero_le _⟩
  rw [if_neg no] at read
  by_cases minus : c = '-'
  · rw [if_pos minus] at read
    obtain ⟨n, number, rfl⟩ := Result.onValue_eq_ok_iff.1 read
    rw [minus] at begins
    exact ⟨Outline.spelled_number_iff.2 (.inl ⟨cs', begins, number⟩), Nat.zero_le _⟩
  rw [if_neg minus] at read
  by_cases digit : isDigit c
  · rw [if_pos digit] at read
    obtain ⟨n, number, rfl⟩ := Result.onValue_eq_ok_iff.1 read
    rw [← begins] at number
    exact ⟨Outline.spelled_number_iff.2 (.inr number), Nat.zero_le _⟩
  rw [if_neg digit] at read
  by_cases quote : c = '"'
  · rw [if_pos quote] at read
    obtain ⟨s, characters, rfl⟩ := Result.onValue_eq_ok_iff.1 read
    rw [quote] at begins
    exact ⟨Outline.spelled_string_iff.2 ⟨cs', begins, characters⟩, Nat.zero_le _⟩
  rw [if_neg quote] at read
  by_cases bracket : c = '['
  · rw [if_pos bracket] at read
    obtain ⟨room, items, listed, rfl⟩ := spent_eq_ok_iff.1 read
    obtain ⟨found, entries, given⟩ := (readList_eq_ok_iff means).1 listed
    obtain ⟨rfl, small⟩ := forall₂_below_iff.1 given
    rw [bracket] at begins
    exact ⟨.array begins entries, depthOfItems_lt_iff.2 ⟨room, small⟩⟩
  rw [if_neg bracket] at read
  by_cases brace : c = '\x7b'
  · rw [if_pos brace] at read
    obtain ⟨room, members, listed, rfl⟩ := spent_eq_ok_iff.1 read
    obtain ⟨found, entries, given⟩ := (readObject_eq_ok_iff means).1 listed
    obtain ⟨rfl, small⟩ := forall₂_keyedBy_below_iff.1 given
    rw [brace] at begins
    exact ⟨.object begins entries, depthOfMembers_lt_iff.2 ⟨room, small⟩⟩
  rw [if_neg brace] at read
  simp at read

theorem dispatch_of_spelled (means : inner.Means (Below budget))
    (begins : afterBlanks cs = c :: cs') (spelled : tree.outline.Spelled cs rest)
    (fits : tree.depth ≤ budget) :
    dispatch budget inner c cs' = .ok (tree, rest) := by
  cases tree with
  | null =>
      cases spelled with
      | null word =>
          obtain ⟨rfl, rfl⟩ := List.cons.inj (begins.symm.trans word)
          exact readWord_eq_ok_iff.2 ⟨rfl, rfl⟩
  | boolean b =>
      cases spelled with
      | yes word =>
          obtain ⟨rfl, rfl⟩ := List.cons.inj (begins.symm.trans word)
          exact readWord_eq_ok_iff.2 ⟨rfl, rfl⟩
      | no word =>
          obtain ⟨rfl, rfl⟩ := List.cons.inj (begins.symm.trans word)
          exact readWord_eq_ok_iff.2 ⟨rfl, rfl⟩
  | number n =>
      obtain ⟨cs'', minus, number⟩ | number := Outline.spelled_number_iff.1 spelled
      · obtain ⟨rfl, rfl⟩ := List.cons.inj (begins.symm.trans minus)
        exact Result.onValue_eq_ok_iff.2 ⟨n, number, rfl⟩
      · obtain ⟨spelling, digits, -⟩ := numeral_eq_ok_iff.1 number
        obtain ⟨d, ds, front, digit⟩ := head_of_scanNumeral digits
        obtain ⟨rfl, rfl⟩ := List.cons.inj (begins.symm.trans front)
        rw [begins] at number
        rw [dispatch_digit digit]
        exact Result.onValue_eq_ok_iff.2 ⟨n, number, rfl⟩
  | string s =>
      obtain ⟨cs'', quote, characters⟩ := Outline.spelled_string_iff.1 spelled
      obtain ⟨rfl, rfl⟩ := List.cons.inj (begins.symm.trans quote)
      exact Result.onValue_eq_ok_iff.2 ⟨s, characters, rfl⟩
  | array items =>
      cases spelled with
      | array bracket entries =>
          obtain ⟨rfl, rfl⟩ := List.cons.inj (begins.symm.trans bracket)
          obtain ⟨room, small⟩ := depthOfItems_lt_iff.1 fits
          have given := forall₂_below_iff.2 ⟨rfl, small⟩
          have listed := (readList_eq_ok_iff means).2 ⟨_, entries, given⟩
          exact spent_eq_ok_iff.2 ⟨room, items, listed, rfl⟩
  | object members =>
      cases spelled with
      | object brace entries =>
          obtain ⟨rfl, rfl⟩ := List.cons.inj (begins.symm.trans brace)
          obtain ⟨room, small⟩ := depthOfMembers_lt_iff.1 fits
          have given := forall₂_keyedBy_below_iff.2 ⟨rfl, small⟩
          have listed := (readObject_eq_ok_iff means).2 ⟨_, entries, given⟩
          exact spent_eq_ok_iff.2 ⟨room, members, listed, rfl⟩

end Dispatch

/-- A tree is read from exactly the texts of its outline, if the budget admits it. -/
theorem read_means (budget : Nat) :
    (read budget).Means fun outline tree => outline = tree.outline ∧ tree.depth ≤ budget := by
  have means {inner : Reader Tree} {budget : Nat} (below : inner.Means (Below budget)) :
      (Reader.byFirst (dispatch budget inner) length_le_of_dispatch).Means
        fun outline tree => outline = tree.outline ∧ tree.depth ≤ budget := by
    intro cs tree rest
    rw [Reader.byFirst_eq_ok_iff]
    constructor
    · rintro ⟨c, cs', begins, read⟩
      obtain ⟨spelled, fits⟩ := spelled_of_dispatch below begins read
      exact ⟨tree.outline, spelled, rfl, fits⟩
    · rintro ⟨outline, spelled, rfl, fits⟩
      obtain ⟨c, cs', begins, -⟩ := spelled.head
      exact ⟨c, cs', begins, dispatch_of_spelled below begins spelled fits⟩
  induction budget with
  | zero => exact means ((refuse_means _).congr (by simp [Below]))
  | succ budget ih =>
      refine means (ih.congr ?_)
      intro outline tree
      rw [Below, Nat.lt_succ_iff]

end Tree

end Liquefy.Json
