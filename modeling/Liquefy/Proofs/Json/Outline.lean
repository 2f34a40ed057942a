import Liquefy.Json.Record
import Liquefy.Json.Tree.Reading
import Liquefy.Proofs.Json.Lexemes

/-!
# The outline of a text

A text can be well-formed although not every value in it is known: a number may lie beyond
binary64, and the escapes of a string may leave half of a surrogate pair. The outline of a text has
a place for such a value and leaves the value out. `Outline.Spelled` is the grammar of JSON; it has
no limit on nesting, and a text has at most one outline. Which characters its blanks, strings and
numbers consist of is said by `afterBlanks_eq_cons_iff`, `skimCharacters_eq_ok_iff`,
`textValue?_eq_some_iff` and `scanNumeral_eq_ok_iff`.
-/

namespace Liquefy.Json

/-- A JSON value as far as its text makes it known. -/
inductive Outline where
  | null
  | boolean (b : Bool)
  /-- A number; one beyond binary64 has no value. -/
  | number (value : Option Numeral)
  /-- A string; one with half of a surrogate pair has no value. -/
  | string (value : Option String)
  | array (items : List Outline)
  /-- The members as they are written, repeated keys included. -/
  | object (members : List (Option String × Outline))

/-! ### The grammar -/

section Grammar

variable {α : Type}

/-- What follows an entry of a list or an object: further entries, each behind a comma, and the
closing bracket. -/
inductive Tail (frame : Frame) (entry : α → List Char → List Char → Prop) :
    List α → List Char → List Char → Prop
  | closed {cs rest : List Char} (close : afterBlanks cs = frame.closer :: rest) :
      Tail frame entry [] cs rest
  | comma {a : α} {as : List α} {cs cs' middle rest : List Char}
      (comma : afterBlanks cs = ',' :: cs') (next : entry a cs' middle)
      (others : Tail frame entry as middle rest) : Tail frame entry (a :: as) cs rest

/-- What follows an opening bracket. -/
inductive Entries (frame : Frame) (entry : α → List Char → List Char → Prop) :
    List α → List Char → List Char → Prop
  | none {cs rest : List Char} (close : afterBlanks cs = frame.closer :: rest) :
      Entries frame entry [] cs rest
  | some {a : α} {as : List α} {cs middle rest : List Char} (first : entry a cs middle)
      (others : Tail frame entry as middle rest) : Entries frame entry (a :: as) cs rest

/-- The value of a string after its opening quote. -/
def textValue? (cs : List Char) : Option String := (quoted.run cs).toOption.map Prod.fst

/-- A member of an object: a key, a colon and a value. -/
inductive Member (value : α → List Char → List Char → Prop) :
    Option String × α → List Char → List Char → Prop
  | keyed {a : α} {cs cs₁ cs₂ cs₃ rest : List Char} (quote : afterBlanks cs = '"' :: cs₁)
      (key : skimCharacters cs₁ = .ok cs₂) (colon : afterBlanks cs₂ = ':' :: cs₃)
      (given : value a cs₃ rest) : Member value (textValue? cs₁, a) cs rest

end Grammar

/-- The outline is spelled at the front of the first text, and the second one follows. -/
inductive Outline.Spelled : Outline → List Char → List Char → Prop
  | null {cs rest : List Char} (word : afterBlanks cs = 'n' :: 'u' :: 'l' :: 'l' :: rest) :
      Spelled .null cs rest
  | yes {cs rest : List Char} (word : afterBlanks cs = 't' :: 'r' :: 'u' :: 'e' :: rest) :
      Spelled (.boolean true) cs rest
  | no {cs rest : List Char} (word : afterBlanks cs = 'f' :: 'a' :: 'l' :: 's' :: 'e' :: rest) :
      Spelled (.boolean false) cs rest
  | negative {cs cs' rest : List Char} {spelling : Spelling} (minus : afterBlanks cs = '-' :: cs')
      (digits : scanNumeral cs' = .ok (spelling, rest)) :
      Spelled (.number (spelling.value true).toOption) cs rest
  | positive {cs rest : List Char} {spelling : Spelling}
      (digits : scanNumeral (afterBlanks cs) = .ok (spelling, rest)) :
      Spelled (.number (spelling.value false).toOption) cs rest
  | string {cs cs' rest : List Char} (quote : afterBlanks cs = '"' :: cs')
      (characters : skimCharacters cs' = .ok rest) : Spelled (.string (textValue? cs')) cs rest
  | array {items : List Outline} {cs cs' rest : List Char} (bracket : afterBlanks cs = '[' :: cs')
      (entries : Entries .list Spelled items cs' rest) : Spelled (.array items) cs rest
  | object {members : List (Option String × Outline)} {cs cs' rest : List Char}
      (brace : afterBlanks cs = '\x7b' :: cs')
      (entries : Entries .object (Member Spelled) members cs' rest) :
      Spelled (.object members) cs rest

/-- The value of a string is what its characters spell, up to the closing quote. -/
theorem textValue?_eq_some_iff {cs : List Char} {s : String} :
    textValue? cs = some s ↔ ∃ rest, StringSpelled s.toList cs rest := by
  simp only [← quoted_run_eq_ok_iff]
  rcases found : quoted.run cs with fault | ⟨s', rest⟩
  · simp [textValue?, found, Except.toOption]
  · simp [textValue?, found, Except.toOption]

/-! ### Blanks before a value make no difference -/

@[simp]
theorem afterBlanks_afterBlanks (cs : List Char) :
    afterBlanks (afterBlanks cs) = afterBlanks cs := by
  induction cs with
  | nil => rfl
  | cons c cs ih => cases blank : isBlank c <;> simp_all [afterBlanks]

theorem Outline.Spelled.congr {outline : Outline} {cs cs' rest : List Char}
    (same : afterBlanks cs = afterBlanks cs') (spelled : outline.Spelled cs rest) :
    outline.Spelled cs' rest := by
  cases spelled with
  | null word => exact .null (same ▸ word)
  | yes word => exact .yes (same ▸ word)
  | no word => exact .no (same ▸ word)
  | negative minus digits => exact .negative (same ▸ minus) digits
  | positive digits => exact .positive (same ▸ digits)
  | string quote characters => exact .string (same ▸ quote) characters
  | array bracket entries => exact .array (same ▸ bracket) entries
  | object brace entries => exact .object (same ▸ brace) entries

theorem Outline.spelled_afterBlanks_iff {outline : Outline} {cs rest : List Char} :
    outline.Spelled (afterBlanks cs) rest ↔ outline.Spelled cs rest :=
  ⟨.congr (afterBlanks_afterBlanks cs), .congr (afterBlanks_afterBlanks cs).symm⟩

/-! ### Induction over outlines -/

namespace Outline

/-- The outlines directly inside an outline. -/
def children : Outline → List Outline
  | .array items => items
  | .object members => members.map Prod.snd
  | _ => []

theorem sizeOf_lt_of_mem_children {outline child : Outline} (member : child ∈ outline.children) :
    sizeOf child < sizeOf outline := by
  cases outline with
  | array items =>
      have := List.sizeOf_lt_of_mem member
      simp only [children] at this
      simp only [array.sizeOf_spec]
      omega
  | object members =>
      obtain ⟨⟨key, value⟩, among, rfl⟩ := List.mem_map.1 member
      have := List.sizeOf_lt_of_mem among
      simp only [Prod.mk.sizeOf_spec] at this
      simp only [object.sizeOf_spec]
      omega
  | _ => simp [children] at member

/-- What holds of an outline whenever it holds of those directly inside holds of every outline. -/
theorem induction {P : Outline → Prop}
    (step : ∀ outline, (∀ child ∈ outline.children, P child) → P outline) (outline : Outline) :
    P outline :=
  step outline fun child _ => induction step child
termination_by sizeOf outline
decreasing_by
  rename_i member
  exact sizeOf_lt_of_mem_children member

end Outline

/-! ### A text has one outline -/

/-- The kinds of values that are told apart by their first character. -/
inductive Shape where
  | null
  | boolean (b : Bool)
  | number
  | string
  | array
  | object

/-- The shape of a value that begins with the given character. -/
def Shape.ofFirst (c : Char) : Shape :=
  if c = 'n' then .null
  else if c = 't' then .boolean true
  else if c = 'f' then .boolean false
  else if c = '"' then .string
  else if c = '[' then .array
  else if c = '\x7b' then .object
  else .number

/-- The shape of an outline. -/
def Outline.shape : Outline → Shape
  | .null => .null
  | .boolean b => .boolean b
  | .number _ => .number
  | .string _ => .string
  | .array _ => .array
  | .object _ => .object

theorem ne_of_isDigit {c d : Char} (digit : isDigit c = true) (other : isDigit d = false) :
    c ≠ d := by
  rintro rfl
  simp [digit] at other

theorem head_of_scanNumeral {cs rest : List Char} {spelling : Spelling}
    (scanned : scanNumeral cs = .ok (spelling, rest)) :
    ∃ c cs', cs = c :: cs' ∧ isDigit c = true := by
  obtain ⟨digits⟩ := scanNumeral_eq_ok_iff.1 scanned
  obtain ⟨c, cs', rfl⟩ := List.exists_cons_of_ne_nil digits.nonempty
  exact ⟨c, _, rfl, isDigit_eq_true_iff.2 (digits.decimal c (by simp))⟩

/-- A value begins with a character that shows its shape, and never with one that ends something
else. -/
theorem Outline.Spelled.head {outline : Outline} {cs rest : List Char}
    (spelled : outline.Spelled cs rest) :
    ∃ c cs', afterBlanks cs = c :: cs' ∧ Shape.ofFirst c = outline.shape ∧
      ∀ frame : Frame, c ≠ frame.closer := by
  cases spelled with
  | null word => exact ⟨_, _, word, rfl, by rintro ⟨⟩ <;> decide⟩
  | yes word => exact ⟨_, _, word, rfl, by rintro ⟨⟩ <;> decide⟩
  | no word => exact ⟨_, _, word, rfl, by rintro ⟨⟩ <;> decide⟩
  | negative minus digits => exact ⟨_, _, minus, rfl, by rintro ⟨⟩ <;> decide⟩
  | positive digits =>
      obtain ⟨c, cs', begins, digit⟩ := head_of_scanNumeral digits
      have other {d : Char} (plain : isDigit d = false) := ne_of_isDigit digit plain
      refine ⟨c, cs', begins, ?_, ?_⟩
      · simp only [Shape.ofFirst, Outline.shape]
        rw [if_neg (other (by decide)), if_neg (other (by decide)), if_neg (other (by decide)),
          if_neg (other (by decide)), if_neg (other (by decide)), if_neg (other (by decide))]
      · rintro ⟨⟩
        · exact other (by decide)
        · exact other (by decide)
  | string quote characters => exact ⟨_, _, quote, rfl, by rintro ⟨⟩ <;> decide⟩
  | array bracket entries => exact ⟨_, _, bracket, rfl, by rintro ⟨⟩ <;> decide⟩
  | object brace entries => exact ⟨_, _, brace, rfl, by rintro ⟨⟩ <;> decide⟩

theorem Outline.Spelled.shape_eq {outline other : Outline} {cs rest rest' : List Char}
    (spelled : outline.Spelled cs rest) (spelled' : other.Spelled cs rest') :
    outline.shape = other.shape := by
  obtain ⟨c, cs', begins, shape, -⟩ := spelled.head
  obtain ⟨c', cs'', begins', shape', -⟩ := spelled'.head
  rw [begins] at begins'
  cases begins'
  exact shape.symm.trans shape'

section Unique

variable {α : Type} {frame : Frame} {entry : α → List Char → List Char → Prop} {as bs : List α}
  {cs rest rest' : List Char}

theorem Tail.unique (tail : Tail frame entry as cs rest) (tail' : Tail frame entry bs cs rest')
    (each : ∀ a ∈ as, ∀ {b cs rest rest'}, entry a cs rest → entry b cs rest' →
      a = b ∧ rest = rest') : as = bs ∧ rest = rest' := by
  have separate : ',' ≠ frame.closer := by cases frame <;> decide
  induction tail generalizing bs rest' with
  | closed close =>
      cases tail' with
      | closed close' => simp_all
      | comma comma' => simp_all
  | @comma a as cs cs' middle rest comma next others ih =>
      cases tail' with
      | closed close' => simp_all
      | comma comma' next' others' =>
          rw [comma] at comma'
          cases comma'
          obtain ⟨rfl, rfl⟩ := each a (by simp) next next'
          obtain ⟨rfl, rfl⟩ :=
            ih others' fun b member => each b (List.mem_cons_of_mem _ member)
          exact ⟨rfl, rfl⟩

theorem Entries.unique (entries : Entries frame entry as cs rest)
    (entries' : Entries frame entry bs cs rest')
    (begins : ∀ {a cs rest rest'}, entry a cs rest → afterBlanks cs ≠ frame.closer :: rest')
    (each : ∀ a ∈ as, ∀ {b cs rest rest'}, entry a cs rest → entry b cs rest' →
      a = b ∧ rest = rest') : as = bs ∧ rest = rest' := by
  cases entries with
  | none close =>
      cases entries' with
      | none close' => simp_all
      | some first' => exact absurd close (begins first')
  | some first others =>
      cases entries' with
      | none close' => exact absurd close' (begins first)
      | some first' others' =>
          obtain ⟨rfl, rfl⟩ := each _ (by simp) first first'
          obtain ⟨rfl, rfl⟩ :=
            others.unique others' fun b member => each b (List.mem_cons_of_mem _ member)
          exact ⟨rfl, rfl⟩

theorem Outline.Spelled.ne_closer {outline : Outline} (spelled : outline.Spelled cs rest) :
    afterBlanks cs ≠ frame.closer :: rest' := by
  obtain ⟨c, cs', begins, -, other⟩ := spelled.head
  rw [begins]
  intro same
  exact other frame (List.cons.inj same).1

theorem Member.ne_closer {value : α → List Char → List Char → Prop} {member : Option String × α}
    (spelled : Member value member cs rest) : afterBlanks cs ≠ frame.closer :: rest' := by
  cases spelled with
  | keyed quote =>
      rw [quote]
      intro same
      cases frame <;> simp [Frame.closer] at same

theorem Member.unique {value : α → List Char → List Char → Prop} {member other : Option String × α}
    (inner : ∀ {b cs rest rest'}, value member.2 cs rest → value b cs rest' →
      member.2 = b ∧ rest = rest')
    (spelled : Member value member cs rest) (spelled' : Member value other cs rest') :
    member = other ∧ rest = rest' := by
  cases spelled with
  | keyed quote key colon given =>
      cases spelled' with
      | keyed quote' key' colon' given' =>
          rw [quote] at quote'
          cases quote'
          rw [key] at key'
          cases key'
          rw [colon] at colon'
          cases colon'
          obtain ⟨rfl, rfl⟩ := inner given given'
          exact ⟨rfl, rfl⟩

theorem ne_minus_of_scanNumeral {spelling : Spelling} {cs' : List Char}
    (scanned : scanNumeral (afterBlanks cs) = .ok (spelling, rest)) :
    afterBlanks cs ≠ '-' :: cs' := by
  obtain ⟨c, cs'', begins, digit⟩ := head_of_scanNumeral scanned
  rw [begins]
  intro same
  cases same
  simp [isDigit] at digit

/-- A text has at most one outline, and it ends in one place. -/
theorem Outline.Spelled.unique {outline other : Outline} (spelled : outline.Spelled cs rest)
    (spelled' : other.Spelled cs rest') : outline = other ∧ rest = rest' := by
  induction outline using Outline.induction generalizing other cs rest rest' with
  | step outline ih =>
    have same := spelled.shape_eq spelled'
    cases spelled with
    | null word =>
        cases spelled' with
        | null word' => simp_all
        | _ => simp [Outline.shape] at same
    | yes word =>
        cases spelled' with
        | yes word' => simp_all
        | _ => simp [Outline.shape] at same
    | no word =>
        cases spelled' with
        | no word' => simp_all
        | _ => simp [Outline.shape] at same
    | negative minus digits =>
        cases spelled' with
        | negative minus' digits' => simp_all
        | positive digits' => exact absurd minus (ne_minus_of_scanNumeral digits')
        | _ => simp [Outline.shape] at same
    | positive digits =>
        cases spelled' with
        | negative minus' digits' => exact absurd minus' (ne_minus_of_scanNumeral digits)
        | positive digits' => simp_all
        | _ => simp [Outline.shape] at same
    | string quote characters =>
        cases spelled' with
        | string quote' characters' => simp_all
        | _ => simp [Outline.shape] at same
    | array bracket entries =>
        cases spelled' with
        | array bracket' entries' =>
            rw [bracket] at bracket'
            cases bracket'
            obtain ⟨rfl, rfl⟩ := entries.unique entries' Outline.Spelled.ne_closer
              fun item member => ih item member
            exact ⟨rfl, rfl⟩
        | _ => simp [Outline.shape] at same
    | object brace entries =>
        cases spelled' with
        | object brace' entries' =>
            rw [brace] at brace'
            cases brace'
            obtain ⟨rfl, rfl⟩ := entries.unique entries' Member.ne_closer fun member among =>
              Member.unique (ih member.2 (List.mem_map_of_mem among))
            exact ⟨rfl, rfl⟩
        | _ => simp [Outline.shape] at same

end Unique

end Liquefy.Json
