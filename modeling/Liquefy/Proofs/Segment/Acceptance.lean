import Liquefy.Proofs.Segment.Denotation

/-!
# Which texts are accepted

A segment is checked while its text is read, so what lies in a member that no record asks for is
never looked at: it may be nested without limit or have no value. `Outline.Denotes` is the wire
grammar with this freedom and with the budget of brackets. It is what the reader takes, and on
trees within the budget it is the grammar of trees.
-/

namespace Liquefy

open Json

/-! ### The grammar of outlines -/

/-- The arguments that a value denotes. It is read as a tree within the budget. -/
def Json.Outline.DenotesArguments (budget : Nat) (outline : Outline) (args : Arguments Segment) :
    Prop :=
  ∃ tree : Tree, outline = tree.outline ∧ tree.depth ≤ budget ∧
    Liquefy.DenotesArguments Tree.Denotes [tree] args

/-- The segment that the value under a tag denotes, where the budget is what is left for the
value's own bracket and `denotes` is for the segments inside. -/
inductive Json.Outline.DenotesPayload (budget : Nat) (denotes : Outline → Segment → Prop) :
    Tag → Outline → Segment → Prop
  | text (s : String) : DenotesPayload budget denotes .text (.string (some s)) (.text s)
  | string (s : String) : DenotesPayload budget denotes .string (.string (some s)) (.string s)
  | number (digits : String) :
      DenotesPayload budget denotes .number (.string (some digits)) (.number digits)
  | ending : DenotesPayload budget denotes .ending .null .ending
  | chain {items : List Outline} {segments : List Segment} (room : 0 < budget)
      (each : List.Forall₂ denotes items segments) :
      DenotesPayload budget denotes .chain (.array items) (.chain segments)
  | reference {members : List (Option String × Outline)} {name : String} (room : 0 < budget)
      (keyed : Record.Keyed members)
      (named : valuesAt (some "name") members = [.string (some name)]) :
      DenotesPayload budget denotes .reference (.object members) (.reference name)
  | referenceArray (name : String) (room : 0 < budget) :
      DenotesPayload budget denotes .reference (.array [.string (some name)]) (.reference name)
  | call {members : List (Option String × Outline)} {name : String}
      {args : Option (Arguments Segment)} (room : 0 < budget) (keyed : Record.Keyed members)
      (named : valuesAt (some "name") members = [.string (some name)])
      (given : Fill (DenotesArguments (budget - 1)) none (valuesAt (some "args") members) args) :
      DenotesPayload budget denotes .call (.object members) (.call name (args.getD .none))
  | callArray {values : List Outline} {name : String} {args : Option (Arguments Segment)}
      (room : 0 < budget) (given : Fill (DenotesArguments (budget - 1)) none values args) :
      DenotesPayload budget denotes .call (.array (.string (some name) :: values))
        (.call name (args.getD .none))
  | operator {tag : OperatorTag} {members : List (Option String × Outline)} {sign : String}
      {operand : Outline} {segment : Segment} (room : 0 < budget) (keyed : Record.Keyed members)
      (signed : valuesAt (some "op") members = [.string (some sign)])
      (alone : valuesAt (some "arg") members = [operand]) (given : denotes operand segment) :
      DenotesPayload budget denotes (.operator tag) (.object members)
        (.operator tag sign segment)
  | operatorArray {tag : OperatorTag} {sign : String} {operand : Outline} {segment : Segment}
      (room : 0 < budget) (given : denotes operand segment) :
      DenotesPayload budget denotes (.operator tag) (.array [.string (some sign), operand])
        (.operator tag sign segment)

/-- A segment is the bare name of an ending, or its tag is the only key of an object. -/
inductive Json.Outline.DenotesTagged (budget : Nat) (payload : Tag → Outline → Segment → Prop) :
    Outline → Segment → Prop
  | ending : DenotesTagged budget payload (.string (some Tag.ending.name)) .ending
  | tagged {tag : Tag} {outline : Outline} {segment : Segment} (room : 0 < budget)
      (given : payload tag outline segment) :
      DenotesTagged budget payload (.object [(some tag.name, outline)]) segment

/-- The segment that an outline denotes, if the budget admits the brackets that are looked at. -/
def Json.Outline.Denotes : (budget : Nat) → Outline → Segment → Prop
  | 0 => DenotesTagged 0 (DenotesPayload 0 fun _ _ => False)
  | 1 => DenotesTagged 1 (DenotesPayload 0 fun _ _ => False)
  | budget + 2 => DenotesTagged (budget + 2) (DenotesPayload (budget + 1) (Denotes budget))

/-- The template that an outline denotes. -/
inductive Json.Outline.DenotesTemplate (budget : Nat) : Outline → Template → Prop
  | object {members : List (Option String × Outline)} {items : List Outline}
      {segments : List Segment} (room : 1 < budget) (keyed : Record.Keyed members)
      (alone : valuesAt (some "template") members = [.array items])
      (each : List.Forall₂ (Outline.Denotes (budget - 2)) items segments) :
      DenotesTemplate budget (.object members) ⟨segments⟩
  | array {items : List Outline} {segments : List Segment} (room : 1 < budget)
      (each : List.Forall₂ (Outline.Denotes (budget - 2)) items segments) :
      DenotesTemplate budget (.array [.array items]) ⟨segments⟩

/-! ### The readers take this grammar -/

section Reading

variable {budget : Nat} {inside : Reader Segment} {denotes : Outline → Segment → Prop}

theorem checkArguments_eq_ok_iff {tree : Tree} {args : Arguments Segment} :
    checkArguments tree = .ok args ↔ Liquefy.DenotesArguments Tree.Denotes [tree] args := by
  rw [← Segment.argumentsOfTree?_iff_denotes, checkArguments]
  split <;> simp_all

theorem arguments_means (budget : Nat) :
    (arguments budget).Means (Outline.DenotesArguments budget) := by
  have checked := (Tree.read_means budget).checked checkArguments
  refine ((optional_means checked).map fun args => args.getD .none).congr fun outline args => ?_
  simp only [checkArguments_eq_ok_iff]
  constructor
  · rintro ⟨found, ⟨rfl, rfl⟩ | ⟨-, args, ⟨tree, ⟨rfl, fits⟩, given⟩, rfl⟩, rfl⟩
    · exact ⟨.null, rfl, Nat.zero_le _, .null⟩
    · exact ⟨tree, rfl, fits, given⟩
  · rintro ⟨tree, rfl, fits, given⟩
    by_cases absent : tree.outline = .null
    · obtain rfl : tree = .null := by
        cases tree <;> simp [Tree.outline] at absent ⊢
      refine ⟨none, .inl ⟨rfl, rfl⟩, ?_⟩
      cases given with
      | null => rfl
      | one given => cases given
    · exact ⟨some args, .inr ⟨absent, args, ⟨tree, ⟨rfl, fits⟩, given⟩, rfl⟩, rfl⟩

theorem referenceRecord_means (budget : Nat) :
    (referenceRecord.reader budget).Means
      (Outline.DenotesPayload budget denotes .reference) := by
  have only : referenceRecord.Single
      ⟨"name", Option.isSome, string.map fun s _ => some s, false⟩ := ⟨rfl, rfl, rfl, rfl⟩
  have means := only.reader_means (string_means.map fun s _ => some s)
    (by simp [referenceRecord, required, Except.map]) budget
  refine means.congr fun outline segment => ?_
  constructor
  · rintro ⟨room, value, name, rfl, finish, rfl | ⟨members, rfl, keyed, once⟩⟩
    · cases finish
      exact .referenceArray name room
    · cases finish
      exact .reference room keyed once
  · intro given
    cases given with
    | reference room keyed named =>
        exact ⟨room, _, _, rfl, rfl, .inr ⟨_, rfl, keyed, named⟩⟩
    | referenceArray name room => exact ⟨room, _, _, rfl, rfl, .inl rfl⟩

theorem callRecord_means (budget : Nat) :
    ((callRecord (budget - 1)).reader budget).Means
      (Outline.DenotesPayload budget denotes .call) := by
  have two : (callRecord (budget - 1)).Pair
      ⟨"name", fun draft => draft.name.isSome,
        string.map fun s draft => { draft with name := some s }, false⟩
      ⟨"args", fun draft => draft.args.isSome,
        (arguments (budget - 1)).map fun args draft => { draft with args := some args }, true⟩
      CallDraft.mk (fun s draft => { draft with name := some s })
      (fun args draft => { draft with args := some args }) := by
    constructor <;> simp [callRecord]
  have means := two.reader_means (string_means.map _) ((arguments_means _).map _)
    (by simp [callRecord, required]) budget
  refine means.congr fun outline segment => ?_
  constructor
  · rintro ⟨room, value, name, others, args, rfl, fill, finish,
      ⟨rfl, -⟩ | ⟨members, rfl, keyed, once, rfl⟩⟩
    · cases finish
      exact .callArray room fill
    · cases finish
      exact .call room keyed once fill
  · intro given
    cases given with
    | call room keyed named given =>
        exact ⟨room, _, _, _, _, rfl, given, rfl, .inr ⟨_, rfl, keyed, named, rfl⟩⟩
    | callArray room given =>
        exact ⟨room, _, _, _, _, rfl, given, rfl, .inl ⟨rfl, fun _ => rfl⟩⟩

theorem operatorRecord_means (means : inside.Means denotes) (tag : OperatorTag) (budget : Nat) :
    ((operatorRecord tag inside).reader budget).Means
      (Outline.DenotesPayload budget denotes (.operator tag)) := by
  have two : (operatorRecord tag inside).Pair
      ⟨"op", fun draft => draft.sign.isSome,
        string.map fun s draft => { draft with sign := some s }, false⟩
      ⟨"arg", fun draft => draft.operand.isSome,
        inside.map fun operand draft => { draft with operand := some operand }, false⟩
      OperatorDraft.mk (fun s draft => { draft with sign := some s })
      (fun operand draft => { draft with operand := some operand }) := by
    constructor <;> simp [operatorRecord]
  have means := two.reader_means (string_means.map _) (means.map _)
    (by simp [operatorRecord, required]) budget
  refine means.congr fun outline segment => ?_
  constructor
  · rintro ⟨room, value, sign, others, operand, rfl, fill, finish, form⟩
    cases operand with
    | none => simp [operatorRecord, required] at finish
    | some operand =>
        cases finish
        obtain ⟨operand, rfl, given⟩ := fill_none_some_iff.1 fill
        obtain ⟨rfl, -⟩ | ⟨members, rfl, keyed, once, alone⟩ := form
        · exact .operatorArray room given
        · exact .operator room keyed once alone given
  · intro given
    cases given with
    | operator room keyed signed alone given =>
        exact ⟨room, _, _, _, _, rfl, .filled given, rfl, .inr ⟨_, rfl, keyed, signed, alone⟩⟩
    | operatorArray room given =>
        exact ⟨room, _, _, _, _, rfl, .filled given, rfl, .inl ⟨rfl, by simp⟩⟩

theorem payload_means (means : inside.Means denotes) (budget : Nat) (tag : Tag) :
    (payload budget inside tag).Means (Outline.DenotesPayload budget denotes tag) := by
  cases tag with
  | text =>
      refine (string_means.map Segment.text).congr fun outline segment => ?_
      constructor
      · rintro ⟨s, rfl, rfl⟩
        exact .text s
      · intro given
        cases given
        exact ⟨_, rfl, rfl⟩
  | string =>
      refine (string_means.map Segment.string).congr fun outline segment => ?_
      constructor
      · rintro ⟨s, rfl, rfl⟩
        exact .string s
      · intro given
        cases given
        exact ⟨_, rfl, rfl⟩
  | number =>
      refine (string_means.map Segment.number).congr fun outline segment => ?_
      constructor
      · rintro ⟨digits, rfl, rfl⟩
        exact .number digits
      · intro given
        cases given
        exact ⟨_, rfl, rfl⟩
  | chain =>
      refine ((list_means means budget).map Segment.chain).congr fun outline segment => ?_
      constructor
      · rintro ⟨segments, ⟨room, items, rfl, each⟩, rfl⟩
        exact .chain room each
      · intro given
        cases given with
        | chain room each => exact ⟨_, ⟨room, _, rfl, each⟩, rfl⟩
  | reference => exact referenceRecord_means budget
  | call => exact callRecord_means budget
  | ending =>
      refine (null_means Segment.ending).congr fun outline segment => ?_
      constructor
      · rintro ⟨rfl, rfl⟩
        exact .ending
      · rintro ⟨⟩
        exact ⟨rfl, rfl⟩
  | operator tag => exact operatorRecord_means means tag budget

theorem segmentVariants_means (means : inside.Means denotes) (inner budget : Nat) :
    ((segmentVariants inner inside).reader budget).Means
      (Outline.DenotesTagged budget (Outline.DenotesPayload inner denotes)) := by
  have reads : ((segmentVariants inner inside).reader budget).Means _ :=
    Variants.reader_means (payload_means means inner) budget
  refine reads.congr fun outline segment => ?_
  constructor
  · rintro (⟨name, tag, rfl, named, bare⟩ | ⟨room, name, tag, payload, rfl, named, given⟩)
    · obtain rfl := Segment.tag_name_of_ofName? named
      cases tag with
      | ending =>
          cases bare
          exact .ending
      | _ => simp [segmentVariants, bareSegment] at bare
    · obtain rfl := Segment.tag_name_of_ofName? named
      exact .tagged room given
  · intro given
    cases given with
    | ending => exact .inl ⟨_, .ending, rfl, Tag.ofName?_name .ending, rfl⟩
    | tagged room given => exact .inr ⟨room, _, _, _, rfl, Tag.ofName?_name _, given⟩

/-- A segment is read from exactly the texts of the outlines that denote it. -/
theorem Segment.read_means : (budget : Nat) →
    (Segment.read budget).Means (Outline.Denotes budget)
  | 0 => segmentVariants_means (refuse_means _) 0 0
  | 1 => segmentVariants_means (refuse_means _) 0 1
  | budget + 2 => segmentVariants_means (Segment.read_means budget) (budget + 1) (budget + 2)

/-- A template is read from exactly the texts of the outlines that denote it. -/
theorem templateRecord_means (budget : Nat) :
    ((templateRecord (budget - 1)).reader budget).Means (Outline.DenotesTemplate budget) := by
  have only : (templateRecord (budget - 1)).Single
      ⟨"template", Option.isSome,
        (list (budget - 1) (Segment.read (budget - 2))).map fun segments _ => some segments,
        false⟩ := ⟨rfl, rfl, rfl, rfl⟩
  have items := list_means (Segment.read_means (budget - 2)) (budget - 1)
  have means := only.reader_means (items.map fun segments _ => some segments)
    (by simp [templateRecord, required, Except.map]) budget
  refine means.congr fun outline template => ?_
  constructor
  · rintro ⟨-, value, segments, ⟨room, items, rfl, each⟩, finish,
      rfl | ⟨members, rfl, keyed, once⟩⟩
    · cases finish
      exact .array (by omega) each
    · cases finish
      exact .object (by omega) keyed once each
  · intro given
    cases given with
    | object room keyed alone each =>
        exact ⟨by omega, _, _, ⟨by omega, _, rfl, each⟩, rfl, .inr ⟨_, rfl, keyed, alone⟩⟩
    | array room each => exact ⟨by omega, _, _, ⟨by omega, _, rfl, each⟩, rfl, .inl rfl⟩

end Reading

/-! ### Whole texts -/

/-- The text is that of the outline, with nothing but blanks around it. -/
def Json.Outline.SpelledBy (outline : Outline) (text : String) : Prop :=
  ∃ rest, outline.Spelled text.toList rest ∧ afterBlanks rest = []

theorem Json.Outline.SpelledBy.unique {outline other : Outline} {text : String}
    (spelled : outline.SpelledBy text) (spelled' : other.SpelledBy text) : outline = other := by
  obtain ⟨rest, spelled, -⟩ := spelled
  obtain ⟨rest', spelled', -⟩ := spelled'
  exact (spelled.unique spelled').1

theorem Json.decode_eq_ok_iff {α : Type} {reader : Reader α} {meaning : Outline → α → Prop}
    (means : reader.Means meaning) {text : String} {a : α} :
    Json.decode reader text = .ok a ↔ ∃ outline, outline.SpelledBy text ∧ meaning outline a := by
  rw [Json.decode]
  constructor
  · intro decoded
    split at decoded
    · simp at decoded
    · rename_i b rest read
      split at decoded
      · rename_i blank
        cases decoded
        obtain ⟨outline, spelled, given⟩ := (means _ _ _).1 read
        exact ⟨outline, ⟨rest, spelled, blank⟩, given⟩
      · simp at decoded
  · rintro ⟨outline, ⟨rest, spelled, blank⟩, given⟩
    rw [(means _ a rest).2 ⟨outline, spelled, given⟩]
    exact if_pos blank

theorem Segment.decode_eq_ok_iff {text : String} {segment : Segment} :
    Segment.decode text = .ok segment ↔
      ∃ outline : Outline, outline.SpelledBy text ∧ outline.Denotes maxDepth segment :=
  Json.decode_eq_ok_iff (Segment.read_means maxDepth)

theorem Template.decode_eq_ok_iff {text : String} {template : Template} :
    Template.decode text = .ok template ↔
      ∃ outline : Outline, outline.SpelledBy text ∧ outline.DenotesTemplate maxDepth template :=
  Json.decode_eq_ok_iff (templateRecord_means maxDepth)

end Liquefy
