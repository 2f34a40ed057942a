import Liquefy.Proofs.Json.Meaning

/-!
# What records and variants take

A record reads its members in the order in which they are written, and what it keeps depends only
on the values under each of its keys. `Fill` says what a field makes of these values: none leave the
field open, one fills it, and a second one is refused. Members of other names are passed over,
though their keys have to be readable.
-/

namespace Liquefy.Json

/-- The values under a key, in the order in which they are written. -/
def valuesAt {κ α : Type} [DecidableEq κ] (key : κ) (members : List (κ × α)) : List α :=
  (members.filter fun member => member.1 = key).map Prod.snd

section ValuesAt

variable {κ α : Type} [DecidableEq κ] {key key' : κ} {a : α} {members : List (κ × α)}

@[simp]
theorem valuesAt_nil : valuesAt key ([] : List (κ × α)) = [] := rfl

@[simp]
theorem valuesAt_cons_self : valuesAt key ((key, a) :: members) = a :: valuesAt key members := by
  simp [valuesAt]

theorem valuesAt_cons_of_ne (other : key' ≠ key) :
    valuesAt key ((key', a) :: members) = valuesAt key members := by
  simp [valuesAt, other]

end ValuesAt

/-- What the values under a key make of a field: an open field is filled by one value. -/
inductive Fill {β : Type} (meaning : Outline → β → Prop) :
    Option β → List Outline → Option β → Prop
  | kept {found : Option β} : Fill meaning found [] found
  | filled {outline : Outline} {b : β} (given : meaning outline b) :
      Fill meaning none [outline] (some b)

section Fill

variable {β : Type} {meaning : Outline → β → Prop} {values : List Outline} {outline : Outline}
  {b : β} {before after : Option β}

theorem fill_nil_iff : Fill meaning before [] after ↔ before = after := by
  constructor
  · intro fill
    cases fill
    rfl
  · rintro rfl
    exact .kept

theorem fill_some_iff : Fill meaning (some b) values after ↔ values = [] ∧ after = some b := by
  constructor
  · intro fill
    cases fill
    exact ⟨rfl, rfl⟩
  · rintro ⟨rfl, rfl⟩
    exact .kept

theorem fill_cons_iff :
    Fill meaning before (outline :: values) after ↔
      before = none ∧ values = [] ∧ ∃ b, meaning outline b ∧ after = some b := by
  constructor
  · intro fill
    cases fill with
    | filled given => exact ⟨rfl, rfl, _, given, rfl⟩
  · rintro ⟨rfl, rfl, b, given, rfl⟩
    exact .filled given

/-- A field is filled exactly if its key occurs once. -/
theorem fill_none_some_iff :
    Fill meaning none values (some b) ↔ ∃ outline, values = [outline] ∧ meaning outline b := by
  constructor
  · intro fill
    cases fill with
    | filled given => exact ⟨_, rfl, given⟩
  · rintro ⟨outline, rfl, given⟩
    exact .filled given

/-- What one member does to the field of a name. -/
def Slot (meaning : Outline → β → Prop) (name key : String) (outline : Outline)
    (before after : Option β) : Prop :=
  if key = name then before = none ∧ ∃ b, meaning outline b ∧ after = some b else after = before

theorem slot_self {name : String} :
    Slot meaning name name outline before after ↔
      before = none ∧ ∃ b, meaning outline b ∧ after = some b := by
  simp [Slot]

theorem slot_of_ne {name key : String} (differ : key ≠ name) :
    Slot meaning name key outline before after ↔ after = before := by
  simp [Slot, differ]

/-- A field goes through the members one by one. -/
theorem fill_valuesAt_cons_iff {name key : String} {members : List (Option String × Outline)} :
    Fill meaning before (valuesAt (some name) ((some key, outline) :: members)) after ↔
      ∃ middle, Slot meaning name key outline before middle ∧
        Fill meaning middle (valuesAt (some name) members) after := by
  by_cases same : key = name
  · subst same
    simp only [slot_self, valuesAt_cons_self, fill_cons_iff]
    constructor
    · rintro ⟨rfl, alone, b, given, rfl⟩
      exact ⟨some b, ⟨rfl, b, given, rfl⟩, fill_some_iff.2 ⟨alone, rfl⟩⟩
    · rintro ⟨middle, ⟨rfl, b, given, rfl⟩, later⟩
      obtain ⟨alone, rfl⟩ := fill_some_iff.1 later
      exact ⟨rfl, alone, b, given, rfl⟩
  · rw [valuesAt_cons_of_ne (by simpa using same)]
    simp only [slot_of_ne same, exists_eq_left]

end Fill

/-! ### Records -/

namespace Record

variable {δ α : Type} {record : Record δ α} {meaning : String → Outline → (δ → δ) → Prop}

/-- What a member does to the draft of a record. -/
inductive Takes (record : Record δ α) (meaning : String → Outline → (δ → δ) → Prop) (draft : δ)
    (key : String) (outline : Outline) : δ → Prop
  | field {field : Field δ} {enter : δ → δ} {draft' : δ}
      (found : record.fields.find? (fun field => field.name == key) = some field)
      (unset : field.isSet draft = false) (given : meaning field.name outline enter)
      (entered : enter draft = draft') : Takes record meaning draft key outline draft'
  | other (unknown : record.fields.find? (fun field => field.name == key) = none) :
      Takes record meaning draft key outline draft

/-- The members that make up a record in its object form. -/
inductive Collects (record : Record δ α) (meaning : String → Outline → (δ → δ) → Prop) :
    δ → List (Option String × Outline) → α → Prop
  | finished {draft : δ} {a : α} (finish : record.finish draft = .ok a) :
      Collects record meaning draft [] a
  | member {draft draft' : δ} {key : String} {outline : Outline}
      {members : List (Option String × Outline)} {a : α}
      (takes : record.Takes meaning draft key outline draft')
      (later : Collects record meaning draft' members a) :
      Collects record meaning draft ((some key, outline) :: members) a

/-- The items that make up the given fields of a record in its array form. -/
inductive Lists (record : Record δ α) (meaning : String → Outline → (δ → δ) → Prop) :
    δ → List (Field δ) → List Outline → α → Prop
  | finished {draft : δ} {a : α} (finish : record.finish draft = .ok a) :
      Lists record meaning draft [] [] a
  | ended {draft : δ} {field : Field δ} {fields : List (Field δ)} {a : α}
      (allowed : field.mayEnd = true) (finish : record.finish draft = .ok a) :
      Lists record meaning draft (field :: fields) [] a
  | item {draft : δ} {field : Field δ} {fields : List (Field δ)} {outline : Outline}
      {items : List Outline} {enter : δ → δ} {a : α} (given : meaning field.name outline enter)
      (later : Lists record meaning (enter draft) fields items a) :
      Lists record meaning draft (field :: fields) (outline :: items) a

section Object

variable (means : ∀ field ∈ record.fields, field.read.Means (meaning field.name))
  {draft draft' : δ} {key : String} {cs rest : List Char} {a : α}

include means

theorem member_eq_ok_iff :
    record.member draft key cs = .ok (draft', rest) ↔
      ∃ cs' outline, afterBlanks cs = ':' :: cs' ∧ outline.Spelled cs' rest ∧
        record.Takes meaning draft key outline draft' := by
  rw [member]
  constructor
  · intro read
    split at read
    · rename_i unknown
      split at read
      · simp at read
      · rename_i cs' colon
        obtain ⟨_, skimmed, rfl⟩ := Result.onValue_eq_ok_iff.1 read
        obtain ⟨outline, spelled⟩ := skim_eq_ok_iff.1 skimmed
        exact ⟨cs', outline, readColon_eq_ok_iff.1 colon, spelled, .other unknown⟩
    · rename_i field found
      split at read
      · simp at read
      · rename_i unset
        split at read
        · simp at read
        · rename_i cs' colon
          obtain ⟨enter, taken, rfl⟩ := Result.onValue_eq_ok_iff.1 read
          obtain ⟨outline, spelled, given⟩ :=
            (means field (List.mem_of_find?_eq_some found) cs' enter rest).1 taken
          exact ⟨cs', outline, readColon_eq_ok_iff.1 colon, spelled,
            .field found (by simpa using unset) given rfl⟩
  · rintro ⟨cs', outline, colon, spelled, takes⟩
    cases takes with
    | other unknown =>
        rw [unknown]
        simp only [readColon_eq_ok_iff.2 colon]
        exact Result.onValue_eq_ok_iff.2 ⟨(), skim_eq_ok_iff.2 ⟨outline, spelled⟩, rfl⟩
    | @field field enter _ found unset given entered =>
        have taken := (means field (List.mem_of_find?_eq_some found) cs' enter rest).2
          ⟨outline, spelled, given⟩
        rw [found]
        simp only [unset, readColon_eq_ok_iff.2 colon, Bool.false_eq_true, if_false]
        exact Result.onValue_eq_ok_iff.2 ⟨enter, taken, entered⟩

/-- What the loop over the members does at a member that is there and can be taken. -/
theorem Collects.reads {outlines : List (Option String × Outline)}
    (collects : record.Collects meaning draft outlines a)
    (listed : (Step.more cs).Members outlines rest) :
    ∃ key cs₁ draft' middle step others, quoted.run cs = .ok (key, cs₁) ∧
      record.member draft key cs₁ = .ok (draft', middle) ∧ nextMember middle = .ok step ∧
      step.Members others rest ∧ record.Collects meaning draft' others a := by
  obtain ⟨first, others, cs₁, cs₂, middle, rfl, skimmed, colon, spelled, tail⟩ := listed
  obtain ⟨step, next, listed⟩ := nextMember_members.2 tail
  generalize shown : textValue? cs = text at collects
  cases collects with
  | @member _ draft' key _ _ _ takes later =>
      exact ⟨key, cs₁, draft', middle, step, others, quoted_eq_ok_iff.2 ⟨skimmed, shown⟩,
        (member_eq_ok_iff means).2 ⟨cs₂, first, colon, spelled, takes⟩, next, listed, later⟩

theorem readMembers_eq_ok_iff {step : Step} :
    record.readMembers draft step = .ok (a, rest) ↔
      ∃ outlines, step.Members outlines rest ∧ record.Collects meaning draft outlines a := by
  fun_induction readMembers record draft step with
  | case1 draft rest' fault failed =>
      simp only [reduceCtorEq, false_iff]
      rintro ⟨outlines, ⟨rfl, rfl⟩, ⟨finish⟩⟩
      simp [failed] at finish
  | case2 draft rest' b finish =>
      constructor
      · intro same
        cases same
        exact ⟨[], ⟨rfl, rfl⟩, .finished finish⟩
      · rintro ⟨outlines, ⟨rfl, rfl⟩, ⟨finish'⟩⟩
        rw [finish] at finish'
        cases finish'
        rfl
  | case6 draft cs key cs₁ readKey draft' middle readMember step' readStep _ ih =>
      rw [ih]
      constructor
      · rintro ⟨outlines, listed, later⟩
        obtain ⟨skimmed, value⟩ := quoted_eq_ok_iff.1 readKey
        obtain ⟨cs₂, outline, colon, spelled, takes⟩ := (member_eq_ok_iff means).1 readMember
        have tail := nextMember_members.1 ⟨step', readStep, listed⟩
        refine ⟨(textValue? cs, outline) :: outlines,
          ⟨outline, outlines, cs₁, cs₂, middle, rfl, skimmed, colon, spelled, tail⟩, ?_⟩
        rw [value]
        exact .member takes later
      · rintro ⟨outlines, listed, collects⟩
        obtain ⟨key', cs₁', draft'', middle', step, others, readKey', taken, next, listed, later⟩ :=
          collects.reads means listed
        rw [readKey] at readKey'
        cases readKey'
        rw [readMember] at taken
        cases taken
        rw [readStep] at next
        cases next
        exact ⟨others, listed, later⟩
  | _ =>
      simp only [reduceCtorEq, false_iff]
      rintro ⟨outlines, listed, collects⟩
      obtain ⟨key, cs₁, draft', middle, step, others, readKey, taken, next, -⟩ :=
        collects.reads means listed
      simp_all

end Object

section Array

variable {draft : δ} {cs rest : List Char} {a : α}

/-- The items from the field of the given index on, where the ones before stand behind commas. -/
def Placed (index : Nat) (items : List Outline) (cs rest : List Char) : Prop :=
  if index = 0 then Entries .list Outline.Spelled items cs rest
  else Tail .list Outline.Spelled items cs rest

theorem beforeField_items {index : Nat} {items : List Outline} :
    (∃ step, beforeField index cs = .ok step ∧ step.Items items rest) ↔
      Placed index items cs rest := by
  unfold beforeField Placed
  split
  · exact firstElement_items
  · exact nextElement_items

theorem closeArray_eq_ok_iff : closeArray cs = .ok rest ↔ afterBlanks cs = ']' :: rest := by
  rw [closeArray]
  constructor
  · intro closed
    split at closed
    · simp at closed
    · rename_i c cs' begins
      split at closed
      · rename_i bracket
        cases closed
        rw [begins, bracket]
      · repeat' split at closed
        all_goals simp at closed
  · intro close
    simp [close]

theorem placed_nil_iff {index : Nat} :
    Placed index [] cs rest ↔ afterBlanks cs = ']' :: rest := by
  unfold Placed
  split
  · constructor
    · intro entries
      cases entries with
      | none close => exact close
    · intro close
      exact .none close
  · constructor
    · intro tail
      cases tail with
      | closed close => exact close
    · intro close
      exact .closed close

theorem readElements_nil_eq_ok_iff {index : Nat} :
    record.readElements draft index [] cs = .ok (a, rest) ↔
      ∃ items, Placed index items cs rest ∧ record.Lists meaning draft [] items a := by
  rw [readElements]
  constructor
  · intro read
    split at read
    · simp at read
    · rename_i rest' closed
      split at read
      · simp at read
      · rename_i b finish
        cases read
        exact ⟨[], placed_nil_iff.2 (closeArray_eq_ok_iff.1 closed), .finished finish⟩
  · rintro ⟨items, placed, lists⟩
    cases lists with
    | finished finish =>
        simp only [closeArray_eq_ok_iff.2 (placed_nil_iff.1 placed), finish]

theorem readElements_eq_ok_iff {index : Nat} {fields : List (Field δ)}
    (means : ∀ field ∈ fields, field.read.Means (meaning field.name)) :
    record.readElements draft index fields cs = .ok (a, rest) ↔
      ∃ items, Placed index items cs rest ∧ record.Lists meaning draft fields items a := by
  induction fields generalizing draft index cs with
  | nil => exact readElements_nil_eq_ok_iff
  | cons field fields ih =>
      have reads := means field (List.mem_cons_self ..)
      have later := fun field member => means field (List.mem_cons_of_mem _ member)
      rw [readElements]
      constructor
      · intro read
        split at read
        · simp at read
        · rename_i rest' before
          split at read
          · rename_i allowed
            split at read
            · simp at read
            · rename_i b finish
              cases read
              exact ⟨[], beforeField_items.1 ⟨_, before, rfl, rfl⟩, .ended allowed finish⟩
          · simp at read
        · rename_i cs' before
          split at read
          · simp at read
          · rename_i enter middle taken
            obtain ⟨items, placed, lists⟩ := (ih later).1 read
            obtain ⟨outline, spelled, given⟩ := (reads cs' enter middle).1 taken
            exact ⟨outline :: items,
              beforeField_items.1 ⟨_, before, outline, items, middle, rfl, spelled, placed⟩,
              .item given lists⟩
      · rintro ⟨items, placed, lists⟩
        obtain ⟨step, before, listed⟩ := beforeField_items.2 placed
        rw [before]
        cases lists with
        | ended allowed finish =>
            cases step with
            | done rest' =>
                obtain ⟨-, rfl⟩ := listed
                simp only [allowed, finish, if_true]
            | more cs' =>
                obtain ⟨_, _, _, absent, -⟩ := listed
                cases absent
        | @item _ _ _ outline items enter _ given lists =>
            cases step with
            | done rest' =>
                obtain ⟨absent, -⟩ := listed
                cases absent
            | more cs' =>
                obtain ⟨_, _, middle, same, spelled, tail⟩ := listed
                cases same
                simp only [(reads cs' enter middle).2 ⟨outline, spelled, given⟩]
                exact (ih later).2 ⟨items, tail, lists⟩

end Array

/-- A record is read from its object form or from its array form. -/
theorem reader_means (means : ∀ field ∈ record.fields, field.read.Means (meaning field.name))
    (budget : Nat) :
    (record.reader budget).Means fun outline a =>
      0 < budget ∧
        ((∃ members, outline = .object members ∧ record.Collects meaning record.blank members a) ∨
          ∃ items, outline = .array items ∧
            record.Lists meaning record.blank record.fields items a) := by
  intro cs a rest
  rw [reader, Reader.byFirst_eq_ok_iff]
  constructor
  · rintro ⟨c, cs', begins, read⟩
    split at read
    · rename_i bracket
      subst bracket
      split at read
      · simp at read
      · rename_i room
        obtain ⟨items, entries, lists⟩ := (readElements_eq_ok_iff means).1 read
        exact ⟨.array items, .array begins entries, Nat.pos_of_ne_zero room,
          .inr ⟨items, rfl, lists⟩⟩
    · split at read
      · rename_i brace
        subst brace
        split at read
        · simp at read
        · rename_i room
          split at read
          · simp at read
          · rename_i step first
            obtain ⟨members, listed, collects⟩ := (readMembers_eq_ok_iff means).1 read
            exact ⟨.object members, .object begins (firstMember_members.1 ⟨step, first, listed⟩),
              Nat.pos_of_ne_zero room, .inl ⟨members, rfl, collects⟩⟩
      · simp at read
  · rintro ⟨outline, spelled, room, ⟨members, rfl, collects⟩ | ⟨items, rfl, lists⟩⟩
    · cases spelled with
      | object brace entries =>
          obtain ⟨step, first, listed⟩ := firstMember_members.2 entries
          refine ⟨'\x7b', _, brace, ?_⟩
          simp only [Char.reduceEq, if_true, if_false, if_neg (Nat.ne_of_gt room), first]
          exact (readMembers_eq_ok_iff means).2 ⟨members, listed, collects⟩
    · cases spelled with
      | array bracket entries =>
          refine ⟨'[', _, bracket, ?_⟩
          simp only [if_true, if_neg (Nat.ne_of_gt room)]
          exact (readElements_eq_ok_iff means).2 ⟨items, entries, lists⟩

/-! ### Records of one or two fields -/

/-- Every key can be read. -/
def Keyed (members : List (Option String × Outline)) : Prop :=
  ∀ member ∈ members, member.1.isSome = true

@[simp]
theorem keyed_nil : Keyed [] := by simp [Keyed]

@[simp]
theorem keyed_cons {key : Option String} {outline : Outline}
    {members : List (Option String × Outline)} :
    Keyed ((key, outline) :: members) ↔ key.isSome = true ∧ Keyed members := by
  simp [Keyed]

theorem collects_nil_iff {draft : δ} {a : α} :
    record.Collects meaning draft [] a ↔ record.finish draft = .ok a := by
  constructor
  · rintro ⟨finish⟩
    exact finish
  · intro finish
    exact .finished finish

theorem collects_cons_iff {draft : δ} {key : Option String} {outline : Outline}
    {members : List (Option String × Outline)} {a : α} :
    record.Collects meaning draft ((key, outline) :: members) a ↔
      ∃ name draft', key = some name ∧ record.Takes meaning draft name outline draft' ∧
        record.Collects meaning draft' members a := by
  constructor
  · intro collects
    cases collects with
    | member takes later => exact ⟨_, _, rfl, takes, later⟩
  · rintro ⟨name, draft', rfl, takes, later⟩
    exact .member takes later

theorem takes_iff_of_unknown {draft draft' : δ} {key : String} {outline : Outline}
    (unknown : record.fields.find? (fun field => field.name == key) = none) :
    record.Takes meaning draft key outline draft' ↔ draft' = draft := by
  constructor
  · intro takes
    cases takes with
    | field found => simp [unknown] at found
    | other => rfl
  · rintro rfl
    exact .other unknown

theorem takes_iff_of_known {draft draft' : δ} {key : String} {outline : Outline} {field : Field δ}
    (known : record.fields.find? (fun field => field.name == key) = some field) :
    record.Takes meaning draft key outline draft' ↔
      field.isSet draft = false ∧ ∃ enter, meaning field.name outline enter ∧
        enter draft = draft' := by
  constructor
  · intro takes
    cases takes with
    | field found unset given entered =>
        rw [known] at found
        cases found
        exact ⟨unset, _, given, entered⟩
    | other unknown => simp [known] at unknown
  · rintro ⟨unset, enter, given, entered⟩
    exact .field known unset given entered

section Single

variable {β : Type} {single : Record (Option β) α} {field : Field (Option β)}
  {given : Outline → β → Prop}

/-- The record has this field only, and its draft is what the field holds. -/
structure Single (single : Record (Option β) α) (field : Field (Option β)) : Prop where
  fields_eq : single.fields = [field]
  blank_eq : single.blank = none
  isSet_eq : field.isSet = Option.isSome
  mayEnd_eq : field.mayEnd = false

/-- What the only field enters into the draft. -/
def entersOnly (given : Outline → β → Prop) (_ : String) (outline : Outline)
    (enter : Option β → Option β) : Prop :=
  ∃ b, given outline b ∧ (fun _ => some b) = enter

theorem Single.takes_iff (only : single.Single field) {key : String} {outline : Outline}
    {before after : Option β} :
    single.Takes (entersOnly given) before key outline after ↔
      Slot given field.name key outline before after := by
  by_cases same : key = field.name
  · subst same
    have known : single.fields.find? (fun other => other.name == field.name) = some field := by
      simp [only.fields_eq]
    rw [slot_self, takes_iff_of_known known, only.isSet_eq]
    constructor
    · rintro ⟨unset, enter, ⟨b, taken, rfl⟩, entered⟩
      exact ⟨by simpa using unset, b, taken, entered.symm⟩
    · rintro ⟨rfl, b, taken, rfl⟩
      exact ⟨rfl, _, ⟨b, taken, rfl⟩, rfl⟩
  · rw [slot_of_ne same, takes_iff_of_unknown]
    simpa [only.fields_eq] using Ne.symm same

theorem Single.collects_iff (only : single.Single field)
    {members : List (Option String × Outline)} {before : Option β} {a : α} :
    single.Collects (entersOnly given) before members a ↔
      Keyed members ∧ ∃ after, Fill given before (valuesAt (some field.name) members) after ∧
        single.finish after = .ok a := by
  induction members generalizing before with
  | nil => simp [collects_nil_iff, fill_nil_iff]
  | cons member members ih =>
      obtain ⟨key, outline⟩ := member
      rw [collects_cons_iff]
      constructor
      · rintro ⟨key, middle, rfl, takes, later⟩
        obtain ⟨keyed, after, fill, finish⟩ := ih.1 later
        have through := fill_valuesAt_cons_iff.2 ⟨middle, only.takes_iff.1 takes, fill⟩
        exact ⟨by simp [keyed], after, through, finish⟩
      · rintro ⟨keyed, after, through, finish⟩
        obtain ⟨known, others⟩ := keyed_cons.1 keyed
        obtain ⟨key, rfl⟩ := Option.isSome_iff_exists.1 known
        obtain ⟨middle, slot, fill⟩ := fill_valuesAt_cons_iff.1 through
        exact ⟨key, middle, rfl, only.takes_iff.2 slot, ih.2 ⟨others, after, fill, finish⟩⟩

theorem Single.lists_iff (only : single.Single field) {items : List Outline} {before : Option β}
    {a : α} :
    single.Lists (entersOnly given) before single.fields items a ↔
      ∃ outline b, items = [outline] ∧ given outline b ∧ single.finish (some b) = .ok a := by
  rw [only.fields_eq]
  constructor
  · intro lists
    cases lists with
    | ended allowed finish => simp [only.mayEnd_eq] at allowed
    | item made later =>
        obtain ⟨b, taken, rfl⟩ := made
        cases later with
        | finished finish => exact ⟨_, b, rfl, taken, finish⟩
  · rintro ⟨outline, b, rfl, taken, finish⟩
    exact .item ⟨b, taken, rfl⟩ (.finished finish)

/-- A record of one field is an object with the field's key exactly once, or a list of one
item. -/
theorem Single.reader_means (only : single.Single field)
    (means : field.read.Means (entersOnly given field.name))
    (required : ∀ a, single.finish none ≠ .ok a) (budget : Nat) :
    (single.reader budget).Means fun outline a =>
      0 < budget ∧ ∃ value b, given value b ∧ single.finish (some b) = .ok a ∧
        (outline = .array [value] ∨
          ∃ members, outline = .object members ∧ Keyed members ∧
            valuesAt (some field.name) members = [value]) := by
  have fields : ∀ field ∈ single.fields, field.read.Means (entersOnly given field.name) := by
    simpa [only.fields_eq] using means
  refine (Record.reader_means fields budget).congr fun outline a => and_congr_right fun _ => ?_
  simp only [only.blank_eq, only.collects_iff, only.lists_iff]
  constructor
  · rintro (⟨members, rfl, keyed, after, fill, finish⟩ | ⟨items, rfl, value, b, rfl, taken, finish⟩)
    · cases after with
      | none => exact absurd finish (required a)
      | some b =>
          obtain ⟨value, once, taken⟩ := fill_none_some_iff.1 fill
          exact ⟨value, b, taken, finish, .inr ⟨members, rfl, keyed, once⟩⟩
    · exact ⟨value, b, taken, finish, .inl rfl⟩
  · rintro ⟨value, b, taken, finish, rfl | ⟨members, rfl, keyed, once⟩⟩
    · exact .inr ⟨[value], rfl, value, b, rfl, taken, finish⟩
    · exact .inl ⟨members, rfl, keyed, some b, fill_none_some_iff.2 ⟨value, once, taken⟩, finish⟩

end Single

section Pair

variable {β γ : Type} {first second : Field δ} {slots : Option β → Option γ → δ}
  {enter₁ : β → δ → δ} {enter₂ : γ → δ → δ} {given₁ : Outline → β → Prop}
  {given₂ : Outline → γ → Prop}

/-- The record has these two fields, and its draft has a slot for each. -/
structure Pair (record : Record δ α) (first second : Field δ) (slots : Option β → Option γ → δ)
    (enter₁ : β → δ → δ) (enter₂ : γ → δ → δ) : Prop where
  fields_eq : record.fields = [first, second]
  blank_eq : record.blank = slots none none
  distinct : first.name ≠ second.name
  isSet_first : ∀ x y, first.isSet (slots x y) = x.isSome
  isSet_second : ∀ x y, second.isSet (slots x y) = y.isSome
  enter_first : ∀ b x y, enter₁ b (slots x y) = slots (some b) y
  enter_second : ∀ c x y, enter₂ c (slots x y) = slots x (some c)
  mayEnd_first : first.mayEnd = false

/-- What the field of the given name enters into the draft, where `first` names the first one. -/
def entersEither (first : String) (enter₁ : β → δ → δ) (enter₂ : γ → δ → δ)
    (given₁ : Outline → β → Prop) (given₂ : Outline → γ → Prop) (name : String) (outline : Outline)
    (enter : δ → δ) : Prop :=
  if name = first then ∃ b, given₁ outline b ∧ enter₁ b = enter
  else ∃ c, given₂ outline c ∧ enter₂ c = enter

theorem enters_first {outline : Outline} {enter : δ → δ} :
    entersEither first.name enter₁ enter₂ given₁ given₂ first.name outline enter ↔
      ∃ b, given₁ outline b ∧ enter₁ b = enter := by
  simp [entersEither]

theorem Pair.enters_second (two : record.Pair first second slots enter₁ enter₂) {outline : Outline}
    {enter : δ → δ} :
    entersEither first.name enter₁ enter₂ given₁ given₂ second.name outline enter ↔
      ∃ c, given₂ outline c ∧ enter₂ c = enter := by
  simp [entersEither, two.distinct.symm]

theorem Pair.takes_iff (two : record.Pair first second slots enter₁ enter₂) {key : String}
    {outline : Outline} {x : Option β} {y : Option γ} {draft : δ} :
    record.Takes (entersEither first.name enter₁ enter₂ given₁ given₂) (slots x y) key outline
        draft ↔
      ∃ x' y', draft = slots x' y' ∧ Slot given₁ first.name key outline x x' ∧
        Slot given₂ second.name key outline y y' := by
  by_cases same₁ : key = first.name
  · subst same₁
    have known : record.fields.find? (fun other => other.name == first.name) = some first := by
      simp [two.fields_eq]
    simp only [takes_iff_of_known known, slot_self, slot_of_ne two.distinct, two.isSet_first,
      enters_first]
    constructor
    · rintro ⟨unset, enter, ⟨b, taken, rfl⟩, entered⟩
      rw [two.enter_first] at entered
      exact ⟨some b, y, entered.symm, ⟨by simpa using unset, b, taken, rfl⟩, rfl⟩
    · rintro ⟨x', y', rfl, ⟨rfl, b, taken, rfl⟩, rfl⟩
      exact ⟨rfl, _, ⟨b, taken, rfl⟩, two.enter_first b none y'⟩
  · by_cases same₂ : key = second.name
    · subst same₂
      have known : record.fields.find? (fun other => other.name == second.name) = some second := by
        simp [two.fields_eq, two.distinct]
      simp only [takes_iff_of_known known, slot_self, slot_of_ne same₁, two.isSet_second,
        two.enters_second]
      constructor
      · rintro ⟨unset, enter, ⟨c, taken, rfl⟩, entered⟩
        rw [two.enter_second] at entered
        exact ⟨x, some c, entered.symm, rfl, by simpa using unset, c, taken, rfl⟩
      · rintro ⟨x', y', rfl, rfl, rfl, c, taken, rfl⟩
        exact ⟨rfl, _, ⟨c, taken, rfl⟩, two.enter_second c x' none⟩
    · have unknown : record.fields.find? (fun other => other.name == key) = none := by
        simp [two.fields_eq, Ne.symm same₁, Ne.symm same₂]
      simp only [takes_iff_of_unknown unknown, slot_of_ne same₁, slot_of_ne same₂]
      constructor
      · intro same
        exact ⟨x, y, same, rfl, rfl⟩
      · rintro ⟨x', y', same, rfl, rfl⟩
        exact same

theorem Pair.collects_iff (two : record.Pair first second slots enter₁ enter₂)
    {members : List (Option String × Outline)} {x : Option β} {y : Option γ} {a : α} :
    record.Collects (entersEither first.name enter₁ enter₂ given₁ given₂) (slots x y) members a ↔
      Keyed members ∧ ∃ x' y', Fill given₁ x (valuesAt (some first.name) members) x' ∧
        Fill given₂ y (valuesAt (some second.name) members) y' ∧
        record.finish (slots x' y') = .ok a := by
  induction members generalizing x y with
  | nil => simp [collects_nil_iff, fill_nil_iff]
  | cons member members ih =>
      obtain ⟨key, outline⟩ := member
      rw [collects_cons_iff]
      constructor
      · rintro ⟨key, draft, rfl, takes, later⟩
        obtain ⟨x₁, y₁, rfl, slot₁, slot₂⟩ := two.takes_iff.1 takes
        obtain ⟨keyed, x', y', fill₁, fill₂, finish⟩ := ih.1 later
        exact ⟨by simp [keyed], x', y', fill_valuesAt_cons_iff.2 ⟨x₁, slot₁, fill₁⟩,
          fill_valuesAt_cons_iff.2 ⟨y₁, slot₂, fill₂⟩, finish⟩
      · rintro ⟨keyed, x', y', through₁, through₂, finish⟩
        obtain ⟨known, others⟩ := keyed_cons.1 keyed
        obtain ⟨key, rfl⟩ := Option.isSome_iff_exists.1 known
        obtain ⟨x₁, slot₁, fill₁⟩ := fill_valuesAt_cons_iff.1 through₁
        obtain ⟨y₁, slot₂, fill₂⟩ := fill_valuesAt_cons_iff.1 through₂
        exact ⟨key, slots x₁ y₁, rfl, two.takes_iff.2 ⟨x₁, y₁, rfl, slot₁, slot₂⟩,
          ih.2 ⟨others, x', y', fill₁, fill₂, finish⟩⟩

theorem Pair.lists_iff (two : record.Pair first second slots enter₁ enter₂) {items : List Outline}
    {a : α} :
    record.Lists (entersEither first.name enter₁ enter₂ given₁ given₂) (slots none none)
        record.fields items a ↔
      ∃ value b others y, items = value :: others ∧ given₁ value b ∧ Fill given₂ none others y ∧
        (others = [] → second.mayEnd = true) ∧ record.finish (slots (some b) y) = .ok a := by
  rw [two.fields_eq]
  constructor
  · intro lists
    cases lists with
    | ended allowed finish => simp [two.mayEnd_first] at allowed
    | item made later =>
        obtain ⟨b, taken, rfl⟩ := enters_first.1 made
        rw [two.enter_first] at later
        cases later with
        | ended allowed finish =>
            exact ⟨_, b, [], none, rfl, taken, .kept, fun _ => allowed, finish⟩
        | item made later =>
            obtain ⟨c, taken', rfl⟩ := two.enters_second.1 made
            rw [two.enter_second] at later
            cases later with
            | finished finish =>
                exact ⟨_, b, _, some c, rfl, taken, .filled taken', by simp, finish⟩
  · rintro ⟨value, b, others, y, rfl, taken, fill, allowed, finish⟩
    refine .item (enters_first.2 ⟨b, taken, rfl⟩) ?_
    rw [two.enter_first]
    cases fill with
    | kept => exact .ended (allowed rfl) finish
    | @filled _ c taken' =>
        refine .item (two.enters_second.2 ⟨c, taken', rfl⟩) ?_
        rw [two.enter_second]
        exact .finished finish

/-- A record of two fields, of which it needs the first: an object with the first key exactly once
and the second at most once, or a list that begins with the first field. -/
theorem Pair.reader_means (two : record.Pair first second slots enter₁ enter₂)
    (means₁ : first.read.Means fun outline enter => ∃ b, given₁ outline b ∧ enter₁ b = enter)
    (means₂ : second.read.Means fun outline enter => ∃ c, given₂ outline c ∧ enter₂ c = enter)
    (required : ∀ y a, record.finish (slots none y) ≠ .ok a) (budget : Nat) :
    (record.reader budget).Means fun outline a =>
      0 < budget ∧ ∃ value b others y, given₁ value b ∧ Fill given₂ none others y ∧
        record.finish (slots (some b) y) = .ok a ∧
        ((outline = .array (value :: others) ∧ (others = [] → second.mayEnd = true)) ∨
          ∃ members, outline = .object members ∧ Keyed members ∧
            valuesAt (some first.name) members = [value] ∧
            valuesAt (some second.name) members = others) := by
  have fields : ∀ field ∈ record.fields,
      field.read.Means (entersEither first.name enter₁ enter₂ given₁ given₂ field.name) := by
    simp only [two.fields_eq, List.forall_mem_cons, List.not_mem_nil, false_imp_iff, implies_true,
      and_true]
    exact ⟨means₁.congr fun _ _ => enters_first.symm,
      means₂.congr fun _ _ => two.enters_second.symm⟩
  refine (Record.reader_means fields budget).congr fun outline a => and_congr_right fun _ => ?_
  simp only [two.blank_eq, two.collects_iff, two.lists_iff]
  constructor
  · rintro (⟨members, rfl, keyed, x, y, fill₁, fill₂, finish⟩ |
      ⟨items, rfl, value, b, others, y, rfl, taken, fill, allowed, finish⟩)
    · cases x with
      | none => exact absurd finish (required y a)
      | some b =>
          obtain ⟨value, once, taken⟩ := fill_none_some_iff.1 fill₁
          exact ⟨value, b, _, y, taken, fill₂, finish, .inr ⟨members, rfl, keyed, once, rfl⟩⟩
    · exact ⟨value, b, others, y, taken, fill, finish, .inl ⟨rfl, allowed⟩⟩
  · rintro ⟨value, b, others, y, taken, fill, finish,
      ⟨rfl, allowed⟩ | ⟨members, rfl, keyed, once, rfl⟩⟩
    · exact .inr ⟨_, rfl, value, b, others, y, rfl, taken, fill, allowed, finish⟩
    · exact .inl ⟨members, rfl, keyed, some b, y, fill_none_some_iff.2 ⟨value, once, taken⟩, fill,
        finish⟩

end Pair

end Record

/-! ### Variants -/

namespace Variants

variable {τ α : Type} {variants : Variants τ α}

theorem ofName_eq_ok_iff {name : String} {tag : τ} :
    variants.ofName name = .ok tag ↔ variants.ofName? name = some tag := by
  rw [ofName]
  split <;> simp_all

theorem key_eq_ok_iff {cs rest : List Char} {name : String} :
    key cs = .ok (name, rest) ↔
      ∃ cs', afterBlanks cs = '"' :: cs' ∧ quoted.run cs' = .ok (name, rest) := by
  rw [key]
  constructor
  · intro read
    split at read
    · simp at read
    · rename_i c cs' begins
      split at read
      · rename_i quote
        subst quote
        exact ⟨cs', begins, read⟩
      · split at read <;> simp at read
  · rintro ⟨cs', begins, read⟩
    simp only [begins, if_true]
    exact read

theorem close_eq_ok_iff {cs rest : List Char} :
    close cs = .ok rest ↔ afterBlanks cs = '\x7d' :: rest := by
  rw [close]
  split
  · rename_i empty
    simp [empty]
  · rename_i c cs' begins
    rw [begins]
    split
    · rename_i brace
      simp [brace]
    · rename_i other
      simp [other]

/-- The object of a variant has the variant's name as its only key. -/
theorem object_eq_ok_iff {meaning : τ → Outline → α → Prop}
    (means : ∀ tag, (variants.payload tag).Means (meaning tag)) {cs rest : List Char} {a : α} :
    variants.object cs = .ok (a, rest) ↔
      ∃ name tag outline, Entries .object (Member Outline.Spelled) [(some name, outline)] cs rest ∧
        variants.ofName? name = some tag ∧ meaning tag outline a := by
  rw [object]
  constructor
  · intro read
    split at read
    · simp at read
    · rename_i name rest₀ readKey
      split at read
      · simp at read
      · rename_i tag named
        split at read
        · simp at read
        · rename_i rest₁ colon
          split at read
          · simp at read
          · rename_i b rest₂ readPayload
            split at read
            · simp at read
            · rename_i rest₃ closed
              cases read
              obtain ⟨cs', quote, readName⟩ := key_eq_ok_iff.1 readKey
              obtain ⟨outline, spelled, given⟩ := (means tag _ _ _).1 readPayload
              have member := member_some_iff.2
                ⟨cs', rest₀, rest₁, quote, readName, readColon_eq_ok_iff.1 colon, spelled⟩
              exact ⟨name, tag, outline, .some member (.closed (close_eq_ok_iff.1 closed)),
                ofName_eq_ok_iff.1 named, given⟩
  · rintro ⟨name, tag, outline, entries, named, given⟩
    cases entries with
    | some member others =>
        obtain ⟨cs₁, cs₂, cs₃, quote, readName, colon, spelled⟩ := member_some_iff.1 member
        cases others with
        | closed brace =>
            have payload := (means tag _ a _).2 ⟨outline, spelled, given⟩
            simp only [key_eq_ok_iff.2 ⟨cs₁, quote, readName⟩, ofName_eq_ok_iff.2 named,
              readColon_eq_ok_iff.2 colon, payload, close_eq_ok_iff.2 brace]

/-- A variant is its bare name, or an object with its name as the only key. -/
theorem reader_means {meaning : τ → Outline → α → Prop}
    (means : ∀ tag, (variants.payload tag).Means (meaning tag)) (budget : Nat) :
    (variants.reader budget).Means fun outline a =>
      (∃ name tag, outline = .string (some name) ∧ variants.ofName? name = some tag ∧
          variants.bare tag = .ok a) ∨
        (0 < budget ∧ ∃ name tag payload, outline = .object [(some name, payload)] ∧
          variants.ofName? name = some tag ∧ meaning tag payload a) := by
  intro cs a rest
  rw [reader, Reader.byFirst_eq_ok_iff]
  constructor
  · rintro ⟨c, cs', begins, read⟩
    split at read
    · rename_i quote
      subst quote
      obtain ⟨name, readName, checked⟩ := Result.checked_eq_ok_iff.1 read
      refine ⟨_, Outline.spelled_string_iff.2 ⟨cs', begins, readName⟩, .inl ?_⟩
      split at checked
      · simp at checked
      · rename_i tag named
        exact ⟨name, tag, rfl, ofName_eq_ok_iff.1 named, checked⟩
    · split at read
      · rename_i brace
        subst brace
        split at read
        · simp at read
        · rename_i room
          obtain ⟨name, tag, outline, entries, named, given⟩ := (object_eq_ok_iff means).1 read
          exact ⟨_, .object begins entries, .inr
            ⟨Nat.pos_of_ne_zero room, name, tag, outline, rfl, named, given⟩⟩
      · simp at read
  · rintro ⟨outline, spelled, ⟨name, tag, rfl, named, bare⟩ |
      ⟨room, name, tag, payload, rfl, named, given⟩⟩
    · obtain ⟨cs', quote, readName⟩ := Outline.spelled_string_iff.1 spelled
      refine ⟨'"', cs', quote, ?_⟩
      rw [if_pos rfl, Result.checked_eq_ok_iff]
      refine ⟨name, readName, ?_⟩
      simp only [ofName_eq_ok_iff.2 named, bare]
    · cases spelled with
      | object brace entries =>
          refine ⟨'\x7b', _, brace, ?_⟩
          simp only [Char.reduceEq, if_true, if_false, if_neg (Nat.ne_of_gt room)]
          exact (object_eq_ok_iff means).2 ⟨name, tag, payload, entries, named, given⟩

end Variants

end Liquefy.Json
