import Liquefy.Proofs.Json.RecordMeaning
import Liquefy.Proofs.Segment.RoundTrip

/-!
# The segment that a tree denotes

`Tree.Denotes` is the wire grammar: which trees stand for which segments. It asks for the values
under the keys of a record and not for their order, so a repeated key shows as a second value and a
key of another name does not show at all. A tree that was read as a whole is taken as a segment
exactly if it denotes one.
-/

namespace Liquefy

open Json

/-! ### The grammar -/

section Grammar

/-- The arguments that the values under their key denote. -/
inductive DenotesArguments (denotes : Tree → Segment → Prop) :
    List Tree → Arguments Segment → Prop
  | absent : DenotesArguments denotes [] .none
  | null : DenotesArguments denotes [.null] .none
  | many {items : List Tree} {segments : List Segment}
      (each : List.Forall₂ denotes items segments) :
      DenotesArguments denotes [.array items] (.many segments)
  | one {tree : Tree} {segment : Segment} (given : denotes tree segment) :
      DenotesArguments denotes [tree] (.one segment)

/-- The segment that the value under a tag denotes. A record is an object with its keys, where
other keys are ignored, or the array of its fields. -/
inductive DenotesPayload (denotes : Tree → Segment → Prop) : Tag → Tree → Segment → Prop
  | text (s : String) : DenotesPayload denotes .text (.string s) (.text s)
  | string (s : String) : DenotesPayload denotes .string (.string s) (.string s)
  | number (digits : String) : DenotesPayload denotes .number (.string digits) (.number digits)
  | ending : DenotesPayload denotes .ending .null .ending
  | chain {items : List Tree} {segments : List Segment}
      (each : List.Forall₂ denotes items segments) :
      DenotesPayload denotes .chain (.array items) (.chain segments)
  | reference {members : List (String × Tree)} {name : String}
      (named : valuesAt "name" members = [.string name]) :
      DenotesPayload denotes .reference (.object members) (.reference name)
  | referenceArray (name : String) :
      DenotesPayload denotes .reference (.array [.string name]) (.reference name)
  | call {members : List (String × Tree)} {name : String} {args : Arguments Segment}
      (named : valuesAt "name" members = [.string name])
      (given : DenotesArguments denotes (valuesAt "args" members) args) :
      DenotesPayload denotes .call (.object members) (.call name args)
  | callArray {name : String} {values : List Tree} {args : Arguments Segment}
      (given : DenotesArguments denotes values args) :
      DenotesPayload denotes .call (.array (.string name :: values)) (.call name args)
  | operator {tag : OperatorTag} {members : List (String × Tree)} {sign : String} {operand : Tree}
      {segment : Segment} (signed : valuesAt "op" members = [.string sign])
      (alone : valuesAt "arg" members = [operand]) (given : denotes operand segment) :
      DenotesPayload denotes (.operator tag) (.object members) (.operator tag sign segment)
  | operatorArray {tag : OperatorTag} {sign : String} {operand : Tree} {segment : Segment}
      (given : denotes operand segment) :
      DenotesPayload denotes (.operator tag) (.array [.string sign, operand])
        (.operator tag sign segment)

/-- The segment that a tree denotes: an ending is its bare name, or else the name of the tag is the
only key. -/
inductive Json.Tree.Denotes : Tree → Segment → Prop
  | ending : Denotes (.string Tag.ending.name) .ending
  | tagged {tag : Tag} {payload : Tree} {segment : Segment}
      (given : DenotesPayload Denotes tag payload segment) :
      Denotes (.object [(tag.name, payload)]) segment

/-- The template that a tree denotes. -/
inductive Json.Tree.DenotesTemplate : Tree → Template → Prop
  | object {members : List (String × Tree)} {items : List Tree} {segments : List Segment}
      (alone : valuesAt "template" members = [.array items])
      (each : List.Forall₂ Tree.Denotes items segments) :
      DenotesTemplate (.object members) ⟨segments⟩
  | array {items : List Tree} {segments : List Segment}
      (each : List.Forall₂ Tree.Denotes items segments) :
      DenotesTemplate (.array [.array items]) ⟨segments⟩

end Grammar

/-! ### The keys of the tags -/

/-- The keys that name the tags. -/
def tagKeys : List (String × Tag) :=
  [("text", .text), ("string", .string), ("number", .number), ("chain", .chain),
   ("call_or_variable", .reference), ("call", .call), ("ending", .ending),
   ("greater", .operator .greater), ("or", .operator .or), ("and", .operator .and),
   ("equals", .operator .equals), ("subtract", .operator .subtract),
   ("differs", .operator .differs), ("add", .operator .add)]

theorem Tag.name_eq_iff {tag : Tag} {key : String} : tag.name = key ↔ (key, tag) ∈ tagKeys := by
  constructor
  · rintro rfl
    cases tag with
    | operator tag => cases tag <;> simp [tagKeys, name, OperatorTag.name]
    | _ => simp [tagKeys, name]
  · intro listed
    have all : (tagKeys.all fun pair => pair.2.name == pair.1) = true := by decide +kernel
    exact eq_of_beq (List.all_eq_true.1 all (key, tag) listed)

theorem Tag.name_injective {tag other : Tag} (same : tag.name = other.name) : tag = other := by
  have found := Tag.ofName?_name tag
  rw [same, Tag.ofName?_name] at found
  exact (Option.some.inj found).symm

/-! ### The values under a key -/

namespace Segment

theorem countKey_eq_zero_iff {key : String} {members : List (String × Tree)} :
    countKey key members = 0 ↔ valuesAt key members = [] := by
  simp [countKey, valuesAt]

theorem stringMember?_eq_some_iff {key s : String} {members : List (String × Tree)} :
    stringMember? key members = some s ↔ valuesAt key members = [.string s] := by
  induction members with
  | nil => simp [stringMember?]
  | cons member members ih =>
      obtain ⟨key', value⟩ := member
      by_cases same : key' = key
      · subst same
        rw [valuesAt_cons_self, List.cons_eq_cons, ← countKey_eq_zero_iff]
        cases value with
        | string s' => by_cases alone : countKey key' members = 0 <;> simp [stringMember?, alone]
        | _ => simp [stringMember?]
      · rw [valuesAt_cons_of_ne same, ← ih]
        cases value <;> simp [stringMember?, same]

theorem operandMember?_eq_some_iff {members : List (String × Tree)} {segment : Segment} :
    operandMember? members = some segment ↔
      ∃ value, valuesAt "arg" members = [value] ∧ ofTree? value = some segment := by
  induction members with
  | nil => simp [operandMember?]
  | cons member members ih =>
      obtain ⟨key, value⟩ := member
      rw [operandMember?]
      by_cases same : key = "arg"
      · subst same
        simp [countKey_eq_zero_iff]
      · rw [if_neg same, ih, valuesAt_cons_of_ne same]

/-- A tree read as a whole is taken for the segment. -/
def Taken (tree : Tree) (segment : Segment) : Prop := ofTree? tree = some segment

theorem ofTrees?_eq_some_iff {items : List Tree} {segments : List Segment} :
    ofTrees? items = some segments ↔ List.Forall₂ Taken items segments := by
  induction items generalizing segments with
  | nil => simp [ofTrees?, eq_comm]
  | cons item items ih =>
      rw [ofTrees?, List.forall₂_cons_left_iff]
      simp only [← ih]
      constructor
      · intro both
        split at both
        · rename_i segment others first later
          cases both
          exact ⟨segment, others, first, later, rfl⟩
        · simp at both
      · rintro ⟨segment, others, first, later, rfl⟩
        simp only [show ofTree? item = some segment from first, later]

theorem argumentsOfTree?_eq_some_iff {tree : Tree} {args : Arguments Segment} :
    argumentsOfTree? tree = some args ↔ DenotesArguments Taken [tree] args := by
  constructor
  · intro taken
    unfold argumentsOfTree? at taken
    split at taken
    · cases taken
      exact .null
    · obtain ⟨segments, each, rfl⟩ := Option.map_eq_some_iff.1 taken
      exact .many (ofTrees?_eq_some_iff.1 each)
    · obtain ⟨segment, given, rfl⟩ := Option.map_eq_some_iff.1 taken
      exact .one given
  · intro denotes
    cases denotes with
    | null => rfl
    | many each => simp [argumentsOfTree?, ofTrees?_eq_some_iff.2 each]
    | one given =>
        -- Neither `null` nor a list is taken for a single segment.
        cases tree with
        | null => simp [Taken, ofTree?] at given
        | array items => simp [Taken, ofTree?] at given
        | _ => simp [argumentsOfTree?, show ofTree? _ = some _ from given]

theorem argumentsMember?_cons_self {value : Tree} {members : List (String × Tree)} :
    argumentsMember? (("args", value) :: members) =
      if countKey "args" members = 0 then argumentsOfTree? value else none := by
  cases value <;> simp [argumentsMember?, argumentsOfTree?]

theorem argumentsMember?_cons_of_ne {key : String} {value : Tree} {members : List (String × Tree)}
    (other : key ≠ "args") :
    argumentsMember? ((key, value) :: members) = argumentsMember? members := by
  cases value <;> simp [argumentsMember?, other]

theorem argumentsMember?_eq_some_iff {members : List (String × Tree)} {args : Arguments Segment} :
    argumentsMember? members = some args ↔
      DenotesArguments Taken (valuesAt "args" members) args := by
  induction members with
  | nil =>
      constructor
      · intro none
        cases none
        exact .absent
      · rintro ⟨⟩
        rfl
  | cons member members ih =>
      obtain ⟨key, value⟩ := member
      by_cases same : key = "args"
      · subst same
        rw [argumentsMember?_cons_self, valuesAt_cons_self]
        split
        · rename_i alone
          rw [countKey_eq_zero_iff.1 alone, argumentsOfTree?_eq_some_iff]
        · rename_i repeated
          rw [countKey_eq_zero_iff] at repeated
          simp only [reduceCtorEq, false_iff]
          intro denotes
          generalize valuesAt "args" members = others at denotes repeated
          cases denotes <;> exact repeated rfl
      · rw [argumentsMember?_cons_of_ne same, ih, valuesAt_cons_of_ne same]

/-! ### Trees that are read as a whole -/

theorem ofPayload?_callArray (name : String) (value : Tree) :
    ofPayload? .call (.array [.string name, value]) =
      (argumentsOfTree? value).map (.call name) := by
  cases value <;> simp [ofPayload?, argumentsOfTree?, Function.comp_def]

section Payload

variable {tag : Tag} {payload : Tree} {segment : Segment}

theorem denotesPayload_of_ofPayload? (taken : ofPayload? tag payload = some segment) :
    DenotesPayload Taken tag payload segment := by
  unfold ofPayload? at taken
  split at taken
  · cases taken
    exact .text _
  · cases taken
    exact .string _
  · cases taken
    exact .number _
  · cases taken
    exact .ending
  · obtain ⟨segments, each, rfl⟩ := Option.map_eq_some_iff.1 taken
    exact .chain (ofTrees?_eq_some_iff.1 each)
  · obtain ⟨name, named, rfl⟩ := Option.map_eq_some_iff.1 taken
    exact .reference (stringMember?_eq_some_iff.1 named)
  · cases taken
    exact .referenceArray _
  · split at taken
    · rename_i name args named given
      cases taken
      exact .call (stringMember?_eq_some_iff.1 named) (argumentsMember?_eq_some_iff.1 given)
    · simp at taken
  · cases taken
    exact .callArray .absent
  · cases taken
    exact .callArray .null
  · obtain ⟨segments, each, rfl⟩ := Option.map_eq_some_iff.1 taken
    exact .callArray (.many (ofTrees?_eq_some_iff.1 each))
  · obtain ⟨segment, given, rfl⟩ := Option.map_eq_some_iff.1 taken
    exact .callArray (.one given)
  · split at taken
    · rename_i sign operand signed given
      cases taken
      obtain ⟨value, alone, given⟩ := operandMember?_eq_some_iff.1 given
      exact .operator (stringMember?_eq_some_iff.1 signed) alone given
    · simp at taken
  · obtain ⟨segment, given, rfl⟩ := Option.map_eq_some_iff.1 taken
    exact .operatorArray given
  · simp at taken

theorem ofPayload?_of_denotesPayload (denotes : DenotesPayload Taken tag payload segment) :
    ofPayload? tag payload = some segment := by
  cases denotes with
  | text s => rfl
  | string s => rfl
  | number digits => rfl
  | ending => rfl
  | chain each => simp [ofPayload?, ofTrees?_eq_some_iff.2 each]
  | reference named => simp [ofPayload?, stringMember?_eq_some_iff.2 named]
  | referenceArray name => rfl
  | call named given =>
      simp [ofPayload?, stringMember?_eq_some_iff.2 named, argumentsMember?_eq_some_iff.2 given]
  | @callArray name values args given =>
      cases values with
      | nil =>
          cases given
          rfl
      | cons value others =>
          obtain rfl : others = [] := by
            cases given <;> rfl
          rw [ofPayload?_callArray, argumentsOfTree?_eq_some_iff.2 given, Option.map_some]
  | operator signed alone given =>
      simp [ofPayload?, stringMember?_eq_some_iff.2 signed,
        operandMember?_eq_some_iff.2 ⟨_, alone, given⟩]
  | operatorArray given => simp [ofPayload?, show ofTree? _ = some _ from given]

theorem ofPayload?_eq_some_iff :
    ofPayload? tag payload = some segment ↔ DenotesPayload Taken tag payload segment :=
  ⟨denotesPayload_of_ofPayload?, ofPayload?_of_denotesPayload⟩

end Payload

theorem tag_name_of_ofName? {name : String} {tag : Tag} (named : Tag.ofName? name = some tag) :
    tag.name = name := by
  simpa using List.find?_some named

/-- The trees that are taken for a segment, one level at a time. -/
theorem taken_iff {tree : Tree} {segment : Segment} :
    Taken tree segment ↔
      (tree = .string Tag.ending.name ∧ segment = .ending) ∨
        ∃ tag payload, tree = .object [(tag.name, payload)] ∧
          DenotesPayload Taken tag payload segment := by
  constructor
  · intro taken
    unfold Taken ofTree? at taken
    split at taken
    · split at taken
      · rename_i s ending
        cases taken
        exact .inl ⟨by rw [ending], rfl⟩
      · simp at taken
    · rename_i key payload
      split at taken
      · simp at taken
      · rename_i tag named
        obtain rfl := tag_name_of_ofName? named
        exact .inr ⟨tag, payload, rfl, ofPayload?_eq_some_iff.1 taken⟩
    · simp at taken
  · rintro (⟨rfl, rfl⟩ | ⟨tag, payload, rfl, denotes⟩)
    · simp [Taken, ofTree?]
    · simpa [Taken, ofTree?, Tag.ofName?_name] using ofPayload?_eq_some_iff.2 denotes

end Segment

/-! ### Denotation by depth -/

theorem Json.Tree.denotes_iff {tree : Tree} {segment : Segment} :
    tree.Denotes segment ↔
      (tree = .string Tag.ending.name ∧ segment = .ending) ∨
        ∃ tag payload, tree = .object [(tag.name, payload)] ∧
          DenotesPayload Denotes tag payload segment := by
  constructor
  · intro denotes
    cases denotes with
    | ending => exact .inl ⟨rfl, rfl⟩
    | tagged given => exact .inr ⟨_, _, rfl, given⟩
  · rintro (⟨rfl, rfl⟩ | ⟨tag, payload, rfl, given⟩)
    · exact .ending
    · exact .tagged given

/-- A string denotes a segment only if it is the bare name of an ending. -/
theorem Json.Tree.denotes_string_iff {s : String} {segment : Segment} :
    (Tree.string s).Denotes segment ↔ s = "ending" ∧ segment = .ending := by
  rw [denotes_iff]
  simp [Tag.name]

/-- An object with one key denotes what its value denotes under the tag of the key. -/
theorem Json.Tree.denotes_keyed_iff {key : String} {payload : Tree} {segment : Segment} :
    (Tree.object [(key, payload)]).Denotes segment ↔
      ∃ tag, (key, tag) ∈ tagKeys ∧ DenotesPayload Denotes tag payload segment := by
  rw [denotes_iff]
  constructor
  · rintro (⟨absent, -⟩ | ⟨tag, payload', same, given⟩)
    · simp at absent
    · simp only [object.injEq, List.cons.injEq, Prod.mk.injEq, and_true] at same
      obtain ⟨named, rfl⟩ := same
      exact ⟨tag, Tag.name_eq_iff.1 named.symm, given⟩
  · rintro ⟨tag, listed, given⟩
    exact .inr ⟨tag, payload, by rw [Tag.name_eq_iff.2 listed], given⟩

theorem Json.Tree.denotes_object_iff {tag : Tag} {payload : Tree} {segment : Segment} :
    (Tree.object [(tag.name, payload)]).Denotes segment ↔
      DenotesPayload Denotes tag payload segment := by
  rw [denotes_keyed_iff]
  constructor
  · rintro ⟨other, listed, given⟩
    rwa [← Tag.name_injective (Tag.name_eq_iff.2 listed)]
  · intro given
    exact ⟨tag, Tag.name_eq_iff.1 rfl, given⟩

theorem Json.Tree.depth_lt_of_mem_valuesAt {members : List (String × Tree)} {key : String}
    {value : Tree} (member : value ∈ valuesAt key members) :
    value.depth < (Tree.object members).depth := by
  obtain ⟨pair, among, rfl⟩ := List.mem_map.1 member
  exact depth_lt_of_mem_members (List.mem_filter.1 among).1

section Mono

variable {denotes denotes' : Tree → Segment → Prop}

theorem forall₂_mono {items : List Tree} {segments : List Segment}
    (each : List.Forall₂ denotes items segments)
    (imp : ∀ item ∈ items, ∀ segment, denotes item segment → denotes' item segment) :
    List.Forall₂ denotes' items segments := by
  induction each with
  | nil => exact .nil
  | cons first later ih =>
      exact .cons (imp _ (by simp) _ first) (ih fun item member => imp item (by simp [member]))

theorem DenotesArguments.mono {values : List Tree} {args : Arguments Segment} {bound : Nat}
    (given : DenotesArguments denotes values args) (within : ∀ value ∈ values, value.depth < bound)
    (imp : ∀ tree, tree.depth < bound → ∀ segment, denotes tree segment → denotes' tree segment) :
    DenotesArguments denotes' values args := by
  cases given with
  | absent => exact .absent
  | null => exact .null
  | @many items segments each =>
      have inside : ∀ item ∈ items, item.depth < bound := fun item member =>
        Nat.lt_trans (Tree.depth_lt_of_mem_items member) (within (.array items) (by simp))
      exact .many (forall₂_mono each fun item member => imp item (inside item member))
  | one given => exact .one (imp _ (within _ (by simp)) _ given)

/-- What a payload denotes depends on what is inside it. -/
theorem DenotesPayload.mono {tag : Tag} {payload : Tree} {segment : Segment}
    (given : DenotesPayload denotes tag payload segment)
    (imp : ∀ tree, tree.depth < payload.depth → ∀ segment, denotes tree segment →
      denotes' tree segment) :
    DenotesPayload denotes' tag payload segment := by
  cases given with
  | text s => exact .text s
  | string s => exact .string s
  | number digits => exact .number digits
  | ending => exact .ending
  | chain each =>
      exact .chain (forall₂_mono each fun item member =>
        imp item (Tree.depth_lt_of_mem_items member))
  | reference named => exact .reference named
  | referenceArray name => exact .referenceArray name
  | call named given =>
      exact .call named (given.mono (fun value => Tree.depth_lt_of_mem_valuesAt) imp)
  | callArray given =>
      refine .callArray (given.mono (fun value member => ?_) imp)
      exact Tree.depth_lt_of_mem_items (List.mem_cons_of_mem _ member)
  | operator signed alone given =>
      exact .operator signed alone
        (imp _ (Tree.depth_lt_of_mem_valuesAt (alone ▸ List.mem_singleton_self _)) _ given)
  | operatorArray given =>
      exact .operatorArray (imp _ (Tree.depth_lt_of_mem_items (by simp)) _ given)

end Mono

theorem Json.Tree.depth_lt_object (key : String) (payload : Tree) :
    payload.depth < (Tree.object [(key, payload)]).depth := by
  simp [depth, depthOfMembers]

/-- A tree read as a whole is taken for a segment exactly if it denotes the segment. -/
theorem Segment.taken_iff_denotes {tree : Tree} {segment : Segment} :
    Taken tree segment ↔ tree.Denotes segment := by
  -- The payload of a tree has less depth than the tree, and so has all that is inside it.
  induction bound : tree.depth using Nat.strongRecOn generalizing tree segment with
  | ind depth ih =>
      subst bound
      rw [taken_iff, Tree.denotes_iff]
      refine or_congr Iff.rfl (exists_congr fun tag => exists_congr fun payload =>
        and_congr_right ?_)
      rintro rfl
      have same : ∀ tree, tree.depth < payload.depth → ∀ segment,
          Taken tree segment ↔ tree.Denotes segment := fun tree inside segment =>
        ih tree.depth (Nat.lt_trans inside (Tree.depth_lt_object tag.name payload)) rfl
      exact ⟨fun given => given.mono fun tree inside segment => (same tree inside segment).1,
        fun given => given.mono fun tree inside segment => (same tree inside segment).2⟩

theorem Segment.argumentsOfTree?_iff_denotes {tree : Tree} {args : Arguments Segment} :
    argumentsOfTree? tree = some args ↔ DenotesArguments Tree.Denotes [tree] args := by
  have same : Taken = Tree.Denotes := by
    funext tree segment
    exact propext taken_iff_denotes
  rw [argumentsOfTree?_eq_some_iff, same]

end Liquefy
