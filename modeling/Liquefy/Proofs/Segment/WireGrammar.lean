import Liquefy.Proofs.Segment.Acceptance

/-!
# The decoder accepts exactly the wire grammar

Where a text can be read as a tree within the limit on nesting, the outline of the text is the
outline of that tree, and nothing is left of the difference between looking at a member and passing
over it: the text is accepted exactly if the tree denotes a segment, and for no other segment.
-/

namespace Liquefy

open Json

/-! ### Outlines of trees -/

namespace Json.Tree

mutual

theorem outline_injective : (tree other : Tree) → tree.outline = other.outline → tree = other
  | .null, other, same => by cases other <;> simp [outline] at same ⊢
  | .boolean b, other, same => by cases other <;> simp [outline] at same ⊢; exact same
  | .number n, other, same => by cases other <;> simp [outline] at same ⊢; exact same
  | .string s, other, same => by cases other <;> simp [outline] at same ⊢; exact same
  | .array items, other, same => by
      cases other <;> simp [outline] at same ⊢
      exact outlines_injective items _ same
  | .object members, other, same => by
      cases other <;> simp [outline] at same ⊢
      exact memberOutlines_injective members _ same

theorem outlines_injective : (items others : List Tree) → outlines items = outlines others →
    items = others
  | [], others, same => by cases others <;> simp [outlines] at same ⊢
  | item :: items, others, same => by
      cases others <;> simp [outlines] at same ⊢
      exact ⟨outline_injective item _ same.1, outlines_injective items _ same.2⟩

theorem memberOutlines_injective : (members others : List (String × Tree)) →
    memberOutlines members = memberOutlines others → members = others
  | [], others, same => by cases others <;> simp [memberOutlines] at same ⊢
  | (key, value) :: members, others, same => by
      obtain _ | ⟨⟨key', value'⟩, others⟩ := others <;> simp [memberOutlines] at same ⊢
      obtain ⟨⟨keys, values⟩, later⟩ := same
      exact ⟨⟨keys, outline_injective value value' values⟩,
        memberOutlines_injective members others later⟩

end

theorem keyed_memberOutlines (members : List (String × Tree)) :
    Record.Keyed (memberOutlines members) := by
  induction members with
  | nil => simp [memberOutlines]
  | cons member members ih => simp [memberOutlines, ih]

theorem valuesAt_memberOutlines (key : String) (members : List (String × Tree)) :
    valuesAt (some key) (memberOutlines members) = outlines (valuesAt key members) := by
  induction members with
  | nil => rfl
  | cons member members ih =>
      obtain ⟨key', value⟩ := member
      by_cases same : key' = key
      · subst same
        simp [memberOutlines, outlines, ih]
      · rw [memberOutlines, valuesAt_cons_of_ne (by simpa using same), valuesAt_cons_of_ne same, ih]

theorem outline_eq_null_iff {tree : Tree} : tree.outline = .null ↔ tree = .null := by
  cases tree <;> simp [outline]

theorem outline_eq_string_iff {tree : Tree} {s : String} :
    tree.outline = .string (some s) ↔ tree = .string s := by
  cases tree <;> simp [outline]

theorem outline_eq_array_iff {tree : Tree} {found : List Outline} :
    tree.outline = .array found ↔ ∃ items, tree = .array items ∧ items.map outline = found := by
  cases tree <;> simp [outline, outlines_eq_map]

theorem outline_eq_object_iff {tree : Tree} {found : List (Option String × Outline)} :
    tree.outline = .object found ↔
      ∃ members, tree = .object members ∧ memberOutlines members = found := by
  cases tree <;> simp [outline]

theorem valuesAt_memberOutlines_eq_singleton_iff {key : String} {members : List (String × Tree)}
    {found : Outline} :
    valuesAt (some key) (memberOutlines members) = [found] ↔
      ∃ value, valuesAt key members = [value] ∧ value.outline = found := by
  rw [valuesAt_memberOutlines, outlines_eq_map, List.map_eq_singleton_iff]

end Json.Tree

/-! ### The grammar of outlines on trees -/

theorem Json.Tree.items_fit {budget : Nat} {items : List Tree}
    (fits : (Tree.array items).depth ≤ budget) : ∀ item ∈ items, item.depth ≤ budget - 1 :=
  fun _ member =>
    Nat.le_sub_one_of_lt (Nat.lt_of_lt_of_le (Tree.depth_lt_of_mem_items member) fits)

theorem Json.Tree.valuesAt_fit {budget : Nat} {members : List (String × Tree)} {key : String}
    (fits : (Tree.object members).depth ≤ budget) :
    ∀ value ∈ valuesAt key members, value.depth ≤ budget - 1 :=
  fun _ member =>
    Nat.le_sub_one_of_lt (Nat.lt_of_lt_of_le (Tree.depth_lt_of_mem_valuesAt member) fits)

section Trees

variable {budget : Nat} {denotes : Outline → Segment → Prop}

theorem forall₂_map_outline_iff {items : List Tree} {segments : List Segment}
    (same : ∀ item ∈ items, ∀ segment, denotes item.outline segment ↔ item.Denotes segment) :
    List.Forall₂ denotes (items.map Tree.outline) segments ↔
      List.Forall₂ Tree.Denotes items segments := by
  rw [List.forall₂_map_left_iff]
  constructor
  · intro each
    exact forall₂_mono each fun item member segment => (same item member segment).1
  · intro each
    exact forall₂_mono each fun item member segment => (same item member segment).2

theorem fill_arguments_iff {values : List Tree} {args : Arguments Segment}
    (fits : ∀ value ∈ values, value.depth ≤ budget) :
    (∃ found, Fill (Outline.DenotesArguments budget) none (values.map Tree.outline) found ∧
        found.getD .none = args) ↔
      DenotesArguments Tree.Denotes values args := by
  constructor
  · rintro ⟨found, fill, rfl⟩
    generalize shown : values.map Tree.outline = outlines at fill
    cases fill with
    | kept =>
        obtain rfl := List.map_eq_nil_iff.1 shown
        exact .absent
    | filled given =>
        obtain ⟨value, rfl, rfl⟩ := List.map_eq_singleton_iff.1 shown
        obtain ⟨tree, same, -, given⟩ := given
        obtain rfl := Tree.outline_injective value tree same
        exact given
  · intro given
    cases given with
    | absent => exact ⟨none, .kept, rfl⟩
    | null => exact ⟨some .none, .filled ⟨.null, rfl, fits _ (by simp), .null⟩, rfl⟩
    | many each => exact ⟨_, .filled ⟨_, rfl, fits _ (by simp), .many each⟩, rfl⟩
    | one given => exact ⟨_, .filled ⟨_, rfl, fits _ (by simp), .one given⟩, rfl⟩

theorem DenotesPayload.of_outline {tag : Tag} {payload : Tree} {segment : Segment}
    (given : Outline.DenotesPayload budget denotes tag payload.outline segment)
    (fits : payload.depth ≤ budget)
    (same : ∀ tree : Tree, tree.depth < budget → ∀ segment,
      denotes tree.outline segment ↔ tree.Denotes segment) :
    DenotesPayload Tree.Denotes tag payload segment := by
  generalize shown : payload.outline = outline at given
  cases given with
  | text s =>
      obtain rfl := Tree.outline_eq_string_iff.1 shown
      exact .text s
  | string s =>
      obtain rfl := Tree.outline_eq_string_iff.1 shown
      exact .string s
  | number digits =>
      obtain rfl := Tree.outline_eq_string_iff.1 shown
      exact .number digits
  | ending =>
      obtain rfl := Tree.outline_eq_null_iff.1 shown
      exact .ending
  | chain room each =>
      obtain ⟨items, rfl, rfl⟩ := Tree.outline_eq_array_iff.1 shown
      have inside := fun item member => same item
        (Nat.lt_of_lt_of_le (Tree.depth_lt_of_mem_items member) fits)
      exact .chain ((forall₂_map_outline_iff inside).1 each)
  | reference room keyed named =>
      obtain ⟨members, rfl, rfl⟩ := Tree.outline_eq_object_iff.1 shown
      obtain ⟨value, once, named⟩ := Tree.valuesAt_memberOutlines_eq_singleton_iff.1 named
      obtain rfl := Tree.outline_eq_string_iff.1 named
      exact .reference once
  | referenceArray name room =>
      obtain ⟨items, rfl, front⟩ := Tree.outline_eq_array_iff.1 shown
      obtain ⟨value, rfl, named⟩ := List.map_eq_singleton_iff.1 front
      obtain rfl := Tree.outline_eq_string_iff.1 named
      exact .referenceArray name
  | call room keyed named given =>
      obtain ⟨members, rfl, rfl⟩ := Tree.outline_eq_object_iff.1 shown
      obtain ⟨value, once, named⟩ := Tree.valuesAt_memberOutlines_eq_singleton_iff.1 named
      obtain rfl := Tree.outline_eq_string_iff.1 named
      rw [Tree.valuesAt_memberOutlines, Tree.outlines_eq_map] at given
      exact .call once ((fill_arguments_iff (Tree.valuesAt_fit fits)).1 ⟨_, given, rfl⟩)
  | callArray room given =>
      obtain ⟨items, rfl, front⟩ := Tree.outline_eq_array_iff.1 shown
      obtain ⟨value, values, rfl, named, rfl⟩ := List.map_eq_cons_iff.1 front
      obtain rfl := Tree.outline_eq_string_iff.1 named
      have inside := fun value member => Tree.items_fit fits value (List.mem_cons_of_mem _ member)
      exact .callArray ((fill_arguments_iff inside).1 ⟨_, given, rfl⟩)
  | operator room keyed signed alone given =>
      obtain ⟨members, rfl, rfl⟩ := Tree.outline_eq_object_iff.1 shown
      obtain ⟨value, once, signed⟩ := Tree.valuesAt_memberOutlines_eq_singleton_iff.1 signed
      obtain rfl := Tree.outline_eq_string_iff.1 signed
      obtain ⟨operand, single, rfl⟩ := Tree.valuesAt_memberOutlines_eq_singleton_iff.1 alone
      have inside := Tree.depth_lt_of_mem_valuesAt (single ▸ List.mem_singleton_self operand)
      exact .operator once single ((same operand (Nat.lt_of_lt_of_le inside fits) _).1 given)
  | @operatorArray tag sign _ segment room given =>
      obtain ⟨items, rfl, front⟩ := Tree.outline_eq_array_iff.1 shown
      obtain ⟨value, values, rfl, signed, rest⟩ := List.map_eq_cons_iff.1 front
      obtain rfl := Tree.outline_eq_string_iff.1 signed
      obtain ⟨operand, rfl, rfl⟩ := List.map_eq_singleton_iff.1 rest
      have inside := Tree.depth_lt_of_mem_items
        (List.mem_cons_of_mem (.string sign) (List.mem_singleton_self operand))
      exact .operatorArray ((same operand (Nat.lt_of_lt_of_le inside fits) _).1 given)

theorem DenotesPayload.outline {tag : Tag} {payload : Tree} {segment : Segment}
    (given : DenotesPayload Tree.Denotes tag payload segment) (fits : payload.depth ≤ budget)
    (same : ∀ tree : Tree, tree.depth < budget → ∀ segment,
      denotes tree.outline segment ↔ tree.Denotes segment) :
    Outline.DenotesPayload budget denotes tag payload.outline segment := by
  -- A payload with brackets leaves room for its own one.
  have room : 0 < payload.depth → 0 < budget := fun bracket => Nat.lt_of_lt_of_le bracket fits
  cases given with
  | text s => exact .text s
  | string s => exact .string s
  | number digits => exact .number digits
  | ending => exact .ending
  | chain each =>
      have inside := fun item member => same item
        (Nat.lt_of_lt_of_le (Tree.depth_lt_of_mem_items member) fits)
      rw [Tree.outline, Tree.outlines_eq_map]
      exact .chain (room (Nat.succ_pos _)) ((forall₂_map_outline_iff inside).2 each)
  | reference named =>
      refine .reference (room (Nat.succ_pos _)) (Tree.keyed_memberOutlines _) ?_
      exact Tree.valuesAt_memberOutlines_eq_singleton_iff.2 ⟨_, named, rfl⟩
  | referenceArray name => exact .referenceArray name (room (Nat.succ_pos _))
  | @call members name args named given =>
      obtain ⟨found, fill, rfl⟩ := (fill_arguments_iff (Tree.valuesAt_fit fits)).2 given
      rw [← Tree.outlines_eq_map, ← Tree.valuesAt_memberOutlines] at fill
      refine .call (room (Nat.succ_pos _)) (Tree.keyed_memberOutlines members) ?_ fill
      exact Tree.valuesAt_memberOutlines_eq_singleton_iff.2 ⟨_, named, rfl⟩
  | @callArray name values args given =>
      have inside := fun value member => Tree.items_fit fits value (List.mem_cons_of_mem _ member)
      obtain ⟨found, fill, rfl⟩ := (fill_arguments_iff inside).2 given
      rw [Tree.outline, Tree.outlines_eq_map]
      exact .callArray (room (Nat.succ_pos _)) fill
  | operator signed alone given =>
      have inside := Tree.depth_lt_of_mem_valuesAt (alone ▸ List.mem_singleton_self _)
      refine .operator (room (Nat.succ_pos _)) (Tree.keyed_memberOutlines _) ?_ ?_
        ((same _ (Nat.lt_of_lt_of_le inside fits) _).2 given)
      · exact Tree.valuesAt_memberOutlines_eq_singleton_iff.2 ⟨_, signed, rfl⟩
      · exact Tree.valuesAt_memberOutlines_eq_singleton_iff.2 ⟨_, alone, rfl⟩
  | @operatorArray tag sign operand segment given =>
      have inside := Tree.depth_lt_of_mem_items
        (List.mem_cons_of_mem (.string sign) (List.mem_singleton_self operand))
      exact .operatorArray (room (Nat.succ_pos _))
        ((same operand (Nat.lt_of_lt_of_le inside fits) _).2 given)

/-- One level of the grammar on a tree. -/
theorem denotesTagged_outline_iff {inner : Nat} {tree : Tree} {segment : Segment}
    (fits : tree.depth ≤ budget) (nested : budget ≤ inner + 1)
    (same : ∀ tree : Tree, tree.depth < inner → ∀ segment,
      denotes tree.outline segment ↔ tree.Denotes segment) :
    Outline.DenotesTagged budget (Outline.DenotesPayload inner denotes) tree.outline segment ↔
      tree.Denotes segment := by
  constructor
  · intro given
    generalize shown : tree.outline = outline at given
    cases given with
    | ending =>
        obtain rfl := Tree.outline_eq_string_iff.1 shown
        exact .ending
    | @tagged tag _ _ room given =>
        obtain ⟨members, rfl, front⟩ := Tree.outline_eq_object_iff.1 shown
        obtain _ | ⟨⟨key, payload⟩, _ | ⟨other, others⟩⟩ := members
        · simp [Tree.memberOutlines] at front
        · simp only [Tree.memberOutlines, List.cons.injEq, Prod.mk.injEq, Option.some.injEq,
            and_true] at front
          obtain ⟨rfl, rfl⟩ := front
          have inside := Tree.depth_lt_object tag.name payload
          exact .tagged (.of_outline given (by omega) same)
        · simp [Tree.memberOutlines] at front
  · intro given
    cases given with
    | ending => exact .ending
    | @tagged tag payload segment given =>
        have inside := Tree.depth_lt_object tag.name payload
        exact .tagged (by omega) (given.outline (by omega) same)

/-- On trees within the budget the two grammars agree. -/
theorem Json.Tree.denotes_outline_iff : {budget : Nat} → {tree : Tree} → {segment : Segment} →
    (fits : tree.depth ≤ budget) →
      (tree.outline.Denotes budget segment ↔ tree.Denotes segment)
  | 0, _, _, fits => denotesTagged_outline_iff fits (by omega) (by simp)
  | 1, _, _, fits => denotesTagged_outline_iff fits (by omega) (by simp)
  | _ + 2, _, _, fits => denotesTagged_outline_iff fits (by omega) fun _ inside _ =>
      denotes_outline_iff (Nat.le_of_lt_succ inside)

theorem Json.Tree.denotesTemplate_outline_iff {tree : Tree} {template : Template}
    (fits : tree.depth ≤ budget) :
    tree.outline.DenotesTemplate budget template ↔ tree.DenotesTemplate template := by
  constructor
  · intro given
    generalize shown : tree.outline = outline at given
    cases given with
    | object room keyed alone each =>
        obtain ⟨members, rfl, rfl⟩ := Tree.outline_eq_object_iff.1 shown
        obtain ⟨value, once, listed⟩ := Tree.valuesAt_memberOutlines_eq_singleton_iff.1 alone
        obtain ⟨items, rfl, rfl⟩ := Tree.outline_eq_array_iff.1 listed
        have inside := Tree.items_fit (Tree.valuesAt_fit fits _ (once ▸ List.mem_singleton_self _))
        exact .object once ((forall₂_map_outline_iff fun item member segment =>
          denotes_outline_iff (inside item member)).1 each)
    | array room each =>
        obtain ⟨values, rfl, front⟩ := Tree.outline_eq_array_iff.1 shown
        obtain ⟨value, rfl, listed⟩ := List.map_eq_singleton_iff.1 front
        obtain ⟨items, rfl, rfl⟩ := Tree.outline_eq_array_iff.1 listed
        have inside := Tree.items_fit (Tree.items_fit fits _ (List.mem_singleton_self _))
        exact .array ((forall₂_map_outline_iff fun item member segment =>
          denotes_outline_iff (inside item member)).1 each)
  · intro given
    cases given with
    | @object members items segments alone each =>
        have value := Tree.valuesAt_fit fits _ (alone ▸ List.mem_singleton_self (Tree.array items))
        have inside := Tree.items_fit value
        have room : 1 < budget := by
          simp only [Tree.depth] at value
          omega
        refine .object room (Tree.keyed_memberOutlines members) ?_
          ((forall₂_map_outline_iff fun item member segment =>
            denotes_outline_iff (inside item member)).2 each)
        exact Tree.valuesAt_memberOutlines_eq_singleton_iff.2
          ⟨_, alone, by rw [Tree.outline, Tree.outlines_eq_map]⟩
    | @array items segments each =>
        have value := Tree.items_fit fits _ (List.mem_singleton_self _)
        have inside := Tree.items_fit value
        have room : 1 < budget := by
          simp only [Tree.depth] at value
          omega
        have given := Outline.DenotesTemplate.array room
          ((forall₂_map_outline_iff fun item member segment =>
            denotes_outline_iff (inside item member)).2 each)
        simpa [Tree.outline, Tree.outlines_eq_map] using given

end Trees

/-! ### Texts of trees -/

theorem Json.Tree.decode_eq_ok_iff {budget : Nat} {text : String} {tree : Tree} :
    Json.decode (Tree.read budget) text = .ok tree ↔
      tree.outline.SpelledBy text ∧ tree.depth ≤ budget := by
  rw [Json.decode_eq_ok_iff (Tree.read_means budget)]
  constructor
  · rintro ⟨outline, spelled, rfl, fits⟩
    exact ⟨spelled, fits⟩
  · rintro ⟨spelled, fits⟩
    exact ⟨tree.outline, spelled, rfl, fits⟩

theorem Segment.decode_of_spelled {text : String} {tree : Tree} {segment : Segment}
    (spelled : tree.outline.SpelledBy text) (fits : tree.depth ≤ maxDepth) :
    Segment.decode text = .ok segment ↔ tree.Denotes segment := by
  rw [Segment.decode_eq_ok_iff, ← Tree.denotes_outline_iff fits]
  constructor
  · rintro ⟨outline, spelled', denotes⟩
    rwa [spelled.unique spelled']
  · intro denotes
    exact ⟨tree.outline, spelled, denotes⟩

theorem Template.decode_of_spelled {text : String} {tree : Tree} {template : Template}
    (spelled : tree.outline.SpelledBy text) (fits : tree.depth ≤ maxDepth) :
    Template.decode text = .ok template ↔ tree.DenotesTemplate template := by
  rw [Template.decode_eq_ok_iff, ← Tree.denotesTemplate_outline_iff fits]
  constructor
  · rintro ⟨outline, spelled', denotes⟩
    rwa [spelled.unique spelled']
  · intro denotes
    exact ⟨tree.outline, spelled, denotes⟩

@[simp]
theorem Json.Tree.numberless_null : Numberless .null := .null

@[simp]
theorem Json.Tree.numberless_string (s : String) : Numberless (.string s) := .string s

@[simp]
theorem Json.Tree.numberless_array_iff {items : List Tree} :
    Numberless (.array items) ↔ ∀ item ∈ items, item.Numberless := by
  constructor
  · intro numberless
    cases numberless with
    | array each => exact each
  · intro each
    exact .array each

@[simp]
theorem Json.Tree.numberless_object_iff {members : List (String × Tree)} :
    Numberless (.object members) ↔ ∀ member ∈ members, member.2.Numberless := by
  constructor
  · intro numberless
    cases numberless with
    | object each => exact each
  · intro each
    exact .object each

/-- The compact text of a tree without numbers is a text of the tree. -/
theorem Json.Tree.Numberless.spelledBy {tree : Tree} (numberless : tree.Numberless) :
    tree.outline.SpelledBy tree.text := by
  have decoded := decode_text (numberless.restores tree.depth)
  rw [if_pos (Nat.le_refl _)] at decoded
  exact (Tree.decode_eq_ok_iff.1 decoded).1

/-- The decoder accepts exactly the wire grammar. A text of a tree within the limit on nesting is
decoded to what the tree denotes and to nothing else. Any other text is decoded exactly if it is a
JSON value whose outline denotes the result, where members that no record asks for are free. -/
theorem decoder_accepts_exactly_the_wire_grammar (text : String) :
    (∀ tree : Tree, tree.outline.SpelledBy text → tree.depth ≤ maxDepth →
      (∀ segment, Segment.decode text = .ok segment ↔ tree.Denotes segment) ∧
        ∀ template, Template.decode text = .ok template ↔ tree.DenotesTemplate template) ∧
    (∀ segment, Segment.decode text = .ok segment ↔
      ∃ outline : Outline, outline.SpelledBy text ∧ outline.Denotes maxDepth segment) ∧
    ∀ template, Template.decode text = .ok template ↔
      ∃ outline : Outline, outline.SpelledBy text ∧ outline.DenotesTemplate maxDepth template := by
  refine ⟨?_, fun segment => Segment.decode_eq_ok_iff, fun template => Template.decode_eq_ok_iff⟩
  intro tree spelled fits
  constructor
  · intro segment
    exact Segment.decode_of_spelled spelled fits
  · intro template
    exact Template.decode_of_spelled spelled fits

/-- A document with a member that nobody asks for, a call in its array form and an ending with a
payload. -/
theorem wire_grammar_at_mixed_forms :
    ∃ tree : Tree,
      tree.outline.SpelledBy
        "\x7b\"n\":[],\"template\":[\x7b\"call\":[\"f\",\x7b\"ending\":null\x7d]\x7d]\x7d" ∧
      tree.depth ≤ maxDepth ∧
      Template.decode
        "\x7b\"n\":[],\"template\":[\x7b\"call\":[\"f\",\x7b\"ending\":null\x7d]\x7d]\x7d" =
          .ok ⟨[.call "f" (.one .ending)]⟩ := by
  have numberless : (Tree.object [("n", .array []), ("template", .array
      [.object [("call", .array [.string "f", .object [("ending", .null)]])]])]).Numberless := by
    simp
  have spelled := numberless.spelledBy
  refine ⟨_, spelled, by decide, ?_⟩
  exact (((decoder_accepts_exactly_the_wire_grammar _).1 _ spelled (by decide)).2 _).2
    (.object rfl (.cons (.tagged (.callArray (.one (.tagged .ending)))) .nil))

end Liquefy
