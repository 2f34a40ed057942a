import Liquefy.Proofs.Segment.WireGrammar

/-!
# Accepted texts can be written again

The encoding of a segment opens a bracket only where the text it came from had one: the object of
the tag, and the list or the record behind it. A text may open more of them, in members that are
passed over, and it may open them without limit there. So what is kept from an accepted text is
written within the limit, and the decoder takes it back.
-/

namespace Liquefy

open Json

namespace Segment

/-! ### One level of the encoding -/

theorem depth_tree_le {segment : Segment} {inner : Nat}
    (payload : segment ≠ .ending → segment.payloadTree.depth ≤ inner) :
    segment.tree.depth ≤ inner + 1 := by
  by_cases ending : segment = .ending
  · subst ending
    exact Nat.zero_le _
  · have inside := payload ending
    rw [tree_eq_object ending]
    simpa [Tree.depth, Tree.depthOfMembers] using inside

theorem depth_map_tree_lt {segments : List Segment} {budget : Nat} (room : 0 < budget)
    (each : ∀ segment ∈ segments, segment.tree.depth < budget) :
    (Tree.array (segments.map tree)).depth ≤ budget := by
  apply Tree.depthOfItems_lt_iff.2
  refine ⟨room, fun item member => ?_⟩
  obtain ⟨segment, among, rfl⟩ := List.mem_map.1 member
  exact each segment among

theorem forall₂_mem_right {α : Type} {denotes : α → Segment → Prop} {items : List α}
    {segments : List Segment} (each : List.Forall₂ denotes items segments) {segment : Segment}
    (member : segment ∈ segments) : ∃ item ∈ items, denotes item segment := by
  induction each with
  | nil => simp at member
  | @cons item first items segments head later ih =>
      obtain rfl | among := List.mem_cons.1 member
      · exact ⟨item, by simp, head⟩
      · obtain ⟨other, listed, given⟩ := ih among
        exact ⟨other, List.mem_cons_of_mem _ listed, given⟩

/-- The arguments of a call are written within the depth of the tree they were read as. -/
theorem depth_argumentMembers_le {tree : Tree} {args : Arguments Segment}
    (given : DenotesArguments Tree.Denotes [tree] args)
    (smaller : ∀ inside : Tree, inside.depth ≤ tree.depth → ∀ segment, inside.Denotes segment →
      segment.tree.depth ≤ inside.depth) :
    ∀ member ∈ argumentMembers args, member.2.depth ≤ tree.depth := by
  cases given with
  | null => simp [argumentMembers]
  | @many items segments each =>
      have whole : (Tree.array (segments.map Segment.tree)).depth ≤ (Tree.array items).depth := by
        apply depth_map_tree_lt (Nat.succ_pos _)
        intro segment member
        obtain ⟨item, listed, denotes⟩ := forall₂_mem_right each member
        have inside := Tree.depth_lt_of_mem_items listed
        exact Nat.lt_of_le_of_lt (smaller item (Nat.le_of_lt inside) segment denotes) inside
      simpa [argumentMembers, trees_eq_map] using whole
  | one given => simpa [argumentMembers] using smaller tree (Nat.le_refl _) _ given

theorem depth_call_le {inner : Nat} {name : String} {values : List Outline}
    {args : Option (Arguments Segment)} (room : 0 < inner)
    (given : Fill (Outline.DenotesArguments (inner - 1)) none values args)
    (smaller : ∀ tree : Tree, tree.depth < inner → ∀ segment, tree.Denotes segment →
      segment.tree.depth ≤ tree.depth) :
    (payloadTree (.call name (args.getD .none))).depth ≤ inner := by
  have each : ∀ member ∈ argumentMembers (args.getD .none), member.2.depth < inner := by
    cases given with
    | kept => simp [argumentMembers]
    | filled given =>
        obtain ⟨tree, -, fits, given⟩ := given
        have inside := depth_argumentMembers_le given fun inside less =>
          smaller inside (by omega)
        intro member among
        have := inside member among
        omega
  exact Tree.depthOfMembers_lt_iff.2 ⟨room, List.forall_mem_cons.2 ⟨room, each⟩⟩

theorem depth_operator_le {inner : Nat} {tag : OperatorTag} {sign : String} {operand : Segment}
    (room : 0 < inner) (inside : operand.tree.depth < inner) :
    (payloadTree (.operator tag sign operand)).depth ≤ inner := by
  apply Tree.depthOfMembers_lt_iff.2
  simpa using ⟨room, room, inside⟩

theorem depth_payloadTree_le {inner : Nat} {denotes : Outline → Segment → Prop} {tag : Tag}
    {outline : Outline} {segment : Segment}
    (given : Outline.DenotesPayload inner denotes tag outline segment)
    (nested : ∀ outline segment, denotes outline segment → segment.tree.depth < inner)
    (smaller : ∀ tree : Tree, tree.depth < inner → ∀ segment, tree.Denotes segment →
      segment.tree.depth ≤ tree.depth) :
    segment ≠ .ending → segment.payloadTree.depth ≤ inner := by
  intro payloaded
  cases given with
  | text s => exact Nat.zero_le _
  | string s => exact Nat.zero_le _
  | number digits => exact Nat.zero_le _
  | ending => exact absurd rfl payloaded
  | chain room each =>
      apply depth_map_tree_lt room
      intro segment member
      obtain ⟨item, -, denotes⟩ := forall₂_mem_right each member
      exact nested item segment denotes
  | reference room keyed named => exact room
  | referenceArray name room => exact room
  | call room keyed named given => exact depth_call_le room given smaller
  | callArray room given => exact depth_call_le room given smaller
  | operator room keyed signed alone given => exact depth_operator_le room (nested _ _ given)
  | operatorArray room given => exact depth_operator_le room (nested _ _ given)

end Segment

/-! ### What is kept fits -/

/-- A segment that was read within a budget is written within it. -/
theorem Segment.depth_le_of_denotes {budget : Nat} {outline : Outline} {segment : Segment}
    (denotes : outline.Denotes budget segment) : segment.tree.depth ≤ budget := by
  induction budget using Nat.strongRecOn generalizing outline segment with
  | ind budget ih =>
      -- Arguments were read as a tree, which is an outline within its own depth.
      have smaller : ∀ tree : Tree, tree.depth < budget → ∀ segment, tree.Denotes segment →
          segment.tree.depth ≤ tree.depth := fun tree inside segment given =>
        ih tree.depth inside ((Tree.denotes_outline_iff (Nat.le_refl _)).2 given)
      obtain _ | _ | budget := budget
      · cases denotes with
        | ending => exact Nat.le_refl _
        | tagged room given => exact absurd room (Nat.lt_irrefl 0)
      · cases denotes with
        | ending => exact Nat.zero_le _
        | tagged room given =>
            exact depth_tree_le (depth_payloadTree_le given (by simp) (by simp))
      · cases denotes with
        | ending => exact Nat.zero_le _
        | tagged room given =>
            apply depth_tree_le
            apply depth_payloadTree_le given
            · intro outline segment nested
              have := ih budget (by omega) nested
              omega
            · intro tree inside
              exact smaller tree (by omega)

theorem Template.depth_le_of_denotes {budget : Nat} {outline : Outline} {template : Template}
    (denotes : outline.DenotesTemplate budget template) : template.tree.depth ≤ budget := by
  have written {items : List Outline} {segments : List Segment} (room : 1 < budget)
      (each : List.Forall₂ (Outline.Denotes (budget - 2)) items segments) :
      (Template.tree ⟨segments⟩).depth ≤ budget := by
    have list : (Tree.array (segments.map Segment.tree)).depth ≤ budget - 1 := by
      apply Segment.depth_map_tree_lt (by omega)
      intro segment member
      obtain ⟨item, -, given⟩ := Segment.forall₂_mem_right each member
      have := Segment.depth_le_of_denotes given
      omega
    rw [Template.tree, Segment.trees_eq_map]
    exact Tree.depthOfMembers_lt_iff.2 ⟨by omega, by simp; omega⟩
  cases denotes with
  | object room keyed alone each => exact written room each
  | array room each => exact written room each

theorem Template.nesting_encode_le {text : String} {template : Template}
    (decoded : Template.decode text = .ok template) : nesting template.encode ≤ maxDepth := by
  obtain ⟨outline, -, denotes⟩ := Template.decode_eq_ok_iff.1 decoded
  rw [Template.encode, Tree.nesting_text template.tree_numberless]
  exact Template.depth_le_of_denotes denotes

/-- Whatever text a template was decoded from, its encoding opens at most 127 brackets at a time, is
decoded to the same template, and is the encoding of what it is decoded to. -/
theorem reencoding_lossless_and_canonical (text : String) (template : Template)
    (decoded : Template.decode text = .ok template) :
    nesting template.encode ≤ 127 ∧
    Template.decode template.encode = .ok template ∧
    (Template.decode template.encode).map Template.encode = .ok template.encode := by
  have fits : nesting template.encode ≤ maxDepth := Template.nesting_encode_le decoded
  have restored : Template.decode template.encode = .ok template := by
    rw [Template.decode_encode, if_pos fits]
  refine ⟨fits, restored, ?_⟩
  rw [restored]
  rfl

/-- A call without arguments and an ending come back in their usual form from a document that has
them as an array and with a payload, beside a member that is not kept. -/
theorem reencoding_from_mixed_forms :
    Template.decode
        "\x7b\"template\":[\x7b\"call\":[\"f\",null]\x7d,\x7b\"ending\":null\x7d],\"n\":[[]]\x7d" =
          .ok ⟨[.call "f" .none, .ending]⟩ ∧
      nesting (Template.encode ⟨[.call "f" .none, .ending]⟩) ≤ 127 ∧
      Template.decode (Template.encode ⟨[.call "f" .none, .ending]⟩) =
        .ok ⟨[.call "f" .none, .ending]⟩ ∧
      (Template.decode (Template.encode ⟨[.call "f" .none, .ending]⟩)).map Template.encode =
        .ok "\x7b\"template\":[\x7b\"call\":\x7b\"name\":\"f\"\x7d\x7d,\"ending\"]\x7d" := by
  have numberless : (Tree.object [("template", .array
      [.object [("call", .array [.string "f", .null])], .object [("ending", .null)]]),
      ("n", .array [.array []])]).Numberless := by
    simp
  have decoded := (Template.decode_of_spelled numberless.spelledBy (by decide)).2
    (.object rfl (.cons (.tagged (.callArray .null)) (.cons (.tagged .ending) .nil)))
  exact ⟨decoded, reencoding_lossless_and_canonical _ _ decoded⟩

end Liquefy
