import Liquefy.Proofs.Json.Nesting
import Liquefy.Segment.Fold
import Liquefy.Segment.Reading

/-!
# Segments come back from their encoding

A segment is written behind its tag, in one bracket or two more than its children, and the readers
open the same brackets in the same places. The arguments of a call go through a plain tree first,
so that tree has to stand for the arguments it was made from. From both follows that every segment
and every template is restored, whatever the budget is.
-/

namespace Liquefy

open Json

theorem Tag.ofName?_name (tag : Tag) : Tag.ofName? tag.name = some tag := by
  cases tag with
  | operator tag => cases tag <;> decide
  | _ => decide

namespace Segment

theorem trees_eq_map (segments : List Segment) : trees segments = segments.map tree := by
  induction segments with
  | nil => rfl
  | cons segment segments ih => simp [trees, ih]

/-- What stands behind the tag of a segment. -/
def payloadTree : Segment → Tree
  | .text s => .string s
  | .string s => .string s
  | .number digits => .string digits
  | .chain items => .array (items.map tree)
  | .reference name => .object [("name", .string name)]
  | .call name args => .object (("name", .string name) :: argumentMembers args)
  | .ending => .null
  | .operator _ sign operand => .object [("op", .string sign), ("arg", operand.tree)]

/-- Every segment but an ending is an object with its tag as the only key. -/
theorem tree_eq_object {segment : Segment} (payloaded : segment ≠ .ending) :
    segment.tree = .object [(segment.tag.name, segment.payloadTree)] := by
  cases segment with
  | ending => exact absurd rfl payloaded
  | _ => simp [tree, tag, Tag.name, payloadTree, trees_eq_map]

/-! ### Trees without numbers -/

theorem numberless_map_tree {segments : List Segment}
    (each : ∀ segment ∈ segments, segment.tree.Numberless) :
    (Tree.array (segments.map tree)).Numberless := by
  apply Tree.Numberless.array
  intro item member
  obtain ⟨segment, among, rfl⟩ := List.mem_map.1 member
  exact each segment among

theorem payloadTree_numberless {segment : Segment}
    (children : ∀ child ∈ segment.children, child.tree.Numberless) :
    segment.payloadTree.Numberless := by
  cases segment with
  | text s => exact .string s
  | string s => exact .string s
  | number digits => exact .string digits
  | chain items => exact numberless_map_tree children
  | reference name => exact .object (by simpa using .string name)
  | call name args =>
      have named := Tree.Numberless.string name
      cases args with
      | none => exact .object (by simpa [argumentMembers] using named)
      | one arg =>
          have inner := children arg (by simp [Segment.children, Arguments.toList])
          exact .object (by simpa [argumentMembers] using ⟨named, inner⟩)
      | many args =>
          have inner := numberless_map_tree children
          exact .object (by simpa [argumentMembers, trees_eq_map] using ⟨named, inner⟩)
  | ending => exact .null
  | operator tag sign operand =>
      have inner := children operand (by simp [Segment.children])
      exact .object (by simpa using ⟨Tree.Numberless.string sign, inner⟩)

theorem tree_numberless (segment : Segment) : segment.tree.Numberless := by
  induction segment using Segment.induction with
  | step segment children =>
    by_cases ending : segment = .ending
    · subst ending
      exact .string _
    · rw [tree_eq_object ending]
      exact .object (by simpa using payloadTree_numberless children)

/-! ### Trees stand for the segments they were made from -/

theorem argumentsOfTree?_tree (segment : Segment) :
    argumentsOfTree? segment.tree = (ofTree? segment.tree).map .one := by
  cases segment <;> rfl

theorem ofTrees?_map_tree {segments : List Segment}
    (each : ∀ segment ∈ segments, ofTree? segment.tree = some segment) :
    ofTrees? (segments.map tree) = some segments := by
  induction segments with
  | nil => rfl
  | cons segment segments ih =>
      have first := each segment (by simp)
      have others := ih fun other member => each other (List.mem_cons_of_mem _ member)
      simp [ofTrees?, first, others]

/-- The arguments of a call are those that the tree under their key stands for. -/
theorem ofPayload?_call (name : String) {tree : Tree} {args : Arguments Segment}
    (given : argumentsOfTree? tree = some args) :
    ofPayload? .call (.object [("name", .string name), ("args", tree)]) =
      some (.call name args) := by
  have named : stringMember? "name" [("name", .string name), ("args", tree)] = some name := rfl
  have member : argumentsMember? [("name", .string name), ("args", tree)] = some args := by
    rw [← given]
    cases tree <;> simp [argumentsMember?, argumentsOfTree?, countKey]
  rw [ofPayload?, named, member]

theorem ofPayload?_payloadTree {segment : Segment}
    (children : ∀ child ∈ segment.children, ofTree? child.tree = some child) :
    ofPayload? segment.tag segment.payloadTree = some segment := by
  cases segment with
  | chain items =>
      have inner : ofTrees? (items.map tree) = some items := ofTrees?_map_tree children
      simp [tag, payloadTree, ofPayload?, inner]
  | call name args =>
      cases args with
      | none => rfl
      | one arg =>
          have inner := children arg (by simp [Segment.children, Arguments.toList])
          apply ofPayload?_call
          rw [argumentsOfTree?_tree, inner, Option.map_some]
      | many args =>
          have inner : ofTrees? (args.map tree) = some args := ofTrees?_map_tree children
          apply ofPayload?_call
          rw [trees_eq_map, argumentsOfTree?, inner, Option.map_some]
  | operator tag sign operand =>
      have inner := children operand (by simp [Segment.children])
      simp [Segment.tag, payloadTree, ofPayload?, stringMember?, operandMember?, countKey, inner]
  | _ => rfl

theorem ofTree?_tree (segment : Segment) : ofTree? segment.tree = some segment := by
  induction segment using Segment.induction with
  | step segment children =>
    by_cases ending : segment = .ending
    · subst ending
      rfl
    · rw [tree_eq_object ending, ofTree?, Tag.ofName?_name]
      exact ofPayload?_payloadTree children

end Segment

/-! ### Readers restore segments -/

section Restoring

variable {budget : Nat}

/-- The arguments of a call are restored from every tree that stands for them. -/
theorem arguments_restores {tree : Tree} {args : Arguments Segment}
    (numberless : tree.Numberless) (present : tree ≠ .null)
    (given : Segment.argumentsOfTree? tree = some args) :
    (arguments budget).Restores budget tree args := by
  have passes : checkArguments tree = .ok args := by
    rw [checkArguments, given]
  have checked := (numberless.restores budget).checked passes
  exact (optional_restores numberless present checked).map fun args => args.getD .none

theorem referenceRecord_fills (name : String) :
    referenceRecord.Fills budget referenceRecord.blank [("name", .string name)]
      (.reference name) := by
  refine .field rfl rfl ((string_restores budget name).map _) ?_
  exact .finished rfl

theorem callRecord_fills_bare (name : String) :
    (callRecord budget).Fills budget (callRecord budget).blank [("name", .string name)]
      (.call name .none) := by
  refine .field rfl rfl ((string_restores budget name).map _) ?_
  exact .finished rfl

theorem callRecord_fills {tree : Tree} {args : Arguments Segment} (name : String)
    (restores : (arguments budget).Restores budget tree args) :
    (callRecord budget).Fills budget (callRecord budget).blank
      [("name", .string name), ("args", tree)] (.call name args) := by
  refine .field rfl rfl ((string_restores budget name).map _) ?_
  refine .field rfl rfl (restores.map _) ?_
  exact .finished rfl

theorem operatorRecord_fills {segment : Reader Segment} {operand : Segment} (tag : OperatorTag)
    (sign : String) (restores : segment.Restores budget operand.tree operand) :
    (operatorRecord tag segment).Fills budget (operatorRecord tag segment).blank
      [("op", .string sign), ("arg", operand.tree)] (.operator tag sign operand) := by
  refine .field rfl rfl ((string_restores budget sign).map _) ?_
  refine .field rfl rfl (restores.map _) ?_
  exact .finished rfl

theorem callRecord_fills_members (name : String) (args : Arguments Segment) :
    (callRecord budget).Fills budget (callRecord budget).blank
      (("name", .string name) :: Segment.argumentMembers args) (.call name args) := by
  cases args with
  | none => exact callRecord_fills_bare name
  | one arg =>
      have present : arg.tree ≠ .null := by cases arg <;> simp [Segment.tree]
      apply callRecord_fills
      apply arguments_restores arg.tree_numberless present
      rw [Segment.argumentsOfTree?_tree, Segment.ofTree?_tree, Option.map_some]
  | many args =>
      rw [Segment.argumentMembers, Segment.trees_eq_map]
      apply callRecord_fills
      apply arguments_restores
      · exact Segment.numberless_map_tree fun arg _ => arg.tree_numberless
      · simp
      · rw [Segment.argumentsOfTree?, Segment.ofTrees?_map_tree fun arg _ => arg.ofTree?_tree,
          Option.map_some]

theorem callRecord_restores (name : String) (args : Arguments Segment) :
    ((callRecord (budget - 1)).reader budget).Restores budget
      (.object (("name", .string name) :: Segment.argumentMembers args)) (.call name args) := by
  apply Record.restores
  rintro inner rfl
  exact callRecord_fills_members name args

/-- A payload is restored if the segments inside its bracket are. -/
theorem payload_restores {inside : Reader Segment} {segment : Segment}
    (children : ∀ inner, budget = inner + 1 → ∀ child ∈ segment.children,
      inside.Restores inner child.tree child) (payloaded : segment ≠ .ending) :
    (payload budget inside segment.tag).Restores budget segment.payloadTree segment := by
  cases segment with
  | text s => exact (string_restores budget s).map Segment.text
  | string s => exact (string_restores budget s).map Segment.string
  | number digits => exact (string_restores budget digits).map Segment.number
  | chain items =>
      exact (list_restores Segment.tree items (fun item _ => item.tree_numberless) children).map
        Segment.chain
  | reference name =>
      apply Record.restores
      intro inner _
      exact referenceRecord_fills name
  | call name args => exact callRecord_restores name args
  | ending => exact absurd rfl payloaded
  | operator tag sign operand =>
      apply Record.restores
      intro inner enough
      apply operatorRecord_fills
      exact children inner enough operand (by simp [Segment.children])

/-- The reader of segments is a choice between tags whatever the budget is, and a segment inside
another is read with two brackets less. -/
theorem Segment.read_eq (budget : Nat) :
    ∃ inside, Segment.read budget = (segmentVariants (budget - 1) inside).reader budget ∧
      ∀ inner, budget = inner + 2 → inside = Segment.read inner := by
  match budget with
  | 0 => exact ⟨_, rfl, by simp⟩
  | 1 => exact ⟨_, rfl, by simp⟩
  | inner + 2 => exact ⟨Segment.read inner, rfl, by simp⟩

theorem Segment.read_restores (segment : Segment) (budget : Nat) :
    (Segment.read budget).Restores budget segment.tree segment := by
  induction segment using Segment.induction generalizing budget with
  | step segment children =>
    obtain ⟨inside, read, nested⟩ := Segment.read_eq budget
    rw [read]
    by_cases ending : segment = .ending
    · subst ending
      exact Variants.restores_bare (Tag.ofName?_name .ending) rfl
    · rw [tree_eq_object ending]
      apply Variants.restores (Tag.ofName?_name segment.tag)
      rintro outer rfl
      apply payload_restores _ ending
      intro inner deeper child member
      rw [nested inner (by omega)]
      exact children child member inner

theorem templateRecord_fills (template : Template) :
    (templateRecord budget).Fills budget (templateRecord budget).blank
      [("template", .array (template.segments.map Segment.tree))] template := by
  refine .field rfl rfl (Reader.Restores.map ?_ _) (.finished rfl)
  apply list_restores
  · intro segment _
    exact segment.tree_numberless
  · rintro inner rfl segment _
    exact segment.read_restores inner

theorem templateRecord_restores (template : Template) :
    ((templateRecord (budget - 1)).reader budget).Restores budget template.tree template := by
  rw [Template.tree, Segment.trees_eq_map]
  apply Record.restores
  rintro outer rfl
  exact templateRecord_fills template

end Restoring

/-! ### Whole texts -/

theorem Segment.decode_encode (segment : Segment) :
    Segment.decode segment.encode =
      if nesting segment.encode ≤ maxDepth then .ok segment
      else .error (.malformed .nestingTooDeep) := by
  rw [Segment.encode, Tree.nesting_text segment.tree_numberless]
  exact decode_text (segment.read_restores maxDepth)

theorem Template.tree_numberless (template : Template) : template.tree.Numberless := by
  have segments := Segment.numberless_map_tree fun segment (_ : segment ∈ template.segments) =>
    segment.tree_numberless
  rw [Template.tree, Segment.trees_eq_map]
  exact .object (by simpa using segments)

theorem Template.decode_encode (template : Template) :
    Template.decode template.encode =
      if nesting template.encode ≤ maxDepth then .ok template
      else .error (.malformed .nestingTooDeep) := by
  rw [Template.encode, Tree.nesting_text template.tree_numberless]
  exact decode_text (templateRecord_restores template)

theorem Template.decode_encode_of_depth_le {template : Template}
    (fits : template.tree.depth ≤ maxDepth) : Template.decode template.encode = .ok template := by
  rw [Template.decode_encode, if_pos]
  rwa [Template.encode, Tree.nesting_text template.tree_numberless]

/-- The text of a template, and of a segment by itself, is decoded to what it was made from as long
as no more than 127 brackets are open in it at a time, and refused as malformed from the 128th on.
The text of a segment is the name of an ending in quotes, or an object with the segment's tag as its
only key. -/
theorem encoding_restored_up_to_nesting_limit :
    (∀ template : Template, Template.decode template.encode =
      if nesting template.encode ≤ 127 then .ok template
      else .error (.malformed .nestingTooDeep)) ∧
    (∀ segment : Segment, Segment.decode segment.encode =
      if nesting segment.encode ≤ 127 then .ok segment
      else .error (.malformed .nestingTooDeep)) ∧
    ∀ segment : Segment,
      (segment = .ending ∧ segment.encode = "\"ending\"") ∨
      (segment ≠ .ending ∧
        ∃ payload, segment.encode = (Tree.object [(segment.tag.name, payload)]).text) := by
  refine ⟨Template.decode_encode, Segment.decode_encode, fun segment => ?_⟩
  by_cases ending : segment = .ending
  · subst ending
    exact .inl ⟨rfl, by decide⟩
  · refine .inr ⟨ending, segment.payloadTree, ?_⟩
    rw [Segment.encode, Segment.tree_eq_object ending]

end Liquefy
