import Liquefy.Diagnostic.Basic
import Liquefy.Proofs.Conversion.Tracing
import Liquefy.Proofs.Segment.Reencoding

/-!
# The segment to blame

A failure other than a missing block is an event of the request, and the events of a segment are
made from those of its children. Following them down ends at a part with a flaw, whose own
conversion is nothing but that failure. The part is written with no more brackets than the whole, so
if the whole was read from a text, the diagnostic shows the part in a form that can be read too.
-/

namespace Liquefy

open Json

/-! ### Parts of a segment -/

/-- A segment is a part of itself, and the parts of its children are parts of it. -/
inductive Segment.PartOf : Segment → Segment → Prop
  | refl (segment : Segment) : PartOf segment segment
  | inside {part child segment : Segment} (member : child ∈ segment.children)
      (inner : PartOf part child) : PartOf part segment

namespace Request

/-- The segments that a request is about. -/
def segments : Request → List Segment
  | .document template => template.segments
  | .topLevel segment => [segment]
  | .bare segment => [segment]

/-- The segment stands somewhere in the request. -/
def Contains (request : Request) (part : Segment) : Prop :=
  ∃ segment ∈ request.segments, part.PartOf segment

/-- What the request is about was read from the text. -/
def ReadFrom (text : String) : Request → Prop
  | .document template => Template.decode text = .ok template
  | .topLevel segment => Segment.decode text = .ok segment
  | .bare segment => Segment.decode text = .ok segment

theorem blockEvents_eq_blockWord (request : Request) :
    request.blockEvents = blockWord request.segments := by
  cases request with
  | document template => rfl
  | topLevel segment => simp [blockEvents, segments]
  | bare segment => simp [blockEvents, segments]

end Request

/-! ### Where failures come from -/

namespace BlockEvent

variable {failure : Failure} {scopes after : Scopes}

theorem step_eq_error {event : BlockEvent} (failed : event.step scopes = .error failure) :
    failure = .unbalanced ∨ event = .fails failure := by
  cases event with
  | opens block => simp [step] at failed
  | closes =>
      left
      simp only [step] at failed
      rcases popped : scopes.pop? with _ | ⟨block, scopes'⟩
      · rw [popped] at failed
        exact (Except.error.inj failed).symm
      · rw [popped] at failed
        simp at failed
  | fails failure' =>
      right
      rw [Except.error.inj failed]

/-- A run fails at an `end` without a block or with one of its events. -/
theorem run_eq_some {events : List BlockEvent}
    (failed : run events scopes = (some failure, after)) :
    failure = .unbalanced ∨ .fails failure ∈ events := by
  induction events generalizing scopes with
  | nil => simp [run] at failed
  | cons event events ih =>
      simp only [run] at failed
      rcases stepped : event.step scopes with failure' | scopes'
      · rw [stepped] at failed
        obtain rfl : failure' = failure := by simpa using congrArg Prod.fst failed
        obtain unbalanced | rfl := step_eq_error stepped
        · exact .inl unbalanced
        · exact .inr (List.mem_cons_self ..)
      · rw [stepped] at failed
        obtain unbalanced | member := ih failed
        · exact .inl unbalanced
        · exact .inr (List.mem_cons_of_mem _ member)

theorem fails_not_mem_ofCondition (name : String) : .fails failure ∉ ofCondition name := by
  unfold ofCondition
  cases Block.ofCondition? name <;> simp

/-- A segment without flaw fails only in one of its parts. -/
theorem fails_of_mem_ofKind {segment : Segment} {parts : List (Part (List BlockEvent))}
    (fails : .fails failure ∈ ofKind segment parts) :
    ∃ part ∈ parts, .fails failure ∈ part.result := by
  -- The parts that are converted are some of all, in their order.
  have among {converted : List (Part (List BlockEvent))} (chosen : converted ⊆ parts)
      (listed : .fails failure ∈ ofParts converted) :
      ∃ part ∈ parts, .fails failure ∈ part.result := by
    obtain ⟨part, member, inside⟩ := List.mem_flatMap.1 listed
    exact ⟨part, chosen member, inside⟩
  have all := among (List.Subset.refl _)
  unfold ofKind at fails
  cases kind : segment.kind with
  | chain | learningPathItem | filter | operator =>
      apply all
      simpa [kind] using fails
  | call =>
      rw [kind] at fails
      obtain listed | condition := List.mem_append.1 fails
      · apply all
        simpa using listed
      · exact absurd condition (fails_not_mem_ofCondition _)
  | loop =>
      apply among (List.dropLast_subset _)
      simpa [kind] using fails
  | pluralize =>
      apply among (List.take_subset 1 _)
      simpa [kind] using fails
  | _ => simp [kind] at fails

end BlockEvent

namespace Segment

/-- Every failure among the events of a segment is that of a part with a flaw. -/
theorem exists_flaw_of_fails {segment : Segment} {failure : Failure}
    (fails : .fails failure ∈ segment.blockEvents) :
    ∃ (part : Segment) (flaw : Flaw), part.PartOf segment ∧ part.flaw? = some flaw ∧
      failure = part.failure part.kind flaw := by
  induction segment using Segment.induction with
  | step segment ih =>
      rw [blockEvents_eq, BlockEvent.rule] at fails
      cases found : segment.flaw? with
      | some flaw =>
          rw [found] at fails
          obtain rfl : failure = segment.failure segment.kind flaw := by simpa using fails
          exact ⟨segment, flaw, .refl segment, found, rfl⟩
      | none =>
          rw [found] at fails
          obtain ⟨_, listed, inside⟩ := BlockEvent.fails_of_mem_ofKind fails
          obtain ⟨child, member, rfl⟩ := List.mem_map.1 listed
          obtain ⟨part, flaw, within, flawed, same⟩ := ih child member inside
          exact ⟨part, flaw, .inside member within, flawed, same⟩

section Flawed

variable {segment : Segment} {flaw : Flaw}

theorem convert_of_flaw (flawed : segment.flaw? = some flaw) :
    segment.convert = Conversion.fail (segment.failure segment.kind flaw) := by
  rw [convert_eq]
  exact rule_of_flaw flawed

/-- Only loops, inclusions, apps, plurals and operators need a shape. -/
theorem kind_of_flaw (flawed : segment.flaw? = some flaw) :
    segment.kind ∈ [.loop, .inclusion, .app, .pluralize] ∨
      ∃ tag, segment.kind = .operator tag := by
  cases segment with
  | chain items =>
      left
      rcases kind_chain_cases items with kind | kind | kind
      · simp [kind]
      · simp [kind]
      · simp [flaw?, kind] at flawed
  | call name args =>
      left
      simp only [flaw?] at flawed
      split at flawed
      · rename_i kind
        simp [kind]
      · rename_i kind
        simp [kind]
      · simp at flawed
  | operator tag sign operand =>
      right
      exact ⟨tag, rfl⟩
  | _ => simp [flaw?] at flawed

end Flawed

end Segment

/-- A request that fails lacks a block or contains a segment with a flaw. -/
theorem Request.exists_flaw_of_failed {request : Request} {scopes after : Scopes}
    {failure : Failure} (failed : request.convert scopes = (.error failure, after)) :
    failure = .unbalanced ∨
      ∃ (part : Segment) (flaw : Flaw), request.Contains part ∧ part.flaw? = some flaw ∧
        failure = part.failure part.kind flaw := by
  have followed := request.outcome_convert scopes
  rw [failed] at followed
  obtain unbalanced | fails := BlockEvent.run_eq_some followed.symm
  · exact .inl unbalanced
  · right
    rw [blockEvents_eq_blockWord] at fails
    obtain ⟨segment, member, inside⟩ := List.mem_flatMap.1 fails
    obtain ⟨part, flaw, within, flawed, same⟩ := Segment.exists_flaw_of_fails inside
    exact ⟨part, flaw, ⟨segment, member, within⟩, flawed, same⟩

/-! ### Parts of what was read -/

namespace Segment

theorem depth_lt_of_mem_argumentMembers {name key : String} {args : Arguments Segment}
    {value : Tree} (member : (key, value) ∈ argumentMembers args) :
    value.depth < (tree (.call name args)).depth := by
  calc
    value.depth < (Tree.object (("name", .string name) :: argumentMembers args)).depth :=
      Tree.depth_lt_of_mem_members (List.mem_cons_of_mem _ member)
    _ < (tree (.call name args)).depth := by
      rw [tree]
      exact Tree.depth_lt_object _ _

theorem depth_lt_of_mem_children {segment child : Segment} (member : child ∈ segment.children) :
    child.tree.depth < segment.tree.depth := by
  cases segment with
  | chain items =>
      calc
        child.tree.depth < (Tree.array (items.map tree)).depth :=
          Tree.depth_lt_of_mem_items (List.mem_map_of_mem member)
        _ < (tree (.chain items)).depth := by
          rw [tree, trees_eq_map]
          exact Tree.depth_lt_object _ _
  | call name args =>
      cases args with
      | none => simp [children, Arguments.toList] at member
      | one arg =>
          obtain rfl : child = arg := by simpa [children, Arguments.toList] using member
          have given : ("args", child.tree) ∈ argumentMembers (.one child) := by
            simp [argumentMembers]
          exact depth_lt_of_mem_argumentMembers given
      | many items =>
          have given : ("args", .array (items.map tree)) ∈ argumentMembers (.many items) := by
            simp [argumentMembers, trees_eq_map]
          calc
            child.tree.depth < (Tree.array (items.map tree)).depth :=
              Tree.depth_lt_of_mem_items (List.mem_map_of_mem member)
            _ < (tree (.call name (.many items))).depth := depth_lt_of_mem_argumentMembers given
  | operator tag sign operand =>
      obtain rfl : child = operand := by simpa [children] using member
      have given : ("arg", child.tree) ∈ [("op", Tree.string sign), ("arg", child.tree)] := by
        simp
      calc
        child.tree.depth < (Tree.object [("op", .string sign), ("arg", child.tree)]).depth :=
          Tree.depth_lt_of_mem_members given
        _ < (tree (.operator tag sign child)).depth := by
          rw [tree]
          exact Tree.depth_lt_object _ _
  | _ => simp [children] at member

theorem PartOf.depth_le {part segment : Segment} (within : part.PartOf segment) :
    part.tree.depth ≤ segment.tree.depth := by
  induction within with
  | refl => exact Nat.le_refl _
  | @inside child segment member inner ih =>
      apply Nat.le_of_lt
      calc
        part.tree.depth ≤ child.tree.depth := ih
        _ < segment.tree.depth := depth_lt_of_mem_children member

theorem decode_encode_of_depth_le {segment : Segment} (fits : segment.tree.depth ≤ maxDepth) :
    Segment.decode segment.encode = .ok segment := by
  rw [Segment.decode_encode, if_pos]
  rwa [Segment.encode, Tree.nesting_text segment.tree_numberless]

end Segment

theorem Template.depth_lt_of_mem_segments {template : Template} {segment : Segment}
    (member : segment ∈ template.segments) : segment.tree.depth < template.tree.depth := by
  calc
    segment.tree.depth < (Tree.array (template.segments.map Segment.tree)).depth :=
      Tree.depth_lt_of_mem_items (List.mem_map_of_mem member)
    _ < template.tree.depth := by
      rw [Template.tree, Segment.trees_eq_map]
      exact Tree.depth_lt_object _ _

namespace Request

variable {request : Request} {text : String} {part : Segment}

theorem depth_le_of_readFrom (read : request.ReadFrom text) :
    ∀ segment ∈ request.segments, segment.tree.depth ≤ maxDepth := by
  have alone {segment : Segment} (decoded : Segment.decode text = .ok segment) :
      ∀ other ∈ [segment], other.tree.depth ≤ maxDepth := by
    obtain ⟨outline, -, denotes⟩ := Segment.decode_eq_ok_iff.1 decoded
    simpa using Segment.depth_le_of_denotes denotes
  cases request with
  | document template =>
      intro segment member
      obtain ⟨outline, -, denotes⟩ := Template.decode_eq_ok_iff.1 read
      apply Nat.le_of_lt
      calc
        segment.tree.depth < template.tree.depth := Template.depth_lt_of_mem_segments member
        _ ≤ maxDepth := Template.depth_le_of_denotes denotes
  | topLevel segment => exact alone read
  | bare segment => exact alone read

/-- Whatever stands in a request that was read can be written and read by itself. -/
theorem Contains.decode_encode (contains : request.Contains part) (read : request.ReadFrom text) :
    Segment.decode part.encode = .ok part := by
  obtain ⟨segment, member, within⟩ := contains
  apply Segment.decode_encode_of_depth_le
  calc
    part.tree.depth ≤ segment.tree.depth := within.depth_le
    _ ≤ maxDepth := depth_le_of_readFrom read segment member

end Request

/-! ### Blame -/

/-- Whatever blocks are open, no conversion fails for want of a rule. A failure for the shape of a
segment names a segment that stands in the input, with its kind, which is never that of a search
form. The conversion of this segment alone fails in the same way from any open blocks, and leaves
them as they are. If the input was read from a text, the subject of the diagnostic is read as this
segment. -/
theorem failures_blame_the_right_segment (request : Request) (scopes after : Scopes)
    (failure : Failure) (failed : request.convert scopes = (.error failure, after)) :
    (∀ segment, failure ≠ .unsupported segment) ∧
    ∀ kind reason segment, failure = .malformed kind reason segment →
      request.Contains segment ∧
      segment.kind = kind ∧
      (kind ∈ [.loop, .inclusion, .app, .pluralize] ∨ ∃ tag, kind = .operator tag) ∧
      kind ≠ .searchForm ∧
      (∀ scopes', segment.convert scopes' = (.error failure, scopes')) ∧
      ∀ text, request.ReadFrom text →
        ∃ subject, failure.toDiagnostic.subject = some subject ∧
          Segment.decode subject = .ok segment := by
  obtain rfl | ⟨part, flaw, contains, flawed, rfl⟩ := Request.exists_flaw_of_failed failed
  · simp
  · refine ⟨by simp [Segment.failure], ?_⟩
    intro kind reason segment same
    obtain ⟨rfl, rfl, rfl⟩ : part.kind = kind ∧ flaw.message = reason ∧ part = segment := by
      simpa [Segment.failure] using same
    have shaped := Segment.kind_of_flaw flawed
    refine ⟨contains, rfl, shaped, ?_, ?_, ?_⟩
    · intro search
      simp [search] at shaped
    · intro scopes'
      rw [Segment.convert_of_flaw flawed]
      rfl
    · intro text read
      exact ⟨part.encode, rfl, contains.decode_encode read⟩

/-- A partial without a name is blamed and not the call around it, which has opened a block. -/
theorem partial_blamed_inside_learning_path_item :
    Template.decode
        "[[\x7b\"call\":[\"learning_path_item\",\x7b\"call\":[\"partial\"]\x7d]\x7d]]" =
          .ok ⟨[.call "learning_path_item" (.one (.call "partial" .none))]⟩ ∧
      (Request.document ⟨[.call "learning_path_item" (.one (.call "partial" .none))]⟩).convert
          ⟨[.loop]⟩ =
        (.error (.malformed .inclusion "expected one string literal" (.call "partial" .none)),
          ⟨[.learningPathItem]⟩) ∧
      (∀ scopes, Segment.convert (.call "partial" .none) scopes =
        (.error (.malformed .inclusion "expected one string literal" (.call "partial" .none)),
          scopes)) ∧
      ∃ subject,
        (Failure.malformed .inclusion "expected one string literal"
          (.call "partial" .none)).toDiagnostic.subject = some subject ∧
        Segment.decode subject = .ok (.call "partial" .none) := by
  have numberless : (Tree.array [.array [.object [("call", .array [.string "learning_path_item",
      .object [("call", .array [.string "partial"])]])]]]).Numberless := by
    simp
  have decoded := (Template.decode_of_spelled numberless.spelledBy (by decide)).2
    (.array (.cons (.tagged (.callArray (.one (.tagged (.callArray .absent))))) .nil))
  have failed : (Request.document
      ⟨[.call "learning_path_item" (.one (.call "partial" .none))]⟩).convert ⟨[.loop]⟩ =
        (.error (.malformed .inclusion "expected one string literal" (.call "partial" .none)),
          ⟨[.learningPathItem]⟩) := rfl
  obtain ⟨-, -, -, -, again, subject⟩ :=
    (failures_blame_the_right_segment _ _ _ _ failed).2 _ _ _ rfl
  exact ⟨decoded, failed, again, subject _ decoded⟩

end Liquefy
