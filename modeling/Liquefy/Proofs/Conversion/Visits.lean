import Liquefy.Conversion.Log
import Liquefy.Proofs.Conversion.Blame

/-!
# Visits and blocks

Without the visits, the events of a conversion are what it does to the open blocks
(`Segment.blocksOf_events`). So the visits end where the conversion fails: a conversion that
succeeds has made all of them, and one that fails for the shape of a segment has visited that
segment (`Template.log_follows_conversion`).
-/

namespace Liquefy

/-! ### The two halves of the events -/

namespace Event

/-- The segment that is visited. -/
def visit? : Event → Option Segment
  | .visits segment => some segment
  | .does _ => none

/-- What is done to the open blocks. -/
def block? : Event → Option BlockEvent
  | .visits _ => none
  | .does event => some event

end Event

/-- The segments that the events visit, if none of them fails. -/
def visitsOf (events : List Event) : List Segment := events.filterMap Event.visit?

/-- What the events do to the open blocks. -/
def blocksOf (events : List Event) : List BlockEvent := events.filterMap Event.block?

section Halves

variable (events events' : List Event) (segment : Segment) (event : BlockEvent)

@[simp]
theorem visitsOf_visits : visitsOf (.visits segment :: events) = segment :: visitsOf events := rfl

@[simp]
theorem visitsOf_does : visitsOf (.does event :: events) = visitsOf events := rfl

@[simp]
theorem blocksOf_nil : blocksOf [] = [] := rfl

@[simp]
theorem blocksOf_visits : blocksOf (.visits segment :: events) = blocksOf events := rfl

@[simp]
theorem blocksOf_does : blocksOf (.does event :: events) = event :: blocksOf events := rfl

@[simp]
theorem blocksOf_append : blocksOf (events ++ events') = blocksOf events ++ blocksOf events' :=
  List.filterMap_append

@[simp]
theorem blocksOf_map_does (acts : List BlockEvent) : blocksOf (acts.map .does) = acts := by
  induction acts with
  | nil => rfl
  | cons act acts ih => rw [List.map_cons, blocksOf_does, ih]

end Halves

/-! ### Without the visits -/

@[simp]
theorem ofParts_nil : BlockEvent.ofParts [] = [] := rfl

/-- The children of a segment with their events. -/
def visitParts (segments : List Segment) : EventParts :=
  segments.map fun segment => ⟨segment, segment.events⟩

theorem Segment.events_eq (segment : Segment) :
    segment.events = Event.rule segment (visitParts segment.children) :=
  Segment.fold_eq Event.rule segment

theorem blocksOf_ofParts {segments : List Segment}
    (same : ∀ segment ∈ segments, blocksOf segment.events = segment.blockEvents) :
    blocksOf (Event.ofParts (visitParts segments)) = blockWord segments := by
  induction segments with
  | nil => rfl
  | cons segment segments ih =>
      have first := same segment (by simp)
      have others := ih fun other member => same other (by simp [member])
      calc
        blocksOf (Event.ofParts (visitParts (segment :: segments))) =
            blocksOf segment.events ++ blocksOf (Event.ofParts (visitParts segments)) := by
          simp [Event.ofParts, visitParts]
        _ = blockWord (segment :: segments) := by rw [first, others, blockWord_cons]

/-- Segments without events can be left out. -/
theorem blockWord_filter {segments : List Segment} {keep : Segment → Bool}
    (quiet : ∀ segment, keep segment = false → segment.blockEvents = []) :
    blockWord (segments.filter keep) = blockWord segments := by
  induction segments with
  | nil => rfl
  | cons segment segments ih =>
      cases kept : keep segment with
      | false =>
          rw [List.filter_cons_of_neg (by simp [kept]), ih, blockWord_cons, quiet segment kept,
            List.nil_append]
      | true => rw [List.filter_cons_of_pos kept, blockWord_cons, blockWord_cons, ih]

/-- Only literals are quoted by a filter, and they have no events. -/
theorem blockEvents_of_filterLiteral? {arg : Segment}
    (literal : (filterLiteral? arg).isNone = false) : arg.blockEvents = [] := by
  cases arg <;> simp [filterLiteral?] at literal ⊢

theorem blockEvents_of_quotedOperand? (glyph : String) {operand : Segment}
    (quoted : (quotedOperand? glyph operand).isNone = false) : operand.blockEvents = [] := by
  cases operand <;> simp [quotedOperand?, Segment.literal?] at quoted ⊢

/-- Children without events need not be visited. -/
theorem blocksOf_ofParts_filter {segments : List Segment} {keep : Segment → Bool}
    (quiet : ∀ segment, keep segment = false → segment.blockEvents = [])
    (same : ∀ segment ∈ segments, blocksOf segment.events = segment.blockEvents) :
    blocksOf (Event.ofParts ((visitParts segments).filter fun part => keep part.segment)) =
      blockWord segments := by
  have kept : ((visitParts segments).filter fun part => keep part.segment) =
      visitParts (segments.filter keep) := List.filter_map
  calc
    blocksOf (Event.ofParts ((visitParts segments).filter fun part => keep part.segment)) =
        blocksOf (Event.ofParts (visitParts (segments.filter keep))) := by rw [kept]
    _ = blockWord (segments.filter keep) :=
        blocksOf_ofParts fun segment member => same segment (List.mem_filter.1 member).1
    _ = blockWord segments := blockWord_filter quiet

/-- The children that are visited do to the blocks what all do that are converted, and the segment
itself does the same in both lists. -/
theorem blocksOf_ofKind {segment : Segment}
    (same : ∀ child ∈ segment.children, blocksOf child.events = child.blockEvents) :
    blocksOf (Event.ofKind segment (visitParts segment.children)) =
      BlockEvent.ofKind segment (eventParts segment.children) := by
  have own : blocksOf (Event.own segment) = BlockEvent.ofKind segment [] := blocksOf_map_does _
  have among {converted : List Segment} (chosen : converted ⊆ segment.children) :
      blocksOf (Event.ofParts (visitParts converted)) = blockWord converted :=
    blocksOf_ofParts fun child member => same child (chosen member)
  have all := among (List.Subset.refl _)
  cases kind : segment.kind with
  | chain | call | learningPathItem =>
      simp [Event.ofKind, Event.shown, BlockEvent.ofKind, kind, own, all]
  | loop =>
      have most := among (List.dropLast_subset _)
      have dropped :
          (visitParts segment.children).dropLast = visitParts segment.children.dropLast :=
        List.map_dropLast.symm
      simp [Event.ofKind, Event.shown, BlockEvent.ofKind, kind, own, dropped, most]
  | pluralize =>
      have count := among (List.take_subset 1 _)
      have taken : (visitParts segment.children).take 1 = visitParts (segment.children.take 1) :=
        List.map_take.symm
      simp [Event.ofKind, Event.shown, BlockEvent.ofKind, kind, own, taken, count]
  | filter =>
      have unquoted := blocksOf_ofParts_filter (fun _ => blockEvents_of_filterLiteral?) same
      simpa [Event.ofKind, Event.shown, BlockEvent.ofKind, kind, own] using unquoted
  | operator tag =>
      have unquoted := blocksOf_ofParts_filter
        (fun _ => blockEvents_of_quotedOperand? (segment.glyph?.getD "")) same
      simpa [Event.ofKind, Event.shown, BlockEvent.ofKind, kind, own] using unquoted
  | _ => simp [Event.ofKind, Event.shown, BlockEvent.ofKind, kind, own, Event.ofParts]

theorem blocksOf_ofVariable (segment : Segment) : blocksOf (Event.ofVariable segment) = [] := by
  unfold Event.ofVariable
  split
  · split
    · rfl
    · rfl
  · rfl

/-- Without the visits, the events of a segment are what it does to the open blocks. -/
theorem Segment.blocksOf_events (segment : Segment) :
    blocksOf segment.events = segment.blockEvents := by
  induction segment using Segment.induction with
  | step segment ih =>
      rw [Segment.events_eq, Segment.blockEvents_eq, Event.rule, BlockEvent.rule, blocksOf_visits,
        blocksOf_append, blocksOf_ofVariable, List.nil_append]
      cases segment.flaw? with
      | some flaw => rfl
      | none => exact blocksOf_ofKind ih

theorem blocksOf_flatMap_events (segments : List Segment) :
    blocksOf (segments.flatMap Segment.events) = blockWord segments := by
  induction segments with
  | nil => rfl
  | cons segment segments ih =>
      rw [List.flatMap_cons, blocksOf_append, segment.blocksOf_events, ih, blockWord_cons]

/-! ### How far a conversion gets -/

/-- As long as nothing fails, everything is visited. -/
theorem visitedOnto_of_run {events : List Event} {seen : List Segment} {scopes after : Scopes}
    (ran : BlockEvent.run (blocksOf events) scopes = (none, after)) :
    visitedOnto seen scopes events = (visitsOf events).reverse ++ seen := by
  induction events generalizing seen scopes with
  | nil => rfl
  | cons event events ih =>
      cases event with
      | visits segment =>
          rw [visitedOnto, ih ran, visitsOf_visits, List.reverse_cons, List.append_assoc]
          rfl
      | does event =>
          rw [blocksOf_does, BlockEvent.run] at ran
          rw [visitedOnto, visitsOf_does]
          cases stepped : event.step scopes with
          | ok scopes' =>
              rw [stepped] at ran
              exact ih ran
          | error failure =>
              rw [stepped] at ran
              simp at ran

/-- Events that fail for the shape of a segment come after a visit to it, unless it has been seen
before. -/
def Announced (seen : List Segment) : List Event → Prop
  | [] => True
  | .visits segment :: events => Announced (segment :: seen) events
  | .does event :: events =>
      (∀ failure part, event = .fails failure → failure.segment? = some part → part ∈ seen) ∧
        Announced seen events

namespace Announced

variable {seen seen' : List Segment} {events events' : List Event}

theorem mono (more : seen ⊆ seen') (announced : Announced seen events) :
    Announced seen' events := by
  induction events generalizing seen seen' with
  | nil => trivial
  | cons event events ih =>
      cases event with
      | visits segment => exact ih (List.cons_subset_cons segment more) announced
      | does event =>
          refine ⟨?_, ih more announced.2⟩
          intro failure part fails blamed
          exact more (announced.1 failure part fails blamed)

theorem append (first : Announced seen events) (second : Announced seen events') :
    Announced seen (events ++ events') := by
  induction events generalizing seen with
  | nil => exact second
  | cons event events ih =>
      cases event with
      | visits segment => exact ih first (second.mono (List.subset_cons_self segment seen))
      | does event => exact ⟨first.1, ih first.2 second⟩

/-- A segment for whose shape the events fail has been visited by then. -/
theorem mem_visitedOnto {scopes after : Scopes} {failure : Failure} {part : Segment}
    (announced : Announced seen events)
    (failed : BlockEvent.run (blocksOf events) scopes = (some failure, after))
    (blamed : failure.segment? = some part) : part ∈ visitedOnto seen scopes events := by
  induction events generalizing seen scopes with
  | nil => simp [BlockEvent.run] at failed
  | cons event events ih =>
      cases event with
      | visits segment => exact ih announced failed
      | does event =>
          rw [blocksOf_does, BlockEvent.run] at failed
          rw [visitedOnto]
          cases stepped : event.step scopes with
          | ok scopes' =>
              rw [stepped] at failed
              exact ih announced.2 failed
          | error failure' =>
              rw [stepped] at failed
              obtain rfl : failure' = failure := by simpa using congrArg Prod.fst failed
              obtain rfl | fails := BlockEvent.step_eq_error stepped
              · simp [Failure.segment?] at blamed
              · exact announced.1 failure' part fails blamed

end Announced

namespace Event

theorem shown_subset (segment : Segment) (parts : EventParts) : shown segment parts ⊆ parts := by
  cases kind : segment.kind with
  | chain | call | learningPathItem => simp [shown, kind]
  | loop => simpa [shown, kind] using List.dropLast_subset parts
  | pluralize => simpa [shown, kind] using List.take_subset 1 parts
  | _ => simp [shown, kind]

/-- A segment without flaw does not fail by itself. -/
theorem announced_own (segment : Segment) (seen : List Segment) : Announced seen (own segment) := by
  have never : ∀ failure, .fails failure ∉ BlockEvent.ofKind segment [] := by
    intro failure fails
    obtain ⟨part, member, -⟩ := BlockEvent.fails_of_mem_ofKind fails
    simp at member
  unfold own
  generalize BlockEvent.ofKind segment [] = acts at never ⊢
  induction acts with
  | nil => trivial
  | cons act acts ih =>
      refine ⟨?_, ih fun failure later => never failure (List.mem_cons_of_mem act later)⟩
      rintro failure part rfl
      exact absurd (List.mem_cons_self ..) (never failure)

theorem announced_ofParts {parts : EventParts} {seen : List Segment}
    (announced : ∀ part ∈ parts, Announced seen part.result) : Announced seen (ofParts parts) := by
  induction parts with
  | nil => trivial
  | cons part parts ih =>
      apply Announced.append
      · exact announced part (by simp)
      · exact ih fun other member => announced other (by simp [member])

theorem announced_ofKind {segment : Segment} {parts : EventParts} {seen : List Segment}
    (announced : ∀ part ∈ parts, Announced seen part.result) :
    Announced seen (ofKind segment parts) := by
  have inner : Announced seen (ofParts (shown segment parts)) :=
    announced_ofParts fun part member => announced part (shown_subset segment parts member)
  have outer := announced_own segment seen
  unfold ofKind
  split
  · exact outer.append inner
  · exact inner.append outer

theorem announced_ofVariable (segment : Segment) (seen : List Segment) :
    Announced seen (ofVariable segment) := by
  unfold ofVariable
  split
  · split
    · trivial
    · trivial
  · trivial

end Event

/-- Every segment is visited before it can be blamed. -/
theorem Segment.announced (segment : Segment) (seen : List Segment) :
    Announced seen segment.events := by
  induction segment using Segment.induction generalizing seen with
  | step segment ih =>
      rw [Segment.events_eq, Event.rule, Announced]
      apply (Event.announced_ofVariable segment _).append
      cases segment.flaw? with
      | some flaw =>
          refine ⟨?_, trivial⟩
          rintro failure part ⟨⟩ blamed
          obtain rfl : segment = part := Option.some.inj blamed
          exact List.mem_cons_self ..
      | none =>
          apply Event.announced_ofKind
          intro part listed
          obtain ⟨child, member, rfl⟩ := List.mem_map.1 listed
          exact ih child member _

theorem announced_flatMap_events (segments : List Segment) (seen : List Segment) :
    Announced seen (segments.flatMap Segment.events) := by
  induction segments with
  | nil => trivial
  | cons segment segments ih => exact (segment.announced seen).append ih

/-- The log of a document follows its conversion. If the conversion succeeds, the log names every
segment that the events visit. If the conversion fails for the shape of a segment, the log names
this segment. -/
theorem Template.log_follows_conversion (template : Template) :
    (∀ liquid after, template.toLiquid = (.ok liquid, after) →
      visited .empty (template.segments.flatMap Segment.events) =
        visitsOf (template.segments.flatMap Segment.events)) ∧
    ∀ failure after part, template.toLiquid = (.error failure, after) →
      failure.segment? = some part → visitEntry part ∈ template.log := by
  have followed : Conversion.outcome template.toLiquid =
      BlockEvent.run (blocksOf (template.segments.flatMap Segment.events)) .empty := by
    rw [blocksOf_flatMap_events]
    exact (Request.document template).outcome_convert .empty
  constructor
  · intro liquid after converted
    rw [converted] at followed
    rw [visited, visitedOnto_of_run followed.symm, List.append_nil, List.reverse_reverse]
  · intro failure after part failed blamed
    rw [failed] at followed
    have announced := announced_flatMap_events template.segments []
    have named := announced.mem_visitedOnto followed.symm blamed
    apply List.mem_append_left
    apply List.mem_map_of_mem
    exact List.mem_reverse.2 named

end Liquefy
