import Liquefy.Conversion.BlockEvents

/-!
# What a conversion visits

A conversion visits segments, and in between it does something to the open blocks. `Segment.events`
lists both in the order in which they happen, without looking at the blocks that are open; `visited`
runs through such a list from given blocks up to the first failure.
-/

namespace Liquefy

/-- Something that happens in a conversion. -/
inductive Event where
  /-- The conversion of a segment begins. -/
  | visits (segment : Segment)
  /-- Something is done to the open blocks, or the conversion fails. -/
  | does (event : BlockEvent)

/-- The children of a segment with their events. -/
abbrev EventParts := List (Part (List Event))

namespace Event

/-- The events of all parts in order. -/
def ofParts (parts : EventParts) : List Event := parts.flatMap Part.result

/-- The parts that are converted, and so visited. A literal that a filter or an operator quotes is
not. -/
def shown (segment : Segment) (parts : EventParts) : EventParts :=
  match segment.kind with
  | .chain | .call | .learningPathItem => parts
  | .loop => parts.dropLast
  | .pluralize => parts.take 1
  | .filter => parts.filter fun part => (filterLiteral? part.segment).isNone
  | .operator _ =>
      parts.filter fun part => (quotedOperand? (segment.glyph?.getD "") part.segment).isNone
  | _ => []

/-- What a segment without flaw does to the blocks by itself, apart from its children. -/
def own (segment : Segment) : List Event := (BlockEvent.ofKind segment []).map does

/-- The events of a segment without flaw. Only a learning path item opens its block before its
children are visited. -/
def ofKind (segment : Segment) (parts : EventParts) : List Event :=
  match segment.kind with
  | .learningPathItem => own segment ++ ofParts (shown segment parts)
  | _ => ofParts (shown segment parts) ++ own segment

/-- The variable of a loop is visited before its collection is looked at. -/
def ofVariable (segment : Segment) : List Event :=
  match segment.kind with
  | .loop =>
      match segment.children.getLast?.bind loopVariable? with
      | some name => [visits (.string name)]
      | none => []
  | _ => []

/-- The events of a segment from those of its children. -/
def rule (segment : Segment) (parts : EventParts) : List Event :=
  visits segment :: (ofVariable segment ++
    match segment.flaw? with
    | some flaw => [does (.fails (segment.failure segment.kind flaw))]
    | none => ofKind segment parts)

end Event

/-- The events of a segment's conversion. -/
def Segment.events : Segment → List Event := Segment.fold Event.rule

/-- The segments that are visited until the conversion fails, latest first, before those seen. -/
def visitedOnto (seen : List Segment) (scopes : Scopes) : List Event → List Segment
  | [] => seen
  | .visits segment :: events => visitedOnto (segment :: seen) scopes events
  | .does event :: events =>
      match event.step scopes with
      | .ok scopes' => visitedOnto seen scopes' events
      | .error _ => seen

/-- The segments that are visited until the conversion fails. -/
def visited (scopes : Scopes) (events : List Event) : List Segment :=
  (visitedOnto [] scopes events).reverse

end Liquefy
