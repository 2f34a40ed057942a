import Liquefy.Conversion.Rules

/-!
# What a conversion does to the open blocks

Apart from its text, a conversion opens and closes blocks, and it may fail. `Segment.blockEvents`
lists what it does, in order and without looking at the blocks that are open, and
`BlockEvent.run` plays such a list from given blocks up to the first failure. A segment of the wrong
shape has its failure as the only event, so the shapes are described here too.
-/

namespace Liquefy

/-! ### Events -/

/-- Something that a conversion does to the open blocks, or the failure that ends it. -/
inductive BlockEvent where
  | opens (block : Block)
  /-- The innermost block is closed; without one the conversion fails. -/
  | closes
  | fails (failure : Failure)

namespace BlockEvent

/-- One event. -/
def step : BlockEvent → Scopes → Except Failure Scopes
  | .opens block, scopes => .ok (scopes.push block)
  | .closes, scopes =>
      match scopes.pop? with
      | some (_, scopes') => .ok scopes'
      | none => .error .unbalanced
  | .fails failure, _ => .error failure

/-- All events in order up to the first failure, which leaves the blocks as they are. -/
def run : List BlockEvent → Scopes → Option Failure × Scopes
  | [], scopes => (none, scopes)
  | event :: events, scopes =>
      match event.step scopes with
      | .ok scopes' => run events scopes'
      | .error failure => (some failure, scopes)

theorem run_append (events events' : List BlockEvent) (scopes : Scopes) :
    run (events ++ events') scopes =
      match run events scopes with
      | (none, scopes') => run events' scopes'
      | (some failure, scopes') => (some failure, scopes') := by
  induction events generalizing scopes with
  | nil => rfl
  | cons event events ih =>
      simp only [List.cons_append, run]
      cases event.step scopes with
      | ok scopes' => exact ih scopes'
      | error failure => rfl

end BlockEvent

/-! ### Shapes -/

/-- The flaw of a loop: its last item must be `each` with one string literal, and something must
stand before it. -/
def loopFlaw? (items : List Segment) : Option Flaw :=
  match items.getLast? with
  | none => some .emptyChain
  | some each =>
      if !each.isCallTo "each" then some .eachNotLast
      else if (loopVariable? each).isNone then some .eachArgument
      else if items.dropLast.isEmpty then some .collectionMissing
      else none

/-- The flaw of a count: it takes two phrases, of which the first must have a key. -/
def pluralizeFlaw? : List Segment → Option Flaw
  | [_, singular, _] => if (phraseKey? singular).isNone then some .singularForm else none
  | _ => some .pluralForms

/-- The flaw of a segment that needs one string literal. -/
def literalFlaw? (flaw : Flaw) (literal : Option String) : Option Flaw :=
  if literal.isNone then some flaw else none

/-- What is wrong with the shape of a segment, given its kind. -/
def Segment.flaw? (segment : Segment) : Option Flaw :=
  match segment with
  | .chain items =>
      match segment.kind with
      | .loop => loopFlaw? items
      | .app =>
          literalFlaw? .appName
            (((items.findSome? (Segment.callTo? "app")).bind Arguments.single?).bind
              Segment.literal?)
      | _ => none
  | .call _ args =>
      match segment.kind with
      | .inclusion => literalFlaw? .partialName (args.single?.bind Segment.literal?)
      | .pluralize => pluralizeFlaw? args.toList
      | _ => none
  | .operator _ sign _ =>
      literalFlaw? (.unknownGlyph (Text.trim sign)) (Lexicon.operatorToken? (Text.trim sign))
  | _ => none

/-! ### The events of a segment -/

namespace BlockEvent

/-- The events of all parts in order. -/
def ofParts (parts : List (Part (List BlockEvent))) : List BlockEvent := parts.flatMap Part.result

/-- The block that a condition opens. -/
def ofCondition (name : String) : List BlockEvent :=
  match Block.ofCondition? name with
  | none => []
  | some block => [.opens block]

/-- The events of a segment without flaw, by its kind. -/
def ofKind (segment : Segment) (parts : List (Part (List BlockEvent))) : List BlockEvent :=
  match segment.kind with
  | .ending => [.closes]
  | .chain => ofParts parts
  | .call => ofParts parts ++ ofCondition (segment.name?.getD "")
  | .learningPathItem => .opens .learningPathItem :: ofParts parts
  | .searchForm => (segment.children.filterMap searchBlock?).map .opens
  | .loop => ofParts parts.dropLast ++ [.opens .loop]
  | .pluralize => ofParts (parts.take 1)
  | .filter => ofParts parts
  | .operator _ => ofParts parts
  | _ => []

/-- The events of a segment from those of its children; a flaw is found before anything else. -/
def rule (segment : Segment) (parts : List (Part (List BlockEvent))) : List BlockEvent :=
  match segment.flaw? with
  | some flaw => [.fails (segment.failure segment.kind flaw)]
  | none => ofKind segment parts

end BlockEvent

/-- What the conversion of a segment does to the open blocks. -/
def Segment.blockEvents : Segment → List BlockEvent := Segment.fold BlockEvent.rule

/-- The events of segments one after the other. -/
def blockWord (segments : List Segment) : List BlockEvent := segments.flatMap Segment.blockEvents

/-- The children of a segment with their events. -/
def eventParts (segments : List Segment) : List (Part (List BlockEvent)) :=
  segments.map fun segment => ⟨segment, segment.blockEvents⟩

theorem Segment.blockEvents_eq (segment : Segment) :
    segment.blockEvents = BlockEvent.rule segment (eventParts segment.children) :=
  Segment.fold_eq BlockEvent.rule segment

@[simp]
theorem ofParts_eventParts (segments : List Segment) :
    BlockEvent.ofParts (eventParts segments) = blockWord segments := by
  simp [BlockEvent.ofParts, eventParts, blockWord, List.flatMap_map]

@[simp]
theorem take_eventParts (n : Nat) (segments : List Segment) :
    (eventParts segments).take n = eventParts (segments.take n) := by
  simp [eventParts]

@[simp]
theorem dropLast_eventParts (segments : List Segment) :
    (eventParts segments).dropLast = eventParts segments.dropLast := by
  simp [eventParts, List.map_dropLast]

@[simp]
theorem blockWord_nil : blockWord [] = [] := rfl

@[simp]
theorem blockWord_cons (segment : Segment) (segments : List Segment) :
    blockWord (segment :: segments) = segment.blockEvents ++ blockWord segments := by
  simp [blockWord]

@[simp]
theorem blockWord_append (segments segments' : List Segment) :
    blockWord (segments ++ segments') = blockWord segments ++ blockWord segments' := by
  simp [blockWord]

theorem blockWord_eq_nil {segments : List Segment}
    (quiet : ∀ segment ∈ segments, segment.blockEvents = []) : blockWord segments = [] := by
  simpa [blockWord] using quiet

end Liquefy
