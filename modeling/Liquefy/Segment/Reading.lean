import Liquefy.Json.Record
import Liquefy.Json.Tree.Reading
import Liquefy.Segment.Tree

/-!
# Reading segments

Segments are checked while their text is read. The arguments of a call are the exception: they are
first read as a plain tree, because a list and a single segment are both admitted, and the tree is
then taken as the one or the other.
-/

namespace Liquefy

open Json

/-! ### Records -/

/-- An identifier: a record of its name. -/
def referenceRecord : Record (Option String) Segment where
  name := "Variable"
  fields :=
    [{ name := "name", isSet := Option.isSome, read := string.map fun s _ => some s
       mayEnd := false }]
  blank := none
  finish draft := (required "name" draft).map .reference

/-- The fields of a call read so far. -/
structure CallDraft where
  name : Option String
  args : Option (Arguments Segment)

/-- The arguments that a tree stands for. -/
def checkArguments (tree : Tree) : Except Fault (Arguments Segment) :=
  match Segment.argumentsOfTree? tree with
  | some args => .ok args
  | none => .error (.mismatched .noArgumentForm)

/-- The arguments of a call, if the budget admits their brackets. -/
def arguments (budget : Nat) : Reader (Arguments Segment) :=
  (optional ((Tree.read budget).checked checkArguments)).map fun args => args.getD .none

/-- A call: a record of its name and its arguments, which may be left out. -/
def callRecord (budget : Nat) : Record CallDraft Segment where
  name := "Call"
  fields :=
    [{ name := "name", isSet := fun draft => draft.name.isSome
       read := string.map fun s draft => { draft with name := some s }, mayEnd := false },
     { name := "args", isSet := fun draft => draft.args.isSome
       read := (arguments budget).map fun args draft => { draft with args := some args }
       mayEnd := true }]
  blank := ⟨none, none⟩
  finish draft :=
    match required "name" draft.name with
    | .error fault => .error fault
    | .ok name => .ok (.call name (draft.args.getD .none))

/-- The fields of an operator read so far. -/
structure OperatorDraft where
  sign : Option String
  operand : Option Segment

/-- An operator: a record of its sign and its operand. -/
def operatorRecord (tag : OperatorTag) (segment : Reader Segment) :
    Record OperatorDraft Segment where
  name := "RawOperator"
  fields :=
    [{ name := "op", isSet := fun draft => draft.sign.isSome
       read := string.map fun s draft => { draft with sign := some s }, mayEnd := false },
     { name := "arg", isSet := fun draft => draft.operand.isSome
       read := segment.map fun operand draft => { draft with operand := some operand }
       mayEnd := false }]
  blank := ⟨none, none⟩
  finish draft :=
    match required "op" draft.sign with
    | .error fault => .error fault
    | .ok sign =>
        match required "arg" draft.operand with
        | .error fault => .error fault
        | .ok operand => .ok (.operator tag sign operand)

/-! ### Segments -/

/-- The payload of a segment with the given tag. The budget is what is left for the payload's own
bracket, and `segment` reads the segments inside that bracket. -/
def payload (budget : Nat) (segment : Reader Segment) : Tag → Reader Segment
  | .text => string.map .text
  | .string => string.map .string
  | .number => string.map .number
  | .chain => (list budget segment).map .chain
  | .reference => referenceRecord.reader budget
  | .call => (callRecord (budget - 1)).reader budget
  | .ending => null .ending
  | .operator tag => (operatorRecord tag segment).reader budget

/-- The value of a tag written as a bare name: only an ending has no payload. -/
def bareSegment : Tag → Except Fault Segment
  | .ending => .ok .ending
  | _ => .error (.mismatched (.wrongType .bareVariant .variantWithPayload))

/-- Segments as a choice between tags. -/
def segmentVariants (budget : Nat) (segment : Reader Segment) : Variants Tag Segment where
  names := Tag.all.map Tag.name
  ofName? := Tag.ofName?
  bare := bareSegment
  payload := payload budget segment

/-- A segment that opens at most `budget` brackets inside one another. A segment inside another
stands behind two of them. -/
def Segment.read : (budget : Nat) → Reader Segment
  | 0 => (segmentVariants 0 (.refuse (.malformed .nestingTooDeep))).reader 0
  | 1 => (segmentVariants 0 (.refuse (.malformed .nestingTooDeep))).reader 1
  | budget + 2 => (segmentVariants (budget + 1) (Segment.read budget)).reader (budget + 2)

/-- A template: a record of its segments. -/
def templateRecord (budget : Nat) : Record (Option (List Segment)) Template where
  name := "Template"
  fields :=
    [{ name := "template", isSet := Option.isSome
       read := (list budget (Segment.read (budget - 1))).map fun segments _ => some segments
       mayEnd := false }]
  blank := none
  finish draft := (required "template" draft).map Template.mk

/-- The segment that a text stands for. -/
def Segment.decode (text : String) : Except Fault Segment :=
  Json.decode (Segment.read maxDepth) text

/-- The operator of a name that must be one. -/
def OperatorTag.named (name : String) : Except Fault OperatorTag :=
  match OperatorTag.ofName? name with
  | some tag => .ok tag
  | none => .error (.mismatched (.unknownVariant name (OperatorTag.all.map OperatorTag.name)))

/-- The template that a text stands for. -/
def Template.decode (text : String) : Except Fault Template :=
  Json.decode ((templateRecord (maxDepth - 1)).reader maxDepth) text

end Liquefy
