import Liquefy.Text.Blank
import Liquefy.Text.Split

/-!
# Template segments

A parsed template is a list of segments: literal text between tags, and the expressions inside
tags as trees. This module has the segments, the names under which they are exchanged, and the
ways to look into them. How the arguments of a call are grouped is kept, but `Arguments.toList`
forgets it, and everything that works with arguments goes through that view.
-/

namespace Liquefy

/-! ### Operators -/

/-- The operator that a segment was parsed as. -/
inductive OperatorTag where
  | greater
  | or
  | and
  | equals
  | subtract
  | differs
  | add
  deriving DecidableEq, Repr

namespace OperatorTag

/-- All operators in their declared order. -/
def all : List OperatorTag := [.greater, .or, .and, .equals, .subtract, .differs, .add]

/-- The name of an operator. -/
def name : OperatorTag → String
  | .greater => "greater"
  | .or => "or"
  | .and => "and"
  | .equals => "equals"
  | .subtract => "subtract"
  | .differs => "differs"
  | .add => "add"

/-- The sign that a template writes for an operator. -/
def glyph : OperatorTag → String
  | .greater => ">"
  | .or => "|"
  | .and => "&"
  | .equals => "="
  | .subtract => "-"
  | .differs => "!="
  | .add => "+"

/-- The operators on truth values. -/
def isLogical : OperatorTag → Bool
  | .or => true
  | .and => true
  | _ => false

/-- The operator of a name. -/
def ofName? (name : String) : Option OperatorTag := all.find? fun tag => tag.name == name

end OperatorTag

/-! ### Arguments -/

/-- The arguments of a call, as the template groups them: none, one by itself, or a list. -/
inductive Arguments (α : Type) where
  | none
  | one (a : α)
  | many (as : List α)

namespace Arguments

variable {α : Type}

/-- The arguments in order, however they are grouped. -/
def toList : Arguments α → List α
  | .none => []
  | .one a => [a]
  | .many as => as

/-- The usual grouping of a list of arguments: a single one stands by itself. -/
def ofList : List α → Arguments α
  | [] => .none
  | [a] => .one a
  | as => .many as

/-- The argument of a call that has exactly one. -/
def single? (args : Arguments α) : Option α :=
  match args.toList with
  | [a] => some a
  | _ => Option.none

@[simp]
theorem toList_ofList (as : List α) : (ofList as).toList = as := by
  match as with
  | [] => rfl
  | [_] => rfl
  | _ :: _ :: _ => rfl

end Arguments

/-! ### Segments -/

/-- A node of a parsed template. -/
inductive Segment where
  /-- Literal text between tags. -/
  | text (s : String)
  /-- A string literal without its quotes. -/
  | string (s : String)
  /-- A number literal as written. -/
  | number (digits : String)
  /-- A dotted expression, left to right. -/
  | chain (items : List Segment)
  /-- A bare identifier. -/
  | reference (name : String)
  /-- A call with its arguments. -/
  | call (name : String) (args : Arguments Segment)
  /-- The end of a block. -/
  | ending
  /-- An operator and its right operand, as the last part of an expression. The sign is kept as
  written, white space included. -/
  | operator (tag : OperatorTag) (sign : String) (operand : Segment)

/-- The constructor of a segment, by which segments are exchanged. -/
inductive Tag where
  | text
  | string
  | number
  | chain
  | reference
  | call
  | ending
  | operator (tag : OperatorTag)
  deriving DecidableEq, Repr

namespace Tag

/-- All tags in their declared order. -/
def all : List Tag :=
  [.text, .string, .number, .chain, .reference, .call, .ending] ++ OperatorTag.all.map .operator

/-- The name of a tag. -/
def name : Tag → String
  | .text => "text"
  | .string => "string"
  | .number => "number"
  | .chain => "chain"
  | .reference => "call_or_variable"
  | .call => "call"
  | .ending => "ending"
  | .operator tag => tag.name

/-- The tag of a name. -/
def ofName? (name : String) : Option Tag := all.find? fun tag => tag.name == name

end Tag

namespace Segment

/-- The tag of a segment. -/
def tag : Segment → Tag
  | .text _ => .text
  | .string _ => .string
  | .number _ => .number
  | .chain _ => .chain
  | .reference _ => .reference
  | .call _ _ => .call
  | .ending => .ending
  | .operator tag _ _ => .operator tag

/-- The name of a call or an identifier. -/
def name? : Segment → Option String
  | .reference name => some name
  | .call name _ => some name
  | _ => none

/-- The value of a string literal. -/
def literal? : Segment → Option String
  | .string s => some s
  | _ => none

/-- The arguments of a call to the given name. -/
def callTo? (name : String) : Segment → Option (Arguments Segment)
  | .call called args => if called = name then some args else none
  | _ => none

/-- A call to the given name. -/
def isCallTo (name : String) (segment : Segment) : Bool := (segment.callTo? name).isSome

/-- The sign of an operator without the white space around it. -/
def glyph? : Segment → Option String
  | .operator _ sign _ => some (Text.trim sign)
  | _ => none

/-- A call with the usual grouping of its arguments. -/
def callOn (name : String) (args : List Segment) : Segment := .call name (.ofList args)

/-- An operator with its usual sign. -/
def operation (tag : OperatorTag) (operand : Segment) : Segment :=
  .operator tag tag.glyph operand

/-- The chain of identifiers that a dotted path stands for. -/
def path (dotted : String) : Segment := .chain ((Text.split '.' dotted).map .reference)

end Segment

/-- A parsed template document. -/
structure Template where
  segments : List Segment

end Liquefy
