import Liquefy.Json.Tree
import Liquefy.Segment.Basic

/-!
# Segments as JSON trees

Every segment has one tree, an object with the segment's tag as its only key, except that an
ending is the bare string `"ending"`. The other way, `Segment.ofTree?` says which segment a tree
stands for: records may also be arrays of their fields, and members of other names are ignored.
-/

namespace Liquefy

open Json (Tree)

namespace Segment

mutual

/-- The tree of a segment. -/
def tree : Segment → Tree
  | .text s => .object [(Tag.text.name, .string s)]
  | .string s => .object [(Tag.string.name, .string s)]
  | .number digits => .object [(Tag.number.name, .string digits)]
  | .chain items => .object [(Tag.chain.name, .array (trees items))]
  | .reference name => .object [(Tag.reference.name, .object [("name", .string name)])]
  | .call name args =>
      .object [(Tag.call.name, .object (("name", .string name) :: argumentMembers args))]
  | .ending => .string Tag.ending.name
  | .operator tag sign operand =>
      .object [(tag.name, .object [("op", .string sign), ("arg", operand.tree)])]

/-- The trees of segments. -/
def trees : List Segment → List Tree
  | [] => []
  | segment :: segments => segment.tree :: trees segments

/-- The member for the arguments of a call; a call without arguments has none. -/
def argumentMembers : Arguments Segment → List (String × Tree)
  | .none => []
  | .one segment => [("args", segment.tree)]
  | .many segments => [("args", .array (trees segments))]

end

/-- The members with the given key. -/
def countKey (key : String) (members : List (String × Tree)) : Nat :=
  members.countP fun member => member.1 == key

/-- The string under a key that occurs exactly once. -/
def stringMember? (key : String) : List (String × Tree) → Option String
  | [] => none
  | (key', value) :: members =>
      if key' = key then
        match value with
        | .string s => if countKey key members = 0 then some s else none
        | _ => none
      else stringMember? key members

mutual

/-- The segment that a tree stands for. -/
def ofTree? : Tree → Option Segment
  | .string s => if s = Tag.ending.name then some .ending else none
  | .object [(key, payload)] =>
      match Tag.ofName? key with
      | none => none
      | some tag => ofPayload? tag payload
  | _ => none

/-- The segment with the given tag that a payload stands for. -/
def ofPayload? : Tag → Tree → Option Segment
  | .text, .string s => some (.text s)
  | .string, .string s => some (.string s)
  | .number, .string s => some (.number s)
  | .ending, .null => some .ending
  | .chain, .array items => (ofTrees? items).map .chain
  | .reference, .object members => (stringMember? "name" members).map .reference
  | .reference, .array [.string name] => some (.reference name)
  | .call, .object members =>
      match stringMember? "name" members, argumentsMember? members with
      | some name, some args => some (.call name args)
      | _, _ => none
  | .call, .array [.string name] => some (.call name .none)
  | .call, .array [.string name, .null] => some (.call name .none)
  | .call, .array [.string name, .array items] =>
      (ofTrees? items).map fun segments => .call name (.many segments)
  | .call, .array [.string name, arg] => (ofTree? arg).map fun segment => .call name (.one segment)
  | .operator tag, .object members =>
      match stringMember? "op" members, operandMember? members with
      | some sign, some operand => some (.operator tag sign operand)
      | _, _ => none
  | .operator tag, .array [.string sign, operand] => (ofTree? operand).map (.operator tag sign)
  | _, _ => none

/-- The segments that trees stand for, if each stands for one. -/
def ofTrees? : List Tree → Option (List Segment)
  | [] => some []
  | tree :: trees =>
      match ofTree? tree, ofTrees? trees with
      | some segment, some segments => some (segment :: segments)
      | _, _ => none

/-- The arguments among the members of a call, where the key occurs at most once. -/
def argumentsMember? : List (String × Tree) → Option (Arguments Segment)
  | [] => some .none
  | (key, value) :: members =>
      if key = "args" then
        if countKey "args" members = 0 then
          match value with
          | .null => some .none
          | .array items => (ofTrees? items).map .many
          | value => (ofTree? value).map .one
        else none
      else argumentsMember? members

/-- The operand among the members of an operator, where the key occurs exactly once. -/
def operandMember? : List (String × Tree) → Option Segment
  | [] => none
  | (key, value) :: members =>
      if key = "arg" then
        if countKey "arg" members = 0 then ofTree? value else none
      else operandMember? members

end

/-- The arguments that a tree stands for: nothing, a list of segments, or one segment. -/
def argumentsOfTree? : Tree → Option (Arguments Segment)
  | .null => some .none
  | .array items => (ofTrees? items).map .many
  | tree => (ofTree? tree).map .one

/-- The compact text of a segment. -/
def encode (segment : Segment) : String := segment.tree.text

end Segment

namespace Template

/-- The tree of a template. -/
def tree (template : Template) : Tree :=
  .object [("template", .array (Segment.trees template.segments))]

/-- The compact text of a template. -/
def encode (template : Template) : String := template.tree.text

end Template

end Liquefy
