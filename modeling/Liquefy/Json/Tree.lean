import Liquefy.Json.Numeral
import Liquefy.Json.Quote

/-!
# JSON values as trees

A tree keeps the members of an object in the order in which they were written, repeated keys
included. `Tree.write` is the compact text of a tree and `Tree.depth` the number of brackets that
are open at its deepest point.
-/

namespace Liquefy.Json

/-- A JSON value. -/
inductive Tree where
  | null
  | boolean (b : Bool)
  | number (n : Numeral)
  | string (s : String)
  | array (items : List Tree)
  | object (members : List (String × Tree))

/-- A number as it is written. -/
def Numeral.write : Numeral → List Char
  | .integer n => (toString n).toList
  | .float bits => (Decimal.shownBits bits).toList

namespace Tree

mutual

/-- The compact text of a tree. -/
def write : Tree → List Char
  | .null => ['n', 'u', 'l', 'l']
  | .boolean true => ['t', 'r', 'u', 'e']
  | .boolean false => ['f', 'a', 'l', 's', 'e']
  | .number n => n.write
  | .string s => writeString s
  | .array [] => ['[', ']']
  | .array (item :: items) => '[' :: item.write ++ writeItems items ++ [']']
  | .object [] => ['\x7b', '\x7d']
  | .object ((key, value) :: members) =>
      '\x7b' :: writeString key ++ ':' :: value.write ++ writeMembers members ++ ['\x7d']

/-- The items after the first, each behind a comma. -/
def writeItems : List Tree → List Char
  | [] => []
  | item :: items => ',' :: item.write ++ writeItems items

/-- The members after the first, each behind a comma. -/
def writeMembers : List (String × Tree) → List Char
  | [] => []
  | (key, value) :: members =>
      ',' :: writeString key ++ ':' :: value.write ++ writeMembers members

end

/-- The compact text of a tree as a string. -/
def text (tree : Tree) : String := String.ofList tree.write

mutual

/-- The number of brackets open at the deepest point of a tree. -/
def depth : Tree → Nat
  | .array items => depthOfItems items + 1
  | .object members => depthOfMembers members + 1
  | _ => 0

/-- The greatest depth among trees. -/
def depthOfItems : List Tree → Nat
  | [] => 0
  | item :: items => max item.depth (depthOfItems items)

/-- The greatest depth among the values of members. -/
def depthOfMembers : List (String × Tree) → Nat
  | [] => 0
  | (_, value) :: members => max value.depth (depthOfMembers members)

end

end Tree

end Liquefy.Json
