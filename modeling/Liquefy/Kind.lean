import Liquefy.Lexicon
import Liquefy.Segment.Basic

/-!
# Kinds of segments

The tag of a segment says how it was parsed. Some constructs with a rendering of their own are
parsed as ordinary calls or chains, so a segment is also given a kind, by the names inside it. The
kind decides how the segment is converted and, at top level, which Liquid tag it is put in.
-/

namespace Liquefy

/-- The construct that a segment is. -/
inductive Kind where
  | text
  | string
  | number
  | chain
  | reference
  | call
  | ending
  | operator (tag : OperatorTag)
  /-- A chain with a call to `each`. -/
  | loop
  /-- The identifier `else`. -/
  | otherwise
  /-- A condition on which a search form is shown. -/
  | searchForm
  /-- A partial template to include. -/
  | inclusion
  /-- A question about enrolment. -/
  | enrolment
  /-- The older form of a question about enrolment. -/
  | courseAccess
  | pluralize
  /-- A chain with a call to `app`. -/
  | app
  | learningPathItem
  | filter
  deriving DecidableEq, Repr

/-- The Liquid tag around a converted segment at top level. -/
inductive TagStyle where
  /-- The value of an expression. -/
  | output
  /-- A statement. -/
  | statement
  /-- No tag. -/
  | raw
  deriving DecidableEq, Repr

/-- Put a text into the tag. -/
def TagStyle.wrap (style : TagStyle) (inner : String) : String :=
  match style with
  | .output => "\x7b\x7b " ++ inner ++ " \x7d\x7d"
  | .statement => "\x7b% " ++ inner ++ " %\x7d"
  | .raw => inner

namespace Kind

/-- All kinds. -/
def all : List Kind :=
  [.text, .string, .number, .chain, .reference, .call, .ending]
    ++ OperatorTag.all.map .operator
    ++ [.loop, .otherwise, .searchForm, .inclusion, .enrolment, .courseAccess, .pluralize, .app,
        .learningPathItem, .filter]

/-- The name of a kind. -/
def name : Kind → String
  | .text => "text"
  | .string => "string"
  | .number => "number"
  | .chain => "chain"
  | .reference => "call_or_variable"
  | .call => "call"
  | .ending => "ending"
  | .operator tag => tag.name
  | .loop => "loop"
  | .otherwise => "else"
  | .searchForm => "display_search_form"
  | .inclusion => "partial"
  | .enrolment => "enrolled_in"
  | .courseAccess => "access_course"
  | .pluralize => "pluralize"
  | .app => "app"
  | .learningPathItem => "learning_path_item"
  | .filter => "filter"

/-- The kind of a name. -/
def ofName? (name : String) : Option Kind := all.find? fun kind => kind.name == name

/-- An operator of any tag. -/
def isOperator : Kind → Bool
  | .operator _ => true
  | _ => false

/-- The tag in which a segment of this kind stands at top level. -/
def tagStyle : Kind → TagStyle
  | .chain | .reference => .output
  | .call | .ending | .loop | .otherwise | .inclusion | .pluralize | .learningPathItem
  | .searchForm => .statement
  | _ => .raw

/-- Put converted top-level text into the tag of its kind. -/
def wrap (kind : Kind) (inner : String) : String := kind.tagStyle.wrap inner

end Kind

namespace Segment

/-- The identifier that shows a search form. -/
def isSearchForm : Segment → Bool
  | .reference name => name == Lexicon.searchForm || name == Lexicon.catalogSearchForm
  | _ => false

/-- The kind of a call. -/
def kindOfCall (name : String) (args : Arguments Segment) : Kind :=
  if name = "if" ∧ args.single?.any isSearchForm then .searchForm
  else if name = "partial" then .inclusion
  else if Lexicon.enrolmentCalls.contains name then .enrolment
  else if name = Lexicon.courseAccess then .courseAccess
  else if name = "pluralize" then .pluralize
  else if name = "learning_path_item" then .learningPathItem
  else if Lexicon.isFilter name then .filter
  else .call

/-- The kind of a segment; of a chain that could be a loop and an app, the loop wins. -/
def kind : Segment → Kind
  | .text _ => .text
  | .string _ => .string
  | .number _ => .number
  | .chain items =>
      if items.any (isCallTo "each") then .loop
      else if items.any (isCallTo "app") then .app
      else .chain
  | .reference name =>
      if name = "else" then .otherwise
      else if Lexicon.isFilter name then .filter
      else .reference
  | .call name args => kindOfCall name args
  | .ending => .ending
  | .operator tag _ _ => .operator tag

end Segment

end Liquefy
