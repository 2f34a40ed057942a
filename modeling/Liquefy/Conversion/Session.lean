import Liquefy.Conversion.Rules

/-!
# Sessions

One converter serves requests one after the other. The blocks that a request leaves open, also
when it fails, are those that the next one finds; only a document starts afresh.
-/

namespace Liquefy

/-- What a converter can be asked to convert. -/
inductive Request where
  | document (template : Template)
  /-- A segment in the tag that it has at top level. -/
  | topLevel (segment : Segment)
  /-- A segment without a tag around it. -/
  | bare (segment : Segment)

/-- The conversion that a request asks for. -/
def Request.convert : Request → Conversion String
  | .document template => template.convert
  | .topLevel segment => segment.convertTop
  | .bare segment => segment.convert

/-- The answers to the requests in order, each with the blocks that are open after it. -/
def session (scopes : Scopes) : List Request → List (Except Failure String × Scopes)
  | [] => []
  | request :: requests =>
      let answer := request.convert scopes
      answer :: session answer.2 requests

end Liquefy
