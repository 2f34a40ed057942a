import Liquefy.Kind
import Liquefy.Scopes
import Liquefy.Segment.Tree

/-!
# Conversions

A conversion gives a text or fails, and it opens and closes blocks on the way. The blocks that it
leaves open are known in both cases.
-/

namespace Liquefy

/-- Why a segment cannot be converted. -/
inductive Failure where
  /-- There is no rule for the segment. -/
  | unsupported (segment : Segment)
  /-- The segment is of a kind whose rule needs another shape. -/
  | malformed (kind : Kind) (reason : String) (segment : Segment)
  /-- An `end` has no block to close. -/
  | unbalanced

namespace Failure

/-- The wording of a failure. -/
def message : Failure → String
  | .unsupported segment => "Unsupported segment: " ++ segment.encode
  | .malformed kind reason _ => "Malformed " ++ kind.name ++ " segment: " ++ reason
  | .unbalanced => "`end` without an open block"

/-- The segment to blame, if one is known. -/
def segment? : Failure → Option Segment
  | .unsupported segment => some segment
  | .malformed _ _ segment => some segment
  | .unbalanced => none

end Failure

/-- What is wrong with the shape of a segment. -/
inductive Flaw where
  | emptyChain
  | eachNotLast
  | eachArgument
  | collectionMissing
  | unknownGlyph (glyph : String)
  | pluralForms
  | singularForm
  | partialName
  | appName
  | searchCondition
  deriving DecidableEq, Repr

/-- The wording of a flaw. -/
def Flaw.message : Flaw → String
  | .emptyChain => "empty chain"
  | .eachNotLast => "`each` must be the last element of the chain"
  | .eachArgument => "`each` takes exactly one string literal naming the loop variable"
  | .collectionMissing => "missing collection before `each`"
  | .unknownGlyph glyph => "unknown operator glyph `" ++ glyph ++ "`"
  | .pluralForms => "expected a count and two translation keys"
  | .singularForm => "singular form must be a translation call like t('.key.one')"
  | .partialName => "expected one string literal"
  | .appName => "`app` takes one string literal"
  | .searchCondition => "expected `display_search_form` or `display_catalog_search_form`"

/-- The failure of a segment in which the rule of a kind finds a flaw. -/
def Segment.failure (segment : Segment) (kind : Kind) (flaw : Flaw) : Failure :=
  .malformed kind flaw.message segment

/-- A computation that opens and closes blocks and may fail. -/
def Conversion (α : Type) := Scopes → Except Failure α × Scopes

namespace Conversion

instance : Monad Conversion where
  pure a scopes := (.ok a, scopes)
  bind conversion next scopes :=
    match conversion scopes with
    | (.ok a, scopes') => next a scopes'
    | (.error failure, scopes') => (.error failure, scopes')

/-- Fail and leave the blocks as they are. -/
def fail {α : Type} (failure : Failure) : Conversion α := fun scopes => (.error failure, scopes)

/-- Open a block. -/
def enter (block : Block) : Conversion Unit := fun scopes => (.ok (), scopes.push block)

/-- Close the innermost block and name it. -/
def leave : Conversion Block := fun scopes =>
  match scopes.pop? with
  | some (block, scopes') => (.ok block, scopes')
  | none => (.error .unbalanced, scopes)

/-- Forget all open blocks. -/
def reset : Conversion Unit := fun _ => (.ok (), .empty)

end Conversion

end Liquefy
