import Liquefy.Conversion.Events
import Liquefy.Log

/-!
# What a conversion reports

The log of a document's conversion names each segment as it is visited. If the conversion
succeeds, it also warns of blocks left open and gives the size of the result.
-/

namespace Liquefy

open Log (Entry)

/-- An entry of the conversion. -/
def conversionEntry (level : Log.Level) (message : String) : Entry :=
  ⟨level, "sktl_liquid_convert::converter", message⟩

/-- The entry for a visited segment. -/
def visitEntry (segment : Segment) : Entry :=
  conversionEntry .trace
    ("converting " ++ segment.tag.name ++ " segment as " ++ segment.kind.name)

/-- The warning of blocks left open. -/
def openEntries (scopes : Scopes) : List Entry :=
  if scopes.isEmpty then []
  else
    [conversionEntry .warn
      ("document ends with " ++ toString scopes.depth ++ " open block(s): ["
        ++ ", ".intercalate (scopes.toList.map Block.label) ++ "]")]

/-- The entries at the end of a conversion, if it succeeds. -/
def finalEntries (template : Template) : List Entry :=
  match template.toLiquid with
  | (.error _, _) => []
  | (.ok liquid, scopes) =>
      openEntries scopes ++
        [conversionEntry .debug
          ("converted " ++ toString template.segments.length ++ " top-level segment(s) into "
            ++ toString liquid.utf8ByteSize ++ " byte(s) of Liquid")]

/-- The log of a document's conversion. -/
def Template.log (template : Template) : List Entry :=
  (visited .empty (template.segments.flatMap Segment.events)).map visitEntry
    ++ finalEntries template

end Liquefy
