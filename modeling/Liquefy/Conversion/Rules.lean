import Liquefy.Conversion.Basic
import Liquefy.Idiom
import Liquefy.Segment.Fold

/-!
# Conversion to Liquid

Each kind of segment has a rule that makes its text from the texts of its children. The children
are converted from left to right, and only those that the text shows. A rule checks the shape of
its segment before it converts a child or opens a block.
-/

namespace Liquefy

/-- The children of a segment with their conversions. -/
abbrev Parts := List (Part (Conversion String))

/-! ### Expressions -/

/-- What stands before an item of a chain: a filter is set off by a space, and all else but
operators by a dot, except at the start. -/
def separator (atStart : Bool) (item : Segment) : String :=
  if item.kind = .filter then " "
  else if !atStart && !item.kind.isOperator then "."
  else ""

/-- The items of a chain one after the other. -/
def chainText (atStart : Bool) : Parts → Conversion String
  | [] => pure ""
  | part :: parts => do
      let text ← part.result
      let rest ← chainText false parts
      pure (separator atStart part.segment ++ text ++ rest)

/-- The texts of all parts in order. -/
def texts : Parts → Conversion (List String)
  | [] => pure []
  | part :: parts => do
      let text ← part.result
      let rest ← texts parts
      pure (text :: rest)

/-- Arguments as they stand in a tag. -/
def joined (args : List String) : String := ", ".intercalate args

/-- A call as it stands in a tag; without arguments its name keeps the space. -/
def callText (name : String) (args : String) : String := name ++ " " ++ args

/-- The suffix that a condition gains: collections are asked for members and people whether they
are signed in. -/
def conditionSuffix (condition : String) : String :=
  if Lexicon.isCollection condition then ".any?"
  else if Lexicon.isPerson condition then ".signed_in?"
  else ""

/-- An ordinary call. A condition also opens its block, after its arguments are converted. -/
def plainCall (name : String) (parts : Parts) : Conversion String := do
  let args := joined (← texts parts)
  match Block.ofCondition? name with
  | none => pure (callText name args)
  | some block =>
      Conversion.enter block
      pure (callText name args ++ conditionSuffix args)

/-- The literal operand of an operator whose sign wants it quoted. -/
def quotedOperand? (glyph : String) (operand : Segment) : Option String :=
  if Lexicon.quotesOperand glyph then operand.literal?.map fun s => "'" ++ s ++ "'" else none

/-- An operator and its operand. -/
def operatorText (segment : Segment) (tag : OperatorTag) (glyph : String)
    (operand : Part (Conversion String)) : Conversion String :=
  match Lexicon.operatorToken? glyph with
  | none => Conversion.fail (segment.failure (.operator tag) (.unknownGlyph glyph))
  | some token =>
      match quotedOperand? glyph operand.segment with
      | some text => pure (" " ++ token ++ " " ++ text)
      | none => do
          let text ← operand.result
          pure (" " ++ token ++ " " ++ text)

/-- The literal argument of a filter: numbers as they are, strings between double quotes. -/
def filterLiteral? : Segment → Option String
  | .number digits => some digits
  | .string s => some ("\"" ++ s ++ "\"")
  | _ => none

/-- An argument of a filter. -/
def filterArgument (part : Part (Conversion String)) : Part (Conversion String) :=
  match filterLiteral? part.segment with
  | some text => { part with result := pure text }
  | none => part

/-- A filter; without arguments its name stays as it is. -/
def filterText (name : String) (parts : Parts) : Conversion String :=
  if parts.isEmpty then pure ("| " ++ name)
  else do
    let args := joined (← texts (parts.map filterArgument))
    pure ("| " ++ Lexicon.filterName name ++ ": " ++ args)

/-! ### Blocks -/

/-- The variable of a loop: the one string literal that `each` has. -/
def loopVariable? (each : Segment) : Option String :=
  ((each.callTo? "each").bind Arguments.single?).bind Segment.literal?

/-- A loop over the collection that the chain before `each` stands for. -/
def loopText (segment : Segment) (parts : Parts) : Conversion String :=
  match parts.getLast? with
  | none => Conversion.fail (segment.failure .loop .emptyChain)
  | some each =>
      if !each.segment.isCallTo "each" then Conversion.fail (segment.failure .loop .eachNotLast)
      else
        match loopVariable? each.segment with
        | none => Conversion.fail (segment.failure .loop .eachArgument)
        | some variableName =>
            if parts.dropLast.isEmpty then
              Conversion.fail (segment.failure .loop .collectionMissing)
            else do
              let collection ← chainText true parts.dropLast
              Conversion.enter .loop
              pure ("for " ++ variableName ++ " in " ++ collection)

/-- The search block that a condition opens. -/
def searchBlock? : Segment → Option Block
  | .reference name =>
      if name = Lexicon.searchForm then some .search
      else if name = Lexicon.catalogSearchForm then some .catalogSearch
      else none
  | _ => none

/-- The start of a search form. -/
def searchFormText (segment : Segment) (args : Arguments Segment) : Conversion String :=
  match args.single?.bind searchBlock? with
  | none => Conversion.fail (segment.failure .searchForm .searchCondition)
  | some block => do
      Conversion.enter block
      pure block.name

/-- The start of an item on a learning path, whose block is open while its arguments are
converted. -/
def learningPathItemText (name : String) (parts : Parts) : Conversion String := do
  Conversion.enter .learningPathItem
  let args := joined (← texts parts)
  pure (callText name args)

/-- The end of the innermost block. -/
def endingText : Conversion String := do
  let block ← Conversion.leave
  pure block.endTag

/-! ### Helpers of the templates -/

/-- The key of a call for a phrase: what stands between the first two dots. -/
def phraseKey? : Segment → Option String
  | .call _ args =>
      match args.single?.bind Segment.literal? with
      | none => none
      | some path => (Text.split '.' path)[1]?.filter fun key => key ≠ ""
  | _ => none

/-- A count with the phrase key of its singular form. -/
def pluralizeText (segment : Segment) : Parts → Conversion String
  | [count, singular, _] =>
      match phraseKey? singular.segment with
      | none => Conversion.fail (segment.failure .pluralize .singularForm)
      | some key => do
          let text ← count.result
          pure ("pluralize " ++ text ++ ", ." ++ key)
  | _ => Conversion.fail (segment.failure .pluralize .pluralForms)

/-- The inclusion of a partial template. -/
def inclusionText (segment : Segment) (args : Arguments Segment) : Conversion String :=
  match args.single?.bind Segment.literal? with
  | none => Conversion.fail (segment.failure .inclusion .partialName)
  | some name => pure ("include \"" ++ name ++ "\"")

/-- The question whether an app of the school is active. -/
def appText (segment : Segment) (items : List Segment) : Conversion String :=
  match ((items.findSome? (Segment.callTo? "app")).bind Arguments.single?).bind
    Segment.literal? with
  | none => Conversion.fail (segment.failure .app .appName)
  | some name => pure ("current_school.apps." ++ name ++ ".active?")

/-! ### Segments and documents -/

/-- The text of a segment by its kind, from its children. There is no rule for a segment of a kind
that belongs to another constructor. -/
def rule (segment : Segment) (parts : Parts) : Conversion String :=
  match segment.kind, segment with
  | .text, .text s => pure s
  | .string, .string s => pure s
  | .number, .number digits => pure digits
  | .chain, .chain _ => chainText true parts
  | .loop, .chain _ => loopText segment parts
  | .app, .chain items => appText segment items
  | .reference, .reference name => pure name
  | .otherwise, .reference name => pure name
  | .filter, .reference name => filterText name []
  | .call, .call name _ => plainCall name parts
  | .searchForm, .call _ args => searchFormText segment args
  | .inclusion, .call _ args => inclusionText segment args
  | .enrolment, .call name _ => pure name
  | .courseAccess, .call _ _ => pure Lexicon.courseAccessNow
  | .pluralize, .call _ _ => pluralizeText segment parts
  | .learningPathItem, .call name _ => learningPathItemText name parts
  | .filter, .call name _ => filterText name parts
  | .ending, .ending => endingText
  | .operator _, .operator tag sign _ =>
      match parts with
      | [operand] => operatorText segment tag (Text.trim sign) operand
      | _ => Conversion.fail (.unsupported segment)
  | _, _ => Conversion.fail (.unsupported segment)

/-- The text of a segment, without a tag around it. -/
def Segment.convert : Segment → Conversion String := Segment.fold rule

/-- The text of a segment at top level, in its tag. -/
def Segment.convertTop (segment : Segment) : Conversion String := do
  let inner ← segment.convert
  pure (segment.kind.wrap inner)

/-- The texts of top-level segments, each after what is already done. -/
def convertOnto (done : String) : List Segment → Conversion String
  | [] => pure done
  | segment :: segments => do
      let text ← segment.convertTop
      convertOnto (done ++ text) segments

/-- The texts of top-level segments one after the other. -/
def convertAll (segments : List Segment) : Conversion String := convertOnto "" segments

/-- The Liquid text of a document, which begins with no block open. -/
def Template.convert (template : Template) : Conversion String := do
  Conversion.reset
  let text ← convertAll template.segments
  pure (Idiom.replaceAll text)

/-- The Liquid text of a template by itself, with the blocks that it leaves open. -/
def Template.toLiquid (template : Template) : Except Failure String × Scopes :=
  template.convert .empty

end Liquefy
