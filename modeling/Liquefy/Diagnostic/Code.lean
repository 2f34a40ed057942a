/-!
# Codes of findings

Every finding has a number. The hundreds tell what it is about: below 100 the conversion itself,
then the input, then documents that convert but look wrong.
-/

namespace Liquefy

/-- The number of a finding. -/
structure Code where
  number : UInt16
  deriving DecidableEq, Repr

namespace Code

/-- There is no rule for a segment. -/
def unsupportedSegment : Code := ⟨1⟩

/-- A segment lacks the shape that its rule needs. -/
def malformedShape : Code := ⟨2⟩

/-- An `end` has no block to close. -/
def unbalancedScope : Code := ⟨3⟩

/-- A document is not a parsed template. -/
def invalidDocument : Code := ⟨100⟩

/-- A file cannot be read. -/
def unreadableFile : Code := ⟨101⟩

/-- A document ends while blocks are open. -/
def unclosedScope : Code := ⟨200⟩

/-- The code as it is shown: four digits or more. -/
def shown (code : Code) : String :=
  let digits := toString code.number.toNat
  "SKL" ++ "".pushn '0' (4 - digits.length) ++ digits

/-- What a code stands for. -/
def description (code : Code) : String :=
  match code.number.toNat with
  | 1 => "Unsupported segment"
  | 2 => "Malformed segment shape"
  | 3 => "Unbalanced block scope"
  | 100 => "Invalid parsed document"
  | 101 => "I/O error"
  | 200 => "Unclosed block scope"
  | _ => "Unknown error"

/-- Advice for a code. -/
def help? (code : Code) : Option String :=
  match code.number.toNat with
  | 1 => some "Only the known SKTL constructs can be converted; rewrite this one by hand"
  | 2 => some "The segment was recognised but its arguments do not have the expected form"
  | 3 =>
      some "An `end` appears without a matching if, unless, each, search or learning_path_item"
  | 200 => some "The document ends while one or more blocks are still open"
  | _ => none

/-- The finding is about the conversion itself. -/
def isConversion (code : Code) : Bool := 1 ≤ code.number.toNat && code.number.toNat < 100

/-- The finding is about the input. -/
def isInput (code : Code) : Bool := 100 ≤ code.number.toNat && code.number.toNat < 200

/-- The finding is about a document that converts. -/
def isLint (code : Code) : Bool := 200 ≤ code.number.toNat && code.number.toNat < 300

end Code

end Liquefy
