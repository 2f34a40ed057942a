import Liquefy.Decimal.Layout
import Liquefy.Text.Quoted

/-!
# Why a JSON text is refused

A text is refused for one of three reasons: it ends too early, it is not JSON at the point
reached, or it is JSON of another shape than the one asked for. Every cause is a value of its own
and is put into words in one place, `Fault.message`.
-/

namespace Liquefy.Json

/-- What was being read when the text ended. -/
inductive Place where
  | list
  | object
  | string
  | value
  deriving DecidableEq, Repr

/-- The place with its article. -/
def Place.phrase : Place → String
  | .list => "a list"
  | .object => "an object"
  | .string => "a string"
  | .value => "a value"

/-- How a text fails to be JSON. -/
inductive Malformation where
  | colonExpected
  | listCommaOrEndExpected
  | objectCommaOrEndExpected
  /-- A word begins like `null`, `true` or `false` and goes on otherwise. -/
  | wordExpected
  | valueExpected
  | invalidEscape
  | invalidNumber
  | numberOutOfRange
  | controlCharacter
  | keyNotString
  | loneSurrogate
  /-- A leading surrogate is not followed by another escape. -/
  | unpairedSurrogate
  | trailingComma
  | trailingCharacters
  | nestingTooDeep
  deriving DecidableEq, Repr

/-- The wording of a malformation. -/
def Malformation.message : Malformation → String
  | .colonExpected => "expected `:`"
  | .listCommaOrEndExpected => "expected `,` or `]`"
  | .objectCommaOrEndExpected => "expected `,` or `\x7d`"
  | .wordExpected => "expected ident"
  | .valueExpected => "expected value"
  | .invalidEscape => "invalid escape"
  | .invalidNumber => "invalid number"
  | .numberOutOfRange => "number out of range"
  | .controlCharacter => "control character (\\u0000-\\u001F) found while parsing a string"
  | .keyNotString => "key must be a string"
  | .loneSurrogate => "lone leading surrogate in hex escape"
  | .unpairedSurrogate => "unexpected end of hex escape"
  | .trailingComma => "trailing comma"
  | .trailingCharacters => "trailing characters"
  | .nestingTooDeep => "recursion limit exceeded"

/-- What stood in the place of the expected thing. -/
inductive Found where
  | integer (n : Int)
  /-- A number that is not whole, or too large to be kept whole, by its binary64 bits. -/
  | float (bits : UInt64)
  | boolean (b : Bool)
  | string (s : String)
  | null
  | sequence
  | map
  /-- The name of a variant without the payload it needs. -/
  | bareVariant
  deriving DecidableEq, Repr

/-- The wording of what was found. -/
def Found.message : Found → String
  | .integer n => "integer `" ++ toString n ++ "`"
  | .float bits => "floating point `" ++ Decimal.shownBits bits ++ "`"
  | .boolean b => "boolean `" ++ (if b then "true" else "false") ++ "`"
  | .string s => "string " ++ Text.quoted s
  | .null => "null"
  | .sequence => "sequence"
  | .map => "map"
  | .bareVariant => "unit variant"

/-- What the reader asked for. -/
inductive Expectation where
  | string
  | sequence
  | null
  | variantWithPayload
  /-- A whole number below 65536. -/
  | shortNumber
  | record (name : String)
  deriving DecidableEq, Repr

/-- The wording of an expectation. -/
def Expectation.message : Expectation → String
  | .string => "a string"
  | .sequence => "a sequence"
  | .null => "unit"
  | .variantWithPayload => "newtype variant"
  | .shortNumber => "u16"
  | .record name => "struct " ++ name

/-- How a well-formed value fails to have the shape asked for. -/
inductive Mismatch where
  | unknownVariant (name : String) (known : List String)
  | duplicateField (name : String)
  | missingField (name : String)
  | tooFewElements (present : Nat) (record : String) (needed : Nat)
  | wrongType (found : Found) (expected : Expectation)
  | outOfRange (found : Found) (expected : Expectation)
  | noArgumentForm
  deriving DecidableEq, Repr

/-- A name between backquotes. -/
def backquoted (name : String) : String := "`" ++ name ++ "`"

/-- The list of admitted names: two are joined by `or`, more are enumerated. -/
def oneOf : List String → String
  | [] => "there are no variants"
  | [a] => backquoted a
  | [a, b] => backquoted a ++ " or " ++ backquoted b
  | names => "one of " ++ ", ".intercalate (names.map backquoted)

/-- The wording of a mismatch. -/
def Mismatch.message : Mismatch → String
  | .unknownVariant name known =>
      "unknown variant " ++ backquoted name ++ ", expected " ++ oneOf known
  | .duplicateField name => "duplicate field " ++ backquoted name
  | .missingField name => "missing field " ++ backquoted name
  | .tooFewElements present record needed =>
      "invalid length " ++ toString present ++ ", expected struct " ++ record ++ " with "
        ++ toString needed ++ (if needed = 1 then " element" else " elements")
  | .wrongType found expected =>
      "invalid type: " ++ found.message ++ ", expected " ++ expected.message
  | .outOfRange found expected =>
      "invalid value: " ++ found.message ++ ", expected " ++ expected.message
  | .noArgumentForm => "data did not match any variant of untagged enum Args"

/-- Why a text is refused. -/
inductive Fault where
  /-- The text ends too early. -/
  | truncated (place : Place)
  /-- The text is not JSON at the point reached. -/
  | malformed (cause : Malformation)
  /-- The text is JSON of another shape. -/
  | mismatched (cause : Mismatch)
  deriving DecidableEq, Repr

/-- The wording of a fault, without its position. -/
def Fault.message : Fault → String
  | .truncated place => "EOF while parsing " ++ place.phrase
  | .malformed cause => cause.message
  | .mismatched cause => cause.message

end Liquefy.Json
