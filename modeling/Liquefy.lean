import Liquefy.Command.Check
import Liquefy.Command.Convert
import Liquefy.Command.Help
import Liquefy.Command.Line
import Liquefy.Command.Outcome
import Liquefy.Command.Run
import Liquefy.Conversion.Basic
import Liquefy.Conversion.BlockEvents
import Liquefy.Conversion.Events
import Liquefy.Conversion.Log
import Liquefy.Conversion.Rules
import Liquefy.Conversion.Session
import Liquefy.Decimal.Layout
import Liquefy.Decimal.Shortest
import Liquefy.Diagnostic.Basic
import Liquefy.Diagnostic.Code
import Liquefy.Diagnostic.Reading
import Liquefy.Disk
import Liquefy.Idiom
import Liquefy.Json.Fault
import Liquefy.Json.Numeral
import Liquefy.Json.Quote
import Liquefy.Json.Reader
import Liquefy.Json.Record
import Liquefy.Json.Shape
import Liquefy.Json.Skimming
import Liquefy.Json.Tree
import Liquefy.Json.Tree.Reading
import Liquefy.Kind
import Liquefy.Lexicon
import Liquefy.Log
import Liquefy.Main
import Liquefy.Proofs.Conversion.Documents
import Liquefy.Proofs.Conversion.Tracing
import Liquefy.Report
import Liquefy.Scopes
import Liquefy.Segment.Basic
import Liquefy.Segment.Fold
import Liquefy.Segment.Reading
import Liquefy.Segment.Tree
import Liquefy.Styled
import Liquefy.Text.Blank
import Liquefy.Text.Controls
import Liquefy.Text.Quoted
import Liquefy.Text.Split
import Liquefy.Text.Unprintable
import Liquefy.Proofs.Conversion.Nesting
import Liquefy.Proofs.Conversion.Brackets
import Liquefy.Proofs.Conversion.Endings
import Liquefy.Proofs.Json.Nesting
import Liquefy.Proofs.Segment.RoundTrip
import Liquefy.Proofs.Json.Lexemes
import Liquefy.Proofs.Json.Outline
import Liquefy.Proofs.Json.Passing
import Liquefy.Proofs.Json.Meaning
import Liquefy.Proofs.Json.RecordMeaning
import Liquefy.Proofs.Segment.Denotation
import Liquefy.Proofs.Segment.Acceptance
import Liquefy.Proofs.Segment.WireGrammar
import Liquefy.Proofs.Segment.Reencoding
import Liquefy.Proofs.Json.Following
import Liquefy.Proofs.Segment.BufferedArguments
import Liquefy.Proofs.Conversion.Blame
import Liquefy.Proofs.Conversion.Agreement
import Liquefy.Proofs.Conversion.Respelling
import Liquefy.Proofs.Idiom.Replacing
import Liquefy.Proofs.Conversion.Unmarked
import Liquefy.Proofs.Conversion.TagScan
import Liquefy.Proofs.Command.Verdicts
import Liquefy.Proofs.Conversion.Chains
import Liquefy.Proofs.Command.Effects
import Liquefy.Proofs.Conversion.Paths
import Liquefy.Proofs.Json.Truncation
import Liquefy.Proofs.Segment.Truncation
import Liquefy.Proofs.Conversion.Resemblance
import Liquefy.Proofs.Conversion.Unread
import Liquefy.Proofs.Conversion.Visits
import Liquefy.Proofs.Command.Recoloring
import Liquefy.Proofs.Command.Escapes
import Liquefy.Proofs.Json.Written
import Liquefy.Proofs.Diagnostic.RoundTrip
