import JsonForms.Text.Blank
import JsonForms.Text.Printable
import JsonForms.Source.Basic
import JsonForms.Source.Position
import JsonForms.Source.Excerpt
import JsonForms.Json.Reader.Value
import JsonForms.Expr.Decode
import JsonForms.Expr.Printer
import JsonForms.Value.Printer
import JsonForms.Environment
import JsonForms.Operation.Basic
import JsonForms.Eval.Evaluate
import JsonForms.CommandLine
import JsonForms.Main
import JsonForms.Proofs.Grammar.Basic
import JsonForms.Proofs.Grammar.Reading
import JsonForms.Proofs.Grammar.Numerals
import JsonForms.Proofs.Grammar.Strings
import JsonForms.Proofs.Grammar.Completeness
import JsonForms.Proofs.Grammar.Lexemes
import JsonForms.Proofs.Grammar.Programs
import JsonForms.Proofs.Grammar.RoundTrip
import JsonForms.Proofs.Decoding.Refusals
import JsonForms.Proofs.Evaluation.Families
import JsonForms.Proofs.Evaluation.Congruence
import JsonForms.Proofs.Evaluation.Passes
import JsonForms.Proofs.Evaluation.DepthLimit
import JsonForms.Proofs.Evaluation.LimitedOutput
import JsonForms.Proofs.Evaluation.Breakpoints
import JsonForms.Proofs.Evaluation.Steps
import JsonForms.Proofs.Evaluation.Assignments
import JsonForms.Proofs.Evaluation.Depth
import JsonForms.Proofs.Evaluation.Blame
import JsonForms.Proofs.Evaluation.Exactness
import JsonForms.Proofs.Evaluation.Abreast
import JsonForms.Proofs.Evaluation.Frame
import JsonForms.Proofs.Evaluation.Commuting
import JsonForms.Proofs.Evaluation.InOrder
import JsonForms.Proofs.Evaluation.Nesting
import JsonForms.Proofs.Evaluation.Work
import JsonForms.Proofs.Evaluation.Settling
import JsonForms.Proofs.Evaluation.Contexts
import JsonForms.Proofs.Printing.Arrays
import JsonForms.Proofs.Decoding.Faults
import JsonForms.Proofs.Evaluation.Values
import JsonForms.Proofs.Evaluation.Flat
import JsonForms.Proofs.Evaluation.Attempts
import JsonForms.Proofs.Evaluation.Safety
import JsonForms.Proofs.Evaluation.Carried
import JsonForms.Proofs.Evaluation.Unrolling
import JsonForms.Proofs.Evaluation.Repetition
import JsonForms.Proofs.Evaluation.Preconditions
import JsonForms.Proofs.Text.ByteOrder
import JsonForms.Proofs.Evaluation.Comparisons
import JsonForms.Proofs.Decoding.FaultPlaces
import JsonForms.Proofs.Settings.Limits
import JsonForms.Proofs.Source.Windows
import JsonForms.Proofs.Source.Pieces
import JsonForms.Proofs.Decimal.Range
import JsonForms.Proofs.Decoding.Literals
