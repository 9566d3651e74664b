import MiniLisp.Application
import MiniLisp.Arithmetic
import MiniLisp.Coercion
import MiniLisp.Error
import MiniLisp.Evaluation
import MiniLisp.FrameStore
import MiniLisp.Host
import MiniLisp.Kind
import MiniLisp.Lexeme
import MiniLisp.LineLoop
import MiniLisp.Main
import MiniLisp.Name
import MiniLisp.Native
import MiniLisp.Proofs.Evaluation.Arguments
import MiniLisp.Proofs.Evaluation.Bindings
import MiniLisp.Proofs.Evaluation.CheckedArithmetic
import MiniLisp.Proofs.Evaluation.Currying
import MiniLisp.Proofs.Evaluation.Depth
import MiniLisp.Proofs.Evaluation.Division
import MiniLisp.Proofs.Evaluation.Failure
import MiniLisp.Proofs.Evaluation.Hygiene
import MiniLisp.Proofs.Evaluation.Iteration
import MiniLisp.Proofs.Evaluation.Label
import MiniLisp.Proofs.Evaluation.Levels
import MiniLisp.Proofs.Evaluation.Natives
import MiniLisp.Proofs.Evaluation.Nesting
import MiniLisp.Proofs.Evaluation.Occurrence
import MiniLisp.Proofs.Evaluation.Origin
import MiniLisp.Proofs.Evaluation.PartialApplication
import MiniLisp.Proofs.Evaluation.Raises
import MiniLisp.Proofs.Evaluation.Recursion
import MiniLisp.Proofs.Evaluation.Sequences
import MiniLisp.Proofs.Evaluation.Simulation
import MiniLisp.Proofs.Evaluation.StaticDepth
import MiniLisp.Proofs.Evaluation.Summation
import MiniLisp.Proofs.Evaluation.Threading
import MiniLisp.Proofs.Evaluation.Unmentioned
import MiniLisp.Proofs.Lexing.Escape
import MiniLisp.Proofs.Lexing.Gap
import MiniLisp.Proofs.Lexing.Lexeme
import MiniLisp.Proofs.Lexing.Locality
import MiniLisp.Proofs.Lexing.Longest
import MiniLisp.Proofs.Lexing.Tiling
import MiniLisp.Proofs.Lexing.Token
import MiniLisp.Proofs.Reader.Blame
import MiniLisp.Proofs.Reader.Culprit
import MiniLisp.Proofs.Reader.Decoding
import MiniLisp.Proofs.Reader.Grammar
import MiniLisp.Proofs.Reader.Normalised
import MiniLisp.Proofs.Reader.Numeral
import MiniLisp.Proofs.Reader.Operations
import MiniLisp.Proofs.Reader.Position
import MiniLisp.Proofs.Reader.Remainder
import MiniLisp.Proofs.Reader.Respacing
import MiniLisp.Proofs.Reader.RoundTrip
import MiniLisp.Proofs.Reader.Shift
import MiniLisp.Proofs.Reader.Streaming
import MiniLisp.Proofs.Reader.Truncation
import MiniLisp.Proofs.Scope.Agreement
import MiniLisp.Proofs.Scope.History
import MiniLisp.Proofs.Session.Commit
import MiniLisp.Proofs.Session.Concatenation
import MiniLisp.Proofs.Session.LineLoop
import MiniLisp.Proofs.Session.NumberRange
import MiniLisp.Proofs.Session.Reachable
import MiniLisp.Proofs.Session.ReadingAhead
import MiniLisp.Proofs.Session.Saturation
import MiniLisp.Proofs.Session.Sequencing
import MiniLisp.Proofs.Text.Decimal
import MiniLisp.Proofs.Text.Literal
import MiniLisp.Proofs.Value.Agreement
import MiniLisp.ReadError
import MiniLisp.Reader
import MiniLisp.Run
import MiniLisp.Scope
import MiniLisp.Session
import MiniLisp.Settings
import MiniLisp.SpecialForm
import MiniLisp.Text.Blank
import MiniLisp.Text.Decimal
import MiniLisp.Text.Hexadecimal
import MiniLisp.Text.Literal
import MiniLisp.Text.Printable
import MiniLisp.Text.Quoted
import MiniLisp.Text.SlashPath
import MiniLisp.Text.Uppercase
import MiniLisp.Token
import MiniLisp.TokenStream
import MiniLisp.Value
import MiniLisp.Value.Agreement
import MiniLisp.Value.Inspect
import MiniLisp.Value.Render
