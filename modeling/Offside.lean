import Offside.Automaton.Reading
import Offside.Main
import Offside.Proofs.Automaton.Inside
import Offside.Proofs.Automaton.Pairs
import Offside.Proofs.Indentation.Words
import Offside.Proofs.Language.BlankLines
import Offside.Proofs.Language.Capture
import Offside.Proofs.Language.Concatenation
import Offside.Proofs.Language.Ending
import Offside.Proofs.Language.Faults
import Offside.Proofs.Language.Image
import Offside.Proofs.Language.Locations
import Offside.Proofs.Language.Nesting
import Offside.Proofs.Language.Prepared
import Offside.Proofs.Language.Rounds
import Offside.Proofs.Language.Selection
import Offside.Proofs.Lexer.Balance
import Offside.Proofs.Lexer.Carets
import Offside.Proofs.Lexer.Eager
import Offside.Proofs.Lexer.Exhaustion
import Offside.Proofs.Lexer.Merging
import Offside.Proofs.Lexer.Safety
import Offside.Proofs.Lexer.Volume
import Offside.Proofs.Preparation.Filter
import Offside.Proofs.Spans
import Offside.Proofs.Tree.Serialized
import Offside.Text.Numeral
