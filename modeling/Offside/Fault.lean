import Offside.Automaton.Action
import Offside.Excerpt
import Offside.Text.Escaped

/-! # Faults — why a parse fails

    Every failure is a cause with the data that describes it, and one
    function per type puts it into words.  `IndentFault` is about blocks
    that open where they must not, `Breach` is about bookkeeping that went
    wrong inside the lexer or the automaton, and `Fault` is everything that
    can end a parse. -/

namespace Offside

/-- An indentation that the source must not have. -/
inductive IndentFault where
  /-- A block opens at or above the indentation of the block around it. -/
  | notDeeper (found enclosing line : Nat)
  /-- A block opens at a width that the unit does not divide. -/
  | notAMultiple (found unit line : Nat)
  /-- A block opens more than one unit deeper than the block around it. -/
  | skippedLevel (found expected line : Nat)
  /-- Top-level text is indented although no block was opened. -/
  | missingBlockOpener (found current line : Nat)
deriving DecidableEq, Repr

namespace IndentFault

/-- The line that the fault was found on. -/
def line : IndentFault → Nat
  | notDeeper _ _ line => line
  | notAMultiple _ _ line => line
  | skippedLevel _ _ line => line
  | missingBlockOpener _ _ line => line

/-- The fault in words. -/
def message : IndentFault → String
  | notDeeper found enclosing line =>
      "Bad indent at line " ++ Text.decimal line ++ ": got " ++ Text.decimal found
        ++ ", expected > " ++ Text.decimal enclosing
  | notAMultiple found unit line =>
      "Bad indent at line " ++ Text.decimal line ++ ": got " ++ Text.decimal found
        ++ ", expected a multiple of " ++ Text.decimal unit
  | skippedLevel found expected line =>
      "Bad indent at line " ++ Text.decimal line ++ ": got " ++ Text.decimal found
        ++ ", expected " ++ Text.decimal expected
  | missingBlockOpener found current line =>
      "Blocks should start with \":\", cannot increase indent not in block at line "
        ++ Text.decimal line ++ ", matched indent: " ++ Text.decimal found
        ++ ", current indent: " ++ Text.decimal current

end IndentFault

/-- Bookkeeping that is inconsistent with itself. -/
inductive Breach where
  /-- A line is shallower by no whole number of levels. -/
  | partialDedent (current width : Nat) (unit : Option Nat)
  /-- More frames are asked for than the stack holds. -/
  | overPop (count depth : Nat)
  /-- The table reduces by a production that does not exist. -/
  | unknownProduction (production : Nat)
  /-- The table reduces by the start production. -/
  | startProduction
  /-- The exposed state has no goto for the left-hand side. -/
  | missingGoto (state : Nat) (symbol : Symbol) (found : Automaton.Action)
  /-- A rule needs the structural terminals, and the rule set has none. -/
  | noStructuralTerminals
  /-- A batch of tokens that is to be handed out holds none. -/
  | emptyBatch
  /-- A reduction got another number of values than its production has. -/
  | wrongArity (production expected found : Nat)
  /-- A reduction got a value of another kind than its production has there. -/
  | wrongShape (production : Nat) (expected found : String)
  /-- No reduction is known for a production. -/
  | noReduction (production : Nat)
  /-- The accepted value is no program. -/
  | notAProgram (found : String)
  /-- A reduction gave up for a reason of its own. -/
  | refused (reason : String)
  /-- The automaton made more moves than its input allows. -/
  | endlessRun
deriving DecidableEq, Repr

/-- A unit as it is shown in a breach. -/
private def showUnit : Option Nat → String
  | none => "None"
  | some unit => "Some(" ++ Text.decimal unit ++ ")"

/-- The breach in words. -/
def Breach.message : Breach → String
  | .partialDedent current width unit =>
      "dedent from " ++ Text.decimal current ++ " to " ++ Text.decimal width
        ++ " is not a whole number of " ++ showUnit unit ++ "-column levels"
  | .overPop count depth =>
      "cannot pop " ++ Text.decimal count ++ " frames from a stack holding "
        ++ Text.decimal depth
  | .unknownProduction production =>
      "reduce by unknown production " ++ Text.decimal production
  | .startProduction => "reduce by the augmented start production"
  | .missingGoto state symbol found =>
      "no goto from state " ++ Text.decimal state ++ " on symbol " ++ Text.decimal symbol
        ++ " (found " ++ found.display ++ ")"
  | .noStructuralTerminals => "lexical grammar has no structural terminals"
  | .emptyBatch => "token batch was queued empty"
  | .wrongArity production expected found =>
      "production " ++ Text.decimal production ++ " expected " ++ Text.decimal expected
        ++ " values, found " ++ Text.decimal found
  | .wrongShape production expected found =>
      "production " ++ Text.decimal production ++ " expected " ++ expected
        ++ " but found " ++ found
  | .noReduction production => "no reducer for production " ++ Text.decimal production
  | .notAProgram found => "parse accepted " ++ found ++ " instead of a program"
  | .refused reason => reason
  | .endlessRun => "the automaton does not come to an end"

/-- What can end a parse. -/
inductive Fault where
  /-- No rule matches the source at the cursor. -/
  | unexpectedCharacter (character : Char) (line column : Nat) (excerpt : Option Excerpt)
  /-- An indentation that the source must not have. -/
  | indentation (cause : IndentFault)
  /-- The state has no action for a token. -/
  | unexpectedToken (text : String) (line column : Nat) (expected : List String)
      (excerpt : Option Excerpt)
  /-- The input ends where more of it is needed. -/
  | unexpectedEnd
  /-- Bookkeeping that is inconsistent with itself. -/
  | breach (cause : Breach)
deriving DecidableEq, Repr

/-- The broad class of a fault. -/
inductive FaultClass where
  | lexical
  | indentation
  | syntactic
  | internal
deriving DecidableEq, Repr

namespace Fault

/-- The class that a fault belongs to. -/
def faultClass : Fault → FaultClass
  | unexpectedCharacter .. => .lexical
  | indentation _ => .indentation
  | unexpectedToken .. => .syntactic
  | unexpectedEnd => .syntactic
  | breach _ => .internal

/-- Line and column of a fault that points at a place. -/
def location : Fault → Option (Nat × Nat)
  | unexpectedCharacter _ line column _ => some (line, column)
  | unexpectedToken _ line column _ _ => some (line, column)
  | indentation cause => some (cause.line, 0)
  | unexpectedEnd => none
  | breach _ => none

/-- The sentence about an unexpected text at a place, below its excerpt. -/
def unexpectedText (excerpt : Option Excerpt) (text : String) (line column : Nat) : String :=
  (excerpt.map Excerpt.display).getD "" ++ "Unexpected token: \"" ++ Text.escapeMessage text
    ++ "\" at " ++ Text.decimal line ++ ":" ++ Text.decimal column ++ "."

/-- The fault in words. -/
def message : Fault → String
  | unexpectedCharacter character line column excerpt =>
      unexpectedText excerpt (String.ofList [character]) line column
  | indentation cause => "Indentation error: " ++ cause.message
  | unexpectedToken text line column expected excerpt =>
      unexpectedText excerpt text line column
        ++ (if expected.isEmpty then ""
            else " Expected one of: " ++ String.intercalate ", " expected ++ ".")
  | unexpectedEnd => "Unexpected end of input."
  | breach cause => "Internal invariant violated: " ++ cause.message

end Fault

end Offside
