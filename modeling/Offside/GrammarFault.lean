import Offside.Token

/-! # Grammar faults — why tables or lexical rules are refused -/

namespace Offside

/-- What is wrong with a table document or a set of lexical rules. -/
inductive GrammarFault where
  /-- The text is no table document. -/
  | malformed
  /-- The table has no states. -/
  | emptyTable
  /-- The symbol for the end of input is not declared. -/
  | missingEndSymbol
  /-- A symbol id that is no number, or too great to be a column. -/
  | invalidSymbol (id : String)
  /-- A column that no declared symbol has. -/
  | invalidColumn (state : Nat) (column : String)
  /-- A cell that spells no action. -/
  | invalidCell (state column : Nat) (cell : String)
  /-- A cell that leads to a state that the table does not have. -/
  | stateOutOfRange (state column target states : Nat)
  /-- A cell that reduces by a production that the table does not have. -/
  | productionOutOfRange (state column production productions : Nat)
  /-- A left-hand side below the mark of the start production. -/
  | invalidProduction (index : Nat) (lhs : Int)
  /-- A terminal that the table does not declare. -/
  | unknownTerminal (name : String)
  /-- A pattern that does not compile. -/
  | invalidPattern (pattern : String)
  /-- A rule that measures indentation without a group to measure. -/
  | missingIndentGroup (pattern : String)
deriving DecidableEq, Repr

/-- The fault in words. -/
def GrammarFault.message : GrammarFault → String
  | .malformed => "Invalid grammar tables"
  | .emptyTable => "Grammar tables have no states"
  | .missingEndSymbol => "Grammar tables do not declare the end-of-input symbol \"$\""
  | .invalidSymbol id => "Invalid symbol id \"" ++ id ++ "\""
  | .invalidColumn state column =>
      "Invalid column \"" ++ column ++ "\" in state " ++ Text.decimal state
  | .invalidCell state column cell =>
      "Invalid action \"" ++ cell ++ "\" in state " ++ Text.decimal state ++ ", column "
        ++ Text.decimal column
  | .stateOutOfRange state column target states =>
      "State " ++ Text.decimal target ++ " referenced from state " ++ Text.decimal state
        ++ ", column " ++ Text.decimal column ++ " does not exist (" ++ Text.decimal states
        ++ " states)"
  | .productionOutOfRange state column production productions =>
      "Production " ++ Text.decimal production ++ " referenced from state "
        ++ Text.decimal state ++ ", column " ++ Text.decimal column ++ " does not exist ("
        ++ Text.decimal productions ++ " productions)"
  | .invalidProduction index lhs =>
      "Production " ++ Text.decimal index ++ " has an invalid left-hand side "
        ++ Text.signedDecimal lhs
  | .unknownTerminal name => "Unknown terminal \"" ++ name ++ "\""
  | .invalidPattern pattern => "Invalid lexical pattern /" ++ pattern ++ "/"
  | .missingIndentGroup pattern =>
      "Indentation rule /" ++ pattern ++ "/ must capture the indentation in group 1"

end Offside
