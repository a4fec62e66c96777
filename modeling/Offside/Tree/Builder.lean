import Offside.Automaton.Run
import Offside.Tree.Display

/-! # Building trees — one reduction for each production

    A value on the parse stack is a token or what has been built for a
    nonterminal.  Each production takes the values of its right-hand side
    apart and builds the one for its left-hand side.  Values of the wrong
    number or kind mean that the table does not fit, which is a breach. -/

namespace Offside

/-- A value on the parse stack. -/
inductive Value where
  | token (t : Token)
  | program (p : Program)
  | statements (ms : List Module)
  | statement (m : Module)
  | optionalBlock (b : Option Block)
  | block (b : Block)
  | module (m : Module)
deriving DecidableEq

/-- A value as it is shown. -/
def Value.shown : Value → Shown
  | token t => .call "Token" t.shown
  | program p => .call "Program" p.shown
  | statements ms => .call "Statements" (.list (Module.shownStatements ms))
  | statement m => .call "Statement" m.shownStatement
  | optionalBlock b => .call "OptionalBlock" (Block.shownBody b)
  | block b => .call "Block" b.shown
  | module m => .call "Module" m.shown

namespace Builder

/-- The breach of a value of another kind than its production has there. -/
def wrongShape {α : Type} (production : Nat) (expected : String) (found : Value) :
    Except Fault α :=
  .error (.breach (.wrongShape production expected found.shown.inline))

/-- The text of a token. -/
def tokenText (production : Nat) : Value → Except Fault String
  | .token t => .ok t.text
  | v => wrongShape production "a token" v

/-- A list of declarations. -/
def statementsOf (production : Nat) : Value → Except Fault (List Module)
  | .statements ms => .ok ms
  | v => wrongShape production "statements" v

/-- A declaration as a statement. -/
def statementOf (production : Nat) : Value → Except Fault Module
  | .statement m => .ok m
  | v => wrongShape production "a statement" v

/-- A block. -/
def blockOf (production : Nat) : Value → Except Fault Block
  | .block b => .ok b
  | v => wrongShape production "a block" v

/-- A block that may be absent. -/
def optionalBlockOf (production : Nat) : Value → Except Fault (Option Block)
  | .optionalBlock b => .ok b
  | v => wrongShape production "an optional block" v

/-- A declaration. -/
def moduleOf (production : Nat) : Value → Except Fault Module
  | .module m => .ok m
  | v => wrongShape production "a module" v

/-- The breach of another number of values than a production has. -/
def wrongArity {α : Type} (production expected : Nat) (values : List Value) : Except Fault α :=
  .error (.breach (.wrongArity production expected values.length))

/-- The value for the left-hand side of a production. -/
def reduce (production : Nat) (values : List Value) (location : Option Span) :
    Except Fault Value :=
  match production, values with
  | 1, [statements, _] => return .program ⟨← statementsOf 1 statements, location⟩
  | 1, values => wrongArity 1 2 values
  | 2, [statement] => return .statements [← statementOf 2 statement]
  | 2, values => wrongArity 2 1 values
  | 3, [statements, _, statement] => do
      let front ← statementsOf 3 statements
      return .statements (front ++ [← statementOf 3 statement])
  | 3, values => wrongArity 3 3 values
  | 4, [statements, _] => return .statements (← statementsOf 4 statements)
  | 4, values => wrongArity 4 2 values
  | 5, [module] => return .statement (← moduleOf 5 module)
  | 5, values => wrongArity 5 1 values
  | 6, [block] => return .optionalBlock (some (← blockOf 6 block))
  | 6, values => wrongArity 6 1 values
  | 7, [] => return .optionalBlock none
  | 7, values => wrongArity 7 0 values
  | 8, [_, comment, _] => return .block (.mk (some (← tokenText 8 comment)) [] location)
  | 8, values => wrongArity 8 3 values
  | 9, [_, comment, _, statements, _] => do
      let comment ← tokenText 9 comment
      return .block (.mk (some comment) (← statementsOf 9 statements) location)
  | 9, values => wrongArity 9 5 values
  | 10, [_, statements, _] => return .block (.mk none (← statementsOf 10 statements) location)
  | 10, values => wrongArity 10 3 values
  | 11, [_, name, body] => do
      let name ← tokenText 11 name
      return .module (.mk name (← optionalBlockOf 11 body) location)
  | 11, values => wrongArity 11 3 values
  | production, _ => .error (.breach (.noReduction production))

/-- The building of trees as the semantics of a run. -/
def semantics : Automaton.Semantics Unit Value where
  shift token memory := (.token token, memory)
  reduce production reduction memory :=
    (reduce production reduction.values reduction.span, memory)

end Builder

end Offside
