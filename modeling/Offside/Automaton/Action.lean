import Offside.Token

/-! # Actions — what a state does on a symbol -/

namespace Offside.Automaton

/-- The entry of an action table for a state and a symbol. -/
inductive Action where
  | shift (state : Nat)
  | reduce (production : Nat)
  | accept
  | goto (state : Nat)
  | error
deriving DecidableEq, Repr, Inhabited

/-- An action by its name, with its number in parentheses. -/
def Action.display : Action → String
  | .shift n => "Shift(" ++ Text.decimal n ++ ")"
  | .reduce n => "Reduce(" ++ Text.decimal n ++ ")"
  | .accept => "Accept"
  | .goto n => "Goto(" ++ Text.decimal n ++ ")"
  | .error => "Error"

/-- A production as far as the automaton needs it: its left-hand side, none
    for the start production, and the length of its right-hand side. -/
structure Production where
  lhs : Option Symbol
  length : Nat
deriving DecidableEq, Repr, Inhabited

end Offside.Automaton
