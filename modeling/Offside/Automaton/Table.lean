import Offside.Automaton.Action

/-! # Action tables — the automaton as data

    A row lists the cells of one state.  A symbol without a cell is an
    error, and so is every symbol in a state that the table does not have;
    a lookup needs no further check. -/

namespace Offside.Automaton

/-- The cells of one state; of two cells for one symbol the first counts. -/
abbrev Row := List (Symbol × Action)

/-- The rows and productions of an automaton, with the names of its symbols
    in the order of their names. -/
structure Table where
  rows : List Row
  productions : List Production
  terminals : List (String × Symbol)
  nonterminals : List (String × Symbol)
  endSymbol : Symbol
deriving DecidableEq, Repr

namespace Table

/-- The action of a state on a symbol. -/
def action (t : Table) (state : Nat) (symbol : Symbol) : Action :=
  match t.rows[state]? with
  | none => .error
  | some row => (row.lookup symbol).getD .error

/-- The production with an index. -/
def production (t : Table) (index : Nat) : Option Production := t.productions[index]?

/-- The number of states. -/
def stateCount (t : Table) : Nat := t.rows.length

/-- The symbol of a terminal by its name. -/
def terminal (t : Table) (name : String) : Option Symbol := t.terminals.lookup name

/-- Whether a symbol is a terminal. -/
def isTerminal (t : Table) (symbol : Symbol) : Bool := t.terminals.any (·.2 == symbol)

/-- The name of a symbol; of several names the last one counts, and those
    of nonterminals come after those of terminals. -/
def symbolName (t : Table) (symbol : Symbol) : Option String :=
  ((t.terminals ++ t.nonterminals).reverse.find? (·.2 == symbol)).map Prod.fst

/-- The names of the terminals on which a state has an action, in the order
    of their symbols. -/
def expected (t : Table) (state : Nat) : List String :=
  let possible := t.terminals.filter fun (_, symbol) => t.action state symbol != .error
  (possible.mergeSort fun a b => a.2 ≤ b.2).map Prod.fst

/-- A state that the table does not have knows errors only. -/
theorem action_of_stateCount_le {t : Table} {state : Nat} (h : t.stateCount ≤ state)
    (symbol : Symbol) : t.action state symbol = .error := by
  rw [action, List.getElem?_eq_none h]

end Table

end Offside.Automaton
