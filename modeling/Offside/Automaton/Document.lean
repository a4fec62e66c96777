import Offside.Automaton.Table
import Offside.GrammarFault

/-! # Table documents — automata as they are written down

    A document names the symbols with their ids, lists the productions and
    gives for each state an object from columns to cells.  Ids and columns
    may be written as text.  Objects list their entries in the order of
    their keys; this order decides which of several faults is reported and
    which of several cells for one column counts. -/

namespace Offside.Automaton

/-- A number or a text, as ids and cells are written. -/
inductive Entry where
  | number (n : Nat)
  | text (s : String)
deriving DecidableEq, Repr

/-- A written automaton. -/
structure Document where
  tokens : List (String × Entry)
  nonterminals : List (String × Entry)
  /-- Left-hand side and length of each production; minus one on the left
      marks the start production. -/
  productions : List (Int × Nat)
  table : List (List (String × Entry))
deriving DecidableEq, Repr

/-- The name of the symbol for the end of input. -/
def endName : String := "$"

/-- The symbol that an id stands for. -/
def Entry.symbol : Entry → Except GrammarFault Symbol
  | number n => .ok n
  | text s =>
      match Text.word? s.toList with
      | some n => .ok n
      | none => .error (.invalidSymbol s)

/-- The action that a cell spells. -/
def Entry.action (state column : Nat) : Entry → Except GrammarFault Action
  | number n => .ok (.goto n)
  | text s =>
      let invalid := Except.error (.invalidCell state column s)
      match s.toList with
      | ['a', 'c', 'c'] => .ok .accept
      | 's' :: cs => (Text.word? cs).elim invalid fun n => .ok (.shift n)
      | 'r' :: cs => (Text.word? cs).elim invalid fun n => .ok (.reduce n)
      | _ => invalid

namespace Document

/-- Names with their symbols. -/
def symbols (entries : List (String × Entry)) : Except GrammarFault (List (String × Symbol)) :=
  entries.mapM fun (name, id) => do return (name, ← id.symbol)

/-- A written production. -/
def production (index : Nat) (lhs : Int) (length : Nat) : Except GrammarFault Production :=
  match lhs with
  | .ofNat n => .ok ⟨some n, length⟩
  | .negSucc 0 => .ok ⟨none, length⟩
  | .negSucc _ => .error (.invalidProduction index lhs)

/-- The ids that a document declares, each once: those of terminals, of
    nonterminals and of left-hand sides. -/
def declared (terminals nonterminals : List (String × Symbol))
    (productions : List Production) : List Symbol :=
  (terminals.map Prod.snd ++ nonterminals.map Prod.snd
    ++ productions.filterMap Production.lhs).eraseDups

/-- The smallest id that is greater than the number of declared ids. -/
def tooGreat? (declared : List Symbol) : Option Symbol :=
  (declared.filter (declared.length < ·)).min?

/-- A row with its columns resolved. -/
def columns (declared : List Symbol) (state : Nat) (row : List (String × Entry)) :
    Except GrammarFault (List (Symbol × Entry)) :=
  row.mapM fun (key, cell) =>
    match Text.word? key.toList with
    | some column =>
        if declared.contains column then .ok (column, cell)
        else .error (.invalidColumn state key)
    | none => .error (.invalidColumn state key)

/-- A cell as an action that stays inside the table. -/
def cell (states productions state column : Nat) (entry : Entry) :
    Except GrammarFault Action := do
  let action ← entry.action state column
  match action with
  | .shift target | .goto target =>
      if target < states then return action
      else throw (.stateOutOfRange state column target states)
  | .reduce production =>
      if production < productions then return action
      else throw (.productionOutOfRange state column production productions)
  | .accept | .error => return action

/-- A row of actions; the last cell of a column comes first. -/
def row (states productions state : Nat) (cells : List (Symbol × Entry)) :
    Except GrammarFault Row := do
  let cells ← cells.mapM fun (column, entry) => do
    return (column, ← cell states productions state column entry)
  return cells.reverse

/-- The automaton that a document describes. -/
def toTable (d : Document) : Except GrammarFault Table := do
  if d.table.isEmpty then throw .emptyTable
  let terminals ← symbols d.tokens
  let nonterminals ← symbols d.nonterminals
  let some endSymbol := terminals.lookup endName | throw .missingEndSymbol
  let productions ← d.productions.zipIdx.mapM fun ((lhs, length), index) =>
    production index lhs length
  let declared := declared terminals nonterminals productions
  if let some id := tooGreat? declared then throw (.invalidSymbol (Text.decimal id))
  let states := d.table.length
  let resolved ← d.table.zipIdx.mapM fun (cells, state) => columns declared state cells
  let rows ← resolved.zipIdx.mapM fun (cells, state) =>
    row states productions.length state cells
  return ⟨rows, productions, terminals, nonterminals, endSymbol⟩

end Document

end Offside.Automaton
