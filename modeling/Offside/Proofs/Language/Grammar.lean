import Offside.Language.Table
import Offside.Proofs.Automaton.Extension
import Offside.Proofs.Automaton.Pace

/-! # The grammar of the module language

    The rules are those listed with the table, in the same order.  A
    certificate annotates the states of the table, and the finite conditions
    that make the table fit the grammar are evaluated here once.

    * `grammar` has the rules and `certificate` the annotations;
    * `sound`, `complete`, `extendable` and `bounded` are the conditions. -/

namespace Offside

namespace Language

/-! ## Symbols -/

namespace Kind

abbrev program : Symbol := 0
abbrev statements : Symbol := 1
abbrev statement : Symbol := 2
abbrev optionalBlock : Symbol := 3
abbrev block : Symbol := 4
abbrev declaration : Symbol := 5
abbrev newline : Symbol := 6
abbrev indent : Symbol := 7
abbrev comment : Symbol := 8
abbrev dedent : Symbol := 9
abbrev keyword : Symbol := 10
abbrev name : Symbol := 11
abbrev word : Symbol := 12
abbrev marker : Symbol := 13
abbrev stop : Symbol := 14

end Kind

/-- A terminal in a rule. -/
abbrev token (k : Symbol) : Letter := .terminal k

/-- A nonterminal in a rule. -/
abbrev phrase (k : Symbol) : Letter := .nonterminal (some k)

/-- The grammar of the module language. -/
def grammar : Grammar where
  rules := [
    ⟨none, [phrase Kind.program]⟩,
    ⟨some Kind.program, [phrase Kind.statements, token Kind.marker]⟩,
    ⟨some Kind.statements, [phrase Kind.statement]⟩,
    ⟨some Kind.statements, [phrase Kind.statements, token Kind.newline, phrase Kind.statement]⟩,
    ⟨some Kind.statements, [phrase Kind.statements, token Kind.newline]⟩,
    ⟨some Kind.statement, [phrase Kind.declaration]⟩,
    ⟨some Kind.optionalBlock, [phrase Kind.block]⟩,
    ⟨some Kind.optionalBlock, []⟩,
    ⟨some Kind.block, [token Kind.indent, token Kind.comment, token Kind.dedent]⟩,
    ⟨some Kind.block, [token Kind.indent, token Kind.comment, token Kind.newline,
      phrase Kind.statements, token Kind.dedent]⟩,
    ⟨some Kind.block, [token Kind.indent, phrase Kind.statements, token Kind.dedent]⟩,
    ⟨some Kind.declaration, [token Kind.keyword, token Kind.name, phrase Kind.optionalBlock]⟩]
  start := Kind.program

/-- No rule has the start production's left-hand side on its right. -/
theorem start_not_in_rules : ∀ r ∈ grammar.rules, ∀ X ∈ r.output, X ≠ .nonterminal none := by
  decide

/-! ## The certificate -/

/-- What a letter weighs: a declaration gives back what its keyword brings. -/
def weight : Letter → Nat
  | .terminal k => if k = Kind.keyword then 2 else 1
  | .nonterminal (some k) =>
      if k = Kind.declaration then 2
      else if k = Kind.statement ∨ k = Kind.block then 1
      else 0
  | .nonterminal none => 0

/-- The items of each state, the parents of a beginning item before it. -/
def certificate : Automaton.Certificate where
  items := [
    [⟨0, 0, [14]⟩, ⟨1, 0, [14]⟩, ⟨2, 0, [6, 13]⟩, ⟨3, 0, [6, 13]⟩, ⟨4, 0, [6, 13]⟩,
      ⟨5, 0, [6, 13]⟩, ⟨11, 0, [6, 13]⟩],
    [⟨0, 1, [14]⟩],
    [⟨1, 1, [14]⟩, ⟨3, 1, [6, 13]⟩, ⟨4, 1, [6, 13]⟩],
    [⟨2, 1, [6, 9, 13]⟩],
    [⟨5, 1, [6, 9, 13]⟩],
    -- behind the keyword
    [⟨11, 1, [6, 9, 13]⟩],
    [⟨1, 2, [14]⟩],
    -- behind a separator, with a declaration after it or not
    [⟨3, 2, [6, 9, 13]⟩, ⟨4, 2, [6, 9, 13]⟩, ⟨5, 0, [6, 9, 13]⟩, ⟨11, 0, [6, 9, 13]⟩],
    -- behind the name of a declaration
    [⟨11, 2, [6, 9, 13]⟩, ⟨6, 0, [6, 9, 13]⟩, ⟨7, 0, [6, 9, 13]⟩, ⟨8, 0, [6, 9, 13]⟩,
      ⟨9, 0, [6, 9, 13]⟩, ⟨10, 0, [6, 9, 13]⟩],
    [⟨3, 3, [6, 9, 13]⟩],
    [⟨11, 3, [6, 9, 13]⟩],
    [⟨6, 1, [6, 9, 13]⟩],
    -- behind the opening of a block
    [⟨8, 1, [6, 9, 13]⟩, ⟨9, 1, [6, 9, 13]⟩, ⟨10, 1, [6, 9, 13]⟩, ⟨2, 0, [6, 9]⟩,
      ⟨3, 0, [6, 9]⟩, ⟨4, 0, [6, 9]⟩, ⟨5, 0, [6, 9]⟩, ⟨11, 0, [6, 9]⟩],
    -- behind its comment
    [⟨8, 2, [6, 9, 13]⟩, ⟨9, 2, [6, 9, 13]⟩],
    [⟨10, 2, [6, 9, 13]⟩, ⟨3, 1, [6, 9]⟩, ⟨4, 1, [6, 9]⟩],
    [⟨8, 3, [6, 9, 13]⟩],
    [⟨9, 3, [6, 9, 13]⟩, ⟨2, 0, [6, 9]⟩, ⟨3, 0, [6, 9]⟩, ⟨4, 0, [6, 9]⟩, ⟨5, 0, [6, 9]⟩,
      ⟨11, 0, [6, 9]⟩],
    [⟨10, 3, [6, 9, 13]⟩],
    [⟨9, 4, [6, 9, 13]⟩, ⟨3, 1, [6, 9]⟩, ⟨4, 1, [6, 9]⟩],
    [⟨9, 5, [6, 9, 13]⟩]]
  nullable := [some Kind.optionalBlock]
  first := [
    (some Kind.program, [Kind.keyword]), (some Kind.statements, [Kind.keyword]),
    (some Kind.statement, [Kind.keyword]), (some Kind.optionalBlock, [Kind.indent]),
    (some Kind.block, [Kind.indent]), (some Kind.declaration, [Kind.keyword]),
    (none, [Kind.keyword])]
  order := [
    some Kind.optionalBlock, some Kind.declaration, some Kind.statement, some Kind.statements,
    some Kind.program, some Kind.block, none]
  weight := weight
  credit := fun state => if state = 8 then 1 else 0

open Automaton

/-! ## The finite conditions -/

/-- What holds of the items, edges or cells of the twenty states holds of
    those of every state, for others have none. -/
theorem forall_state {β : Type} {f : Nat → List β} {P : Nat → β → Prop}
    (hout : ∀ s, 20 ≤ s → f s = []) (h : ∀ s < 20, ∀ b ∈ f s, P s b) :
    ∀ s, ∀ b ∈ f s, P s b := by
  intro s b hb
  by_cases hs : s < 20
  · exact h s hs b hb
  · rw [hout s (Nat.not_lt.mp hs)] at hb
    exact nomatch hb

theorem itemsOf_outside (s : Nat) (h : 20 ≤ s) : certificate.itemsOf s = [] := by
  rw [Certificate.itemsOf, List.getElem?_eq_none h]
  rfl

theorem row_outside (s : Nat) (h : 20 ≤ s) : table.row s = [] := by
  rw [Table.row, List.getElem?_eq_none h]
  rfl

theorem edges_outside (s : Nat) (h : 20 ≤ s) : table.edges s = [] := by
  rw [Table.edges, row_outside s h]
  rfl

/-- The table does nothing that the grammar does not allow. -/
theorem sound : certificate.Sound grammar table where
  productions := by decide
  startRule := by decide
  fresh := forall_state edges_outside (by decide +kernel)
  unread := by decide +kernel
  back := forall_state edges_outside (by decide +kernel)
  reduces := forall_state row_outside (by decide +kernel)
  accepts := forall_state row_outside (by decide +kernel)
  gotos := forall_state itemsOf_outside (by decide +kernel)
  roots := forall_state itemsOf_outside (by decide +kernel)

-- the instance that decides `closure` is larger than instances may be by default
set_option synthInstance.maxSize 256 in
/-- The table does all that the grammar allows. -/
theorem complete : certificate.Complete grammar table where
  initial := by decide +kernel
  advance := forall_state itemsOf_outside (by decide +kernel)
  closure := forall_state itemsOf_outside (by decide +kernel)
  finish := forall_state itemsOf_outside (by decide +kernel)
  vanishes := by decide +kernel
  starts := by decide +kernel

/-- Every state of the table can be completed. -/
theorem extendable : certificate.Extendable grammar table where
  inhabited := forall_state edges_outside (by decide +kernel)
  known := forall_state itemsOf_outside (by decide +kernel)
  parents := forall_state (fun s h => by rw [itemsOf_outside s h]; rfl) (by decide +kernel)
  ordered := by decide +kernel
  covers := by decide +kernel

/-- Weights and credits pay for all moves of the table. -/
theorem bounded : certificate.Bounded grammar table where
  idle := by decide
  paid := forall_state edges_outside (by decide +kernel)

end Language

end Offside
