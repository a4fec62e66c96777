import Offside.Automaton.Stack
import Offside.Automaton.Table
import Offside.Proofs.Grammar

/-! # Certificates — states of an automaton annotated with items

    An item is a rule with a dot in it: what stands before the dot has been
    read, and what stands behind it may come next.  A certificate gives each
    state its items and each nonterminal what a table generator computes for
    it.  Nothing is assumed about where a certificate comes from; finite
    conditions on it, stated where they are used, make a table fit a
    grammar. -/

namespace Offside.Automaton

/-! ## Edges -/

/-- What a lookup finds is in the list. -/
theorem mem_of_lookup {κ α : Type} [BEq κ] [LawfulBEq κ] {entries : List (κ × α)} {key : κ}
    {value : α} (h : entries.lookup key = some value) : (key, value) ∈ entries := by
  obtain ⟨front, back, rfl, -⟩ := List.lookup_eq_some_iff.mp h
  exact List.mem_append_right _ (List.mem_cons_self ..)

namespace Table

/-- The cells of a state. -/
def row (t : Table) (state : Nat) : Row := (t.rows[state]?).getD []

/-- The state that a letter leads to from a state. -/
def target (t : Table) (state : Nat) : Letter → Option Nat
  | .terminal k =>
      match t.action state k with
      | .shift q => some q
      | _ => none
  | .nonterminal (some k) =>
      match t.action state k with
      | .goto q => some q
      | _ => none
  | .nonterminal none => none

/-- The letter and the state of a cell that leads on. -/
def edge? : Symbol × Action → Option (Letter × Nat)
  | (k, .shift q) => some (.terminal k, q)
  | (k, .goto q) => some (.nonterminal (some k), q)
  | _ => none

/-- All letters on which a state leads on, with the states they lead to. -/
def edges (t : Table) (state : Nat) : List (Letter × Nat) := (t.row state).filterMap edge?

variable {t : Table} {s : Nat}

theorem mem_row {k : Symbol} {a : Action} (h : t.action s k = a) (ha : a ≠ .error) :
    (k, a) ∈ t.row s := by
  rw [action] at h
  rw [row]
  cases hrow : t.rows[s]? with
  | none =>
      rw [hrow] at h
      exact absurd h.symm ha
  | some cells =>
      rw [hrow] at h
      cases hcell : cells.lookup k with
      | none =>
          simp only [hcell, Option.getD_none] at h
          exact absurd h.symm ha
      | some b =>
          simp only [hcell, Option.getD_some] at h
          exact mem_of_lookup (h ▸ hcell)

theorem target_terminal {k : Symbol} {q : Nat} :
    t.target s (.terminal k) = some q ↔ t.action s k = .shift q := by
  rw [target]
  split <;> simp_all

theorem target_nonterminal {k : Symbol} {q : Nat} :
    t.target s (.nonterminal (some k)) = some q ↔ t.action s k = .goto q := by
  rw [target]
  split <;> simp_all

theorem mem_edges {X : Letter} {q : Nat} (h : t.target s X = some q) : (X, q) ∈ t.edges s := by
  match X with
  | .terminal k =>
      exact List.mem_filterMap.mpr ⟨_, mem_row (target_terminal.mp h) nofun, rfl⟩
  | .nonterminal (some k) =>
      exact List.mem_filterMap.mpr ⟨_, mem_row (target_nonterminal.mp h) nofun, rfl⟩
  | .nonterminal none => exact nomatch h

end Table

/-- The production of an action that reduces. -/
def Action.production? : Action → Option Nat
  | .reduce n => some n
  | _ => none

/-! ## Items -/

/-- A rule with a dot, and the terminals that may follow when it is done. -/
structure Item where
  rule : Nat
  dot : Nat
  ahead : List Symbol
deriving DecidableEq, Repr

namespace Item

/-- The letter behind the dot. -/
def letter? (g : Grammar) (i : Item) : Option Letter :=
  (g.rules[i.rule]?).bind fun r => r.output[i.dot]?

/-- What follows the letter behind the dot. -/
def later (g : Grammar) (i : Item) : List Letter :=
  match g.rules[i.rule]? with
  | none => []
  | some r => r.output.drop (i.dot + 1)

theorem letter?_eq_some {g : Grammar} {i : Item} {X : Letter} :
    i.letter? g = some X ↔ ∃ r, g.rules[i.rule]? = some r ∧ r.output[i.dot]? = some X :=
  Option.bind_eq_some_iff

end Item

/-- Items for each state; nonterminals that derive the empty text, and the
    terminals that a nonterminal can start with; nonterminals in an order in
    which each has a rule over terminals and earlier ones; a weight for each
    letter and a credit for the state on top, which bound the reductions. -/
structure Certificate where
  items : List (List Item)
  nullable : List (Option Symbol)
  first : List (Option Symbol × List Symbol)
  order : List (Option Symbol)
  weight : Letter → Nat
  credit : Nat → Nat

namespace Certificate

/-- The items of a state. -/
def itemsOf (c : Certificate) (state : Nat) : List Item := (c.items[state]?).getD []

/-- The terminals that a nonterminal can start with. -/
def starters (c : Certificate) (A : Option Symbol) : List Symbol := (c.first.lookup A).getD []

/-- Whether all of some letters derive the empty text. -/
def vanish (c : Certificate) : List Letter → Bool
  | [] => true
  | .terminal _ :: _ => false
  | .nonterminal A :: Xs => c.nullable.contains A && c.vanish Xs

/-- The terminals that letters can start with, where `ahead` follows them. -/
def firstOf (c : Certificate) (ahead : List Symbol) : List Letter → List Symbol
  | [] => ahead
  | .terminal k :: _ => [k]
  | .nonterminal A :: Xs =>
      c.starters A ++ if c.nullable.contains A then c.firstOf ahead Xs else []

end Certificate

end Offside.Automaton
