import Offside.Language.Basic
import Offside.Proofs.Language.Grammar

/-! # Programs read off derivations

    A derivation of the module language spells a program: each rule says
    what its parts come to.  Building trees along a run does the same.

    * `readProgram` and the functions beside it read a derivation;
    * `builder_model` says that the values of a run are what is read off the
      derivations that they stand for. -/

namespace Offside

namespace Language

open Automaton

/-! ## Reading -/

mutual

/-- The source that a derivation covers, if it covers any. -/
def coverage : ParseTree → Option Span
  | .leaf t => some t.span
  | .node _ children =>
      Span.merge (coverages children).head?.join (coverages children).getLast?.join

/-- The source that each of some derivations covers. -/
def coverages : List ParseTree → List (Option Span)
  | [] => []
  | T :: Ts => coverage T :: coverages Ts

end

/-- The location that a derivation gives its node, if locations are kept. -/
def place (capture : Bool) (T : ParseTree) : Option Span :=
  if capture then coverage T else none

/-- The text of a token. -/
def readText : ParseTree → String
  | .leaf t => t.text
  | .node _ _ => ""

mutual

/-- The declarations of statements, in the order of the source. -/
def readStatements (capture : Bool) : ParseTree → List Module
  | .node 2 [statement] => [readStatement capture statement]
  | .node 3 [statements, _, statement] =>
      readStatements capture statements ++ [readStatement capture statement]
  | .node 4 [statements, _] => readStatements capture statements
  | _ => []

/-- The declaration of a statement. -/
def readStatement (capture : Bool) : ParseTree → Module
  | .node 5 [declaration] => readModule capture declaration
  | _ => .mk "" none none

/-- A declaration: its name is the text of the dotted name. -/
def readModule (capture : Bool) : ParseTree → Module
  | .node 11 [keyword, name, body] =>
      .mk (readText name) (readBody capture body)
        (place capture (.node 11 [keyword, name, body]))
  | _ => .mk "" none none

/-- The block of a declaration, present exactly if one is derived. -/
def readBody (capture : Bool) : ParseTree → Option Block
  | .node 6 [block] => some (readBlock capture block)
  | _ => none

/-- A block: its comment is the text of the comment, if there is one. -/
def readBlock (capture : Bool) : ParseTree → Block
  | .node 8 [indent, comment, dedent] =>
      .mk (some (readText comment)) [] (place capture (.node 8 [indent, comment, dedent]))
  | .node 9 [indent, comment, newline, statements, dedent] =>
      .mk (some (readText comment)) (readStatements capture statements)
        (place capture (.node 9 [indent, comment, newline, statements, dedent]))
  | .node 10 [indent, statements, dedent] =>
      .mk none (readStatements capture statements)
        (place capture (.node 10 [indent, statements, dedent]))
  | _ => .mk none [] none

end

/-- The program of a derivation. -/
def readProgram (capture : Bool) : ParseTree → Program
  | .node 1 [statements, marker] =>
      ⟨readStatements capture statements, place capture (.node 1 [statements, marker])⟩
  | _ => ⟨[], none⟩

/-- What a derivation comes to, by the left-hand side of its rule. -/
def readValue (capture : Bool) : ParseTree → Value
  | .leaf t => .token t
  | .node 1 Ts => .program (readProgram capture (.node 1 Ts))
  | .node 5 Ts => .statement (readStatement capture (.node 5 Ts))
  | .node 6 Ts => .optionalBlock (readBody capture (.node 6 Ts))
  | .node 7 Ts => .optionalBlock (readBody capture (.node 7 Ts))
  | .node 8 Ts => .block (readBlock capture (.node 8 Ts))
  | .node 9 Ts => .block (readBlock capture (.node 9 Ts))
  | .node 10 Ts => .block (readBlock capture (.node 10 Ts))
  | .node 11 Ts => .module (readModule capture (.node 11 Ts))
  | .node n Ts => .statements (readStatements capture (.node n Ts))

/-! ## Values by nonterminals -/

section Values

variable {capture : Bool} {T : ParseTree}

/-- A derivation of a nonterminal is a node of one of its rules. -/
theorem exists_node {A : Symbol} (h : grammar.Derives (phrase A) T) (numbers : List Nat)
    (hnumbers : ∀ p ∈ grammar.rules.zipIdx, p.1.input = some A → p.2 ∈ numbers) :
    ∃ n ∈ numbers, ∃ Ts, T = .node n Ts := by
  rcases h with _ | @⟨index, r, _, Ts, hr, hA, -⟩
  exact ⟨index, hnumbers (r, index) (List.mem_zipIdx_iff_getElem?.mpr hr) hA, Ts, rfl⟩

theorem readValue_statements (h : grammar.Derives (phrase Kind.statements) T) :
    readValue capture T = .statements (readStatements capture T) := by
  obtain ⟨n, hn, Ts, rfl⟩ := exists_node h [2, 3, 4] (by decide)
  simp only [List.mem_cons, List.not_mem_nil, or_false] at hn
  rcases hn with rfl | rfl | rfl <;> rfl

theorem readValue_statement (h : grammar.Derives (phrase Kind.statement) T) :
    readValue capture T = .statement (readStatement capture T) := by
  obtain ⟨n, hn, Ts, rfl⟩ := exists_node h [5] (by decide)
  obtain rfl := List.mem_singleton.mp hn
  rfl

theorem readValue_body (h : grammar.Derives (phrase Kind.optionalBlock) T) :
    readValue capture T = .optionalBlock (readBody capture T) := by
  obtain ⟨n, hn, Ts, rfl⟩ := exists_node h [6, 7] (by decide)
  simp only [List.mem_cons, List.not_mem_nil, or_false] at hn
  rcases hn with rfl | rfl <;> rfl

theorem readValue_block (h : grammar.Derives (phrase Kind.block) T) :
    readValue capture T = .block (readBlock capture T) := by
  obtain ⟨n, hn, Ts, rfl⟩ := exists_node h [8, 9, 10] (by decide)
  simp only [List.mem_cons, List.not_mem_nil, or_false] at hn
  rcases hn with rfl | rfl | rfl <;> rfl

theorem readValue_module (h : grammar.Derives (phrase Kind.declaration) T) :
    readValue capture T = .module (readModule capture T) := by
  obtain ⟨n, hn, Ts, rfl⟩ := exists_node h [11] (by decide)
  obtain rfl := List.mem_singleton.mp hn
  rfl

theorem readValue_program (h : grammar.Derives (phrase Kind.program) T) :
    readValue capture T = .program (readProgram capture T) := by
  obtain ⟨n, hn, Ts, rfl⟩ := exists_node h [1] (by decide)
  obtain rfl := List.mem_singleton.mp hn
  rfl

theorem tokenText_readValue {k : Symbol} (h : grammar.Derives (token k) T) (n : Nat) :
    Builder.tokenText n (readValue capture T) = .ok (readText T) := by
  obtain ⟨t⟩ := h
  rfl

end Values

/-! ## Reducing -/

/-- A reduction builds the value of its node out of those of the children. -/
theorem reduce_readValue (capture : Bool) {index : Nat} {r : GrammarRule}
    {trees : List ParseTree} (hr : grammar.rules[index]? = some r) (hinput : r.input ≠ none)
    (htrees : grammar.DerivesAll r.output trees) :
    Builder.reduce index (trees.map (readValue capture)) (place capture (.node index trees)) =
      .ok (readValue capture (.node index trees)) := by
  match index, hr with
  | 0, hr =>
      cases hr
      exact absurd rfl hinput
  | 1, hr =>
      cases hr
      rcases htrees with _ | ⟨hS, _ | ⟨-, _ | _⟩⟩
      simp only [List.map, readValue_statements hS]
      rfl
  | 2, hr =>
      cases hr
      rcases htrees with _ | ⟨hT, _ | _⟩
      simp only [List.map, readValue_statement hT]
      rfl
  | 3, hr =>
      cases hr
      rcases htrees with _ | ⟨hS, _ | ⟨-, _ | ⟨hT, _ | _⟩⟩⟩
      simp only [List.map, readValue_statements hS, readValue_statement hT]
      rfl
  | 4, hr =>
      cases hr
      rcases htrees with _ | ⟨hS, _ | ⟨-, _ | _⟩⟩
      simp only [List.map, readValue_statements hS]
      rfl
  | 5, hr =>
      cases hr
      rcases htrees with _ | ⟨hM, _ | _⟩
      simp only [List.map, readValue_module hM]
      rfl
  | 6, hr =>
      cases hr
      rcases htrees with _ | ⟨hB, _ | _⟩
      simp only [List.map, readValue_block hB]
      rfl
  | 7, hr =>
      cases hr
      obtain ⟨⟩ := htrees
      rfl
  | 8, hr =>
      cases hr
      rcases htrees with _ | ⟨-, _ | ⟨hC, _ | ⟨-, _ | _⟩⟩⟩
      simp only [List.map, Builder.reduce, tokenText_readValue hC]
      rfl
  | 9, hr =>
      cases hr
      rcases htrees with _ | ⟨-, _ | ⟨hC, _ | ⟨-, _ | ⟨hS, _ | ⟨-, _ | _⟩⟩⟩⟩⟩
      simp only [List.map, Builder.reduce, tokenText_readValue hC, readValue_statements hS]
      rfl
  | 10, hr =>
      cases hr
      rcases htrees with _ | ⟨-, _ | ⟨hS, _ | ⟨-, _ | _⟩⟩⟩
      simp only [List.map, readValue_statements hS]
      rfl
  | 11, hr =>
      cases hr
      rcases htrees with _ | ⟨-, _ | ⟨hN, _ | ⟨hB, _ | _⟩⟩⟩
      simp only [List.map, Builder.reduce, tokenText_readValue hN, readValue_body hB]
      rfl
  | n + 12, hr => exact nomatch hr

theorem coverages_eq_map (Ts : List ParseTree) : coverages Ts = Ts.map coverage := by
  induction Ts with
  | nil => rfl
  | cons T Ts ih => rw [coverages, ih, List.map_cons]

/-- The frame of a derivation. -/
def frameOf (capture : Bool) (T : ParseTree) : Frame Value :=
  ⟨readValue capture T, place capture T⟩

/-- The location of a reduction is that of its node. -/
theorem reductionOf_frames (capture : Bool) (index : Nat) (trees : List ParseTree) :
    (reductionOf capture (trees.map (frameOf capture))).values
        = trees.map (readValue capture) ∧
      (reductionOf capture (trees.map (frameOf capture))).span
        = place capture (.node index trees) := by
  have hspans : (trees.map (frameOf true)).map Frame.span = coverages trees := by
    rw [coverages_eq_map, List.map_map]
    rfl
  refine ⟨by rw [reductionOf, List.map_map]; rfl, ?_⟩
  cases capture with
  | false => rfl
  | true =>
      rw [place, if_pos rfl, coverage, ← hspans]
      rfl

/-- The values of a run are those of the derivations that they stand for. -/
theorem builder_model (capture : Bool) :
    TotalModel grammar capture Builder.semantics fun T f => f = frameOf capture T where
  shift t memory := by cases capture <;> rfl
  reduce := by
    intro index r trees frames memory memory' v hr hinput htrees hframes hv
    obtain rfl : frames = trees.map (frameOf capture) := by
      rw [← List.forall₂_eq_eq_eq, List.forall₂_map_right_iff]
      exact hframes.flip
    obtain ⟨hvalues, hspan⟩ := reductionOf_frames capture index trees
    simp only [Builder.semantics, hvalues, hspan, reduce_readValue capture hr hinput htrees,
      Prod.mk.injEq, Except.ok.injEq] at hv
    rw [hspan, ← hv.1]
    rfl
  total := by
    intro index r trees frames memory hr hinput htrees hframes
    obtain rfl : frames = trees.map (frameOf capture) := by
      rw [← List.forall₂_eq_eq_eq, List.forall₂_map_right_iff]
      exact hframes.flip
    obtain ⟨hvalues, hspan⟩ := reductionOf_frames capture index trees
    refine ⟨readValue capture (.node index trees), memory, ?_⟩
    simp only [Builder.semantics, hvalues, hspan, reduce_readValue capture hr hinput htrees]

end Language

end Offside
