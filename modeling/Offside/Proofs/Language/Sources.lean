import Offside.Proofs.Language.Capture
import Offside.Proofs.Language.Reading

/-! # Sources — what a text reads to decides its parse

    Without locations the tree of a source comes from its tokens without
    their places, so two sources that read to the same tokens parse to the
    same tree, wherever the tokens stand.

    * `ParseTree.unplaced` is a tree whose tokens have lost their places;
    * `Declares` ties tokens to the declarations that they spell;
    * `reads_of_parse` and `parse_of_reads` tie readings to parses, whatever
      the end marker is. -/

namespace Offside

open Automaton

/-! ## Trees without places -/

mutual

/-- A tree whose tokens have lost their places. -/
def ParseTree.unplaced : ParseTree → ParseTree
  | .leaf t => .leaf t.unplaced
  | .node n Ts => .node n (ParseTree.allUnplaced Ts)

/-- Trees whose tokens have lost their places. -/
def ParseTree.allUnplaced : List ParseTree → List ParseTree
  | [] => []
  | T :: Ts => T.unplaced :: ParseTree.allUnplaced Ts

end

mutual

theorem ParseTree.yield_unplaced (T : ParseTree) :
    T.unplaced.yield = T.yield.map Token.unplaced := by
  cases T with
  | leaf t => rfl
  | node n Ts => exact ParseTree.yields_allUnplaced Ts

theorem ParseTree.yields_allUnplaced (Ts : List ParseTree) :
    ParseTree.yields (ParseTree.allUnplaced Ts) = (ParseTree.yields Ts).map Token.unplaced := by
  cases Ts with
  | nil => rfl
  | cons T Ts =>
      rw [ParseTree.allUnplaced, ParseTree.yields, ParseTree.yields, T.yield_unplaced,
        ParseTree.yields_allUnplaced Ts, List.map_append]

end

namespace Grammar

variable {g : Grammar}

mutual

theorem Derives.unplaced {X : Letter} {T : ParseTree} (h : g.Derives X T) :
    g.Derives X T.unplaced := by
  cases h with
  | leaf t => exact .leaf t.unplaced
  | node hr hA hTs => exact .node hr hA hTs.unplaced

theorem DerivesAll.unplaced {Xs : List Letter} {Ts : List ParseTree} (h : g.DerivesAll Xs Ts) :
    g.DerivesAll Xs (ParseTree.allUnplaced Ts) := by
  cases h with
  | nil => exact .nil
  | cons hT hTs => exact .cons hT.unplaced hTs.unplaced

end

theorem Parses.unplaced {stop : Symbol} {T : ParseTree} {tokens : List Token}
    (h : g.Parses stop T tokens) : g.Parses stop T.unplaced (tokens.map Token.unplaced) := by
  obtain ⟨last, hlast, rfl⟩ := h.ends
  refine ⟨h.derives.unplaced, last.unplaced, hlast, ?_⟩
  rw [T.yield_unplaced, List.map_append]
  rfl

end Grammar

theorem ParseTree.forall₂_allUnplaced (Ts : List ParseTree) :
    List.Forall₂ (fun T U => T.unplaced = U) Ts (ParseTree.allUnplaced Ts) := by
  induction Ts with
  | nil => exact .nil
  | cons T Ts ih => exact .cons rfl ih

/-- A node without places comes from a node with as many children. -/
theorem ParseTree.exists_of_unplaced {T : ParseTree} {n : Nat} {Us : List ParseTree}
    (h : T.unplaced = .node n Us) :
    ∃ Ts, T = .node n Ts ∧ List.Forall₂ (fun T U => T.unplaced = U) Ts Us := by
  cases T with
  | leaf t => cases h
  | node m Ts =>
      cases h
      exact ⟨Ts, rfl, ParseTree.forall₂_allUnplaced Ts⟩

namespace Language

theorem readText_unplaced (T : ParseTree) : readText T.unplaced = readText T := by
  cases T <;> rfl

/-- Reading without locations does not look at places. -/
theorem readStatements_unplaced (T : ParseTree) :
    readStatements false T.unplaced = readStatements false T := by
  refine readStatements.induct
    (fun T => readStatements false T.unplaced = readStatements false T)
    (fun T => readStatement false T.unplaced = readStatement false T)
    (fun T => readModule false T.unplaced = readModule false T)
    (fun T => readBody false T.unplaced = readBody false T)
    (fun T => readBlock false T.unplaced = readBlock false T)
    ?_ ?_ ?_ ?_ ?_ ?_ ?_ ?_ ?_ ?_ ?_ ?_ ?_ ?_ T
  · intro statement ih
    simp only [ParseTree.unplaced, ParseTree.allUnplaced, readStatements, ih]
  · intro statements _ statement ihs ih
    simp only [ParseTree.unplaced, ParseTree.allUnplaced, readStatements, ihs, ih]
  · intro statements _ ihs
    simp only [ParseTree.unplaced, ParseTree.allUnplaced, readStatements, ihs]
  · intro T h₁ h₂ h₃
    rw [readStatements.eq_4 false T h₁ h₂ h₃]
    refine readStatements.eq_4 false _ ?_ ?_ ?_
    · intro _ hnode
      obtain ⟨_, rfl, _ | ⟨-, _ | _⟩⟩ := ParseTree.exists_of_unplaced hnode
      exact h₁ _ rfl
    · intro _ _ _ hnode
      obtain ⟨_, rfl, _ | ⟨-, _ | ⟨-, _ | ⟨-, _ | _⟩⟩⟩⟩ := ParseTree.exists_of_unplaced hnode
      exact h₂ _ _ _ rfl
    · intro _ _ hnode
      obtain ⟨_, rfl, _ | ⟨-, _ | ⟨-, _ | _⟩⟩⟩ := ParseTree.exists_of_unplaced hnode
      exact h₃ _ _ rfl
  · intro declaration ih
    simp only [ParseTree.unplaced, ParseTree.allUnplaced, readStatement, ih]
  · intro T h
    rw [readStatement.eq_2 false T h]
    refine readStatement.eq_2 false _ ?_
    intro _ hnode
    obtain ⟨_, rfl, _ | ⟨-, _ | _⟩⟩ := ParseTree.exists_of_unplaced hnode
    exact h _ rfl
  · intro keyword name body ih
    simp only [ParseTree.unplaced, ParseTree.allUnplaced, readModule, ih, readText_unplaced]
    rfl
  · intro T h
    rw [readModule.eq_2 false T h]
    refine readModule.eq_2 false _ ?_
    intro _ _ _ hnode
    obtain ⟨_, rfl, _ | ⟨-, _ | ⟨-, _ | ⟨-, _ | _⟩⟩⟩⟩ := ParseTree.exists_of_unplaced hnode
    exact h _ _ _ rfl
  · intro block ih
    simp only [ParseTree.unplaced, ParseTree.allUnplaced, readBody, ih]
  · intro T h
    rw [readBody.eq_2 false T h]
    refine readBody.eq_2 false _ ?_
    intro _ hnode
    obtain ⟨_, rfl, _ | ⟨-, _ | _⟩⟩ := ParseTree.exists_of_unplaced hnode
    exact h _ rfl
  · intro indent comment dedent
    simp only [ParseTree.unplaced, ParseTree.allUnplaced, readBlock, readText_unplaced]
    rfl
  · intro indent comment newline statements dedent ihs
    simp only [ParseTree.unplaced, ParseTree.allUnplaced, readBlock, readText_unplaced, ihs]
    rfl
  · intro indent statements dedent ihs
    simp only [ParseTree.unplaced, ParseTree.allUnplaced, readBlock, ihs]
    rfl
  · intro T h₁ h₂ h₃
    rw [readBlock.eq_4 false T h₁ h₂ h₃]
    refine readBlock.eq_4 false _ ?_ ?_ ?_
    · intro _ _ _ hnode
      obtain ⟨_, rfl, _ | ⟨-, _ | ⟨-, _ | ⟨-, _ | _⟩⟩⟩⟩ := ParseTree.exists_of_unplaced hnode
      exact h₁ _ _ _ rfl
    · intro _ _ _ _ _ hnode
      obtain ⟨_, rfl, _ | ⟨-, _ | ⟨-, _ | ⟨-, _ | ⟨-, _ | ⟨-, _ | _⟩⟩⟩⟩⟩⟩ :=
        ParseTree.exists_of_unplaced hnode
      exact h₂ _ _ _ _ _ rfl
    · intro _ _ _ hnode
      obtain ⟨_, rfl, _ | ⟨-, _ | ⟨-, _ | ⟨-, _ | _⟩⟩⟩⟩ := ParseTree.exists_of_unplaced hnode
      exact h₃ _ _ _ rfl

/-! ## Declarations -/

/-- Tokens without places are statements, and these are their declarations. -/
def Declares (words : List Token) (ms : List Module) : Prop :=
  ∃ S, grammar.Derives (phrase Kind.statements) S ∧ S.yield = words ∧ readStatements false S = ms

/-- Statements are a single one, statements and another one behind a line
    separator, or statements and a line separator. -/
theorem statements_cases {T : ParseTree} (h : grammar.Derives (phrase Kind.statements) T) :
    (∃ U, T = .node 2 [U] ∧ grammar.Derives (phrase Kind.statement) U) ∨
      (∃ S t U, T = .node 3 [S, .leaf t, U] ∧ grammar.Derives (phrase Kind.statements) S ∧
        t.kind = Kind.newline ∧ grammar.Derives (phrase Kind.statement) U) ∨
      ∃ S t, T = .node 4 [S, .leaf t] ∧ grammar.Derives (phrase Kind.statements) S ∧
        t.kind = Kind.newline := by
  obtain ⟨n, hn, Ts, rfl⟩ := exists_node h [2, 3, 4] (by decide)
  simp only [List.mem_cons, List.not_mem_nil, or_false] at hn
  rcases h with _ | @⟨_, _, _, _, hr, -, hTs⟩
  rcases hn with rfl | rfl | rfl
  · cases hr
    rcases hTs with _ | ⟨hU, _ | _⟩
    exact .inl ⟨_, rfl, hU⟩
  · cases hr
    rcases hTs with _ | ⟨hS, _ | ⟨hbreak, _ | ⟨hU, _ | _⟩⟩⟩
    obtain ⟨t, rfl, ht⟩ := hbreak.exists_leaf
    exact .inr (.inl ⟨_, t, _, rfl, hS, ht, hU⟩)
  · cases hr
    rcases hTs with _ | ⟨hS, _ | ⟨hbreak, _ | _⟩⟩
    obtain ⟨t, rfl, ht⟩ := hbreak.exists_leaf
    exact .inr (.inr ⟨_, t, rfl, hS, ht⟩)

/-- A statement is a declaration, with a keyword, a name and perhaps a block. -/
theorem exists_declaration {T : ParseTree} (h : grammar.Derives (phrase Kind.statement) T) :
    ∃ k n B, T = .node 5 [.node 11 [.leaf k, .leaf n, B]] ∧ k.kind = Kind.keyword ∧
      n.kind = Kind.name ∧ grammar.Derives (phrase Kind.optionalBlock) B := by
  obtain ⟨n, hn, Ts, rfl⟩ := exists_node h [5] (by decide)
  obtain rfl := List.mem_singleton.mp hn
  rcases h with _ | @⟨_, _, _, _, hr, -, hTs⟩
  cases hr
  rcases hTs with _ | ⟨hM, _ | _⟩
  obtain ⟨n, hn, Ts, rfl⟩ := exists_node hM [11] (by decide)
  obtain rfl := List.mem_singleton.mp hn
  rcases hM with _ | @⟨_, _, _, _, hr, -, hTs⟩
  cases hr
  rcases hTs with _ | ⟨hK, _ | ⟨hN, _ | ⟨hB, _ | _⟩⟩⟩
  obtain ⟨k, rfl, hk⟩ := hK.exists_leaf
  obtain ⟨n, rfl, hn⟩ := hN.exists_leaf
  exact ⟨k, n, _, rfl, hk, hn, hB⟩

/-- The statements of a program, and the end marker. -/
theorem exists_statements {T : ParseTree} (h : grammar.Derives (phrase Kind.program) T) :
    ∃ S m, T = .node 1 [S, .leaf m] ∧ grammar.Derives (phrase Kind.statements) S ∧
      m.kind = Kind.marker := by
  obtain ⟨n, hn, Ts, rfl⟩ := exists_node h [1] (by decide)
  obtain rfl := List.mem_singleton.mp hn
  rcases h with _ | @⟨_, _, _, _, hr, -, hTs⟩
  cases hr
  rcases hTs with _ | ⟨hS, _ | ⟨hm, _ | _⟩⟩
  obtain ⟨m, rfl, hkind⟩ := hm.exists_leaf
  exact ⟨_, m, rfl, hS, hkind⟩

/-! ## Sources -/

theorem toList_between (a b : String) : (a ++ "\n" ++ b).toList = a.toList ++ '\n' :: b.toList := by
  simp

/-- The unit of indentation that is learned from a source. -/
def learnedUnit (l : Language) (s : String) : Option Nat :=
  (Lexer.start l.lexicon s.toList).rest.2.2.indentation.unit

variable {marker : String} {s : String} {capture : Bool}

/-- A source that parses is read, to the tokens of its declarations and to the
    end marker. -/
theorem reads_of_parse {p : Program}
    (h : (⟨lexiconFor marker, marker⟩ : Language).parse s capture = .ok p) :
    ∃ words word tokens l,
      Reads (scanner marker.toList) s.toList .start (words ++ [word]) l.indentation ∧
      word.kind = Kind.marker ∧ Declares words (Module.allWithoutLocations p.statements) ∧
      (Lexer.start (lexiconFor marker) s.toList).rest = (tokens, .ok (), l) ∧
      tokens.map Token.unplaced = words ++ [word] ++ [stopWord] := by
  obtain ⟨T, tokens, hparses, hsupplies, hp⟩ := parses_of_returns (parse_eq_ok_iff.mp h)
  obtain rfl := Value.program.inj hp
  obtain ⟨words, l, hreads, hrest, hwords⟩ := reads_of_supplies hsupplies
  obtain ⟨S, m, rfl, hS, hm⟩ := exists_statements hparses.derives
  obtain ⟨last, -, htokens⟩ := hparses.ends
  -- behind the statements come the marker and the end symbol
  have hyield : words = S.unplaced.yield ++ [m.unplaced] := by
    rw [htokens, List.map_append, ParseTree.yield, ParseTree.yields, List.map_append] at hwords
    rw [S.yield_unplaced]
    exact (List.append_inj_left' hwords rfl).symm
  subst hyield
  refine ⟨S.unplaced.yield, m.unplaced, tokens, l, hreads, hm, ⟨S.unplaced, hS.unplaced, rfl, ?_⟩,
    hrest, hwords⟩
  rw [readStatements_unplaced]
  exact (allWithoutLocations_readStatements capture S).symm

/-- A source that is read, to tokens of declarations and to the end marker,
    parses to the declarations. -/
theorem parse_of_reads {words : List Token} {word : Token} {j : Indentation} {ms : List Module}
    (hreads : Reads (scanner marker.toList) s.toList .start (words ++ [word]) j)
    (hword : word.kind = Kind.marker) (hdeclares : Declares words ms) (capture : Bool) :
    ∃ p, (⟨lexiconFor marker, marker⟩ : Language).parse s capture = .ok p ∧
      Module.allWithoutLocations p.statements = ms := by
  obtain ⟨tokens, l, -, hsupplies, hwords, -⟩ := hreads.rest
  obtain ⟨S, hS, rfl, rfl⟩ := hdeclares
  have hunplaced : grammar.Parses table.endSymbol (.node 1 [S, .leaf word])
      (tokens.map Token.unplaced) := by
    refine ⟨.node rfl rfl (.cons hS (.cons (derives_leaf hword) .nil)), stopWord, rfl, ?_⟩
    rw [hwords, ParseTree.yield, ParseTree.yields]
    simp only [ParseTree.yields, ParseTree.yield, List.append_nil]
  -- the tokens with their places have a derivation too, and it is this one without them
  have hkinds : (tokens.map Token.unplaced).map Token.kind = tokens.map Token.kind := by
    rw [List.map_map]
    rfl
  have hsentence := (Grammar.sentence_iff _ _).mpr ⟨_, hunplaced⟩
  rw [hkinds] at hsentence
  obtain ⟨T, hT⟩ := (Grammar.sentence_iff _ _).mp hsentence
  have hsame := complete.unambiguous sound hT.unplaced hunplaced
  refine ⟨readProgram capture T, parse_eq_ok_iff.mpr (returns_of_parses hT hsupplies capture), ?_⟩
  obtain ⟨S', m', rfl, -⟩ := exists_statements hT.derives
  obtain ⟨rfl, -⟩ := List.cons.inj (ParseTree.node.inj hsame).2
  rw [readStatements_unplaced]
  exact allWithoutLocations_readStatements capture S'

end Language

end Offside
