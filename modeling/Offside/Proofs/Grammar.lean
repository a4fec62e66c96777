import Mathlib
import Offside.Token

/-! # Grammars — rules, derivation trees and sentences

    A grammar lists its rules in the order in which an automaton numbers
    them.  What it derives is meant in the sense of `ContextFreeGrammar`;
    beside that, a derivation is a tree whose leaves are tokens:

    * `Grammar.Derives` tells that a tree is built by the rules;
    * `Grammar.sentence_iff` says that a list of tokens has a tree exactly if
      its symbols can be derived. -/

/-- A letter of a rule: a terminal or a nonterminal. -/
abbrev ContextFreeRule.Letter (T N : Type) : Type := Symbol T N

namespace Offside

/-- A letter over the symbols of a table.  The nonterminal `none` is the
    left-hand side of the start production. -/
abbrev Letter : Type := ContextFreeRule.Letter Symbol (Option Symbol)

/-- A rule over such letters. -/
abbrev GrammarRule : Type := ContextFreeRule Symbol (Option Symbol)

/-- Numbered rules, and the nonterminal that sentences are derived from. -/
structure Grammar where
  rules : List GrammarRule
  start : Symbol

/-- A derivation: tokens at the leaves, numbers of rules inside. -/
inductive ParseTree where
  | leaf (token : Token)
  | node (rule : Nat) (children : List ParseTree)

mutual

/-- The tokens at the leaves of a tree, left to right. -/
def ParseTree.yield : ParseTree → List Token
  | .leaf token => [token]
  | .node _ children => ParseTree.yields children

/-- The tokens at the leaves of several trees. -/
def ParseTree.yields : List ParseTree → List Token
  | [] => []
  | t :: ts => t.yield ++ ParseTree.yields ts

end

/-- The letters of a list of tokens. -/
def letters (tokens : List Token) : List Letter := tokens.map fun t => .terminal t.kind

@[simp] theorem ParseTree.yields_append (ts us : List ParseTree) :
    ParseTree.yields (ts ++ us) = ParseTree.yields ts ++ ParseTree.yields us := by
  induction ts with
  | nil => rfl
  | cons t ts ih =>
      rw [List.cons_append, ParseTree.yields, ih, ParseTree.yields, List.append_assoc]

@[simp] theorem ParseTree.yields_singleton (t : ParseTree) :
    ParseTree.yields [t] = t.yield := List.append_nil _

@[simp] theorem letters_append (ts us : List Token) :
    letters (ts ++ us) = letters ts ++ letters us := List.map_append

namespace Grammar

mutual

/-- A tree derives a letter: it is a token of that terminal, or its children
    derive the right-hand side of a rule for that nonterminal. -/
inductive Derives (g : Grammar) : Letter → ParseTree → Prop
  | leaf (token : Token) : Derives g (.terminal token.kind) (.leaf token)
  | node {index : Nat} {r : GrammarRule} {A : Option Symbol} {children : List ParseTree} :
      g.rules[index]? = some r → r.input = A → DerivesAll g r.output children →
      Derives g (.nonterminal A) (.node index children)

/-- Trees derive letters one by one. -/
inductive DerivesAll (g : Grammar) : List Letter → List ParseTree → Prop
  | nil : DerivesAll g [] []
  | cons {X : Letter} {Xs : List Letter} {T : ParseTree} {Ts : List ParseTree} :
      Derives g X T → DerivesAll g Xs Ts → DerivesAll g (X :: Xs) (T :: Ts)

end

/-- The grammar as Mathlib has it. -/
def contextFree (g : Grammar) : ContextFreeGrammar Symbol where
  NT := Option Symbol
  initial := some g.start
  rules := g.rules.toFinset

/-- What can be derived from the start, with one end symbol behind it. -/
def Sentence (g : Grammar) (stop : Symbol) (kinds : List Symbol) : Prop :=
  ∃ word ∈ g.contextFree.language, kinds = word ++ [stop]

/-- A list of symbols that some sentence starts with. -/
def Viable (g : Grammar) (stop : Symbol) (kinds : List Symbol) : Prop :=
  ∃ rest, g.Sentence stop (kinds ++ rest)

/-- A tree is the derivation of a list of tokens that ends in an end symbol. -/
structure Parses (g : Grammar) (stop : Symbol) (tree : ParseTree) (tokens : List Token) :
    Prop where
  derives : g.Derives (.nonterminal (some g.start)) tree
  ends : ∃ last : Token, last.kind = stop ∧ tokens = tree.yield ++ [last]

variable {g : Grammar}

/-! ## Derivations side by side -/

theorem Derives.exists_leaf {k : Symbol} {T : ParseTree} (h : g.Derives (.terminal k) T) :
    ∃ t : Token, T = .leaf t ∧ t.kind = k := by
  obtain ⟨t⟩ := h
  exact ⟨t, rfl, rfl⟩

theorem DerivesAll.append {Xs Ys : List Letter} {Ts Us : List ParseTree}
    (hT : g.DerivesAll Xs Ts) (hU : g.DerivesAll Ys Us) :
    g.DerivesAll (Xs ++ Ys) (Ts ++ Us) := by
  match hT with
  | .nil => exact hU
  | .cons h hTs => exact .cons h (hTs.append hU)

/-- Trees for two lists of letters fall into trees for the one and for the
    other. -/
theorem DerivesAll.split : ∀ {Xs Ys : List Letter} {Ts : List ParseTree},
    g.DerivesAll (Xs ++ Ys) Ts →
      ∃ Us Vs, Ts = Us ++ Vs ∧ g.DerivesAll Xs Us ∧ g.DerivesAll Ys Vs := by
  intro Xs
  induction Xs with
  | nil =>
      intro Ys Ts h
      exact ⟨[], Ts, rfl, .nil, h⟩
  | cons X Xs ih =>
      intro Ys Ts h
      rcases h with _ | ⟨hX, hXs⟩
      obtain ⟨Us, Vs, rfl, hU, hV⟩ := ih hXs
      exact ⟨_ :: Us, Vs, rfl, .cons hX hU, hV⟩

theorem derivesAll_leaves (tokens : List Token) :
    g.DerivesAll (letters tokens) (tokens.map .leaf) := by
  induction tokens with
  | nil => exact .nil
  | cons t ts ih => exact .cons (.leaf t) ih

theorem yields_leaves (tokens : List Token) :
    ParseTree.yields (tokens.map .leaf) = tokens := by
  induction tokens with
  | nil => rfl
  | cons t ts ih =>
      rw [List.map_cons, ParseTree.yields, ih]
      rfl

theorem DerivesAll.length_eq : ∀ {Xs : List Letter} {Ts : List ParseTree},
    g.DerivesAll Xs Ts → Xs.length = Ts.length
  | _, _, .nil => rfl
  | _, _, .cons _ h => congrArg Nat.succ h.length_eq

/-! ## Induction along a derivation -/

theorem yield_sublist_of_mem {T : ParseTree} {Ts : List ParseTree} (h : T ∈ Ts) :
    T.yield.Sublist (ParseTree.yields Ts) := by
  obtain ⟨front, back, rfl⟩ := List.append_of_mem h
  rw [ParseTree.yields_append, ParseTree.yields]
  exact (List.sublist_append_left ..).trans (List.sublist_append_right ..)

/-- What trees have beside their letters, all of them have. -/
theorem forall_of_forall₂ {R : Letter → ParseTree → Prop} {Q : ParseTree → Prop}
    (hQ : ∀ X T, R X T → Q T) {Xs : List Letter} {Ts : List ParseTree}
    (h : List.Forall₂ R Xs Ts) : ∀ T ∈ Ts, Q T := by
  induction h with
  | nil => exact List.forall_mem_nil Q
  | cons hT _ ih => exact List.forall_mem_cons.mpr ⟨hQ _ _ hT, ih⟩

/-- A property that nodes have if their children do, where tokens have a
    property of their own; the start production stands for no derivation. -/
structure Hereditary (g : Grammar) (K : List Token → Prop) (P : Letter → ParseTree → Prop) :
    Prop where
  sublist : ∀ {ts us : List Token}, ts.Sublist us → K us → K ts
  start : ∀ r ∈ g.rules, ∀ X ∈ r.output, X ≠ .nonterminal none
  leaf : ∀ t : Token, K [t] → P (.terminal t.kind) (.leaf t)
  node : ∀ {index : Nat} {r : GrammarRule} {trees : List ParseTree},
    g.rules[index]? = some r → r.input ≠ none → g.DerivesAll r.output trees →
    K (ParseTree.yields trees) → List.Forall₂ P r.output trees →
    P (.nonterminal r.input) (.node index trees)

mutual

/-- All derivations have a property that nodes inherit. -/
theorem Hereditary.derives {K : List Token → Prop} {P : Letter → ParseTree → Prop}
    (hP : g.Hereditary K P) {X : Letter} {T : ParseTree} (h : g.Derives X T)
    (hX : X ≠ .nonterminal none) (hT : K T.yield) : P X T := by
  cases h with
  | leaf t => exact hP.leaf t hT
  | @node index r A trees hr hA htrees =>
      subst hA
      have hinput : r.input ≠ none := fun hnone => hX (congrArg _ hnone)
      refine hP.node hr hinput htrees hT (hP.derivesAll htrees ?_ fun T hmem => ?_)
      · exact hP.start r (List.mem_of_getElem? hr)
      · exact hP.sublist (yield_sublist_of_mem hmem) hT

theorem Hereditary.derivesAll {K : List Token → Prop} {P : Letter → ParseTree → Prop}
    (hP : g.Hereditary K P) {Xs : List Letter} {Ts : List ParseTree} (h : g.DerivesAll Xs Ts)
    (hXs : ∀ X ∈ Xs, X ≠ .nonterminal none) (hTs : ∀ T ∈ Ts, K T.yield) :
    List.Forall₂ P Xs Ts := by
  cases h with
  | nil => exact .nil
  | cons hT hrest =>
      obtain ⟨hX, hXs⟩ := List.forall_mem_cons.mp hXs
      obtain ⟨hfirst, hothers⟩ := List.forall_mem_cons.mp hTs
      exact .cons (hP.derives hT hX hfirst) (hP.derivesAll hrest hXs hothers)

end

mutual

/-- Where no rule leads out of some letters, neither does a derivation. -/
theorem Derives.within {P : Letter → Prop}
    (hrules : ∀ r ∈ g.rules, P (.nonterminal r.input) → ∀ Y ∈ r.output, P Y)
    {X : Letter} {T : ParseTree} (h : g.Derives X T) (hX : P X) :
    ∀ t ∈ T.yield, P (.terminal t.kind) := by
  cases h with
  | leaf t => exact List.forall_mem_singleton.mpr hX
  | @node index r A Ts hr hA hTs =>
      subst hA
      exact hTs.within hrules (hrules r (List.mem_of_getElem? hr) hX)

theorem DerivesAll.within {P : Letter → Prop}
    (hrules : ∀ r ∈ g.rules, P (.nonterminal r.input) → ∀ Y ∈ r.output, P Y)
    {Xs : List Letter} {Ts : List ParseTree} (h : g.DerivesAll Xs Ts) (hXs : ∀ X ∈ Xs, P X) :
    ∀ t ∈ ParseTree.yields Ts, P (.terminal t.kind) := by
  cases h with
  | nil => exact List.forall_mem_nil _
  | cons hT hTs =>
      obtain ⟨hX, hXs⟩ := List.forall_mem_cons.mp hXs
      exact List.forall_mem_append.mpr ⟨hT.within hrules hX, hTs.within hrules hXs⟩

end

/-! ## Trees and derivations -/

theorem mem_contextFree {r : GrammarRule} : r ∈ g.contextFree.rules ↔ r ∈ g.rules :=
  List.mem_toFinset (l := g.rules)

mutual

/-- A tree shows that its letters can be derived. -/
theorem Derives.contextFree {X : Letter} {T : ParseTree} (h : g.Derives X T) :
    g.contextFree.Derives [X] (letters T.yield) := by
  cases h with
  | leaf token => exact .refl _
  | @node index r A children hr hA hc =>
      have hmem : r ∈ g.contextFree.rules := mem_contextFree.mpr (List.mem_of_getElem? hr)
      have hfirst : g.contextFree.Produces [.nonterminal A] r.output := by
        subst hA
        exact ⟨r, hmem, .input_output⟩
      exact hfirst.trans_derives hc.contextFree

theorem DerivesAll.contextFree {Xs : List Letter} {Ts : List ParseTree}
    (h : g.DerivesAll Xs Ts) :
    g.contextFree.Derives Xs (letters (ParseTree.yields Ts)) := by
  cases h with
  | nil => exact .refl _
  | @cons X Xs T Ts hT hTs =>
      rw [ParseTree.yields, letters_append]
      exact (hT.contextFree.append_right Xs).trans
        (hTs.contextFree.append_left (letters T.yield))

end

/-- What can be derived has trees.  The induction goes backwards from the
    tokens: undoing a rewriting puts a node above the trees of its letters. -/
theorem exists_forest {Xs Ys : List Letter} (h : g.contextFree.Derives Xs Ys)
    (tokens : List Token) (hY : Ys = letters tokens) :
    ∃ Ts, g.DerivesAll Xs Ts ∧ ParseTree.yields Ts = tokens := by
  induction h using Relation.ReflTransGen.head_induction_on with
  | refl => exact ⟨tokens.map .leaf, hY ▸ derivesAll_leaves tokens, yields_leaves tokens⟩
  | head hstep _ ih =>
      obtain ⟨Ts, hTs, hyield⟩ := ih
      obtain ⟨r, hr, hrw⟩ := hstep
      obtain ⟨p, q, rfl, rfl⟩ := hrw.exists_parts
      obtain ⟨index, hindex⟩ := List.mem_iff_getElem?.mp (mem_contextFree.mp hr)
      -- the trees of the right-hand side stand between those of `p` and `q`
      obtain ⟨Us, Ws, rfl, hUs, hW⟩ := hTs.split
      obtain ⟨Us, Vs, rfl, hU, hV⟩ := hUs.split
      have hnode : g.Derives (.nonterminal r.input) (.node index Vs) := .node hindex rfl hV
      refine ⟨Us ++ [.node index Vs] ++ Ws, ?_, ?_⟩
      · exact (hU.append (.cons hnode .nil)).append hW
      · rw [← hyield]
        simp only [ParseTree.yields_append, ParseTree.yields_singleton, ParseTree.yield]

/-- Tokens have a derivation exactly if their symbols make a sentence. -/
theorem sentence_iff (stop : Symbol) (tokens : List Token) :
    g.Sentence stop (tokens.map Token.kind) ↔ ∃ T, g.Parses stop T tokens := by
  constructor
  · rintro ⟨word, hword, hkinds⟩
    obtain ⟨front, back, rfl, hfront, hback⟩ := List.map_eq_append_iff.mp hkinds
    obtain ⟨last, rfl, hlast⟩ := List.map_eq_singleton_iff.mp hback
    have hletters : word.map .terminal = letters front := by
      rw [← hfront, List.map_map]
      rfl
    obtain ⟨Ts, hTs, hyield⟩ := exists_forest hword front hletters
    -- the start symbol stands alone, so the forest is one tree
    rcases hTs with _ | ⟨hT, _ | _⟩
    rw [ParseTree.yields_singleton] at hyield
    exact ⟨_, hT, last, hlast, by rw [hyield]⟩
  · rintro ⟨T, hT, last, hlast, rfl⟩
    refine ⟨T.yield.map Token.kind, ?_, by rw [List.map_append, List.map_singleton, hlast]⟩
    have hletters : letters T.yield = (T.yield.map Token.kind).map .terminal := by
      rw [List.map_map]
      rfl
    have hderives := hT.contextFree
    rw [hletters] at hderives
    exact hderives

theorem Viable.of_append {stop : Symbol} {front back : List Symbol}
    (h : g.Viable stop (front ++ back)) : g.Viable stop front := by
  obtain ⟨rest, hrest⟩ := h
  exact ⟨back ++ rest, by rw [← List.append_assoc]; exact hrest⟩

theorem Sentence.viable {stop : Symbol} {kinds : List Symbol} (h : g.Sentence stop kinds) :
    g.Viable stop kinds := ⟨[], by rwa [List.append_nil]⟩

/-- Tokens are viable exactly if more tokens make them derivable. -/
theorem viable_iff (stop : Symbol) (tokens : List Token) :
    g.Viable stop (tokens.map Token.kind) ↔ ∃ T more, g.Parses stop T (tokens ++ more) := by
  constructor
  · rintro ⟨rest, hrest⟩
    -- any tokens will do for the symbols that go on
    let more := rest.map fun k => (⟨k, "", default⟩ : Token)
    have hkinds : (tokens ++ more).map Token.kind = tokens.map Token.kind ++ rest := by
      rw [List.map_append, List.map_map]
      exact congrArg _ (List.map_id rest)
    obtain ⟨T, hT⟩ := (sentence_iff stop _).mp (hkinds ▸ hrest)
    exact ⟨T, more, hT⟩
  · rintro ⟨T, more, hT⟩
    have hsentence := (sentence_iff stop _).mpr ⟨T, hT⟩
    exact ⟨more.map Token.kind, List.map_append ▸ hsentence⟩

end Grammar

end Offside
