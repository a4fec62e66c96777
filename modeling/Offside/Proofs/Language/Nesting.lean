import Offside.Proofs.Language.Locations
import Offside.Proofs.Language.Margins
import Offside.Proofs.Language.Sources

/-! # Nesting — the blocks of a tree against the indentation of its source

    As many blocks as there are around a declaration, as many units is the
    line indented that it stands on; but a line inside a block that is
    deeper than the block is passed over, and a declaration on it counts for
    the line of white space before.

    * `Module.Enclosed` counts the blocks around a declaration;
    * `Module.HasKeyword` says where its keyword stands among the tokens, and
      `hereditary_nests` carries that from the parts of a tree to the whole;
    * `enclosed_stands` is the law. -/

namespace Offside

open Automaton

/-! ## Declarations inside of blocks -/

/-- A declaration among others, or in a block of one of them, inside of so many
    blocks. -/
inductive Module.Enclosed (m : Module) : List Module → Nat → Prop
  | here {ms : List Module} : m ∈ ms → m.Enclosed ms 0
  | inside {ms : List Module} {outer : Module} {block : Block} {d : Nat} : outer ∈ ms →
      outer.body = some block → m.Enclosed block.statements d → m.Enclosed ms (d + 1)

namespace Module.Enclosed

variable {m m' : Module} {ms ms' : List Module} {d : Nat}

theorem not_nil : ¬ m.Enclosed [] d := by
  rintro (hmem | ⟨hmem, -, -⟩)
  · exact absurd hmem List.not_mem_nil
  · exact absurd hmem List.not_mem_nil

theorem of_append (h : m.Enclosed (ms ++ ms') d) : m.Enclosed ms d ∨ m.Enclosed ms' d := by
  cases h with
  | here hmem => exact (List.mem_append.mp hmem).imp .here .here
  | inside hmem hbody hinner =>
      exact (List.mem_append.mp hmem).imp (.inside · hbody hinner) (.inside · hbody hinner)

/-- In a declaration by itself it is that one, or it is in its block. -/
theorem of_single (h : m.Enclosed [m'] d) : (m = m' ∧ d = 0) ∨
    ∃ block d', m'.body = some block ∧ m.Enclosed block.statements d' ∧ d = d' + 1 := by
  cases h with
  | here hmem => exact .inl ⟨List.mem_singleton.mp hmem, rfl⟩
  | inside hmem hbody hinner =>
      obtain rfl := List.mem_singleton.mp hmem
      exact .inr ⟨_, _, hbody, hinner, rfl⟩

end Module.Enclosed

namespace Language

/-! ## Keywords of declarations -/

/-- The keyword of a declaration stands among tokens behind some that leave so
    many blocks open, and the last of these, if there are any, starts a
    line. -/
def HasKeyword (tokens : List Token) (d : Nat) (m : Module) : Prop :=
  ∃ front k back span, tokens = front ++ k :: back ∧ k.kind = Kind.keyword ∧
    Kind.indent.countIn front = Kind.dedent.countIn front + d ∧
    (∀ ts last, front = ts ++ [last] → last.StartsLine) ∧
    m.location = some span ∧ span.startLine = k.span.startLine

/-- Tokens in front that leave blocks open make the declaration as much deeper,
    if its keyword is still the first on its line. -/
theorem HasKeyword.within {m : Module} {tokens pre post : List Token} {d e : Nat}
    (h : HasKeyword tokens d m) (hcount : Kind.indent.countIn pre = Kind.dedent.countIn pre + e)
    (hlast : d = 0 → ∀ ts last, pre = ts ++ [last] → last.StartsLine) :
    HasKeyword (pre ++ tokens ++ post) (d + e) m := by
  obtain ⟨front, k, back, span, rfl, hk, hfront, hstarts, hspan, hline⟩ := h
  refine ⟨pre ++ front, k, back ++ post, span, ?_, hk, ?_, ?_, hspan, hline⟩
  · simp only [List.append_assoc, List.cons_append]
  · rw [Symbol.countIn_append, Symbol.countIn_append]
    omega
  · intro ts last hts
    rcases List.eq_nil_or_concat' front with rfl | ⟨others, last', rfl⟩
    · rw [List.append_nil] at hts
      rw [Symbol.countIn_nil, Symbol.countIn_nil] at hfront
      exact hlast (by omega) ts last hts
    · rw [← List.append_assoc] at hts
      obtain ⟨-, rfl⟩ := List.append_singleton_inj.mp hts
      exact hstarts others _ rfl

/-- Tokens behind change nothing. -/
theorem HasKeyword.append {m : Module} {tokens : List Token} {d : Nat}
    (h : HasKeyword tokens d m) (post : List Token) : HasKeyword (tokens ++ post) d m := by
  have hall : HasKeyword ([] ++ tokens ++ post) (d + 0) m := h.within rfl fun _ ts last hts =>
    absurd hts.symm (List.append_ne_nil_of_right_ne_nil ts (List.cons_ne_nil last []))
  exact hall

/-! ## Blocks of derivations -/

/-- Rules open as many blocks as they close. -/
theorem even_in_rules : ∀ r ∈ grammar.rules,
    r.output.count (token Kind.indent) = r.output.count (token Kind.dedent) := by
  decide

theorem countIn_leaf (kind : Symbol) (t : Token) :
    kind.countIn [t] = [(.terminal t.kind : Letter)].count (token kind) := by
  by_cases hkind : t.kind = kind
  · rw [Symbol.countIn_self hkind, hkind, List.count_singleton_self]
  · refine (Symbol.countIn_other hkind).trans (List.count_eq_zero.mpr ?_).symm
    rw [List.mem_singleton]
    rintro ⟨⟩
    exact hkind rfl

/-- Tokens of some letters open as many blocks as the letters say, if those of
    nonterminals open as many as they close. -/
theorem countIn_yields {Xs : List Letter} {Ts : List ParseTree} (h : grammar.DerivesAll Xs Ts)
    (heven : List.Forall₂ (fun X T => ∀ A, X = .nonterminal A →
      Kind.indent.countIn T.yield = Kind.dedent.countIn T.yield) Xs Ts) :
    Kind.indent.countIn (ParseTree.yields Ts) + Xs.count (token Kind.dedent) =
      Kind.dedent.countIn (ParseTree.yields Ts) + Xs.count (token Kind.indent) := by
  induction heven with
  | nil => rfl
  | @cons X T Xs Ts hT hTs ih =>
      rcases h with _ | ⟨hX, hXs⟩
      have hrest := ih hXs
      have hfirst : Kind.indent.countIn T.yield + [X].count (token Kind.dedent) =
          Kind.dedent.countIn T.yield + [X].count (token Kind.indent) := by
        cases hX with
        | leaf t =>
            rw [ParseTree.yield, countIn_leaf, countIn_leaf]
            exact Nat.add_comm _ _
        | node => exact hT _ rfl
      rw [ParseTree.yields, Symbol.countIn_append, Symbol.countIn_append, ← List.singleton_append,
        List.count_append, List.count_append]
      omega

/-- A derivation opens as many blocks as it closes. -/
theorem hereditary_even : grammar.Hereditary (fun _ => True) fun X T => ∀ A, X = .nonterminal A →
    Kind.indent.countIn T.yield = Kind.dedent.countIn T.yield where
  sublist _ _ := trivial
  start := start_not_in_rules
  leaf _ _ _ h := nomatch h
  node := by
    intro index r trees hr _ htrees _ hchildren _ _
    have hcounts := countIn_yields htrees hchildren
    rw [even_in_rules r (List.mem_of_getElem? hr)] at hcounts
    exact Nat.add_right_cancel hcounts

theorem even_of_derives {A : Symbol} {T : ParseTree} (h : grammar.Derives (phrase A) T) :
    Kind.indent.countIn T.yield = Kind.dedent.countIn T.yield :=
  hereditary_even.derives h nofun trivial _ rfl

end Language

/-! ## Values that nest -/

/-- All declarations of a value have their keywords among some tokens, as deep
    as they are in blocks. -/
def Value.Nests (tokens : List Token) : Value → Prop
  | .token _ => True
  | .program p => ∀ m d, m.Enclosed p.statements d → Language.HasKeyword tokens d m
  | .statements ms => ∀ m d, m.Enclosed ms d → Language.HasKeyword tokens d m
  | .statement m' => ∀ m d, m.Enclosed [m'] d → Language.HasKeyword tokens d m
  | .optionalBlock body => ∀ b, body = some b →
      ∀ m d, m.Enclosed b.statements d → Language.HasKeyword tokens (d + 1) m
  | .block b => ∀ m d, m.Enclosed b.statements d → Language.HasKeyword tokens (d + 1) m
  | .module m' => ∀ m d, m.Enclosed [m'] d → Language.HasKeyword tokens d m

namespace Language

variable {source : List Char}

theorem nests_statements {T : ParseTree} (h : grammar.Derives (phrase Kind.statements) T)
    (hT : (readValue true T).Nests T.yield) :
    ∀ m d, m.Enclosed (readStatements true T) d → HasKeyword T.yield d m := by
  rw [readValue_statements h] at hT
  exact hT

/-- Declarations behind tokens the last of which starts a line. -/
theorem nests_behind {tokens : List Token} {ms : List Module} {e : Nat}
    (h : ∀ m d, m.Enclosed ms d → HasKeyword tokens d m) {pre : List Token} {last : Token}
    (hcount : Kind.indent.countIn (pre ++ [last]) = Kind.dedent.countIn (pre ++ [last]) + e)
    (hlast : last.StartsLine) (post : List Token) :
    ∀ m d, m.Enclosed ms d → HasKeyword (pre ++ [last] ++ tokens ++ post) (d + e) m := by
  intro m d hm
  refine (h m d hm).within hcount fun _ ts last' hts => ?_
  obtain ⟨-, rfl⟩ := List.append_singleton_inj.mp hts
  exact hlast

/-- One more statement on a line of its own. -/
theorem nests_more {S : ParseTree} {tokens : List Token} {ms : List Module} {newline : Token}
    (hS : grammar.Derives (phrase Kind.statements) S)
    (hms : ∀ m d, m.Enclosed (readStatements true S) d → HasKeyword S.yield d m)
    (hnewline : newline.kind = Kind.newline)
    (h : ∀ m d, m.Enclosed ms d → HasKeyword tokens d m) :
    ∀ m d, m.Enclosed (readStatements true S ++ ms) d →
      HasKeyword (S.yield ++ [newline] ++ tokens) d m := by
  -- the statements in front close all their blocks
  have hcount : Kind.indent.countIn (S.yield ++ [newline]) =
      Kind.dedent.countIn (S.yield ++ [newline]) + 0 := by
    rw [Symbol.countIn_append, Symbol.countIn_append, even_of_derives hS,
      Symbol.countIn_other (by rw [hnewline]; decide),
      Symbol.countIn_other (by rw [hnewline]; decide)]
  intro m d hm
  rcases hm.of_append with hfront | hback
  · rw [List.append_assoc]
    exact (hms m d hfront).append _
  · have hall := nests_behind h hcount (.inr hnewline) [] m d hback
    rwa [List.append_nil] at hall

/-- A declaration has its own keyword first, and those of its block behind its
    name. -/
theorem nests_declaration {k n : Token} {B : ParseTree} {span : Span}
    (h : Covers source (.node 11 [.leaf k, .leaf n, B]) span) (hspan : k.span.Fits source)
    (hk : k.kind = Kind.keyword) (hn : n.kind = Kind.name)
    (hB : ∀ b, readBody true B = some b →
      ∀ m d, m.Enclosed b.statements d → HasKeyword B.yield (d + 1) m) :
    ∀ m d, m.Enclosed [readModule true (.node 11 [.leaf k, .leaf n, B])] d →
      HasKeyword (ParseTree.node 11 [.leaf k, .leaf n, B]).yield d m := by
  have hyield : (ParseTree.node 11 [.leaf k, .leaf n, B]).yield = [k, n] ++ B.yield := by
    simp only [ParseTree.yield, ParseTree.yields, List.append_nil, List.cons_append,
      List.nil_append]
  intro m d hm
  rcases hm.of_single with ⟨rfl, rfl⟩ | ⟨block, d', hbody, hinner, rfl⟩
  · obtain ⟨first, rest, hfirst, hstart⟩ := h.start
    rw [hyield] at hfirst ⊢
    obtain rfl : k = first := (List.cons.inj hfirst).1
    refine ⟨[], k, n :: B.yield, span, rfl, hk, rfl, fun ts last hts => ?_, h.place_eq, ?_⟩
    · exact absurd hts.symm (List.append_ne_nil_of_right_ne_nil ts (List.cons_ne_nil last []))
    · have hposition := h.fits.start
      rw [hstart] at hposition
      exact (hposition.unique hspan.start).1
  · have hcount : Kind.indent.countIn [k, n] = Kind.dedent.countIn [k, n] + 0 := by
      simp only [Symbol.countIn, List.map_cons, List.map_nil, hk, hn]
      decide
    have hdeep : HasKeyword ([k, n] ++ B.yield ++ []) (d' + 1 + 0) m :=
      (hB block hbody m d' hinner).within hcount fun h => absurd h (Nat.succ_ne_zero d')
    rw [List.append_nil] at hdeep
    rw [hyield]
    exact hdeep

/-- A rule keeps declarations as deep as they are in blocks. -/
theorem nests_node {index : Nat} {r : GrammarRule} {trees : List ParseTree}
    (hr : grammar.rules[index]? = some r) (hinput : r.input ≠ none)
    (htrees : grammar.DerivesAll r.output trees)
    (hlocated : Located source (ParseTree.yields trees))
    (hnests : ∀ T ∈ trees, (readValue true T).Nests T.yield) :
    (readValue true (.node index trees)).Nests (ParseTree.node index trees).yield := by
  match index, hr with
  | 0, hr =>
      cases hr
      exact absurd rfl hinput
  | 1, hr =>
      cases hr
      rcases htrees with _ | ⟨hS, _ | ⟨hM, _ | _⟩⟩
      have hms := nests_statements hS (hnests _ (List.mem_cons_self ..))
      rw [ParseTree.yield, ParseTree.yields]
      exact fun m d hm => (hms m d hm).append _
  | 2, hr =>
      cases hr
      rcases htrees with _ | ⟨hT, _ | _⟩
      have hm := hnests _ (List.mem_cons_self ..)
      rw [readValue_statement hT] at hm
      rw [ParseTree.yield, ParseTree.yields_singleton]
      exact hm
  | 3, hr =>
      cases hr
      rcases htrees with _ | ⟨hS, _ | ⟨hN, _ | ⟨hT, _ | _⟩⟩⟩
      obtain ⟨hstatements, -, hstatement, -⟩ : _ ∧ _ ∧ _ ∧ _ := by
        simpa only [List.forall_mem_cons] using hnests
      obtain ⟨newline, rfl, hnewline⟩ := hN.exists_leaf
      have hms := nests_statements hS hstatements
      rw [readValue_statement hT] at hstatement
      have hall := nests_more hS hms hnewline hstatement
      simp only [ParseTree.yield, ParseTree.yields, List.append_nil]
      rwa [List.append_assoc] at hall
  | 4, hr =>
      cases hr
      rcases htrees with _ | ⟨hS, _ | ⟨-, _ | _⟩⟩
      have hms := nests_statements hS (hnests _ (List.mem_cons_self ..))
      rw [ParseTree.yield, ParseTree.yields]
      exact fun m d hm => (hms m d hm).append _
  | 5, hr =>
      cases hr
      rcases htrees with _ | ⟨hM, _ | _⟩
      have hm := hnests _ (List.mem_cons_self ..)
      rw [readValue_module hM] at hm
      rw [ParseTree.yield, ParseTree.yields_singleton]
      exact hm
  | 6, hr =>
      cases hr
      rcases htrees with _ | ⟨hB, _ | _⟩
      have hb := hnests _ (List.mem_cons_self ..)
      rw [readValue_block hB] at hb
      rw [ParseTree.yield, ParseTree.yields_singleton]
      rintro b ⟨⟩
      exact hb
  | 7, hr =>
      cases hr
      obtain ⟨⟩ := htrees
      rintro b ⟨⟩
  | 8, hr =>
      cases hr
      rcases htrees with _ | ⟨-, _ | ⟨-, _ | ⟨-, _ | _⟩⟩⟩
      intro m d hm
      exact absurd hm Module.Enclosed.not_nil
  | 9, hr =>
      cases hr
      rcases htrees with _ | ⟨hI, _ | ⟨hC, _ | ⟨hN, _ | ⟨hS, _ | ⟨-, _ | _⟩⟩⟩⟩⟩
      obtain ⟨-, -, -, hstatements, -⟩ : _ ∧ _ ∧ _ ∧ _ ∧ _ := by
        simpa only [List.forall_mem_cons] using hnests
      obtain ⟨indent, rfl, hindent⟩ := hI.exists_leaf
      obtain ⟨comment, rfl, hcomment⟩ := hC.exists_leaf
      obtain ⟨newline, rfl, hnewline⟩ := hN.exists_leaf
      have hcount : Kind.indent.countIn ([indent, comment] ++ [newline]) =
          Kind.dedent.countIn ([indent, comment] ++ [newline]) + 1 := by
        simp only [Symbol.countIn, List.map_append, List.map_cons, List.map_nil, hindent, hcomment,
          hnewline]
        decide
      have hms := nests_behind (nests_statements hS hstatements) hcount (.inr hnewline)
      exact hms _
  | 10, hr =>
      cases hr
      rcases htrees with _ | ⟨hI, _ | ⟨hS, _ | ⟨-, _ | _⟩⟩⟩
      obtain ⟨-, hstatements, -⟩ : _ ∧ _ ∧ _ := by
        simpa only [List.forall_mem_cons] using hnests
      obtain ⟨indent, rfl, hindent⟩ := hI.exists_leaf
      have hcount : Kind.indent.countIn ([] ++ [indent]) =
          Kind.dedent.countIn ([] ++ [indent]) + 1 := by
        simp only [Symbol.countIn, List.nil_append, List.map_cons, List.map_nil, hindent]
        decide
      have hms := nests_behind (nests_statements hS hstatements) hcount (.inl hindent)
      exact hms _
  | 11, hr =>
      cases hr
      rcases htrees with _ | ⟨hK, _ | ⟨hN, _ | ⟨hB, _ | _⟩⟩⟩
      obtain ⟨k, rfl, hk⟩ := hK.exists_leaf
      obtain ⟨n, rfl, hn⟩ := hN.exists_leaf
      have hdeclaration : grammar.Derives (phrase Kind.declaration)
          (.node 11 [.leaf k, .leaf n, _]) :=
        .node rfl rfl (.cons (derives_leaf hk) (.cons (derives_leaf hn) (.cons hB .nil)))
      obtain ⟨span, hspan⟩ := exists_covers hdeclaration (by decide) hlocated
      have hb := hnests _ (List.mem_cons_of_mem _ (List.mem_cons_of_mem _ (List.mem_cons_self ..)))
      rw [readValue_body hB] at hb
      exact nests_declaration hspan (hlocated.fits k (List.mem_cons_self ..)) hk hn hb
  | n + 12, hr => cases hr

/-- Derivations have their declarations as deep as they are in blocks. -/
theorem hereditary_nests : grammar.Hereditary (Located source) fun _ T =>
    (readValue true T).Nests T.yield where
  sublist := Located.sublist
  start := start_not_in_rules
  leaf _ _ := trivial
  node hr hinput htrees hlocated hchildren := nests_node hr hinput htrees hlocated
    (Grammar.forall_of_forall₂ (Q := fun T => (readValue true T).Nests T.yield)
      (fun _ _ h => h) hchildren)

/-! ## Parsing -/

/-- The keyword of every declaration of a parse, as deep as it is in blocks, and
    the unit of the lexer that read it. -/
theorem hasKeyword_of_parse {marker : String} {s : String} {p : Program}
    (h : (⟨lexiconFor marker, marker⟩ : Language).parse s true = .ok p) : ∃ tokens l,
      Feeds (Lexer.start (lexiconFor marker) s.toList) tokens l ∧
      learnedUnit ⟨lexiconFor marker, marker⟩ s = l.indentation.unit ∧
      ∀ m d, m.Enclosed p.statements d → HasKeyword tokens d m := by
  obtain ⟨T, tokens, ⟨hT, last, -, rfl⟩, ⟨l, hfeeds, hmore⟩, hp⟩ :=
    parses_of_returns (parse_eq_ok_iff.mp h)
  have hlocated := (located_of_feeds hfeeds).sublist (List.sublist_append_left T.yield [last])
  have hnests := hereditary_nests.derives hT (by decide) hlocated
  rw [readValue_program hT, ← hp] at hnests
  refine ⟨_, l, hfeeds, ?_, fun m d hm => (hnests m d hm).append _⟩
  rw [learnedUnit, Lexer.rest_of_feeds hfeeds hmore]

/-- **Nesting is indentation.**  With every end marker, a declaration of a parse
    that so many blocks enclose, and that does not start on the first line,
    stands on a line indented by so many units, or on a deeper line that is
    passed over behind such a line of white space. -/
theorem enclosed_stands (marker : String) :
    ∃ l, withMarker marker = .ok l ∧ ∀ (s : String) (p : Program),
      l.parse s true = .ok p → ∀ u, (learnedUnit l s = none ∨ learnedUnit l s = some u) →
      ∀ (m : Module) (d : Nat), m.Enclosed p.statements d →
        ∃ (span : Span) (n : Nat), m.location = some span ∧ span.startLine = n + 1 ∧
          (n = 0 ∨ StandsAt (Text.lines s.toList) (d * u) n) := by
  refine ⟨_, withMarker_eq marker, fun s p hparse u hu m d hm => ?_⟩
  obtain ⟨tokens, l, hfeeds, hunit, hkeywords⟩ := hasKeyword_of_parse hparse
  obtain ⟨front, k, back, span, htokens, hk, hcounts, hstarts, hspan, hline⟩ := hkeywords m d hm
  have hstands := keyword_stands hfeeds htokens hk
  rw [hunit] at hu
  rcases List.eq_nil_or_concat' front with rfl | ⟨others, last, rfl⟩
  · exact ⟨span, 0, hspan, hline.trans (hstands.first rfl), .inl rfl⟩
  · obtain ⟨n, d', hn, hcounts', hline'⟩ := hstands.line rfl (hstarts others last rfl)
    obtain rfl : d' = d := by omega
    exact ⟨span, n, hspan, hline.trans hn, .inr (hline' u hu)⟩

/-- A declaration on a deeper line, behind a line of white space. -/
def deeperSource : String := "module a.b:\n    \n        module c.d\n@@EOF@@"

/-- The declaration on the deeper line. -/
def deeperModule : Module := .mk "c.d" none (some ⟨25, 31, 3, 3, 8, 14⟩)

/-- The tree of that source: the declaration is in the block all the same. -/
def deeperTree : Program where
  statements := [.mk "a.b" (some (.mk none [deeperModule] (some ⟨10, 43, 1, 4, 10, 7⟩)))
    (some ⟨0, 43, 1, 4, 0, 7⟩)]
  location := some ⟨0, 43, 1, 4, 0, 7⟩

theorem parse_deeperSource : standard.parse deeperSource true = .ok deeperTree := by
  decide +kernel

theorem learnedUnit_deeperSource : learnedUnit standard deeperSource = some 4 := by
  decide +kernel

theorem deeperModule_enclosed : deeperModule.Enclosed deeperTree.statements 1 :=
  .inside (List.mem_singleton_self _) rfl (.here (List.mem_singleton_self _))

theorem enclosed_stands_deeperSource :
    standard.parse deeperSource true = .ok deeperTree ∧
      learnedUnit standard deeperSource = some 4 ∧
      deeperModule.Enclosed deeperTree.statements 1 ∧
      StandsAt (Text.lines deeperSource.toList) 4 2 := by
  obtain ⟨l, hl, hlaw⟩ := enclosed_stands defaultMarker
  obtain rfl := Except.ok.inj (hl.symm.trans withMarker_defaultMarker)
  refine ⟨parse_deeperSource, learnedUnit_deeperSource, deeperModule_enclosed, ?_⟩
  obtain ⟨span, n, hspan, hline, hstands⟩ := hlaw _ _ parse_deeperSource 4
    (.inr learnedUnit_deeperSource) _ _ deeperModule_enclosed
  cases hspan
  obtain rfl : n = 2 := (Nat.succ.inj hline).symm
  exact hstands.resolve_left (by decide)

/-- That line is not as wide as its one block: the tree does not tell how deep
    the lines are that are passed over. -/
theorem margin_deeperSource :
    standard.parse deeperSource true = .ok deeperTree ∧
      learnedUnit standard deeperSource = some 4 ∧
      deeperModule.Enclosed deeperTree.statements 1 ∧
      ∃ span line, deeperModule.location = some span ∧ span.startLine ≠ 1 ∧
        (Text.lines deeperSource.toList)[span.startLine - 1]? = some line ∧
        marginOf line ≠ 1 * 4 :=
  ⟨parse_deeperSource, learnedUnit_deeperSource, deeperModule_enclosed,
    ⟨25, 31, 3, 3, 8, 14⟩, "        module c.d".toList, rfl, by decide, by decide, by decide⟩

end Language

end Offside
