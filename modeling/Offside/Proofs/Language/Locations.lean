import Offside.Proofs.Language.Marker
import Offside.Proofs.Language.Parsing
import Offside.Proofs.Language.Tokens
import Offside.Proofs.Lexer.Places

/-! # Locations — where the nodes of a tree stand in their source

    Tokens come in the order of the source, and every node takes its location
    from the first token below it and from a token that ends it.  So nodes
    lie inside the nodes around them and beside each other in order, although
    only the outermost parts of a node are looked at.

    * `Program.Placed` says what the locations of a tree are to be like;
    * `Located` are the tokens of a source, and `Covers` the span of a
      derivation from them;
    * `placed_of_parse` says that the locations of a parse are in place. -/

namespace Offside

open Offside.Language

/-! ## Trees in place -/

/-- The keyword stands at an offset of a source. -/
def KeywordAt (source : List Char) (offset : Nat) : Prop :=
  ∃ front, front ++ keyword <+: source ∧ offset = Text.bytes front

/-- A declaration that ends before another one starts. -/
def Module.Apart (m m' : Module) : Prop :=
  ∀ span span', m.location = some span → m'.location = some span' →
    span.endOffset ≤ span'.startOffset

/-- Declarations inside a span, one behind the other. -/
structure Module.InOrder (outer : Span) (ms : List Module) : Prop where
  within : ∀ m ∈ ms, ∃ span, m.location = some span ∧ span.Within outer
  apart : ms.Pairwise Module.Apart

mutual

/-- A declaration with its location in a source, which starts with the
    keyword and has the block inside. -/
inductive Module.Placed (source : List Char) : Module → Prop
  | mk {name : String} {body : Option Block} {span : Span} :
      span.Fits source → KeywordAt source span.startOffset →
      (∀ block, body = some block → Block.Placed source block) →
      (∀ block, body = some block → ∃ inner, block.location = some inner ∧ inner.Within span) →
      Module.Placed source (.mk name body (some span))

/-- A block with its location in a source, which has the declarations inside. -/
inductive Block.Placed (source : List Char) : Block → Prop
  | mk {comment : Option String} {ms : List Module} {span : Span} :
      span.Fits source → (∀ m ∈ ms, Module.Placed source m) → Module.InOrder span ms →
      Block.Placed source (.mk comment ms (some span))

end

/-- A program with its location in a source, which has the declarations
    inside. -/
inductive Program.Placed (source : List Char) : Program → Prop
  | mk {ms : List Module} {span : Span} :
      span.Fits source → (∀ m ∈ ms, Module.Placed source m) → Module.InOrder span ms →
      Program.Placed source ⟨ms, some span⟩

/-! ## Tokens -/

/-- A token before another one: it starts and ends no later, and it ends
    before a keyword starts. -/
structure Token.Before (t u : Token) : Prop where
  start : t.span.startOffset ≤ u.span.startOffset
  stop : t.span.endOffset ≤ u.span.endOffset
  keyword : u.kind = Kind.keyword → t.span.endOffset ≤ u.span.startOffset

theorem Token.Follows.before {t u : Token} (h : t.Follows Kind.keyword u)
    (ht : t.span.startOffset ≤ t.span.endOffset) : t.Before u := by
  rcases h with ⟨hspan, hkind⟩ | ⟨hstart, hstop⟩
  · exact ⟨Nat.le_of_eq (hspan ▸ rfl), Nat.le_of_eq (hspan ▸ rfl), fun h => absurd h hkind⟩
  · exact ⟨ht.trans hstart, hstart.trans hstop, fun _ => hstart⟩

/-- Tokens of a source, in its order. -/
structure Located (source : List Char) (tokens : List Token) : Prop where
  fits : ∀ t ∈ tokens, t.span.Fits source
  keyword : ∀ t ∈ tokens, t.kind = Kind.keyword → KeywordAt source t.span.startOffset
  order : tokens.Pairwise Token.Before

theorem Located.sublist {source : List Char} {ts us : List Token} (h : ts.Sublist us)
    (hus : Located source us) : Located source ts :=
  ⟨fun t ht => hus.fits t (h.subset ht), fun t ht => hus.keyword t (h.subset ht),
    hus.order.sublist h⟩

/-- A declaration whose location goes from a keyword among some tokens to the
    end of one of them. -/
def Module.Spans (tokens : List Token) (m : Module) : Prop :=
  ∃ span, m.location = some span ∧
    (∃ t ∈ tokens, t.kind = Kind.keyword ∧ span.startOffset = t.span.startOffset) ∧
    ∃ t ∈ tokens, span.endOffset = t.span.endOffset

namespace Module.Spans

variable {m m' : Module} {ts us : List Token}

theorem mono (h : m.Spans ts) (hsubset : ts ⊆ us) : m.Spans us := by
  obtain ⟨span, hspan, ⟨t, ht, hstart⟩, u, hu, hstop⟩ := h
  exact ⟨span, hspan, ⟨t, hsubset ht, hstart⟩, u, hsubset hu, hstop⟩

/-- Declarations of earlier tokens end before those of later ones start. -/
theorem apart (h : m.Spans ts) (h' : m'.Spans us) (horder : ∀ t ∈ ts, ∀ u ∈ us, t.Before u) :
    m.Apart m' := by
  obtain ⟨span, hspan, -, t, ht, hstop⟩ := h
  obtain ⟨span', hspan', ⟨u, hu, hkeyword, hstart⟩, -⟩ := h'
  intro a b ha hb
  obtain rfl := Option.some.inj (hspan.symm.trans ha)
  obtain rfl := Option.some.inj (hspan'.symm.trans hb)
  rw [hstop, hstart]
  exact (horder t ht u hu).keyword hkeyword

theorem within (h : m.Spans ts) {outer : Span}
    (hstart : ∀ t ∈ ts, outer.startOffset ≤ t.span.startOffset)
    (hstop : ∀ t ∈ ts, t.span.endOffset ≤ outer.endOffset) :
    ∃ span, m.location = some span ∧ span.Within outer := by
  obtain ⟨span, hspan, ⟨t, ht, -, hfirst⟩, u, hu, hlast⟩ := h
  exact ⟨span, hspan, hfirst ▸ hstart t ht, hlast ▸ hstop u hu⟩

end Module.Spans

/-- Declarations in place, each of some of the tokens, one behind the other. -/
structure Module.InPlace (source : List Char) (tokens : List Token) (ms : List Module) :
    Prop where
  placed : ∀ m ∈ ms, m.Placed source
  spans : ∀ m ∈ ms, m.Spans tokens
  apart : ms.Pairwise Module.Apart

namespace Module.InPlace

variable {source : List Char} {ts us : List Token} {ms ms' : List Module}

theorem single {m : Module} (h : m.Placed source) (hspans : m.Spans ts) :
    InPlace source ts [m] :=
  ⟨List.forall_mem_singleton.mpr h, List.forall_mem_singleton.mpr hspans,
    List.pairwise_singleton ..⟩

theorem mono (h : InPlace source ts ms) (hsubset : ts ⊆ us) : InPlace source us ms :=
  ⟨h.placed, fun m hm => (h.spans m hm).mono hsubset, h.apart⟩

/-- Declarations of earlier tokens and then those of later ones. -/
theorem append (h : InPlace source ts ms) (h' : InPlace source us ms')
    (horder : ∀ t ∈ ts, ∀ u ∈ us, t.Before u) : InPlace source (ts ++ us) (ms ++ ms') where
  placed := List.forall_mem_append.mpr ⟨h.placed, h'.placed⟩
  spans := List.forall_mem_append.mpr ⟨(h.mono (List.subset_append_left ts us)).spans,
    (h'.mono (List.subset_append_right ts us)).spans⟩
  apart := List.pairwise_append.mpr ⟨h.apart, h'.apart, fun m hm m' hm' =>
    (h.spans m hm).apart (h'.spans m' hm') horder⟩

end Module.InPlace

namespace Language

open Automaton

/-- The keyword is a token of its own match. -/
theorem lone_keyword (marker : String) : (lexiconFor marker).Lone Kind.keyword where
  structural structural h := by
    obtain rfl := Option.some.inj h
    decide
  mark rule hrule haction := by
    have hactions : ∀ action ∈ (rules marker).map (·.action),
        action ≠ .endOfInput Kind.keyword := by
      show ∀ action ∈ (rules "").map (·.action), _
      decide
    exact hactions _ (List.mem_map_of_mem hrule) haction

/-- A lexer of the language that stands in a source. -/
structure Standing (marker : String) (source : List Char) (l : Lexer) : Prop
    extends Serving marker l where
  place : l.StandsIn source

/-- Only the keyword itself is taken for one. -/
theorem Lexeme.Formed.eq_keyword {x : Lexeme} (hx : x.Formed)
    (h : x.action.kind? = some Kind.keyword) : x.text = Language.keyword := by
  cases hx with
  | keyword => rfl
  | remark | name | word | marker => exact absurd (Option.some.inj h) (by decide)
  | opening | lineBreak | skip => exact nomatch h

/-- Keywords are read where they stand. -/
theorem Standing.keywordAt {marker : String} {source : List Char} {l l' : Lexer}
    (h : Standing marker source l) {s : Selection} {tokens : List Token}
    (hselect : l.lexicon.select l.mode l.ahead = some s) (htake : l.take s = (.ok tokens, l')) :
    ∀ t ∈ tokens, t.kind = Kind.keyword → KeywordAt source t.span.startOffset := by
  intro t ht hkind
  obtain ⟨x, hx, hahead, hperform⟩ := h.exists_performed hselect htake
  have haction : x.action.kind? = some Kind.keyword := by
    rw [← hkind]
    exact kind_of_perform hperform ht (by rw [hkind]; decide)
  obtain ⟨front, hsource, hplace⟩ := h.place
  rw [hahead, hx.eq_keyword haction] at hsource
  refine ⟨front, ⟨l'.ahead, by rw [hsource, List.append_assoc]⟩, ?_⟩
  rw [Lexer.span_of_take htake t ht]
  show l.place.offset = _
  rw [hplace, Place.offset_start_after]

theorem keeps_keyword {marker : String} {source : List Char} :
    Lexer.Keeps (Standing marker source)
      (fun t => t.kind = Kind.keyword → KeywordAt source t.span.startOffset) fun _ => True where
  queue _ _ h := ⟨⟨h.lexicon, h.mode⟩, h.place⟩
  take h hselect htake :=
    ⟨⟨h.toServing.take htake, h.place.take htake⟩, h.keywordAt hselect htake⟩
  fault h _ htake := ⟨⟨h.toServing.take htake, h.place.take htake⟩, trivial⟩
  stop h hkind := by
    rw [h.lexicon] at hkind
    exact absurd (show Kind.stop = Kind.keyword from hkind) (by decide)
  stuck _ _ := trivial

/-- All tokens of a source are located in it. -/
theorem located_of_feeds {marker : String} {source : List Char} {tokens : List Token} {l : Lexer}
    (h : Feeds (Lexer.start (lexiconFor marker) source) tokens l) : Located source tokens where
  fits := Lexer.fits_of_feeds h
  keyword := (keeps_keyword.feeds ⟨.start marker source, Lexer.standsIn_start _ _⟩
    (List.forall_mem_nil _) h).2.2
  order := by
    have hfits := Lexer.fits_of_feeds h
    refine (Lexer.follows_of_feeds (lone_keyword marker) h).imp_of_mem ?_
    intro t u ht _ hfollows
    exact hfollows.before (hfits t ht).ordered

/-! ## Spans of derivations -/

variable {source : List Char}

/-- The span of a derivation goes from its first token to the end of one of
    its tokens. -/
structure Covers (source : List Char) (T : ParseTree) (span : Span) : Prop where
  coverage : coverage T = some span
  fits : span.Fits source
  start : ∃ first rest, T.yield = first :: rest ∧ span.startOffset = first.span.startOffset
  stop : ∃ t ∈ T.yield, span.endOffset = t.span.endOffset

/-- The coverage of a node comes from its first child and one of its children. -/
theorem exists_coverage_node (index : Nat) (T : ParseTree) (Ts : List ParseTree) :
    ∃ last ∈ T :: Ts,
      coverage (.node index (T :: Ts)) = Span.merge (coverage T) (coverage last) := by
  refine ⟨(T :: Ts).getLast (List.cons_ne_nil T Ts), List.getLast_mem _, ?_⟩
  rw [coverage, coverages_eq_map, List.getLast?_map,
    List.getLast?_eq_some_getLast (List.cons_ne_nil T Ts)]
  rfl

/-- A node covers a span if its first child does and every other child covers
    one or nothing. -/
theorem exists_covers_node {index : Nat} {T : ParseTree} {Ts : List ParseTree} {a : Span}
    (hT : Covers source T a) (hTs : ∀ U ∈ Ts, (∃ b, Covers source U b) ∨ coverage U = none)
    (horder : (ParseTree.yields (T :: Ts)).Pairwise Token.Before) :
    ∃ span, Covers source (.node index (T :: Ts)) span := by
  obtain ⟨last, hlast, hcoverage⟩ := exists_coverage_node index T Ts
  obtain ⟨first, rest, hyield, hstart⟩ := hT.start
  have hfirst : ∃ first rest, (ParseTree.node index (T :: Ts)).yield = first :: rest ∧
      a.startOffset = first.span.startOffset :=
    ⟨first, rest ++ ParseTree.yields Ts, by rw [ParseTree.yield, ParseTree.yields, hyield]; rfl,
      hstart⟩
  have hmem : ∀ U ∈ T :: Ts, ∀ t ∈ U.yield, t ∈ (ParseTree.node index (T :: Ts)).yield :=
    fun U hU t ht => (Grammar.yield_sublist_of_mem hU).subset ht
  have hparts : coverage last = none ∨
      ∃ b, Covers source last b ∧ a.startOffset ≤ b.startOffset := by
    rcases List.mem_cons.mp hlast with rfl | hlast
    · exact .inr ⟨a, hT, Nat.le_refl _⟩
    · rcases hTs last hlast with ⟨b, hb⟩ | hnone
      · -- the first token of the node comes before those of its later children
        obtain ⟨first', rest', hyield', hstart'⟩ := hb.start
        have hbefore : first.Before first' :=
          (List.pairwise_append.mp horder).2.2 first (by rw [hyield]; exact List.mem_cons_self ..)
            first' ((Grammar.yield_sublist_of_mem hlast).subset
              (by rw [hyield']; exact List.mem_cons_self ..))
        exact .inr ⟨b, hb, by rw [hstart, hstart']; exact hbefore.start⟩
      · exact .inl hnone
  obtain ⟨t, ht, hstop⟩ := hT.stop
  rcases hparts with hnone | ⟨b, hb, hle⟩
  · rw [hT.coverage, hnone, Span.merge_none_right] at hcoverage
    exact ⟨a, hcoverage, hT.fits, hfirst, t, hmem T (List.mem_cons_self ..) t ht, hstop⟩
  · rw [hT.coverage, hb.coverage, Span.merge_some] at hcoverage
    refine ⟨a.join b, hcoverage, hT.fits.join hb.fits, ?_, ?_⟩
    · rw [Span.startOffset_join hle]
      exact hfirst
    · obtain ⟨u, hu, hstop'⟩ := hb.stop
      rcases Span.endOffset_join a b with heq | heq
      · exact ⟨t, hmem T (List.mem_cons_self ..) t ht, heq.trans hstop⟩
      · exact ⟨u, hmem last hlast u hu, heq.trans hstop'⟩

theorem covers_leaf {t : Token} (h : t.span.Fits source) : Covers source (.leaf t) t.span :=
  ⟨rfl, h, ⟨t, [], rfl, rfl⟩, t, List.mem_singleton_self t, rfl⟩

/-- Only a block that may be absent is derived from nothing, and no rule
    starts with one. -/
theorem empty_in_rules : ∀ r ∈ grammar.rules,
    (r.output = [] → r.input = some Kind.optionalBlock) ∧
      ∀ X ∈ r.output.head?, X ≠ phrase Kind.optionalBlock := by
  decide

/-- A derivation covers a span or, if it is that of an absent block, nothing. -/
theorem hereditary_covers : grammar.Hereditary (Located source) fun X T =>
    (∃ span, Covers source T span) ∨ (X = phrase Kind.optionalBlock ∧ coverage T = none) where
  sublist := Located.sublist
  start := start_not_in_rules
  leaf t h := .inl ⟨_, covers_leaf (h.fits t (List.mem_singleton_self t))⟩
  node := by
    intro index r trees hr _ _ hlocated hchildren
    obtain ⟨hempty, hhead⟩ := empty_in_rules r (List.mem_of_getElem? hr)
    generalize houtput : r.output = output at hchildren
    cases hchildren with
    | nil => exact .inr ⟨congrArg _ (hempty houtput), rfl⟩
    | @cons X T Xs Ts hT hTs =>
        rw [houtput] at hhead
        obtain ⟨a, ha⟩ := hT.resolve_right fun h => hhead X rfl h.1
        refine .inl (exists_covers_node ha ?_ hlocated.order)
        exact Grammar.forall_of_forall₂ (fun _ _ h => h.imp_right And.right) hTs

/-- A derivation from located tokens covers a span. -/
theorem exists_covers {A : Symbol} {T : ParseTree} (h : grammar.Derives (phrase A) T)
    (hA : A ≠ Kind.optionalBlock) (hlocated : Located source T.yield) :
    ∃ span, Covers source T span := by
  have hX : phrase A ≠ .nonterminal none := nofun
  refine (hereditary_covers.derives h hX hlocated).resolve_right ?_
  rintro ⟨⟨⟩, -⟩
  exact hA rfl

theorem Covers.place_eq {T : ParseTree} {span : Span} (h : Covers source T span) :
    place true T = some span := by
  rw [place, if_pos rfl, h.coverage]

/-- A span starts before all tokens of its derivation. -/
theorem Covers.start_le {T : ParseTree} {span : Span} (h : Covers source T span)
    (horder : T.yield.Pairwise Token.Before) :
    ∀ t ∈ T.yield, span.startOffset ≤ t.span.startOffset := by
  obtain ⟨first, rest, hyield, hstart⟩ := h.start
  rw [hyield] at horder ⊢
  rw [hstart]
  exact List.forall_mem_cons.mpr ⟨Nat.le_refl _, fun t ht =>
    ((List.pairwise_cons.mp horder).1 t ht).start⟩

/-- A node whose last child is a token ends behind all of its tokens. -/
theorem Covers.le_stop {index : Nat} {trees : List ParseTree} {last : Token} {span : Span}
    (h : Covers source (.node index (trees ++ [.leaf last])) span)
    (horder : (ParseTree.node index (trees ++ [.leaf last])).yield.Pairwise Token.Before) :
    ∀ t ∈ (ParseTree.node index (trees ++ [.leaf last])).yield,
      t.span.endOffset ≤ span.endOffset := by
  have hcoverage := h.coverage
  rw [Language.coverage, coverages_eq_map, List.map_append, List.map_singleton,
    List.getLast?_concat] at hcoverage
  have hlast : last.span.endOffset ≤ span.endOffset := by
    generalize Option.join (List.head? _) = front at hcoverage
    have hmerge : Span.merge front (some last.span) = some span := hcoverage
    cases front with
    | none =>
        cases hmerge
        exact Nat.le_refl _
    | some a =>
        cases hmerge
        exact (Span.within_join_right a last.span).stop
  rw [ParseTree.yield, ParseTree.yields_append, ParseTree.yields_singleton] at horder ⊢
  intro t ht
  rcases List.mem_append.mp ht with hfront | hend
  · have hbefore := (List.pairwise_append.mp horder).2.2 t hfront last (List.mem_singleton_self _)
    exact hbefore.stop.trans hlast
  · obtain rfl := List.mem_singleton.mp hend
    exact hlast

/-- Declarations of a child of a node whose last child is a token are in order
    inside the node. -/
theorem Covers.inOrder (trees : List ParseTree) {index : Nat} {last : Token} {span : Span}
    (h : Covers source (.node index (trees ++ [.leaf last])) span)
    (horder : (ParseTree.node index (trees ++ [.leaf last])).yield.Pairwise Token.Before)
    {U : ParseTree} (hU : U ∈ trees) {ms : List Module}
    (hms : Module.InPlace source U.yield ms) : Module.InOrder span ms := by
  refine ⟨fun m hm => ?_, hms.apart⟩
  have hsubset : U.yield ⊆ (ParseTree.node index (trees ++ [.leaf last])).yield :=
    (Grammar.yield_sublist_of_mem (List.mem_append_left _ hU)).subset
  exact (hms.spans m hm).within (fun t ht => h.start_le horder t (hsubset ht))
    fun t ht => h.le_stop horder t (hsubset ht)

end Language

/-! ## Values in place -/

/-- A value of a derivation with its locations in place. -/
def Value.PlacedBy (source : List Char) (T : ParseTree) : Value → Prop
  | .token _ => True
  | .program p => p.Placed source
  | .statements ms => Module.InPlace source T.yield ms
  | .statement m => Module.InPlace source T.yield [m]
  | .optionalBlock body => ∀ b, body = some b → b.Placed source ∧ b.location = coverage T
  | .block b => b.Placed source ∧ b.location = coverage T
  | .module m => Module.InPlace source T.yield [m]

namespace Language

variable {source : List Char}

theorem placed_statements {T : ParseTree} (h : grammar.Derives (phrase Kind.statements) T)
    (hT : (readValue true T).PlacedBy source T) :
    Module.InPlace source T.yield (readStatements true T) := by
  rw [readValue_statements h] at hT
  exact hT

/-- A block that covers a span and has its declarations in order inside. -/
theorem placed_block {T : ParseTree} {span : Span} (h : Covers source T span)
    (comment : Option String) {ms : List Module} (hms : ∀ m ∈ ms, m.Placed source)
    (horder : Module.InOrder span ms) :
    (Value.block (.mk comment ms (place true T))).PlacedBy source T := by
  rw [h.place_eq]
  exact ⟨.mk h.fits hms horder, h.coverage.symm⟩

/-- A declaration has its block inside, because its location reaches up to
    the end of the block. -/
theorem placed_declaration {k : Token} {N B : ParseTree} {span : Span}
    (h : Covers source (.node 11 [.leaf k, N, B]) span) (hk : k.kind = Kind.keyword)
    (hkeyword : KeywordAt source k.span.startOffset)
    (hB : ∀ b, readBody true B = some b → b.Placed source ∧ b.location = coverage B) :
    (Value.module (readModule true (.node 11 [.leaf k, N, B]))).PlacedBy source
      (.node 11 [.leaf k, N, B]) := by
  obtain ⟨first, rest, hyield, hstart⟩ := h.start
  obtain rfl : k = first := (List.cons.inj hyield).1
  rw [readModule, h.place_eq]
  refine .single (.mk h.fits (hstart ▸ hkeyword) (fun b hb => (hB b hb).1) fun b hb => ?_)
    ⟨span, rfl, ⟨k, hyield ▸ List.mem_cons_self .., hk, hstart⟩, h.stop⟩
  obtain ⟨hplaced, hlocation⟩ := hB b hb
  cases hplaced with
  | @mk comment ms inner =>
      refine ⟨inner, rfl, ?_⟩
      have hcoverage : Span.merge (some k.span) (coverage B) = some span := h.coverage
      rw [← hlocation] at hcoverage
      obtain rfl := Option.some.inj hcoverage
      exact Span.within_join_right k.span inner

/-- A rule keeps locations in place. -/
theorem placed_node {index : Nat} {r : GrammarRule} {trees : List ParseTree}
    (hr : grammar.rules[index]? = some r) (hinput : r.input ≠ none)
    (htrees : grammar.DerivesAll r.output trees)
    (hlocated : Located source (ParseTree.yields trees))
    (hplaced : ∀ T ∈ trees, (readValue true T).PlacedBy source T) :
    (readValue true (.node index trees)).PlacedBy source (.node index trees) := by
  have hcovers : r.input ≠ some Kind.optionalBlock →
      ∃ span, Covers source (.node index trees) span := by
    obtain ⟨A, hA⟩ := Option.ne_none_iff_exists'.mp hinput
    intro hblock
    exact exists_covers (.node hr hA htrees) (fun h => hblock (h ▸ hA)) hlocated
  have hsubset : ∀ T ∈ trees, T.yield ⊆ (ParseTree.node index trees).yield :=
    fun T hT => (Grammar.yield_sublist_of_mem hT).subset
  match index, hr with
  | 0, hr =>
      cases hr
      exact absurd rfl hinput
  | 1, hr =>
      cases hr
      rcases htrees with _ | ⟨hS, _ | ⟨hM, _ | _⟩⟩
      obtain ⟨last, rfl, -⟩ := hM.exists_leaf
      obtain ⟨span, hspan⟩ := hcovers (by decide)
      have hms := placed_statements hS (hplaced _ (List.mem_cons_self ..))
      show Program.Placed source ⟨_, place true _⟩
      rw [hspan.place_eq]
      exact .mk hspan.fits hms.placed
        (hspan.inOrder [_] hlocated.order (List.mem_singleton_self _) hms)
  | 2, hr =>
      cases hr
      rcases htrees with _ | ⟨hT, _ | _⟩
      have hm := hplaced _ (List.mem_cons_self ..)
      rw [readValue_statement hT] at hm
      exact hm.mono (hsubset _ (List.mem_cons_self ..))
  | 3, hr =>
      cases hr
      rcases htrees with _ | ⟨hS, _ | ⟨-, _ | ⟨hT, _ | _⟩⟩⟩
      obtain ⟨hstatements, -, hm, -⟩ : _ ∧ _ ∧ _ ∧ _ := by
        simpa only [List.forall_mem_cons] using hplaced
      obtain ⟨hfront, -, hback, -⟩ : _ ∧ _ ∧ _ ∧ _ := by
        simpa only [List.forall_mem_cons] using hsubset
      have hms := placed_statements hS hstatements
      rw [readValue_statement hT] at hm
      refine (hms.append hm ?_).mono (List.append_subset.mpr ⟨hfront, hback⟩)
      -- what the front derives comes before all that is behind it
      intro t ht u hu
      refine (List.pairwise_append.mp hlocated.order).2.2 t ht u ?_
      exact (Grammar.yield_sublist_of_mem
        (List.mem_cons_of_mem _ (List.mem_cons_self ..))).subset hu
  | 4, hr =>
      cases hr
      rcases htrees with _ | ⟨hS, _ | ⟨-, _ | _⟩⟩
      have hms := placed_statements hS (hplaced _ (List.mem_cons_self ..))
      exact hms.mono (hsubset _ (List.mem_cons_self ..))
  | 5, hr =>
      cases hr
      rcases htrees with _ | ⟨hM, _ | _⟩
      have hm := hplaced _ (List.mem_cons_self ..)
      rw [readValue_module hM] at hm
      exact hm.mono (hsubset _ (List.mem_cons_self ..))
  | 6, hr =>
      cases hr
      rcases htrees with _ | ⟨hB, _ | _⟩
      have hb := hplaced _ (List.mem_cons_self ..)
      rw [readValue_block hB] at hb
      rintro b ⟨⟩
      exact ⟨hb.1, hb.2.trans (Span.merge_self _).symm⟩
  | 7, hr =>
      cases hr
      obtain ⟨⟩ := htrees
      exact nofun
  | 8, hr =>
      cases hr
      rcases htrees with _ | ⟨-, _ | ⟨-, _ | ⟨-, _ | _⟩⟩⟩
      obtain ⟨span, hspan⟩ := hcovers (by decide)
      exact placed_block hspan _ (List.forall_mem_nil _) ⟨List.forall_mem_nil _, .nil⟩
  | 9, hr =>
      cases hr
      rcases htrees with _ | ⟨-, _ | ⟨-, _ | ⟨-, _ | ⟨hS, _ | ⟨hD, _ | _⟩⟩⟩⟩⟩
      obtain ⟨last, rfl, -⟩ := hD.exists_leaf
      obtain ⟨span, hspan⟩ := hcovers (by decide)
      obtain ⟨-, -, -, hstatements, -⟩ : _ ∧ _ ∧ _ ∧ _ ∧ _ := by
        simpa only [List.forall_mem_cons] using hplaced
      have hms := placed_statements hS hstatements
      exact placed_block hspan _ hms.placed
        (hspan.inOrder [_, _, _, _] hlocated.order (List.mem_of_getLast? rfl) hms)
  | 10, hr =>
      cases hr
      rcases htrees with _ | ⟨-, _ | ⟨hS, _ | ⟨hD, _ | _⟩⟩⟩
      obtain ⟨last, rfl, -⟩ := hD.exists_leaf
      obtain ⟨span, hspan⟩ := hcovers (by decide)
      obtain ⟨-, hstatements, -⟩ : _ ∧ _ ∧ _ := by
        simpa only [List.forall_mem_cons] using hplaced
      have hms := placed_statements hS hstatements
      exact placed_block hspan _ hms.placed
        (hspan.inOrder [_, _] hlocated.order (List.mem_of_getLast? rfl) hms)
  | 11, hr =>
      cases hr
      rcases htrees with _ | ⟨hK, _ | ⟨-, _ | ⟨hB, _ | _⟩⟩⟩
      obtain ⟨k, rfl, hk⟩ := hK.exists_leaf
      obtain ⟨span, hspan⟩ := hcovers (by decide)
      have hb := hplaced _ (List.mem_cons_of_mem _ (List.mem_cons_of_mem _ (List.mem_cons_self ..)))
      rw [readValue_body hB] at hb
      exact placed_declaration hspan hk (hlocated.keyword k (List.mem_cons_self ..) hk) hb
  | n + 12, hr => exact nomatch hr

theorem hereditary_placed : grammar.Hereditary (Located source) fun _ T =>
    (readValue true T).PlacedBy source T where
  sublist := Located.sublist
  start := start_not_in_rules
  leaf _ _ := trivial
  node hr hinput htrees hlocated hchildren := placed_node hr hinput htrees hlocated
    (Grammar.forall_of_forall₂ (Q := fun T => (readValue true T).PlacedBy source T)
      (fun _ _ h => h) hchildren)

/-! ## Parsing -/

/-- With every end marker, the nodes of a parsed tree have locations in the
    source: inside the nodes around them, one declaration behind the other,
    each from its keyword on. -/
theorem placed_of_parse (marker : String) :
    ∃ l, withMarker marker = .ok l ∧ ∀ (s : String) (p : Program),
      l.parse s true = .ok p → p.Placed s.toList := by
  refine ⟨_, withMarker_eq marker, fun s p hparse => ?_⟩
  obtain ⟨T, tokens, ⟨hT, last, -, rfl⟩, ⟨l', hfeeds, -⟩, hp⟩ :=
    parses_of_returns (parse_eq_ok_iff.mp hparse)
  have hlocated := (located_of_feeds hfeeds).sublist (List.sublist_append_left T.yield [last])
  have hplaced := hereditary_placed.derives hT (by decide) hlocated
  rw [readValue_program hT, ← hp] at hplaced
  exact hplaced

/-- A declaration with a block, and one behind it. -/
def siblingSource : String := "module a.b:\n    ;x\n    module c.d\nmodule e.f\n@@EOF@@"

/-- The tree of that source: the block ends where the second declaration
    starts. -/
def siblings : Program where
  statements := [
    .mk "a.b"
      (some (.mk (some "x") [.mk "c.d" none (some ⟨23, 29, 3, 3, 4, 10⟩)]
        (some ⟨10, 34, 1, 4, 10, 0⟩)))
      (some ⟨0, 34, 1, 4, 0, 0⟩),
    .mk "e.f" none (some ⟨34, 40, 4, 4, 0, 6⟩)]
  location := some ⟨0, 52, 1, 5, 0, 7⟩

theorem parse_siblingSource : standard.parse siblingSource true = .ok siblings := by
  decide +kernel

theorem placed_of_parse_siblingSource :
    standard.parse siblingSource true = .ok siblings ∧ siblings.Placed siblingSource.toList := by
  obtain ⟨l, hl, hplaced⟩ := placed_of_parse defaultMarker
  obtain rfl := Except.ok.inj (hl.symm.trans withMarker_defaultMarker)
  exact ⟨parse_siblingSource, hplaced _ _ parse_siblingSource⟩

end Language

end Offside
