import Offside.Proofs.Language.MarkerChoice
import Offside.Proofs.Language.Tiling

/-! # Endings — nothing but white space stands behind the marker

    The end marker can be any text, and it can stand in a source more than
    once.  The lexer takes every such place for the end of the input that it
    meets while it looks for a token, and it closes all blocks there; the
    grammar wants one of them, and no more than the end symbol behind it.

    * `kind_ne_marker` keeps markers out of the statements of a program, since
      rules do not lead to one from there;
    * `Closes` is a lexer behind a marker, with white space in between;
    * `nothing_behind_marker` joins the two for every source that parses. -/

namespace Offside

namespace Language

open Automaton

/-- The marker and all that it stands in. -/
def aroundMarker : List Letter :=
  [token Kind.marker, phrase Kind.program, .nonterminal none]

/-- Only the start production and that of a program lead to the marker. -/
theorem aroundMarker_in_rules : ∀ r ∈ grammar.rules, .nonterminal r.input ∉ aroundMarker →
    ∀ Y ∈ r.output, Y ∉ aroundMarker := by decide

/-- No marker stands in the statements of a program. -/
theorem kind_ne_marker {S : ParseTree} (h : grammar.Derives (phrase Kind.statements) S) :
    ∀ t ∈ S.yield, t.kind ≠ Kind.marker := by
  intro t ht hkind
  have hout : token t.kind ∉ aroundMarker :=
    h.within (P := (· ∉ aroundMarker)) aroundMarker_in_rules (by decide) t ht
  rw [hkind] at hout
  exact hout (by decide)

/-! ## The lexer behind a marker -/

section

variable {marker : String} {r : List Char} {x : Lexeme} {i j : Indentation} {span : Span}
  {tokens : List Token}

/-- What comes to a marker is a newline and the text of the marker. -/
theorem eq_of_scanner_marker (h : scanner marker.toList r = some x)
    (hkind : x.action.kind? = some Kind.marker) :
    x = ⟨.endOfInput Kind.marker, '\n' :: marker.toList, 0⟩ := by
  by_cases hfront : '\n' :: marker.toList <+: r
  · obtain ⟨rest, rfl⟩ := hfront
    exact Option.some.inj (h.symm.trans scanner_marker)
  · rw [scanner_eq_plain hfront] at h
    exact absurd hkind (kind_of_plainScanner h)

/-- The end of the input leaves no indentation. -/
theorem current_of_endOfInput {kind : Symbol} {text : List Char} {width : Nat}
    (h : Lexer.perform (lexiconFor marker) i (.endOfInput kind) text span width =
      .ok ⟨tokens, j⟩) : j.current = 0 := by
  have houtcome := Lexer.perform_outcome h
  generalize hscanned : Lexer.Scanned.mk tokens j = scanned at houtcome
  cases houtcome with
  | single _ _ hstructural => cases hstructural
  | closing =>
      cases hscanned
      rfl

/-- Outside of all blocks only blanks come to nothing, since only a line inside
    a block may stand further in. -/
theorem Lays.blank_of_nil {text rest : List Char} (h : Lays i text rest span [] j)
    (hcurrent : i.current = 0) : (∀ c ∈ text, isBlank c = true) ∧ j.current = 0 := by
  generalize htokens : [] = tokens at h
  cases h with
  | blank hblank => exact ⟨hblank, hcurrent⟩
  | deeper _ _ hopen => exact absurd hopen (by omega)
  | keyword => cases htokens
  | line | other =>
      exact absurd htokens.symm (List.append_ne_nil_of_right_ne_nil _ (List.cons_ne_nil _ _))

end

/-- A text ends in a newline, the marker and blanks, and a token stands where
    the newline is. -/
def EndsIn (marker : String) (text : List Char) (t : Token) : Prop :=
  ∃ b w, text = b ++ '\n' :: marker.toList ++ w ∧ (∀ c ∈ w, isBlank c = true) ∧
    t.span.startOffset = Text.bytes b

/-- A lexer of the language whose last token, if it is a marker, has closed all
    blocks and has only blanks behind it. -/
structure Closes (marker : String) (source : List Char) (all : List Token) (l : Lexer) :
    Prop where
  serving : Serving marker l
  behind : ∃ front, source = front ++ l.ahead ∧ l.place = Place.start.after front ∧
    ∀ before t, all = before ++ [t] → t.kind = Kind.marker →
      EndsIn marker front t ∧ l.indentation.current = 0

namespace Closes

variable {marker : String} {source : List Char} {all tokens : List Token} {l l' : Lexer}

theorem start (marker : String) (source : List Char) :
    Closes marker source [] (Lexer.start (lexiconFor marker) source) where
  serving := Serving.start marker source
  behind := by
    refine ⟨[], rfl, rfl, fun before t hall => ?_⟩
    exact absurd hall.symm (List.append_ne_nil_of_right_ne_nil _ (List.cons_ne_nil _ _))

/-- A match keeps this: one that comes to nothing is blank behind a marker, and
    one that comes to a marker is the marker itself. -/
theorem take (h : Closes marker source all l) {s : Selection}
    (hselect : l.lexicon.select l.mode l.ahead = some s) (htake : l.take s = (.ok tokens, l')) :
    Closes marker source (all ++ tokens) l' := by
  obtain ⟨hserving, front, hsource, hplace, hbehind⟩ := h
  obtain ⟨x, hscan, hcut, hplace', hperform⟩ :=
    hserving.exists_cut hselect htake hsource hplace
  refine ⟨hserving.take htake, front ++ x.text, hcut, hplace', fun before t hall hkind => ?_⟩
  rcases List.eq_nil_or_concat' tokens with rfl | ⟨others, last, rfl⟩
  · rw [List.append_nil] at hall
    obtain ⟨⟨b, w, hfront, hblank, hstart⟩, hcurrent⟩ := hbehind before t hall hkind
    obtain ⟨hmore, hcurrent'⟩ := (lays_of_scanner hscan hperform).blank_of_nil hcurrent
    refine ⟨⟨b, w ++ x.text, ?_, List.forall_mem_append.mpr ⟨hblank, hmore⟩, hstart⟩, hcurrent'⟩
    rw [hfront, List.append_assoc]
  · rw [← List.append_assoc] at hall
    obtain ⟨-, rfl⟩ := List.append_singleton_inj.mp hall
    have hmem : last ∈ others ++ [last] := List.mem_append_right _ (List.mem_singleton_self _)
    have haction : x.action.kind? = some Kind.marker := by
      rw [← hkind]
      exact kind_of_perform hperform hmem (by rw [hkind]; decide)
    have hspan := ((scanner_formed hscan).tile hperform).span_eq last hmem
    obtain rfl := eq_of_scanner_marker hscan haction
    refine ⟨⟨front, [], (List.append_nil _).symm, List.forall_mem_nil _, ?_⟩,
      current_of_endOfInput hperform⟩
    rw [hspan]
    show l.place.offset = _
    rw [hplace, Place.offset_start_after]

end Closes

/-! ## Sources that parse -/

/-- The tokens of a source that parses are those of statements, a marker and
    the end symbol. -/
theorem exists_marker_of_parse {marker : String} {s : String} {capture : Bool} {p : Program}
    (h : (⟨lexiconFor marker, marker⟩ : Language).parse s capture = .ok p) :
    ∃ words t last, Supplies (Lexer.start (lexiconFor marker) s.toList) (words ++ [t] ++ [last]) ∧
      (∀ word ∈ words, word.kind ≠ Kind.marker) ∧ t.kind = Kind.marker ∧
      last.kind = Kind.stop := by
  obtain ⟨T, tokens, hparses, hsupplies, -⟩ := parses_of_returns (parse_eq_ok_iff.mp h)
  obtain ⟨S, t, rfl, hS, ht⟩ := exists_statements hparses.derives
  obtain ⟨last, hlast, rfl⟩ := hparses.ends
  rw [ParseTree.yield, ParseTree.yields, ParseTree.yields_singleton, ParseTree.yield]
    at hsupplies
  exact ⟨S.yield, t, last, hsupplies, kind_ne_marker hS, ht, hlast⟩

/-- **Nothing but white space stands behind the marker.**  Whatever the end
    marker is, a source that parses is a text, a newline, the marker and white
    space that stays on its line.  Exactly one token of the source is a
    marker, and it starts where the text ends. -/
theorem nothing_behind_marker (marker : String) : ∃ l, withMarker marker = .ok l ∧
    ∀ s capture p, l.parse s capture = .ok p → ∃ b w tokens t,
      s = b ++ "\n" ++ marker ++ w ∧
      (∀ c ∈ w.toList, Unicode.isSpace c = true ∧ c ≠ '\n') ∧
      l.tokenize s = .ok tokens ∧ tokens.filter (·.kind == Kind.marker) = [t] ∧
      t.span.startOffset = Text.bytes b.toList := by
  refine ⟨_, withMarker_eq marker, fun s capture p hparse => ?_⟩
  obtain ⟨words, t, last, ⟨l', hfeeds, hmore⟩, hwords, ht, hlast⟩ :=
    exists_marker_of_parse hparse
  have hstart : Closes marker s.toList
      ([] ++ (Lexer.start (lexiconFor marker) s.toList).pending) _ := Closes.start marker s.toList
  obtain ⟨matched, l, htokens, hahead, hcloses⟩ := Lexer.exists_end_of_feeds
    (fun _ h => ⟨⟨h.serving.lexicon, h.serving.mode⟩, h.behind⟩)
    (fun h hselect htake => h.take hselect htake) hstart rfl hfeeds hmore
  obtain ⟨rfl, -⟩ := List.append_singleton_inj.mp htokens
  obtain ⟨-, front, hsource, -, hbehind⟩ := hcloses
  obtain ⟨⟨b, w, hfront, hblank, hoffset⟩, -⟩ := hbehind words t rfl ht
  rw [hahead, List.append_nil, hfront] at hsource
  refine ⟨String.ofList b, String.ofList w, words ++ [t] ++ [last], t, ?_, ?_, ?_, ?_, ?_⟩
  · rw [← String.toList_inj, String.toList_append, toList_between, String.toList_ofList,
      String.toList_ofList]
    exact hsource
  · rw [String.toList_ofList]
    intro c hc
    obtain ⟨hspace, hnewline⟩ := Bool.and_eq_true_iff.mp (hblank c hc)
    exact ⟨hspace, bne_iff_ne.mp hnewline⟩
  · have hrest := Lexer.rest_of_feeds hfeeds hmore
    exact Lexicon.tokenize_eq_ok_iff.mpr ⟨by rw [hrest], by rw [hrest]⟩
  · have hnone : words.filter (·.kind == Kind.marker) = [] :=
      List.filter_eq_nil_iff.mpr fun word hword => by simpa using hwords word hword
    rw [List.filter_append, List.filter_append, hnone]
    simp [ht, hlast]
  · rw [String.toList_ofList]
    exact hoffset

/-- A source in which the marker stands twice behind a newline, the first time
    behind a colon, and that has white space behind it. -/
def trailingSource : String := "module a.b:\n    module c.d\n    module c.d \u00a0"

theorem parse_trailingSource :
    (⟨lexiconFor "    module c.d", "    module c.d"⟩ : Language).parse trailingSource false =
      .ok ⟨[.mk "a.b" (some (.mk none [.mk "c.d" none none] none)) none], none⟩ := by
  decide +kernel

theorem nothing_behind_marker_trailingSource : ∃ l, withMarker "    module c.d" = .ok l ∧
    ∃ b w tokens t, trailingSource = b ++ "\n" ++ "    module c.d" ++ w ∧
      (∀ c ∈ w.toList, Unicode.isSpace c = true ∧ c ≠ '\n') ∧
      l.tokenize trailingSource = .ok tokens ∧
      tokens.filter (·.kind == Kind.marker) = [t] ∧ t.span.startOffset = Text.bytes b.toList := by
  obtain ⟨l, hl, hends⟩ := nothing_behind_marker "    module c.d"
  obtain rfl := Except.ok.inj (hl.symm.trans (withMarker_eq _))
  exact ⟨_, hl, hends trailingSource false _ parse_trailingSource⟩

end Language

end Offside
